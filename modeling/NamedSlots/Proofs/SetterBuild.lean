import NamedSlots.Proofs.SequenceGetter
import NamedSlots.Proofs.StoredAccess
import NamedSlots.Proofs.SymbolReplacement

/-!
# When a setter is built

A request comes down to its leaves, symbols and expressions from left to right. A setter is built
exactly if every leaf is a state or a parameter and nothing else, and of a role that the setter may
write. Otherwise the build fails as the first leaf that is refused, with one reason for each way in
which a leaf can fall short.
-/

namespace NamedSlots

/-! ### The leaves of a request -/

namespace Request

mutual

/-- The symbols and the expressions of a request, from left to right. -/
def leaves : Request → List Request
  | symbol name s => [symbol name s]
  | array _ elements => allLeaves elements
  | sequence items _ => allLeaves items
  | expression e => [expression e]

def allLeaves : List Request → List Request
  | [] => []
  | q :: qs => leaves q ++ allLeaves qs

end

/-- A symbol under its own name, or an expression. -/
def IsLeaf : Request → Prop
  | symbol name s => s.key? = some name
  | expression _ => True
  | _ => False

variable {q x : Request} {qs : List Request} {l : Layout}

lemma isLeaf_of_ofScalar {v : Value} (hform : Classifier.standard.form v = .scalar)
    (h : ofScalar .standard v = .ok q) : ∀ x ∈ q.leaves, x.IsLeaf := by
  unfold ofScalar at h
  split at h
  · rename_i name hname
    cases h
    have hkey : v.key? = some name := by rw [Value.key?, if_pos hform, hname]
    exact List.forall_mem_singleton.2 hkey
  · obtain ⟨e, _, h⟩ := Except.eq_ok_of_bind h
    cases h
    exact List.forall_mem_singleton.2 trivial

lemma isLeaf_of_ofLeaf {v : Value} (h : ofLeaf .standard v = .ok q) :
    ∀ x ∈ q.leaves, x.IsLeaf := by
  unfold ofLeaf at h
  split at h
  · rename_i hform
    exact isLeaf_of_ofScalar hform h
  · cases h

lemma isLeaf_of_mapM {vs : List Value} (h : vs.mapM (ofLeaf .standard) = .ok qs) :
    ∀ x ∈ allLeaves qs, x.IsLeaf := by
  induction mapM_eq_ok_iff.1 h with
  | nil => nofun
  | cons hq hqs ih =>
    exact List.forall_mem_append.2 ⟨isLeaf_of_ofLeaf hq, ih (mapM_eq_ok_iff.2 hqs)⟩

mutual

/-- The leaves of a normal form are symbols under their own names, and expressions. -/
lemma isLeaf_of_ofValue (v : Value) (q : Request) (h : ofValue .standard v = .ok q) :
    ∀ x ∈ q.leaves, x.IsLeaf := by
  rw [ofValue.eq_def] at h
  cases hform : Classifier.standard.form v with
  | array =>
    rw [hform] at h
    obtain ⟨leaves, _, h⟩ := Except.eq_ok_of_bind h
    obtain ⟨shape, _, h⟩ := Except.eq_ok_of_bind h
    obtain ⟨qs, hqs, h⟩ := Except.eq_ok_of_bind h
    cases h
    exact isLeaf_of_mapM hqs
  | scalar =>
    rw [hform] at h
    exact isLeaf_of_ofScalar hform h
  | notSymbolic =>
    rw [hform] at h
    match v with
    | .list items =>
      obtain ⟨qs, hqs, h⟩ := Except.eq_ok_of_bind h
      cases h
      exact isLeaf_of_ofValues items qs hqs
    | .tuple items =>
      obtain ⟨qs, hqs, h⟩ := Except.eq_ok_of_bind h
      cases h
      exact isLeaf_of_ofValues items qs hqs
    | .objects shape items =>
      obtain ⟨qs, hqs, h⟩ := Except.eq_ok_of_bind h
      cases h
      exact isLeaf_of_ofValues items qs hqs
    | .texts width shape items =>
      obtain ⟨qs, hqs, h⟩ := Except.eq_ok_of_bind h
      cases h
      rw [← Function.comp_def, ← List.mapM_map] at hqs
      exact isLeaf_of_mapM hqs
    | .numbers t shape [] =>
      cases h
      nofun
    | .numbers t shape (n :: ns) => cases h
    | .none | .number _ | .string _ _ | .dict _ | .element _ _ => cases h
    | .expr _ | .term _ | .foreign _ _ _ | .handle _ => cases h

lemma isLeaf_of_ofValues (vs : List Value) (qs : List Request)
    (h : ofValues .standard vs = .ok qs) : ∀ x ∈ allLeaves qs, x.IsLeaf := by
  match vs with
  | [] =>
    cases h
    nofun
  | v :: vs =>
    rw [ofValues] at h
    obtain ⟨q, hq, h⟩ := Except.eq_ok_of_bind h
    obtain ⟨qs, hqs, h⟩ := Except.eq_ok_of_bind h
    cases h
    exact List.forall_mem_append.2 ⟨isLeaf_of_ofValue v q hq, isLeaf_of_ofValues vs qs hqs⟩

end

mutual

lemma stored_of_leaves (q : Request) (h : ∀ x ∈ q.leaves, x.Stored l) : q.Stored l := by
  match q with
  | symbol name s => exact List.forall_mem_singleton.1 h
  | expression e => exact List.forall_mem_singleton.1 h
  | array shape elements => exact allStored_of_leaves elements h
  | sequence items isTuple => exact allStored_of_leaves items h

lemma allStored_of_leaves (qs : List Request) (h : ∀ x ∈ allLeaves qs, x.Stored l) :
    AllStored l qs := by
  match qs with
  | [] => trivial
  | q :: qs =>
    obtain ⟨hq, hqs⟩ := List.forall_mem_append.1 h
    exact ⟨stored_of_leaves q hq, allStored_of_leaves qs hqs⟩

end

/-! ### Leaves that can be set, and those that are refused -/

/-- A state or a parameter, and nothing else, of a role that may be accessed. -/
inductive IsSettable (l : Layout) (p : Permission) : Request → Prop
  | symbol {name : String} {s : Value} {role : Role} : l.rolesOf s = [role] →
    Interface.isStored role = true → role ∈ p.roles → IsSettable l p (.symbol name s)

/-- Why a leaf cannot be set. -/
inductive IsRefused (l : Layout) (p : Permission) : Request → Failure → Prop
  | expression (e : Expr) :
    IsRefused l p (.expression e) (.notSettable (.expr e) "expressions have no storage slot")
  /-- No table has the name. -/
  | unknown {name : String} {s : Value} : l.rolesOf s = [] →
    IsRefused l p (.symbol name s) (.unknownSymbol s "")
  /-- Several tables have the name. -/
  | ambiguous {name : String} {s : Value} : 2 ≤ (l.rolesOf s).length →
    IsRefused l p (.symbol name s) (.ambiguousSymbol s (l.rolesOf s))
  /-- The independent variable and observed symbols have no place in storage. -/
  | unstored {name : String} {s : Value} {role : Role} : l.rolesOf s = [role] →
    role = .independent ∨ role = .observed →
    IsRefused l p (.symbol name s) (.notSettable s (role.name ++ " symbols have no storage slot"))
  /-- A symbol of storage that is not to be written. -/
  | forbidden {name : String} {s : Value} {role : Role} : l.rolesOf s = [role] →
    Interface.isStored role = true → role ∉ p.roles →
    IsRefused l p (.symbol name s) (.unknownSymbol s p.refusal)

variable {p : Permission} {f f' : Failure}

lemma IsSettable.stored (h : x.IsSettable l p) (hx : x.IsLeaf) : x.Stored l := by
  cases h with
  | @symbol name s role hrole hstored _ =>
    refine ⟨Value.form_of_key? hx, ?_⟩
    cases role with
    | state => exact .inl hrole
    | parameter => exact .inr hrole
    | independent => cases hstored
    | observed => cases hstored
    | unknown => cases hstored

/-- A leaf that cannot be set is refused for some reason. -/
lemma settable_or_refused (hx : x.IsLeaf) : x.IsSettable l p ∨ ∃ f, x.IsRefused l p f := by
  cases x with
  | array shape elements => exact hx.elim
  | sequence items isTuple => exact hx.elim
  | expression e => exact .inr ⟨_, .expression e⟩
  | symbol name s =>
    rcases hroles : l.rolesOf s with _ | ⟨role, _ | ⟨role', roles⟩⟩
    · exact .inr ⟨_, .unknown hroles⟩
    · have hslot (hstored : Interface.isStored role = true) :
          IsSettable l p (.symbol name s) ∨ ∃ f, IsRefused l p (.symbol name s) f := by
        by_cases hmem : role ∈ p.roles
        · exact .inl (.symbol hroles hstored hmem)
        · exact .inr ⟨_, .forbidden hroles hstored hmem⟩
      cases role with
      | state => exact hslot rfl
      | parameter => exact hslot rfl
      | independent => exact .inr ⟨_, .unstored hroles (.inl rfl)⟩
      | observed => exact .inr ⟨_, .unstored hroles (.inr rfl)⟩
      | unknown => cases Layout.has_of_rolesOf hroles
    · refine .inr ⟨_, .ambiguous ?_⟩
      rw [hroles]
      exact Nat.le_add_left 2 _

end Request

/-! ### Writers, leaf by leaf -/

section FailAlike

variable {ε α β γ δ : Type} {x : Except ε α} {y : Except ε β}

/-- Two computations that succeed together and fail alike, whatever they give. -/
def FailAlike (x : Except ε α) (y : Except ε β) : Prop :=
  x.map (fun _ => ()) = y.map fun _ => ()

lemma FailAlike.eq_error_iff (h : FailAlike x y) {e : ε} : x = .error e ↔ y = .error e := by
  cases x <;> cases y <;> cases h <;> simp

lemma FailAlike.exists_ok_iff (h : FailAlike x y) : (∃ a, x = .ok a) ↔ ∃ b, y = .ok b := by
  cases x <;> cases y <;> cases h <;> simp

lemma FailAlike.bind {f : α → Except ε γ} {g : β → Except ε δ} (h : FailAlike x y)
    (hfg : ∀ a b, FailAlike (f a) (g b)) : FailAlike (x >>= f) (y >>= g) := by
  cases x with
  | error e =>
    cases y with
    | error e' =>
      cases h
      rfl
    | ok b => cases h
  | ok a =>
    cases y with
    | error e' => cases h
    | ok b => exact hfg a b

end FailAlike

namespace Writer

open Request

variable {b : Bound} {p : Permission} {l : Layout} {f : Failure}

mutual

/-- The writer of a request fails as the writers of its leaves do, one after the other. -/
lemma failAlike_leaves (q : Request) :
    FailAlike (ofRequest b p q) (q.leaves.mapM (ofRequest b p)) := by
  have hleaf (x : Request) : FailAlike (ofRequest b p x) ([x].mapM (ofRequest b p)) := by
    rw [List.mapM_cons]
    cases ofRequest b p x <;> rfl
  match q with
  | .symbol name s => exact hleaf _
  | .expression e => exact hleaf _
  | .array shape elements =>
    rw [ofRequest, ← bind_pure (List.mapM _ _)]
    exact (failAlike_allLeaves elements).bind fun _ _ => rfl
  | .sequence items isTuple =>
    rw [ofRequest, ← bind_pure (List.mapM _ _)]
    exact (failAlike_allLeaves items).bind fun _ _ => rfl

lemma failAlike_allLeaves (qs : List Request) :
    FailAlike (ofRequests b p qs) ((allLeaves qs).mapM (ofRequest b p)) := by
  match qs with
  | [] => rfl
  | q :: qs =>
    rw [ofRequests, allLeaves, List.mapM_append]
    exact (failAlike_leaves q).bind fun _ _ => (failAlike_allLeaves qs).bind fun _ _ => rfl

end

/-- A leaf that is refused has no writer, for the reason for which it is refused. -/
lemma ofRequest_of_refused (hb : b.AnsweredBy l) {x : Request} (hx : x.IsLeaf)
    (h : x.IsRefused l p f) : ofRequest b p x = .error f := by
  cases h with
  | expression e => rfl
  | @unknown name symbol hnone =>
    have hclassify := hb.classify_eq (Value.form_of_key? hx)
    rw [hnone] at hclassify
    rw [ofRequest, ofSymbol_eq, hclassify]
    rfl
  | @ambiguous name symbol htwo =>
    have hclassify := hb.classify_eq (Value.form_of_key? hx)
    rw [ofRequest, ofSymbol_eq, hclassify]
    rcases hroles : l.rolesOf symbol with _ | ⟨role, _ | ⟨role', roles⟩⟩
    · rw [hroles] at htwo
      exact absurd htwo (Nat.not_succ_le_zero 1)
    · rw [hroles] at htwo
      exact absurd htwo (Nat.lt_irrefl 1)
    · rfl
  | unstored hrole hkind =>
    rw [ofRequest, ofSymbol_eq, hb.classify_of_rolesOf (Value.form_of_key? hx) hrole]
    rcases hkind with rfl | rfl <;> rfl
  | @forbidden name symbol role hrole hstored hnot =>
    have hcheck : p.check symbol role = .error (.unknownSymbol symbol p.refusal) := by
      unfold Permission.check
      rw [if_neg (by simpa using hnot)]
      rfl
    have hclassify := hb.classify_of_rolesOf (Value.form_of_key? hx) hrole
    rw [ofRequest, ofSymbol_eq, hclassify, Except.ok_bind]
    cases role with
    | state => exact congrArg (fun c => c >>= _) hcheck
    | parameter => exact congrArg (fun c => c >>= _) hcheck
    | independent => cases hstored
    | observed => cases hstored
    | unknown => cases hstored

lemma exists_writer_of_settable {s : ProblemState} {world : World} {k : Option Nat} {x : Request}
    (hb : b.AnsweredBy l) (hown : b.system.own = s.toInterface world k) (hx : x.IsLeaf)
    (h : x.IsSettable l p) : ∃ w, ofRequest b p x = .ok w := by
  cases h with
  | @symbol name symbol role hrole hstored hmem =>
    have hform := Value.form_of_key? hx
    obtain ⟨n, hn⟩ := Layout.exists_place? hstored (Layout.has_of_rolesOf hrole)
    have hlocate := hb.locate_of_rolesOf hform hrole hstored hn
    have hcheck : p.check symbol role = .ok () := by
      unfold Permission.check
      rw [if_pos (by simpa using hmem)]
      rfl
    refine ⟨.slot role (.int n), ?_⟩
    rw [ofRequest, ofSymbol_eq, hb.classify_of_rolesOf hform hrole, Except.ok_bind]
    cases role with
    | state =>
      unfold ofRole
      rw [hcheck, hown, hlocate]
      rfl
    | parameter =>
      unfold ofRole
      rw [hcheck, hown, hlocate]
      rfl
    | independent => cases hstored
    | observed => cases hstored
    | unknown => cases hstored

section Leaves

variable {s : ProblemState} {world : World} {k : Option Nat} {q : Request}
  (hb : b.AnsweredBy l) (hown : b.system.own = s.toInterface world k)
include hb hown

lemma exists_writer_of_leaf_iff {x : Request} (hx : x.IsLeaf) :
    (∃ w, ofRequest b p x = .ok w) ↔ x.IsSettable l p := by
  refine ⟨fun ⟨w, hw⟩ => (settable_or_refused hx).resolve_right ?_,
    exists_writer_of_settable hb hown hx⟩
  rintro ⟨f, hf⟩
  cases (ofRequest_of_refused hb hx hf).symm.trans hw

lemma ofRequest_leaf_eq_error_iff {x : Request} (hx : x.IsLeaf) :
    ofRequest b p x = .error f ↔ x.IsRefused l p f := by
  refine ⟨fun h => ?_, ofRequest_of_refused hb hx⟩
  rcases settable_or_refused (l := l) (p := p) hx with hset | ⟨f', hf'⟩
  · obtain ⟨w, hw⟩ := exists_writer_of_settable hb hown hx hset
    cases h.symm.trans hw
  · cases h.symm.trans (ofRequest_of_refused hb hx hf')
    exact hf'

/-- A writer is made exactly if all leaves can be set. -/
lemma exists_writer_iff (hq : ∀ x ∈ q.leaves, x.IsLeaf) :
    (∃ w, ofRequest b p q = .ok w) ↔ ∀ x ∈ q.leaves, x.IsSettable l p := by
  rw [(failAlike_leaves q).exists_ok_iff, exists_mapM_ok_iff]
  exact forall₂_congr fun x hx => exists_writer_of_leaf_iff hb hown (hq x hx)

/-- No writer is made if a leaf is refused, for the reason why the first one is. -/
lemma ofRequest_eq_error_iff (hq : ∀ x ∈ q.leaves, x.IsLeaf) : ofRequest b p q = .error f ↔
    ∃ before x after, q.leaves = before ++ x :: after ∧ (∀ y ∈ before, y.IsSettable l p) ∧
      x.IsRefused l p f := by
  rw [(failAlike_leaves q).eq_error_iff, mapM_eq_error_iff]
  refine exists_congr fun before => exists_congr fun x => exists_congr fun after =>
    and_congr_right fun hleaves => ?_
  obtain ⟨hbefore, hrest⟩ := List.forall_mem_append.1 (hleaves ▸ hq)
  have hx := hrest x List.mem_cons_self
  exact and_congr (forall₂_congr fun y hy => exists_writer_of_leaf_iff hb hown (hbefore y hy))
    (ofRequest_leaf_eq_error_iff hb hown hx)

end Leaves

end Writer

/-! ### Failures are reported as what they are -/

/-- A named symbol has a text. -/
lemma Value.exists_text_of_key? {v : Value} {name : String} (h : v.key? = some name) :
    ∃ text, v.text? = some text := by
  cases v with
  | expr e =>
    obtain ⟨kind, cs, label⟩ := e
    cases kind with
    | symbol => exact ⟨_, rfl⟩
    | _ => cases h
  | string s isElement => exact ⟨_, rfl⟩
  | term t => exact ⟨_, rfl⟩
  | foreign facts shape definition => exact ⟨_, rfl⟩
  | _ => cases h

namespace Request

/-- A refusal is reported as what it is; only an expression may lack the text that the report
needs. -/
lemma IsRefused.report_eq {l : Layout} {p : Permission} {x : Request} {f : Failure}
    (h : x.IsRefused l p f) (hx : x.IsLeaf)
    (htext : ∀ e, x = .expression e → ∃ text, e.text? = some text) :
    ∃ text, f.report = (f.kind, some text) := by
  have hreport {f : Failure} {text : String} (hf : f.text? = some text)
      (hfault : ∀ kind, f ≠ .fault kind) : f.report = (f.kind, some text) := by
    cases f with
    | fault kind => exact absurd rfl (hfault kind)
    | _ => simp only [Failure.report, hf]
  have hsymbol {name : String} {s : Value} (hname : s.key? = some name) :
      ∃ text, s.text? = some text := Value.exists_text_of_key? hname
  cases h with
  | expression e =>
    obtain ⟨text, hs⟩ := htext e rfl
    have hs' : (Value.expr e).text? = some text := hs
    exact ⟨_, hreport (by rw [Failure.text?, hs']; rfl) nofun⟩
  | unknown =>
    obtain ⟨text, hs⟩ := hsymbol hx
    exact ⟨_, hreport (by rw [Failure.text?, hs]; rfl) nofun⟩
  | ambiguous =>
    obtain ⟨text, hs⟩ := hsymbol hx
    exact ⟨_, hreport (by rw [Failure.text?, hs]; rfl) nofun⟩
  | unstored =>
    obtain ⟨text, hs⟩ := hsymbol hx
    exact ⟨_, hreport (by rw [Failure.text?, hs]; rfl) nofun⟩
  | forbidden =>
    obtain ⟨text, hs⟩ := hsymbol hx
    exact ⟨_, hreport (by rw [Failure.text?, hs]; rfl) nofun⟩

end Request

namespace ProblemState

variable {l : Layout} {q : Request} {p : Permission} {request : Value}

/-- A container without versions answers alike, whatever version is asked for. -/
lemma accessor_of_version {s : ProblemState} {world : World} {k identity : Option Nat}
    {version : Value} (hversion : version.isHashableClass = true) (n : Nat) (object : Value)
    (p : Permission) :
    (s.overLayout world k l identity).accessor n object p request version =
      (s.overLayout world k l identity).accessor n object p request .none := by
  have hbound : Bound.of (s.overLayout world k l identity) version =
      .ok ⟨s.overLayout world k l identity, none⟩ := by
    unfold Bound.of
    rw [hversion]
    rfl
  have hprepare : Step.uncaching.prepare (s.overLayout world k l identity) request version =
      Step.uncaching.prepare (s.overLayout world k l identity) request .none := by
    unfold Factory.prepare
    rw [hversion, hbound]
    rfl
  rw [System.accessor_eq, System.accessor_eq, hprepare]

/-- The setter of a request comes from the writer of its normal form. -/
lemma accessor_setter (hrequest : Request.ofValue .standard request = .ok q) (hp : p.isWrite = true)
    (s : ProblemState) (world : World) (k identity : Option Nat) (n : Nat) (object : Value) :
    (s.overLayout world k l identity).accessor n object p request .none =
      (Writer.ofRequest ⟨s.overLayout world k l identity, none⟩ p q).map fun w =>
        ⟨n, .setter w, q, none⟩ := by
  have hplan : Traced.Yields
      (Factory.planFor .interpreter ⟨s.overLayout world k l identity, none⟩ p q)
      ((Writer.ofRequest ⟨s.overLayout world k l identity, none⟩ p q).map .setter) := by
    unfold Factory.planFor
    rw [if_pos hp]
    cases hw : Writer.ofRequest ⟨s.overLayout world k l identity, none⟩ p q with
    | ok w => exact Traced.yields_lift_bind rfl (Traced.yields_pure _)
    | error f => exact (Traced.yields_lift _).bind_error _
  rw [System.accessor_of_plan (s.bound_overLayout world k l identity) hrequest rfl hplan]
  cases Writer.ofRequest ⟨s.overLayout world k l identity, none⟩ p q <;> rfl

/-- For every request that normalizes and each kind of setter: the setter is built exactly if every
leaf of the request is a state or a parameter, and nothing else, of a role that the setter may
write. Otherwise the build fails, and the reason is that of the first leaf that is refused. It is
reported as what it is, unless the leaf is an expression without a text to name it by. Whenever the
setter is built, so is the getter. -/
theorem setter_built_iff (hrequest : Request.ofValue .standard request = .ok q)
    (hp : p ∈ [Permission.writeAny, .writeStates, .writeParameters]) {version : Value}
    (hversion : version.isHashableClass = true) (s : ProblemState) (world : World)
    (k identity : Option Nat) (n : Nat) (object : Value) :
    let build (p : Permission) : Except Failure Accessor :=
      (s.overLayout world k l identity).accessor n object p request version
    ((∃ setter, build p = .ok setter) ↔ ∀ x ∈ q.leaves, x.IsSettable l p) ∧
      (∀ f, build p = .error f ↔ ∃ before x after, q.leaves = before ++ x :: after ∧
        (∀ y ∈ before, y.IsSettable l p) ∧ x.IsRefused l p f) ∧
      (∀ x ∈ q.leaves, ∀ f, x.IsRefused l p f →
        (∀ e, x = .expression e → ∃ text, e.text? = some text) →
          ∃ text, f.report = (f.kind, some text)) ∧
      ((∃ setter, build p = .ok setter) → ∃ getter, build .readAny = .ok getter) := by
  intro build
  have hwrite : p.isWrite = true := by
    simp only [List.mem_cons, List.not_mem_nil, or_false] at hp
    rcases hp with rfl | rfl | rfl <;> rfl
  have hleaves := Request.isLeaf_of_ofValue request q hrequest
  have hb := s.answeredBy_bound world k l identity
  have hsetter : build p = (Writer.ofRequest ⟨s.overLayout world k l identity, none⟩ p q).map
      fun w => ⟨n, .setter w, q, none⟩ :=
    (accessor_of_version hversion n object p).trans
      (accessor_setter hrequest hwrite s world k identity n object)
  have hsettable : (∃ setter, build p = .ok setter) ↔ ∀ x ∈ q.leaves, x.IsSettable l p := by
    rw [← Writer.exists_writer_iff (s := s) hb rfl hleaves, hsetter]
    cases Writer.ofRequest ⟨s.overLayout world k l identity, none⟩ p q <;> simp [Except.map]
  refine ⟨hsettable, fun f => ?_, fun x hx f hf htext => hf.report_eq (hleaves x hx) htext, ?_⟩
  · rw [← Writer.ofRequest_eq_error_iff (s := s) hb rfl hleaves, hsetter]
    cases Writer.ofRequest ⟨s.overLayout world k l identity, none⟩ p q <;> simp [Except.map]
  · intro hbuilt
    have hstored := Request.stored_of_leaves q fun x hx =>
      (hsettable.1 hbuilt x hx).stored (hleaves x hx)
    obtain ⟨r, hgetter, _⟩ := exists_getter s world k identity hrequest hstored n object
    exact ⟨_, (accessor_of_version hversion n object .readAny).trans hgetter⟩

namespace MixedRoles

def x : Value := .text "x"

def a : Value := .text "a"

def b : Value := .text "b"

def t : Value := .text "t"

/-- The symbol `b` is a state and a parameter. -/
def layout : Layout where
  states := ⟨[("x", x), ("b", b)]⟩
  parameters := ⟨[("a", a), ("b", b)]⟩
  independent := ⟨[("t", t)]⟩

def state : ProblemState := ⟨.none, .none, .none, .none, .none⟩

def system : System := state.overLayout (fun _ => { className := "object" }) none layout none

/-- A state, an array of a parameter and of the independent variable, and the ambiguous symbol. -/
def requested : Value := .list [x, .objects [2] [a, t], b]

/-- An addition without operands. -/
def sum : Expr := .node (.binary .add) [] {}

end MixedRoles

/-- A setter of all storage is refused for the independent variable, before the ambiguous symbol is
looked at; a setter of states is refused for the parameter before. -/
theorem setter_built_iff_mixed :
    MixedRoles.system.accessor 0 .none .writeAny MixedRoles.requested .none =
        .error (.notSettable MixedRoles.t
          (Role.independent.name ++ " symbols have no storage slot")) ∧
      MixedRoles.system.accessor 0 .none .writeStates MixedRoles.requested .none =
        .error (.unknownSymbol MixedRoles.a Permission.writeStates.refusal) := by
  have hrequest : Request.ofValue .standard MixedRoles.requested = .ok (.sequence [
      .symbol "x" MixedRoles.x, .array [.int 2] [.symbol "a" MixedRoles.a,
        .symbol "t" MixedRoles.t], .symbol "b" MixedRoles.b] false) := rfl
  have hx (p : Permission) (hp : .state ∈ p.roles) :
      Request.IsSettable MixedRoles.layout p (.symbol "x" MixedRoles.x) := .symbol rfl rfl hp
  have hversion : Value.none.isHashableClass = true := rfl
  obtain ⟨-, hall, -⟩ := setter_built_iff hrequest (p := .writeAny) (by simp) hversion
    MixedRoles.state (fun _ => { className := "object" }) none none 0 .none
  obtain ⟨-, hstates, -⟩ := setter_built_iff hrequest (p := .writeStates) (by simp) hversion
    MixedRoles.state (fun _ => { className := "object" }) none none 0 .none
  refine ⟨(hall _).2 ⟨[.symbol "x" MixedRoles.x, .symbol "a" MixedRoles.a], _, _, rfl, ?_,
    .unstored rfl (.inl rfl)⟩, (hstates _).2 ⟨[.symbol "x" MixedRoles.x], _, _, rfl, ?_,
    .forbidden rfl rfl (by decide)⟩⟩
  · exact List.forall_mem_cons.2 ⟨hx _ (by decide), List.forall_mem_singleton.2
      (.symbol rfl rfl (by decide))⟩
  · exact List.forall_mem_singleton.2 (hx _ (by decide))

/-- An expression that lacks an operand is refused, but the report cannot be written: what is
reported is that an index is out of range. -/
theorem not_reported_operandless : ∃ f : Failure,
    MixedRoles.system.accessor 0 .none .writeAny (.expr MixedRoles.sum) .none = .error f ∧
      f.kind = .notSettable ∧ f.report = (.outOfRange, none) :=
  ⟨.notSettable (.expr MixedRoles.sum) "expressions have no storage slot", rfl, rfl, rfl⟩

end ProblemState
end NamedSlots
