import NamedSlots.Evaluation.Compilation
import NamedSlots.Proofs.AssocLookup
import NamedSlots.Proofs.ScalarLeaf
import NamedSlots.Proofs.TracedRun

/-!
# Questions answered by a layout

A layout, a versioned layout at one of its versions, and a problem state over either of them
answer every question of resolution from one layout. `Bound.AnsweredBy` says so once; the
answers to the questions follow from it alone.
-/

namespace NamedSlots

namespace Layout

def rolesOf (l : Layout) (symbol : Value) : List Role :=
  [Role.state, .parameter, .independent, .observed].filter fun role => l.has role symbol

def definitionOf (l : Layout) (name : String) : Option Expr :=
  Assoc.find? name l.observed.definitions

lemma has_of_rolesOf {l : Layout} {symbol : Value} {role : Role} (h : l.rolesOf symbol = [role]) :
    l.has role symbol = true := by
  have hmem : role ∈ l.rolesOf symbol := by rw [h]; exact List.mem_singleton_self role
  exact (List.mem_filter.1 hmem).2

lemma not_has_of_rolesOf {l : Layout} {symbol : Value} {role other : Role}
    (h : l.rolesOf symbol = [role])
    (hother : other ∈ [Role.state, .parameter, .independent, .observed]) (hne : other ≠ role) :
    l.has other symbol = false := by
  rw [Bool.eq_false_iff]
  intro hhas
  have hmem : other ∈ l.rolesOf symbol := List.mem_filter.2 ⟨hother, hhas⟩
  rw [h] at hmem
  exact hne (List.mem_singleton.1 hmem)

lemma rolesOf_of_has {l : Layout} {symbol : Value} {role : Role} (h : l.has role symbol = true)
    (hother : ∀ other, other ≠ role → l.has other symbol = false) : l.rolesOf symbol = [role] := by
  cases role with
  | unknown => cases h
  | _ => simp [rolesOf, h, hother]

end Layout

lemma Value.form_of_key? {v : Value} {name : String} (hkey : v.key? = some name) :
    Classifier.standard.form v = .scalar := by
  unfold Value.key? at hkey
  split at hkey
  · assumption
  · cases hkey

lemma filterM_eq_ok {α : Type} {f : α → Except Failure Bool} {g : α → Bool} {as : List α}
    (h : ∀ a ∈ as, f a = .ok (g a)) : as.filterM f = .ok (as.filter g) := by
  have haux (acc : List α) :
      as.filterAuxM f acc = .ok ((as.filter g).reverse ++ acc) := by
    induction as generalizing acc with
    | nil => rfl
    | cons a as ih =>
      have htail := ih fun b hb => h b (List.mem_cons_of_mem _ hb)
      rw [List.filterAuxM, h a List.mem_cons_self]
      cases hg : g a with
      | true =>
        rw [List.filter_cons_of_pos hg, List.reverse_cons, List.append_assoc]
        exact htail (a :: acc)
      | false =>
        rw [List.filter_cons_of_neg (by simp [hg])]
        exact htail acc
  unfold List.filterM
  rw [haux []]
  change Except.ok ((as.filter g).reverse ++ []).reverse = _
  rw [List.append_nil, List.reverse_reverse]

/-- A system answers from layouts that are found from the version argument. -/
structure System.AnsweredBy (s : System) (layoutAt : Extra → Except Failure Layout) : Prop where
  predicate : s.container.predicate = (Interface.ofLayoutAt "" none layoutAt).predicate
  index : s.container.index = (Interface.ofLayoutAt "" none layoutAt).index
  symbols : s.container.symbols = (Interface.ofLayoutAt "" none layoutAt).symbols
  definitions : s.container.definitions = (Interface.ofLayoutAt "" none layoutAt).definitions
  ownProvider : s.own.provider = .absent
  provider : s.container.provider = .absent

namespace Bound

lemma provider_eq {b : Bound} (hown : b.system.own.provider = .absent)
    (hcontainer : b.system.container.provider = .absent) (v : Value) :
    b.provider v = pure none := by
  have hmethod : b.system.own.provider.isMethod = false := by
    rw [hown]
    rfl
  have hnone : b.system.container.provider.method? = none := by
    rw [hcontainer]
    rfl
  unfold Bound.provider
  simp only [hmethod, Bool.false_eq_true, if_false, hnone]

/-- All that resolution asks a system at a version is answered from a layout. -/
structure AnsweredBy (b : Bound) (l : Layout) : Prop where
  predicate (role : Role) : Interface.isQueried role = true →
    ∃ f, (b.system.container.predicate role).method? = some f ∧
      ∀ v, f v b.version = .ok (l.has role v)
  index (role : Role) : Interface.isStored role = true →
    ∃ f, (b.system.container.index role).method? = some f ∧
      ∀ v, f v b.version = .ok (((l.place? role v).map fun (n : Nat) => Value.int n).getD .none)
  symbols : ∃ f, (b.system.container.symbols .independent).method? = some f ∧
    f b.version = .ok (.list l.independent.symbols)
  definitions : ∃ d, b.system.container.definitions.method? = some d ∧ d.textOf = Value.key? ∧
    d.entries b.version = .ok (l.observed.definitions.map fun (n, e) => (n, .expr e))
  ownProvider : b.system.own.provider = .absent
  provider : b.system.container.provider = .absent

lemma AnsweredBy.of_layoutAt {s : System} {version : Extra}
    {layoutAt : Extra → Except Failure Layout} {l : Layout} (h : s.AnsweredBy layoutAt)
    (hl : layoutAt version = .ok l) : AnsweredBy ⟨s, version⟩ l where
  predicate role hrole := by
    refine ⟨fun v extra => do return (← layoutAt extra).has role v, ?_, fun v => ?_⟩
    · change (s.container.predicate role).method? = _
      rw [h.predicate]
      simp only [Interface.ofLayoutAt, hrole, if_true]
      rfl
    · change (layoutAt version >>= fun l => pure (l.has role v)) = _
      rw [hl]
      rfl
  index role hrole := by
    refine ⟨fun v extra => do
      return (((← layoutAt extra).place? role v).map fun (n : Nat) => Value.int n).getD .none, ?_,
      fun v => ?_⟩
    · change (s.container.index role).method? = _
      rw [h.index]
      simp only [Interface.ofLayoutAt, hrole, if_true]
      rfl
    · change (layoutAt version >>= fun l => pure _) = _
      rw [hl]
      rfl
  symbols := by
    refine ⟨fun extra => do return .list ((← layoutAt extra).symbols .independent), ?_, ?_⟩
    · change (s.container.symbols .independent).method? = _
      rw [h.symbols]
      rfl
    · change (layoutAt version >>= fun l => pure _) = _
      rw [hl]
      rfl
  definitions := by
    refine ⟨⟨Value.key?, fun extra => do
      return (← layoutAt extra).observed.definitions.map fun (n, e) => (n, .expr e)⟩, ?_, rfl, ?_⟩
    · change s.container.definitions.method? = _
      rw [h.definitions]
      rfl
    · change (layoutAt version >>= fun l => pure _) = _
      rw [hl]
      rfl
  ownProvider := h.ownProvider
  provider := h.provider

namespace AnsweredBy

variable {b : Bound} {l : Layout}

lemma claims_eq (h : b.AnsweredBy l) (v : Value) :
    b.system.claims b.version v = .ok (l.rolesOf v) := by
  refine filterM_eq_ok fun role hrole => ?_
  have hqueried : Interface.isQueried role = true := by
    cases role with
    | unknown => simp at hrole
    | _ => rfl
  obtain ⟨f, hf, hfv⟩ := h.predicate role hqueried
  rw [hf]
  exact hfv v

/-- The role of a scalar symbol is the only one that the layout gives it. -/
lemma classify_eq (h : b.AnsweredBy l) {v : Value} (hform : Classifier.standard.form v = .scalar) :
    b.classify v =
      match l.rolesOf v with
      | [] => .ok .unknown
      | [role] => .ok role
      | roles => .error (.ambiguousSymbol v roles) := by
  unfold Bound.classify System.classify
  rw [hform]
  simp only [h.claims_eq v]
  rcases l.rolesOf v with _ | ⟨r, _ | ⟨r', rs⟩⟩ <;> rfl

lemma classify_of_rolesOf (h : b.AnsweredBy l) {v : Value}
    (hform : Classifier.standard.form v = .scalar) {role : Role} (hrole : l.rolesOf v = [role]) :
    b.classify v = .ok role := by
  rw [h.classify_eq hform, hrole]

lemma rolesOf_of_classify (h : b.AnsweredBy l) {v : Value}
    (hform : Classifier.standard.form v = .scalar) {role : Role} (hrole : role ≠ .unknown)
    (hclassify : b.classify v = .ok role) : l.rolesOf v = [role] := by
  rw [h.classify_eq hform] at hclassify
  rcases hroles : l.rolesOf v with _ | ⟨r, _ | ⟨r', rs⟩⟩
  · rw [hroles] at hclassify
    cases hclassify
    exact absurd rfl hrole
  · rw [hroles] at hclassify
    cases hclassify
    rfl
  · rw [hroles] at hclassify
    cases hclassify

lemma indexOf_eq_match (h : b.AnsweredBy l) {role : Role}
    (hstored : Interface.isStored role = true) (v : Value) :
    b.system.indexOf b.version role v =
      match l.place? role v with
      | some n => .ok (.int n)
      | none => .error (.unknownSymbol v "system returned no index") := by
  obtain ⟨f, hf, hfv⟩ := h.index role hstored
  unfold System.indexOf
  rw [hf]
  simp only [hfv v]
  cases l.place? role v <;> rfl

lemma indexOf_eq (h : b.AnsweredBy l) {role : Role} (hstored : Interface.isStored role = true)
    {v : Value} {n : Nat} (hplace : l.place? role v = some n) :
    b.system.indexOf b.version role v = .ok (.int n) := by
  rw [h.indexOf_eq_match hstored, hplace]

lemma locate_of_rolesOf (h : b.AnsweredBy l) {v : Value}
    (hform : Classifier.standard.form v = .scalar) {role : Role} (hrole : l.rolesOf v = [role])
    (hstored : Interface.isStored role = true) {n : Nat} (hplace : l.place? role v = some n) :
    b.locate v = .ok (.int n) := by
  have hclassify : b.system.classify b.version v = .ok role := h.classify_of_rolesOf hform hrole
  unfold Bound.locate System.locate
  rw [hclassify]
  cases role with
  | state => exact h.indexOf_eq hstored hplace
  | parameter => exact h.indexOf_eq hstored hplace
  | independent => cases hstored
  | observed => cases hstored
  | unknown => cases hstored

lemma isTimeDependent_eq (h : b.AnsweredBy l) :
    b.isTimeDependent =
      if 1 < l.independent.size then .error (.severalIndependent l.independent.size)
      else .ok (l.independent.size == 1) := by
  obtain ⟨f, hf, hfv⟩ := h.symbols
  have henumerate : b.system.enumerate b.version .independent = .ok l.independent.symbols := by
    unfold System.enumerate
    rw [if_neg (by simp), hf]
    simp only [hfv]
    rfl
  have hlength : l.independent.symbols.length = l.independent.size := List.length_map _
  unfold Bound.isTimeDependent System.isTimeDependent
  rw [henumerate]
  change (if 1 < l.independent.symbols.length then _ else _) = _
  rw [hlength]
  rfl

/-- A layout with one independent variable at most is time dependent exactly if it has one. -/
lemma isTimeDependent_of_size (h : b.AnsweredBy l) (hsize : l.independent.size ≤ 1) :
    b.isTimeDependent = .ok (l.independent.size == 1) := by
  rw [h.isTimeDependent_eq, if_neg (by omega)]

lemma definition_eq (h : b.AnsweredBy l) (v : Value) :
    b.definition v = .ok (v.key?.bind l.definitionOf) := by
  obtain ⟨d, hd, htext, hentries⟩ := h.definitions
  have hfind : d.find? v b.version = .ok ((v.key?.bind l.definitionOf).map Value.expr) := by
    unfold Definitions.find?
    rw [hentries, htext]
    cases v.key? with
    | none => rfl
    | some name =>
      have hmap := Assoc.find?_map (fun _ e => Value.expr e) name l.observed.definitions
      exact congrArg Except.ok hmap
  unfold Bound.definition System.definition
  rw [hd]
  simp only [hfind]
  cases v.key?.bind l.definitionOf <;> rfl

lemma definitionLeaves_eq (h : b.AnsweredBy l) :
    b.system.definitionLeaves b.version =
      l.observed.definitions.flatMap fun (_, e) => e.scalarLeaves := by
  obtain ⟨d, hd, _, hentries⟩ := h.definitions
  unfold System.definitionLeaves
  rw [hd]
  simp only [Definitions.leaves, hentries]
  rw [List.flatMap_map]
  rfl

end AnsweredBy

end Bound

namespace Expr

variable {s : Expr}

lemma key?_of_kind (hs : s.kind = .symbol) : (Value.expr s).key? = some s.indexedName := by
  obtain ⟨kind, cs, l⟩ := s
  cases hs
  rfl

lemma form_of_kind (hs : s.kind = .symbol) : Classifier.standard.form (.expr s) = .scalar := by
  obtain ⟨kind, cs, l⟩ := s
  cases hs
  rfl

lemma IsPlainSymbol.key?_eq (hs : s.IsPlainSymbol) : (Value.expr s).key? = some s.indexedName :=
  key?_of_kind hs.kind_eq

lemma IsPlainSymbol.form_eq (hs : s.IsPlainSymbol) :
    Classifier.standard.form (.expr s) = .scalar := form_of_kind hs.kind_eq

end Expr

namespace Layout

variable {l : Layout}

lemma exists_place? {role : Role} (hstored : Interface.isStored role = true) {v : Value}
    (h : l.has role v = true) : ∃ n, l.place? role v = some n := by
  cases role with
  | state => exact Option.isSome_iff_exists.1 h
  | parameter => exact Option.isSome_iff_exists.1 h
  | independent => cases hstored
  | observed => cases hstored
  | unknown => cases hstored

lemma has_observed (l : Layout) (v : Value) :
    l.has .observed v = (v.key?.bind l.definitionOf).isSome := rfl

lemma build_ok {states parameters independent observed : Value}
    (hl : Layout.build states parameters independent observed = .ok l) :
    SlotTable.ofSymbols "variable" states.declared = .ok l.states ∧
      SlotTable.ofSymbols "parameter" parameters.declared = .ok l.parameters ∧
      SlotTable.independent independent = .ok l.independent ∧
      DefinitionTable.ofValue observed = .ok l.observed := by
  have htables : (do
      let states ← SlotTable.ofSymbols "variable" states.declared
      let parameters ← SlotTable.ofSymbols "parameter" parameters.declared
      let independent ← SlotTable.independent independent
      return (⟨states, parameters, independent, ← DefinitionTable.ofValue observed⟩ : Layout)) = .ok l := by
    unfold Layout.build at hl
    cases observed with
    | none => exact hl
    | dict entries => exact hl
    | _ => cases hl
  obtain ⟨s, hs, htables⟩ := Except.eq_ok_of_bind htables
  obtain ⟨p, hp, htables⟩ := Except.eq_ok_of_bind htables
  obtain ⟨i, hi, htables⟩ := Except.eq_ok_of_bind htables
  obtain ⟨o, ho, htables⟩ := Except.eq_ok_of_bind htables
  cases htables
  exact ⟨hs, hp, hi, ho⟩

lemma build_of_tables {states parameters independent observed : Value}
    (hs : SlotTable.ofSymbols "variable" states.declared = .ok l.states)
    (hp : SlotTable.ofSymbols "parameter" parameters.declared = .ok l.parameters)
    (hi : SlotTable.independent independent = .ok l.independent)
    (ho : DefinitionTable.ofValue observed = .ok l.observed) :
    Layout.build states parameters independent observed = .ok l := by
  unfold Layout.build
  rw [hs, hp, hi, ho]
  cases observed <;> first | rfl | cases ho

lemma size_of_independent {v : Value} {t : SlotTable} (h : SlotTable.independent v = .ok t) :
    t.size ≤ 1 := by
  obtain ⟨table, _, htable⟩ := Except.eq_ok_of_bind h
  split at htable
  · cases htable
  · cases htable
    omega

lemma independent_size {states parameters independent observed : Value}
    (hl : Layout.build states parameters independent observed = .ok l) :
    l.independent.size ≤ 1 :=
  size_of_independent (build_ok hl).2.2.1

lemma size_pos_of_has_independent {v : Value} (h : l.has .independent v = true) :
    0 < l.independent.size := by
  obtain ⟨n, hn⟩ := Option.isSome_iff_exists.1 h
  obtain ⟨name, _, hplace⟩ := Option.bind_eq_some_iff.1 hn
  obtain ⟨hlt, _⟩ := List.findIdx?_eq_some_iff_getElem.1 hplace
  have hlength : l.independent.names.length = l.independent.size := List.length_map _
  omega

lemma size_of_has_independent {states parameters independent observed : Value}
    (hl : Layout.build states parameters independent observed = .ok l) {v : Value}
    (h : l.has .independent v = true) : (l.independent.size == 1) = true := by
  have hsize := independent_size hl
  have hpos := size_pos_of_has_independent h
  rw [beq_iff_eq]
  omega

/-- A layout as a system: it answers for itself. -/
def system (l : Layout) (identity : Option Nat) : System :=
  ⟨.ofLayout l identity, .ofLayout l identity⟩

def bound (l : Layout) (identity : Option Nat) : Bound := ⟨l.system identity, none⟩

lemma isConstant_system (l : Layout) (identity : Option Nat) :
    (l.system identity).isConstant = .ok true := rfl

lemma bound_of_system (l : Layout) (identity : Option Nat) :
    Bound.of (l.system identity) .none = .ok (l.bound identity) := rfl

lemma answeredBy_system (l : Layout) (identity : Option Nat) :
    (l.system identity).AnsweredBy (Interface.withoutVersion l) where
  predicate := rfl
  index := rfl
  symbols := rfl
  definitions := rfl
  ownProvider := rfl
  provider := rfl

lemma answeredBy (l : Layout) (identity : Option Nat) : (l.bound identity).AnsweredBy l :=
  .of_layoutAt (l.answeredBy_system identity) rfl

end Layout
end NamedSlots
