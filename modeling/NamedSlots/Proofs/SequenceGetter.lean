import Mathlib.Data.List.Forall2
import NamedSlots.Proofs.BindingSuccess
import NamedSlots.Proofs.FactoryStep
import NamedSlots.Proofs.SlotReading

/-!
# Getters of sequences

A getter of a list, of a tuple or of an array of requests is made of the readers of its items, and
slots of one storage are gathered among them. It is built exactly if a getter of each item is, it
gives what these give, in order, and it fails as the first of them that fails.
-/

namespace NamedSlots

open Traced

/-! ### What a reader is made of does not depend on the trace -/

lemma Bound.provider_steady (b : Bound) (v : Value) : Steady (b.provider v) := by
  have hC := composes_steady
  unfold Bound.provider
  dsimp only
  split
  · exact hC.pure _
  · exact hC.bind (steady_modify _) fun _ => hC.lift _

namespace Evaluator

lemma compile_steady (b : Bound) (e : Expr) (backend : Backend) : Steady (compile b e backend) := by
  have hC := composes_steady
  refine hC.bind (hC.lift _) fun isTimeDependent =>
    hC.bind (Bound.bind_of_composes hC b.provider_steady isTimeDependent e) fun table => ?_
  cases backend with
  | interpreter => exact hC.pure _
  | graph =>
    dsimp only
    split
    · split
      · exact hC.bind (steady_modify _) fun _ => hC.bind (hC.lift _) fun _ => hC.pure _
      · exact hC.bind (hC.throw _) fun _ => hC.bind (hC.lift _) fun _ => hC.pure _
    · exact hC.bind (hC.lift _) fun _ => hC.pure _

end Evaluator

namespace Reader

variable (b : Bound) (backend : Backend) (p : Permission)

lemma ofObserved_steady (symbol : Value) : Steady (ofObserved b backend symbol) := by
  have hC := composes_steady
  refine hC.bind (b.provider_steady symbol) fun provider => ?_
  cases provider with
  | some f =>
    refine hC.bind (hC.lift _) fun isTimeDependent => hC.bind (hC.lift _) fun _ =>
      hC.bind (hC.lift _) fun _ => ?_
    cases isTimeDependent with
    | true => exact hC.bind (hC.lift _) fun _ => hC.pure _
    | false => exact hC.pure _
  | none =>
    refine hC.bind (hC.lift _) fun definition => ?_
    cases definition with
    | none => exact hC.throw _
    | some d =>
      exact hC.bind (hC.lift _) fun e =>
        hC.bind (Evaluator.compile_steady b e backend) fun f => hC.lift _

lemma ofSymbol_steady (symbol : Value) : Steady (ofSymbol b backend p symbol) := by
  have hC := composes_steady
  rw [ofSymbol_eq]
  refine hC.bind (hC.lift _) fun role => ?_
  cases role with
  | unknown => exact hC.throw _
  | state =>
    exact hC.bind (hC.lift _) fun _ => hC.bind (hC.lift _) fun _ =>
      hC.bind (hC.lift _) fun _ => hC.pure _
  | parameter =>
    exact hC.bind (hC.lift _) fun _ => hC.bind (hC.lift _) fun _ =>
      hC.bind (hC.lift _) fun _ => hC.pure _
  | independent => exact hC.bind (hC.lift _) fun _ => hC.bind (hC.lift _) fun _ => hC.pure _
  | observed => exact hC.bind (hC.lift _) fun _ => ofObserved_steady b backend symbol

mutual

lemma ofRequest_steady (q : Request) : Steady (ofRequest b backend p q) := by
  have hC := composes_steady
  match q with
  | .symbol _ symbol => exact ofSymbol_steady b backend p symbol
  | .expression e =>
    exact hC.bind (Evaluator.compile_steady b e backend) fun f =>
      hC.bind (hC.lift _) fun _ => hC.lift _
  | .sequence items _ => exact hC.bind (ofRequests_steady items) fun _ => hC.pure _
  | .array _ elements => exact hC.bind (ofRequests_steady elements) fun _ => hC.pure _

lemma ofRequests_steady (qs : List Request) : Steady (ofRequests b backend p qs) := by
  have hC := composes_steady
  match qs with
  | [] => exact hC.pure _
  | q :: qs =>
    exact hC.bind (ofRequest_steady q) fun _ => hC.bind (ofRequests_steady qs) fun _ => hC.pure _

end

/-- The readers of several requests are those of each, made one after the other. -/
lemma result_ofRequests (qs : List Request) :
    (ofRequests b backend p qs).result = qs.mapM fun q => (ofRequest b backend p q).result := by
  have hC := composes_steady
  induction qs with
  | nil => rfl
  | cons q qs ih =>
    have hrest (r : Reader) := hC.bind (ofRequests_steady b backend p qs) fun rs =>
      hC.pure (r :: rs)
    rw [ofRequests, result_bind hrest, List.mapM_cons, ← ih]
    congr 1
    funext r
    exact result_bind fun _ => hC.pure _

end Reader

/-! ### Builds for an object that nothing is kept for -/

namespace Factory

/-- No accessor of the object is kept. -/
def KeepsNothingFor (f : Factory) (object : Value) : Prop :=
  ∀ entry ∈ f.cache, entry.1.system.isObject object = false

/-- A system at the version of a build. This is what a build comes to before it looks at the
request. -/
def opened (s : System) (f : Factory) (version : Value) : Except Failure Bound := do
  let b ← Bound.of s version
  let _ ← s.reported b.version
  if f.isCaching && !Extra.isHashable b.version then .error (.fault .wrongType) else .ok b

variable {s : System} {f : Factory} {c : Build} {q : Request}

lemma keyedOn_of_normal (hq : Request.ofValue f.classifier c.request = .ok q) :
    f.keyedOn s c = (Bound.of s c.version).map fun b =>
      (⟨c.system, c.permission, q, b.version⟩, b) := by
  unfold keyedOn prepare
  rw [hq]
  cases hversion : c.version.isHashableClass with
  | false =>
    unfold Bound.of
    rw [hversion]
    rfl
  | true =>
    simp only [Bool.not_true, Bool.false_eq_true, if_false]
    cases Bound.of s c.version <;> rfl

lemma made_getter (hread : c.permission.isWrite = false) (b : Bound) (current : Option Value) :
    f.made c ⟨c.system, c.permission, q, b.version⟩ b current =
      (Reader.ofRequest b f.backend c.permission q).result.map fun r =>
        ⟨c.identity, .getter r, q, b.version⟩ := by
  have hplan : planFor f.backend b c.permission q =
      Reader.ofRequest b f.backend c.permission q >>= fun r => pure (.getter r) := by
    unfold planFor
    rw [hread]
    rfl
  have hsteady := composes_steady.bind (Reader.ofRequest_steady b f.backend c.permission q) fun r =>
    composes_steady.pure (AccessPlan.getter r)
  unfold made
  rw [hplan, hsteady, result_bind fun r => composes_steady.pure (AccessPlan.getter r)]
  cases (Reader.ofRequest b f.backend c.permission q).result <;> rfl

lemma lookup?_of_keepsNothing {object : Value} (hf : f.KeepsNothingFor object)
    (current : Option Value) {key : CacheKey} (hkey : key.system = object) :
    (f.forget object current).lookup? key = none := by
  unfold lookup?
  split
  · refine Assoc.find?_eq_none_iff.2 fun entry hentry => Bool.eq_false_iff.2 fun hsame => ?_
    have hobject := (CacheKey.of_same hsame).1
    rw [hkey, hf entry (mem_forget hentry)] at hobject
    cases hobject
  · rfl

/-- A getter of an object that nothing is kept for has the reader of the request. -/
lemma getter_of_keepsNothing (hf : f.KeepsNothingFor c.system)
    (hread : c.permission.isWrite = false)
    (hq : Request.ofValue f.classifier c.request = .ok q) :
    f.accessorOn s c = f.opened s c.version >>= fun b =>
      (Reader.ofRequest b f.backend c.permission q).result.map fun r =>
        ⟨c.identity, .getter r, q, b.version⟩ := by
  have h := congrArg Prod.snd (requestOn_eq s f c)
  change f.accessorOn s c = _ at h
  rw [h, keyedOn_of_normal hq]
  unfold opened
  cases Bound.of s c.version with
  | error e => rfl
  | ok b =>
    simp only [Except.map, Except.ok_bind]
    cases s.reported b.version with
    | error e => rfl
    | ok current =>
      simp only [Except.ok_bind, lookup?_of_keepsNothing hf current]
      cases f.isCaching && !Extra.isHashable b.version with
      | true => rfl
      | false =>
        simp only [made_getter hread, Bool.false_eq_true, if_false, Except.ok_bind]
        cases (Reader.ofRequest b f.backend c.permission q).result <;> rfl

end Factory

/-! ### The items of a request -/

/-- A request that is a list, a tuple or an array, with its items in order, and what makes the same
of other items. -/
inductive Value.HasItems : Value → List Value → (List Value → Except Failure Value) → Prop
  | list (items : List Value) : HasItems (.list items) items fun vs => .ok (.list vs)
  | tuple (items : List Value) : HasItems (.tuple items) items fun vs => .ok (.tuple vs)
  | objects (shape : List Nat) (items : List Value) :
    HasItems (.objects shape items) items fun vs => do
      (← (Value.list vs).assemble).reshape (shape.map fun (n : Nat) => .int n)
  | texts (width : Nat) (shape : List Nat) (items : List String) :
    HasItems (.texts width shape items) (items.map fun s => .string s true) fun vs => do
      (← (Value.list vs).assemble).reshape (shape.map fun (n : Nat) => .int n)
  | numbers (t : ElementType) (shape : List Nat) (items : List Number) :
    HasItems (.numbers t shape items) (items.map (.element t)) fun vs => do
      (← (Value.list vs).assemble).reshape (shape.map fun (n : Nat) => .int n)

namespace Request

variable {c : Classifier} {q : Request} {qs : List Request}

lemma ofValues_eq (c : Classifier) (vs : List Value) : ofValues c vs = vs.mapM (ofValue c) := by
  induction vs with
  | nil => rw [ofValues]; rfl
  | cons v vs ih => rw [ofValues, List.mapM_cons, ih]

lemma ofValue_of_ofLeaf {v : Value} (h : ofLeaf c v = .ok q) : ofValue c v = .ok q := by
  unfold ofLeaf at h
  split at h
  · rename_i hform
    rw [ofValue.eq_def, hform]
    exact h
  · cases h

/-- A request that is made of other requests, and what makes of their values its own. -/
inductive Wraps : Request → List Request → (List Value → Except Failure Value) → Prop
  | sequence (qs : List Request) (isTuple : Bool) :
    Wraps (.sequence qs isTuple) qs fun vs => .ok (if isTuple then .tuple vs else .list vs)
  | array (shape : List Index) (qs : List Request) :
    Wraps (.array shape qs) qs fun vs => do (← (Value.list vs).assemble).reshape shape

/-- The normal form of a request with items is made of the normal forms of the items. -/
lemma exists_wraps {v : Value} {items : List Value} {wrap : List Value → Except Failure Value}
    (h : v.HasItems items wrap) (hq : ofValue c v = .ok q) :
    ∃ qs, items.mapM (ofValue c) = .ok qs ∧ q.Wraps qs wrap := by
  cases h with
  | list =>
    rw [ofValue.eq_def] at hq
    obtain ⟨qs, hqs, hq⟩ := Except.eq_ok_of_bind (show _ >>= _ = _ from hq)
    cases hq
    exact ⟨qs, (ofValues_eq c items).symm.trans hqs, .sequence qs false⟩
  | tuple =>
    rw [ofValue.eq_def] at hq
    obtain ⟨qs, hqs, hq⟩ := Except.eq_ok_of_bind (show _ >>= _ = _ from hq)
    cases hq
    exact ⟨qs, (ofValues_eq c items).symm.trans hqs, .sequence qs true⟩
  | objects shape =>
    rw [ofValue.eq_def] at hq
    obtain ⟨qs, hqs, hq⟩ := Except.eq_ok_of_bind (show _ >>= _ = _ from hq)
    cases hq
    exact ⟨qs, (ofValues_eq c items).symm.trans hqs, .array _ qs⟩
  | texts width shape items =>
    rw [ofValue.eq_def] at hq
    obtain ⟨qs, hqs, hq⟩ := Except.eq_ok_of_bind (show _ >>= _ = _ from hq)
    cases hq
    refine ⟨qs, ?_, .array _ qs⟩
    rw [List.mapM_map]
    exact mapM_eq_ok_iff.2 ((mapM_eq_ok_iff.1 hqs).imp fun s q hs => ofValue_of_ofLeaf hs)
  | numbers t shape items =>
    rw [ofValue.eq_def] at hq
    cases items with
    | nil =>
      cases hq
      exact ⟨[], rfl, .array _ []⟩
    | cons n items => cases hq

end Request

namespace Reader

/-- The reader of a request that is made of others, from their readers. It gives what is made of
the values that these give. -/
lemma exists_reader_of_wraps {q : Request} {qs : List Request}
    {wrap : List Value → Except Failure Value} (h : q.Wraps qs wrap) :
    ∃ make : List Reader → Reader,
      (∀ b backend p, (ofRequest b backend p q).result =
        (qs.mapM fun q => (ofRequest b backend p q).result).map make) ∧
      ∀ i rs, (make rs).read i = readAll i rs >>= wrap := by
  have hresult (make : List Reader → Reader) (b : Bound) (backend : Backend) (p : Permission) :
      (ofRequests b backend p qs >>= fun rs => pure (make rs)).result =
        (qs.mapM fun q => (ofRequest b backend p q).result).map make := by
    rw [result_bind fun rs => composes_steady.pure (make rs), result_ofRequests]
    cases qs.mapM fun q => (ofRequest b backend p q).result <;> rfl
  cases h with
  | sequence qs isTuple =>
    refine ⟨fun rs => .sequence (ofItems rs) isTuple, fun b backend p => ?_, fun i rs => ?_⟩
    · rw [ofRequest]
      exact hresult _ b backend p
    · rw [read, read_ofItems]
      cases readAll i rs with
      | error e => rfl
      | ok vs => cases isTuple <;> rfl
  | array shape qs =>
    refine ⟨fun rs => .array (ofItems rs) shape, fun b backend p => ?_, fun i rs => ?_⟩
    · rw [ofRequest]
      exact hresult _ b backend p
    · rw [read, read_ofItems]
      cases readAll i rs <;> rfl

end Reader

/-! ### Getters one after the other -/

namespace Accessor

variable {s : System} {version : Extra} {a a' : Accessor} {r : Reader}

/-- A getter at a version, by its reader. -/
def IsGetter (version : Extra) (a : Accessor) (r : Reader) : Prop :=
  a.plan = .getter r ∧ a.version = version

lemma checkVersion_congr (h : a.version = a'.version) (s : System) :
    a.checkVersion s = a'.checkVersion s := by
  unfold checkVersion
  rw [h]

lemma IsGetter.get_eq (h : a.IsGetter version r) (s : System) :
    a.get s = a.checkVersion s >>= fun _ => r.read s.own := by
  unfold get
  rw [h.1]

/-- The version is checked by each getter, with the result that it has for any of them. -/
lemma mapM_get {as : List Accessor} {rs : List Reader}
    (h : List.Forall₂ (IsGetter version) as rs) (hne : as ≠ []) (ha : a.version = version)
    (s : System) :
    as.mapM (·.get s) = a.checkVersion s >>= fun _ => Reader.readAll s.own rs := by
  have hget {a' : Accessor} {r : Reader} (h' : a'.IsGetter version r) :
      a'.get s = a.checkVersion s >>= fun _ => r.read s.own := by
    rw [h'.get_eq, checkVersion_congr (h'.2.trans ha.symm)]
  cases hcheck : a.checkVersion s with
  | error e =>
    cases h with
    | nil => exact absurd rfl hne
    | cons h' _ =>
      rw [List.mapM_cons, hget h', hcheck]
      rfl
  | ok _ =>
    rw [hcheck] at hget
    rw [Except.ok_bind]
    clear hne
    induction h with
    | nil => rfl
    | cons h' _ ih =>
      rw [List.mapM_cons, hget h', Reader.readAll, ih]
      rfl

end Accessor

namespace Factory

section Items

variable {f : Factory} {s : System} {object version : Value} {p : Permission} {b : Bound}

/-- The reader of a request, from the value that is asked for. -/
def readerOf (f : Factory) (b : Bound) (p : Permission) (v : Value) : Except Failure Reader :=
  Request.ofValue f.classifier v >>= fun q => (Reader.ofRequest b f.backend p q).result

variable (hf : f.KeepsNothingFor object) (hread : p.isWrite = false) (k : Nat) {v : Value}
  {q : Request} (hq : Request.ofValue f.classifier v = .ok q)
include hf hread hq

lemma getter_of_error {e : Failure} (hopened : f.opened s version = .error e) :
    f.accessorOn s ⟨k, object, p, v, version⟩ = .error e := by
  rw [getter_of_keepsNothing hf hread hq, hopened]
  rfl

lemma getter_of_opened (hopened : f.opened s version = .ok b) :
    f.accessorOn s ⟨k, object, p, v, version⟩ =
      (f.readerOf b p v).map fun r => ⟨k, .getter r, q, b.version⟩ := by
  rw [getter_of_keepsNothing hf hread hq, hopened]
  unfold readerOf
  rw [hq]
  rfl

end Items

section Sequence

variable {f : Factory} {s : System} {object version request : Value} {p : Permission}
  {items : List Value} {b : Bound} (hf : f.KeepsNothingFor object) (hread : p.isWrite = false)
  (hnormal : ∀ x ∈ items, ∃ q, Request.ofValue f.classifier x = .ok q)
include hf hread hnormal

lemma mapM_getters_of_ok (hopened : f.opened s version = .ok b) (n : Nat) {rs : List Reader}
    (h : items.mapM (f.readerOf b p) = .ok rs) :
    ∃ as, items.mapM (fun x => f.accessorOn s ⟨n, object, p, x, version⟩) = .ok as ∧
      List.Forall₂ (Accessor.IsGetter b.version) as rs := by
  simp only [mapM_eq_ok_iff] at h ⊢
  induction h with
  | nil => exact ⟨[], .nil, .nil⟩
  | @cons x r items rs hx _ ih =>
    obtain ⟨as, has, hgetters⟩ := ih fun y hy => hnormal y (List.mem_cons_of_mem _ hy)
    obtain ⟨q, hq⟩ := hnormal x List.mem_cons_self
    refine ⟨⟨n, .getter r, q, b.version⟩ :: as, .cons ?_ has, .cons ⟨rfl, rfl⟩ hgetters⟩
    rw [getter_of_opened hf hread n hq hopened, hx]
    rfl

lemma mapM_getters_of_error (hopened : f.opened s version = .ok b) (n : Nat) {e : Failure}
    (h : items.mapM (f.readerOf b p) = .error e) :
    items.mapM (fun x => f.accessorOn s ⟨n, object, p, x, version⟩) = .error e := by
  obtain ⟨before, x, after, rfl, hbefore, hx⟩ := mapM_eq_error_iff.1 h
  refine mapM_eq_error_iff.2 ⟨before, x, after, rfl, fun y hy => ?_, ?_⟩
  · obtain ⟨r, hr⟩ := hbefore y hy
    obtain ⟨q, hq⟩ := hnormal y (List.mem_append_left _ hy)
    rw [getter_of_opened hf hread n hq hopened, hr]
    exact ⟨_, rfl⟩
  · obtain ⟨q, hq⟩ := hnormal x (by simp)
    rw [getter_of_opened hf hread n hq hopened, hx]
    rfl

/-- Where the system cannot be resolved, every getter fails alike. -/
lemma mapM_getters_of_unopened (hne : items ≠ []) {e : Failure}
    (hopened : f.opened s version = .error e) (n : Nat) :
    items.mapM (fun x => f.accessorOn s ⟨n, object, p, x, version⟩) = .error e := by
  obtain ⟨x, rest, rfl⟩ := List.exists_cons_of_ne_nil hne
  obtain ⟨q, hq⟩ := hnormal x List.mem_cons_self
  rw [List.mapM_cons, getter_of_error hf hread n hq hopened]
  rfl

end Sequence

/-- How the getter of a whole request is given by the getters of its items. -/
structure Positional (build : Value → Except Failure Accessor) (items : List Value)
    (wrap : List Value → Except Failure Value) (whole : Except Failure Accessor) : Prop where
  /-- It is built exactly if all the getters of items are. -/
  builds : (∃ a, whole = .ok a) ↔ ∀ x ∈ items, ∃ a, build x = .ok a
  /-- It fails as the first of them that fails. -/
  error (e : Failure) : whole = .error e ↔ ∃ before x after, items = before ++ x :: after ∧
    (∀ y ∈ before, ∃ a, build y = .ok a) ∧ build x = .error e
  /-- Called on a system, it makes one value of what they give, or fails as the first that fails. -/
  value (a : Accessor) : whole = .ok a → ∃ as,
    List.Forall₂ (fun x a' => build x = .ok a') items as ∧
      ∀ s, a.get s = as.mapM (·.get s) >>= wrap

/-- It is enough to build the getters of the items one after the other, up to the first that
fails. -/
lemma Positional.of_mapM {build : Value → Except Failure Accessor} {items : List Value}
    {wrap : List Value → Except Failure Value} {whole : Except Failure Accessor}
    (h : match items.mapM build with
      | .error e => whole = .error e
      | .ok as => ∃ a, whole = .ok a ∧ ∀ s, a.get s = as.mapM (·.get s) >>= wrap) :
    Positional build items wrap whole := by
  cases hrun : items.mapM build with
  | error e =>
    rw [hrun] at h
    rw [show whole = .error e from h]
    refine ⟨?_, fun e' => ?_, nofun⟩
    · rw [← exists_mapM_ok_iff, hrun]
      exact ⟨nofun, nofun⟩
    · rw [← mapM_eq_error_iff, hrun, Except.error.injEq, Except.error.injEq]
  | ok as =>
    rw [hrun] at h
    obtain ⟨a, rfl, hget⟩ := h
    refine ⟨?_, fun e' => ?_, fun a' ha' => ?_⟩
    · rw [← exists_mapM_ok_iff, hrun]
      exact ⟨fun _ => ⟨as, rfl⟩, fun _ => ⟨a, rfl⟩⟩
    · rw [← mapM_eq_error_iff, hrun]
      exact ⟨nofun, nofun⟩
    · cases ha'
      exact ⟨as, mapM_eq_ok_iff.1 hrun, hget⟩

/-- A getter of a list, of a tuple or of an array that holds anything is built as the getters of its
items are, and gives what they give, in order and in the same container. Without items there is no
getter to go by: the getter is built exactly if the system can be resolved, and once the version is
checked it gives an empty container. -/
theorem sequence_getter_positional (f : Factory) (s : System) (object version : Value)
    {request : Value} {p : Permission} {items : List Value}
    {wrap : List Value → Except Failure Value} {q : Request} (hf : f.KeepsNothingFor object)
    (hread : p.isWrite = false) (hitems : request.HasItems items wrap)
    (hq : Request.ofValue f.classifier request = .ok q) (m n : Nat) :
    let whole := f.accessorOn s ⟨m, object, p, request, version⟩
    (items ≠ [] →
      Positional (fun x => f.accessorOn s ⟨n, object, p, x, version⟩) items wrap whole) ∧
    (items = [] →
      (∀ e, whole = .error e ↔ f.opened s version = .error e) ∧
      ∀ a, whole = .ok a → ∀ s', a.get s' = a.checkVersion s' >>= fun _ => wrap []) := by
  intro whole
  obtain ⟨qs, hqs, hwraps⟩ := Request.exists_wraps hitems hq
  obtain ⟨make, hmake, hmakeRead⟩ := Reader.exists_reader_of_wraps hwraps
  have hnormal := exists_mapM_ok_iff.1 ⟨qs, hqs⟩
  have hreader (b : Bound) : f.readerOf b p request = (items.mapM (f.readerOf b p)).map make := by
    unfold readerOf
    rw [hq, Except.ok_bind, hmake, mapM_bind_of_ok hqs]
  cases hopened : f.opened s version with
  | error e =>
    have hwhole : whole = .error e := getter_of_error hf hread m hq hopened
    rw [hwhole]
    refine ⟨fun hne => .of_mapM ?_,
      fun _ => ⟨fun e' => by rw [Except.error.injEq, Except.error.injEq], nofun⟩⟩
    rw [mapM_getters_of_unopened hf hread hnormal hne hopened n]
  | ok b =>
    have hwhole : whole = (items.mapM (f.readerOf b p)).map fun rs =>
        ⟨m, .getter (make rs), q, b.version⟩ := by
      change f.accessorOn s ⟨m, object, p, request, version⟩ = _
      rw [getter_of_opened hf hread m hq hopened, hreader]
      cases items.mapM (f.readerOf b p) <;> rfl
    cases hrun : items.mapM (f.readerOf b p) with
    | ok rs =>
      obtain ⟨as, has, hgetters⟩ := mapM_getters_of_ok hf hread hnormal hopened n hrun
      let a : Accessor := ⟨m, .getter (make rs), q, b.version⟩
      have hget (s' : System) : a.get s' =
          a.checkVersion s' >>= fun _ => Reader.readAll s'.own rs >>= wrap := by
        rw [Accessor.IsGetter.get_eq ⟨rfl, rfl⟩ s', hmakeRead]
      rw [hwhole, hrun]
      refine ⟨fun hne => .of_mapM ?_, fun hempty => ⟨fun e => ⟨nofun, nofun⟩, fun a' ha' s' => ?_⟩⟩
      · rw [has]
        have hne' : as ≠ [] := by
          rintro rfl
          cases mapM_eq_ok_iff.1 has
          exact hne rfl
        have hversion : a.version = b.version := rfl
        refine ⟨a, rfl, fun s' => ?_⟩
        rw [hget, Accessor.mapM_get hgetters hne' hversion, bind_assoc]
      · cases ha'
        subst hempty
        cases hrun
        exact hget s'
    | error e =>
      rw [hwhole, hrun]
      refine ⟨fun _ => .of_mapM ?_, fun hempty => ?_⟩
      · rw [mapM_getters_of_error hf hread hnormal hopened n hrun]
        rfl
      · subst hempty
        cases hrun

namespace Nested

def a : Value := .text "a"

def x : Value := .text "x"

/-- A parameter, a pair and an array of one state. -/
def items : List Value := [a, .tuple [x, a], .texts 1 [1] ["x"]]

def layout : Layout where
  states := ⟨[("x", x)]⟩
  parameters := ⟨[("a", a)]⟩

def state : ProblemState := ⟨.none, .list [.int 5], .list [.int 7], .none, .none⟩

def system : System :=
  ⟨state.toInterface (fun _ => { className := "object" }) none, .ofLayout layout none⟩

def getters : List Accessor :=
  let xRequest : Request := .symbol "x" x
  let aRequest : Request := .symbol "a" a
  let element : Request := .symbol "x" (.string "x" true)
  [⟨0, .getter (.parameter (.int 0)), aRequest, none⟩,
    ⟨0, .getter (.sequence (.vector [.state (.int 0), .parameter (.int 0)]) true),
      .sequence [xRequest, aRequest] true, none⟩,
    ⟨0, .getter (.array (.gather .state [.int 0]) [.int 1]), .array [.int 1] [element], none⟩]

lemma built : List.Forall₂
    (fun v g => ({} : Factory).accessorOn system ⟨0, .none, .readAny, v, .none⟩ = .ok g)
    items getters :=
  .cons rfl (.cons rfl (.cons rfl .nil))

end Nested

/-- The first item comes from a parameter, the pair from both storages, and the array is
gathered. -/
theorem sequence_getter_positional_nested :
    ∃ g, ({} : Factory).accessorOn Nested.system
        ⟨1, .none, .readAny, .list Nested.items, .none⟩ = .ok g ∧
      g.get Nested.system =
        .ok (.list [.int 7, .tuple [.int 5, .int 7], .numbers .int64 [1] [.int 5]]) := by
  obtain ⟨h, -⟩ := sequence_getter_positional {} Nested.system .none .none (p := .readAny) nofun rfl
    (.list Nested.items) rfl 1 0
  have hpositional := h nofun
  have hgetters := mapM_eq_ok_iff.2 Nested.built
  obtain ⟨g, hg⟩ := hpositional.builds.2 (exists_mapM_ok_iff.1 ⟨_, hgetters⟩)
  obtain ⟨gs, hgs, hget⟩ := hpositional.value g hg
  cases hgetters.symm.trans (mapM_eq_ok_iff.2 hgs)
  exact ⟨g, hg, (hget Nested.system).trans rfl⟩

namespace Unversioned

/-- A versioned layout to which no version was added. -/
def container : Interface := .ofVersionedLayout ⟨[], {}, {}, .none⟩ none

def system : System := ⟨container, container⟩

end Unversioned

/-- A request without items has a normal form, and no getter of an item fails; but without a version
nothing is built. -/
theorem sequence_getter_positional_unversioned :
    Request.ofValue .standard (.list []) = .ok (.sequence [] false) ∧
      ¬ ((∃ g, ({} : Factory).accessorOn Unversioned.system
            ⟨1, .none, .readAny, .list [], .none⟩ = .ok g) ↔
          ∀ x ∈ ([] : List Value), ∃ g, ({} : Factory).accessorOn Unversioned.system
            ⟨0, .none, .readAny, x, .none⟩ = .ok g) := by
  refine ⟨rfl, fun h => ?_⟩
  obtain ⟨g, hg⟩ := h.2 nofun
  have herror : ({} : Factory).accessorOn Unversioned.system ⟨1, .none, .readAny, .list [], .none⟩ =
      .error (.versionMismatch .none .none) := rfl
  rw [herror] at hg
  cases hg

end Factory
end NamedSlots
