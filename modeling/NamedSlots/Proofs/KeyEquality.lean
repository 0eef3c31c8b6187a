import NamedSlots.Access.Factory
import NamedSlots.Proofs.ExactComparison
import NamedSlots.Proofs.ScalarLeaf

/-!
# Equality of cache keys

Versions and requests are compared as keys: numbers by value, expressions by structure, objects by
identity. The comparison is symmetric and transitive. It is reflexive for requests in which no
constant is a NaN.
-/

namespace NamedSlots

/-! ### Comparisons -/

/-- A comparison is symmetric and transitive as far as it starts at an item. -/
structure ComparesAt {α : Type} (r : α → α → Bool) (a : α) : Prop where
  symm (b : α) : r a b = true → r b a = true
  trans (b c : α) : r a b = true → r b c = true → r a c = true

lemma ComparesAt.pair {α : Type} {r : α → α → Bool} {a b : α} (ha : ComparesAt r a)
    (hb : ComparesAt r b) : ComparesAt (fun x y => r x.1 y.1 && r x.2 y.2) (a, b) where
  symm y h := by
    obtain ⟨hfst, hsnd⟩ := Bool.and_eq_true_iff.1 h
    exact Bool.and_eq_true_iff.2 ⟨ha.symm y.1 hfst, hb.symm y.2 hsnd⟩
  trans y z h h' := by
    obtain ⟨hfst, hsnd⟩ := Bool.and_eq_true_iff.1 h
    obtain ⟨hfst', hsnd'⟩ := Bool.and_eq_true_iff.1 h'
    exact Bool.and_eq_true_iff.2 ⟨ha.trans y.1 z.1 hfst hfst', hb.trans y.2 z.2 hsnd hsnd'⟩

/-- Lists are compared item by item. -/
structure Itemwise {α : Type} (r : α → α → Bool) (rs : List α → List α → Bool) : Prop where
  nil : rs [] [] = true
  nil_cons (b : α) (bs : List α) : rs [] (b :: bs) = false
  cons_nil (a : α) (as : List α) : rs (a :: as) [] = false
  cons (a : α) (as : List α) (b : α) (bs : List α) : rs (a :: as) (b :: bs) = (r a b && rs as bs)

namespace Itemwise

variable {α : Type} {r : α → α → Bool} {rs : List α → List α → Bool}

lemma cons_iff (h : Itemwise r rs) {a : α} {as l : List α} :
    rs (a :: as) l = true ↔ ∃ b bs, l = b :: bs ∧ r a b = true ∧ rs as bs = true := by
  cases l with
  | nil =>
    rw [h.cons_nil]
    exact ⟨nofun, fun ⟨_, _, hl, _⟩ => by cases hl⟩
  | cons b bs =>
    rw [h.cons, Bool.and_eq_true]
    refine ⟨fun hb => ⟨b, bs, rfl, hb⟩, ?_⟩
    rintro ⟨_, _, hl, hb⟩
    cases hl
    exact hb

lemma comparesAt (h : Itemwise r rs) {as : List α} (has : ∀ a ∈ as, ComparesAt r a) :
    ComparesAt rs as := by
  have hnil {l : List α} (hl : rs [] l = true) : l = [] := by
    cases l with
    | nil => rfl
    | cons b bs =>
      rw [h.nil_cons] at hl
      cases hl
  induction as with
  | nil =>
    refine ⟨fun l hl => ?_, fun l l' hl hl' => ?_⟩
    · rw [hnil hl]
      exact h.nil
    · rw [hnil hl] at hl'
      exact hl'
  | cons a as ih =>
    obtain ⟨ha, has⟩ := List.forall_mem_cons.1 has
    refine ⟨fun l hl => ?_, fun l l' hl hl' => ?_⟩
    · obtain ⟨b, bs, rfl, hab, habs⟩ := h.cons_iff.1 hl
      exact h.cons_iff.2 ⟨a, as, rfl, ha.symm b hab, (ih has).symm bs habs⟩
    · obtain ⟨b, bs, rfl, hab, habs⟩ := h.cons_iff.1 hl
      obtain ⟨c, cs, rfl, hbc, hbcs⟩ := h.cons_iff.1 hl'
      exact h.cons_iff.2
        ⟨c, cs, rfl, ha.trans b c hab hbc, (ih has).trans bs cs habs hbcs⟩

end Itemwise

/-! ### Expressions -/

lemma Index.beq_iff {l l' : List Index} :
    (l == l') = true ↔ l.map Index.toInt = l'.map Index.toInt := by
  refine ⟨Expr.indices_eq_of_beq, fun h => ?_⟩
  induction l generalizing l' with
  | nil =>
    cases l' with
    | nil => rfl
    | cons j js => cases h
  | cons i is ih =>
    cases l' with
    | nil => cases h
    | cons j js =>
      injection h with hi his
      have hij : (i.toInt == j.toInt) = true := beq_iff_eq.2 hi
      exact Bool.and_eq_true_iff.2 ⟨hij, ih his⟩

/-- Values of constants are equal as floating numbers, or both are absent. -/
lemma Literal.beq_iff {a b : Option Literal} :
    (a == b) = true ↔ (a = none ∧ b = none) ∨
      ∃ x y, a = some x ∧ b = some y ∧ (x.number == y.number) = true := by
  cases a with
  | none =>
    cases b with
    | none => exact ⟨fun _ => .inl ⟨rfl, rfl⟩, fun _ => rfl⟩
    | some y =>
      refine ⟨nofun, ?_⟩
      rintro (⟨_, h⟩ | ⟨_, _, h, _⟩) <;> cases h
  | some x =>
    cases b with
    | none =>
      refine ⟨nofun, ?_⟩
      rintro (⟨h, _⟩ | ⟨_, _, _, h, _⟩) <;> cases h
    | some y =>
      refine ⟨fun h => .inr ⟨x, y, rfl, rfl, h⟩, ?_⟩
      rintro (⟨h, _⟩ | ⟨_, _, h, h', hxy⟩)
      · cases h
      · cases h
        cases h'
        exact hxy

lemma Label.beq_iff {a b : Label} :
    (a == b) = true ↔ a.name = b.name ∧ (a.value == b.value) = true ∧
      a.indices.map Index.toInt = b.indices.map Index.toInt ∧
      a.shape.map Index.toInt = b.shape.map Index.toInt := by
  change (a.name == b.name && a.value == b.value && a.indices == b.indices &&
    a.shape == b.shape) = true ↔ _
  simp only [Bool.and_eq_true, beq_iff_eq, Index.beq_iff, and_assoc]

instance : PartialEquivBEq Label where
  symm h := by
    obtain ⟨hname, hvalue, hindices, hshape⟩ := Label.beq_iff.1 h
    refine Label.beq_iff.2 ⟨hname.symm, ?_, hindices.symm, hshape.symm⟩
    rcases Literal.beq_iff.1 hvalue with ⟨ha, hb⟩ | ⟨x, y, ha, hb, hxy⟩
    · exact Literal.beq_iff.2 (.inl ⟨hb, ha⟩)
    · exact Literal.beq_iff.2 (.inr ⟨y, x, hb, ha, PartialEquivBEq.symm hxy⟩)
  trans h h' := by
    obtain ⟨hname, hvalue, hindices, hshape⟩ := Label.beq_iff.1 h
    obtain ⟨hname', hvalue', hindices', hshape'⟩ := Label.beq_iff.1 h'
    refine Label.beq_iff.2
      ⟨hname.trans hname', ?_, hindices.trans hindices', hshape.trans hshape'⟩
    rcases Literal.beq_iff.1 hvalue with ⟨ha, hb⟩ | ⟨x, y, ha, hb, hxy⟩
    · rw [ha, ← hb]
      exact hvalue'
    · rcases Literal.beq_iff.1 hvalue' with ⟨hb', _⟩ | ⟨y', z, hb', hc, hyz⟩
      · rw [hb] at hb'
        cases hb'
      · cases hb.symm.trans hb'
        exact Literal.beq_iff.2 (.inr ⟨x, z, ha, hc, PartialEquivBEq.trans hxy hyz⟩)

namespace Expr

lemma same_iff {k k' : Kind} {cs cs' : List Expr} {l l' : Label} :
    same (node k cs l) (node k' cs' l') = true ↔
      k = k' ∧ sameAll cs cs' = true ∧ (l == l') = true := by
  rw [same]
  simp only [Bool.and_eq_true, decide_eq_true_eq, and_assoc]

lemma itemwise_sameAll : Itemwise same sameAll :=
  ⟨rfl, fun _ _ => rfl, fun _ _ => rfl, fun _ _ _ _ => rfl⟩

lemma comparesAt_same (e : Expr) : ComparesAt same e := by
  induction e using inductionOn with
  | node k cs l ih =>
    have hcs := itemwise_sameAll.comparesAt ih
    constructor
    · rintro ⟨k', cs', l'⟩ h
      obtain ⟨hkind, hchildren, hlabel⟩ := same_iff.1 h
      exact same_iff.2 ⟨hkind.symm, hcs.symm cs' hchildren, PartialEquivBEq.symm hlabel⟩
    · rintro ⟨k', cs', l'⟩ ⟨k'', cs'', l''⟩ h h'
      obtain ⟨hkind, hchildren, hlabel⟩ := same_iff.1 h
      obtain ⟨hkind', hchildren', hlabel'⟩ := same_iff.1 h'
      exact same_iff.2 ⟨hkind.trans hkind', hcs.trans cs' cs'' hchildren hchildren',
        PartialEquivBEq.trans hlabel hlabel'⟩

instance : PartialEquivBEq Expr where
  symm h := (comparesAt_same _).symm _ h
  trans h h' := (comparesAt_same _).trans _ _ h h'

mutual

/-- No constant is a NaN. -/
def NaNFree : Expr → Prop
  | node _ cs l => AllNaNFree cs ∧ ∀ x, l.value = some x → x.number.isNaN = false

def AllNaNFree : List Expr → Prop
  | [] => True
  | c :: cs => NaNFree c ∧ AllNaNFree cs

end

lemma label_beq_self {l : Label} (h : ∀ x, l.value = some x → x.number.isNaN = false) :
    (l == l) = true := by
  refine Label.beq_iff.2 ⟨rfl, Literal.beq_iff.2 ?_, rfl, rfl⟩
  cases hvalue : l.value with
  | none => exact .inl ⟨rfl, rfl⟩
  | some x =>
    have hnan := h x hvalue
    rw [Float.isNaN_eq_decide_eq_nan, decide_eq_false_iff_not] at hnan
    exact .inr ⟨x, x, rfl, rfl, Float.beq_self_iff.2 hnan⟩

mutual

lemma same_self (e : Expr) (h : e.NaNFree) : same e e = true := by
  obtain ⟨k, cs, l⟩ := e
  exact same_iff.2 ⟨rfl, sameAll_self cs h.1, label_beq_self h.2⟩

lemma sameAll_self (es : List Expr) (h : AllNaNFree es) : sameAll es es = true := by
  match es with
  | [] => rfl
  | e :: es => exact Bool.and_eq_true_iff.2 ⟨same_self e h.1, sameAll_self es h.2⟩

end

end Expr

/-! ### Requests -/

namespace Request

lemma itemwise_sameAll : Itemwise same sameAll :=
  ⟨rfl, fun _ _ => rfl, fun _ _ => rfl, fun _ _ _ _ => rfl⟩

mutual

lemma comparesAt_same (q : Request) : ComparesAt same q where
  symm r h := by
    cases q <;> cases r <;> try cases h
    · exact beq_iff_eq.2 (eq_of_beq h).symm
    · obtain ⟨hshape, hitems⟩ := Bool.and_eq_true_iff.1 h
      exact Bool.and_eq_true_iff.2 ⟨Index.beq_iff.2 (Index.beq_iff.1 hshape).symm,
        (itemwise_sameAll.comparesAt (forall_comparesAt _)).symm _ hitems⟩
    · obtain ⟨hitems, htuple⟩ := Bool.and_eq_true_iff.1 h
      exact Bool.and_eq_true_iff.2 ⟨(itemwise_sameAll.comparesAt (forall_comparesAt _)).symm _ hitems,
        beq_iff_eq.2 (eq_of_beq htuple).symm⟩
    · exact (Expr.comparesAt_same _).symm _ h
  trans r r' h h' := by
    cases r <;> cases q <;> (try cases h) <;> cases r' <;> try cases h'
    · exact beq_iff_eq.2 ((eq_of_beq h).trans (eq_of_beq h'))
    · obtain ⟨hshape, hitems⟩ := Bool.and_eq_true_iff.1 h
      obtain ⟨hshape', hitems'⟩ := Bool.and_eq_true_iff.1 h'
      exact Bool.and_eq_true_iff.2
        ⟨Index.beq_iff.2 ((Index.beq_iff.1 hshape).trans (Index.beq_iff.1 hshape')),
          (itemwise_sameAll.comparesAt (forall_comparesAt _)).trans _ _ hitems hitems'⟩
    · obtain ⟨hitems, htuple⟩ := Bool.and_eq_true_iff.1 h
      obtain ⟨hitems', htuple'⟩ := Bool.and_eq_true_iff.1 h'
      exact Bool.and_eq_true_iff.2
        ⟨(itemwise_sameAll.comparesAt (forall_comparesAt _)).trans _ _ hitems hitems',
          beq_iff_eq.2 ((eq_of_beq htuple).trans (eq_of_beq htuple'))⟩
    · exact (Expr.comparesAt_same _).trans _ _ h h'

lemma forall_comparesAt (qs : List Request) : ∀ q ∈ qs, ComparesAt same q := by
  match qs with
  | [] => exact List.forall_mem_nil _
  | q :: qs => exact List.forall_mem_cons.2 ⟨comparesAt_same q, forall_comparesAt qs⟩

end

instance : PartialEquivBEq Request where
  symm h := (comparesAt_same _).symm _ h
  trans h h' := (comparesAt_same _).trans _ _ h h'

mutual

/-- No constant of an expression is a NaN. -/
def NaNFree : Request → Prop
  | symbol _ _ => True
  | array _ elements => AllNaNFree elements
  | sequence items _ => AllNaNFree items
  | expression e => e.NaNFree

def AllNaNFree : List Request → Prop
  | [] => True
  | q :: qs => NaNFree q ∧ AllNaNFree qs

end

mutual

lemma same_self (q : Request) (h : q.NaNFree) : same q q = true := by
  match q with
  | .symbol name _ => exact beq_self_eq_true name
  | .array shape elements =>
    exact Bool.and_eq_true_iff.2 ⟨Index.beq_iff.2 rfl, sameAll_self elements h⟩
  | .sequence items isTuple =>
    exact Bool.and_eq_true_iff.2 ⟨sameAll_self items h, beq_self_eq_true isTuple⟩
  | .expression e => exact Expr.same_self e h

lemma sameAll_self (qs : List Request) (h : AllNaNFree qs) : sameAll qs qs = true := by
  match qs with
  | [] => rfl
  | q :: qs => exact Bool.and_eq_true_iff.2 ⟨same_self q h.1, sameAll_self qs h.2⟩

end

end Request

/-! ### Versions -/

namespace Term

lemma itemwise_sameAll : Itemwise same sameAll :=
  ⟨rfl, fun _ _ => rfl, fun _ _ => rfl, fun _ _ _ _ => rfl⟩

lemma itemwise_sameBranches :
    Itemwise (fun x y => same x.1 y.1 && same x.2 y.2) sameBranches :=
  ⟨rfl, fun _ _ => rfl, fun _ _ => rfl, fun _ _ _ _ => rfl⟩

mutual

lemma comparesAt_same (t : Term) : ComparesAt same t where
  symm a h := by
    cases t <;> cases a <;> try cases h
    case float.float => exact PartialEquivBEq.symm (α := Float) h
    case piecewise.piecewise =>
      exact (itemwise_sameBranches.comparesAt (forall_comparesAt_pair _)).symm _ h
    case apply.apply =>
      obtain ⟨hhead, hargs⟩ := Bool.and_eq_true_iff.1 h
      exact Bool.and_eq_true_iff.2 ⟨beq_iff_eq.2 (eq_of_beq hhead).symm,
        (itemwise_sameAll.comparesAt (forall_comparesAt _)).symm _ hargs⟩
    all_goals simp_all [same]
  trans a b h h' := by
    cases a <;> cases t <;> (try cases h) <;> cases b <;> try cases h'
    case float.float.float => exact PartialEquivBEq.trans (α := Float) h h'
    case piecewise.piecewise.piecewise =>
      exact (itemwise_sameBranches.comparesAt (forall_comparesAt_pair _)).trans _ _ h h'
    case apply.apply.apply =>
      obtain ⟨hhead, hargs⟩ := Bool.and_eq_true_iff.1 h
      obtain ⟨hhead', hargs'⟩ := Bool.and_eq_true_iff.1 h'
      exact Bool.and_eq_true_iff.2 ⟨beq_iff_eq.2 ((eq_of_beq hhead).trans (eq_of_beq hhead')),
        (itemwise_sameAll.comparesAt (forall_comparesAt _)).trans _ _ hargs hargs'⟩
    all_goals simp_all [same]

lemma forall_comparesAt (ts : List Term) : ∀ t ∈ ts, ComparesAt same t := by
  match ts with
  | [] => exact List.forall_mem_nil _
  | t :: ts => exact List.forall_mem_cons.2 ⟨comparesAt_same t, forall_comparesAt ts⟩

lemma forall_comparesAt_pair (bs : List (Term × Term)) :
    ∀ b ∈ bs, ComparesAt (fun x y => same x.1 y.1 && same x.2 y.2) b := by
  match bs with
  | [] => exact List.forall_mem_nil _
  | (v, c) :: bs =>
    exact List.forall_mem_cons.2
      ⟨.pair (comparesAt_same v) (comparesAt_same c), forall_comparesAt_pair bs⟩

end

end Term

namespace Value

lemma itemwise_sameAll : Itemwise same sameAll :=
  ⟨rfl, fun _ _ => rfl, fun _ _ => rfl, fun _ _ _ _ => rfl⟩

lemma itemwise_sameEntries :
    Itemwise (fun x y => same x.1 y.1 && same x.2 y.2) sameEntries :=
  ⟨rfl, fun _ _ => rfl, fun _ _ => rfl, fun _ _ _ _ => rfl⟩

mutual

lemma comparesAt_same (v : Value) : ComparesAt same v where
  symm w h := by
    cases v <;> cases w <;> try cases h
    case none.none => rfl
    case number.number => exact Number.same_symm h
    case number.element => exact Number.same_symm h
    case element.number => exact Number.same_symm h
    case element.element => exact Number.same_symm h
    case string.string => exact beq_iff_eq.2 (eq_of_beq h).symm
    case list.list => exact (itemwise_sameAll.comparesAt (forall_comparesAt _)).symm _ h
    case tuple.tuple => exact (itemwise_sameAll.comparesAt (forall_comparesAt _)).symm _ h
    case dict.dict =>
      exact (itemwise_sameEntries.comparesAt (forall_comparesAt_pair _)).symm _ h
    case expr.expr => exact (Expr.comparesAt_same _).symm _ h
    case term.term => exact (Term.comparesAt_same _).symm _ h
    case foreign.foreign => exact beq_iff_eq.2 (eq_of_beq h).symm
    case handle.handle => exact beq_iff_eq.2 (eq_of_beq h).symm
  trans u w h h' := by
    cases u <;> cases v <;> (try cases h) <;> cases w <;> try cases h'
    case string.string.string => exact beq_iff_eq.2 ((eq_of_beq h).trans (eq_of_beq h'))
    case list.list.list => exact (itemwise_sameAll.comparesAt (forall_comparesAt _)).trans _ _ h h'
    case tuple.tuple.tuple => exact (itemwise_sameAll.comparesAt (forall_comparesAt _)).trans _ _ h h'
    case dict.dict.dict =>
      exact (itemwise_sameEntries.comparesAt (forall_comparesAt_pair _)).trans _ _ h h'
    case expr.expr.expr => exact (Expr.comparesAt_same _).trans _ _ h h'
    case term.term.term => exact (Term.comparesAt_same _).trans _ _ h h'
    case foreign.foreign.foreign => exact beq_iff_eq.2 ((eq_of_beq h).trans (eq_of_beq h'))
    case handle.handle.handle => exact beq_iff_eq.2 ((eq_of_beq h).trans (eq_of_beq h'))
    -- what is left is the value that is none, and numbers, plain or as elements
    all_goals first | rfl | exact Number.same_trans h h'

lemma forall_comparesAt (vs : List Value) : ∀ v ∈ vs, ComparesAt same v := by
  match vs with
  | [] => exact List.forall_mem_nil _
  | v :: vs => exact List.forall_mem_cons.2 ⟨comparesAt_same v, forall_comparesAt vs⟩

lemma forall_comparesAt_pair (vs : List (Value × Value)) :
    ∀ v ∈ vs, ComparesAt (fun x y => same x.1 y.1 && same x.2 y.2) v := by
  match vs with
  | [] => exact List.forall_mem_nil _
  | (k, v) :: vs =>
    exact List.forall_mem_cons.2
      ⟨.pair (comparesAt_same k) (comparesAt_same v), forall_comparesAt_pair vs⟩

end

instance : PartialEquivBEq Value where
  symm h := (comparesAt_same _).symm _ h
  trans h h' := (comparesAt_same _).trans _ _ h h'

lemma eq_none_of_beq {v : Value} (h : (Value.none == v) = true) : v = .none := by
  cases v <;> first | rfl | cases h

/-- What an object is known by. -/
def identity? : Value → Option (Nat ⊕ Nat ⊕ Option Bool)
  | .foreign a _ _ => some (.inl a.identity)
  | .handle a => some (.inr (.inl a.identity))
  | .none => some (.inr (.inr .none))
  | .number (.bool b) => some (.inr (.inr (some b)))
  | _ => .none

lemma isObject_iff {v w : Value} :
    v.isObject w = true ↔ ∃ k, v.identity? = some k ∧ w.identity? = some k := by
  constructor
  · intro h
    unfold isObject at h
    split at h
    · exact ⟨_, rfl, by rw [eq_of_beq h]; rfl⟩
    · exact ⟨_, rfl, by rw [eq_of_beq h]; rfl⟩
    · exact ⟨_, rfl, rfl⟩
    · exact ⟨_, rfl, by rw [eq_of_beq h]; rfl⟩
    · cases h
  · rintro ⟨k, hv, hw⟩
    unfold identity? at hv hw
    split at hv <;> cases hv <;> split at hw <;> simp_all [isObject]

lemma isObject_symm {v w : Value} (h : v.isObject w = true) : w.isObject v = true := by
  obtain ⟨k, hv, hw⟩ := isObject_iff.1 h
  exact isObject_iff.2 ⟨k, hw, hv⟩

lemma isObject_trans {u v w : Value} (h : u.isObject v = true) (h' : v.isObject w = true) :
    u.isObject w = true := by
  obtain ⟨k, hu, hv⟩ := isObject_iff.1 h
  obtain ⟨k', hv', hw⟩ := isObject_iff.1 h'
  cases hv.symm.trans hv'
  exact isObject_iff.2 ⟨k, hu, hw⟩

end Value

/-! ### Keys -/

namespace CacheKey

variable {key key' : CacheKey}

/-- Keys are equal if they are of one object and permission, for equal requests and versions. -/
lemma beq_iff : (key == key') = true ↔
    key.system.isObject key'.system = true ∧ key.permission = key'.permission ∧
      (key.request == key'.request) = true ∧
      ((key.version = none ∧ key'.version = none) ∨
        ∃ v v', key.version = some v ∧ key'.version = some v' ∧ (v == v') = true) := by
  have hversion : (key == key') =
      (key.system.isObject key'.system && decide (key.permission = key'.permission) &&
        key.request == key'.request && key.version == key'.version) := by
    obtain ⟨_, _, _, version⟩ := key
    obtain ⟨_, _, _, version'⟩ := key'
    cases version <;> cases version' <;> rfl
  rw [hversion]
  simp only [Bool.and_eq_true, decide_eq_true_eq, and_assoc]
  cases key.version <;> cases key'.version <;> simp

instance : PartialEquivBEq CacheKey where
  symm h := by
    obtain ⟨hsystem, hpermission, hrequest, hversion⟩ := beq_iff.1 h
    refine beq_iff.2 ⟨Value.isObject_symm hsystem, hpermission.symm,
      PartialEquivBEq.symm hrequest, ?_⟩
    rcases hversion with ⟨hv, hv'⟩ | ⟨v, v', hv, hv', hequal⟩
    · exact .inl ⟨hv', hv⟩
    · exact .inr ⟨v', v, hv', hv, PartialEquivBEq.symm hequal⟩
  trans h h' := by
    obtain ⟨hsystem, hpermission, hrequest, hversion⟩ := beq_iff.1 h
    obtain ⟨hsystem', hpermission', hrequest', hversion'⟩ := beq_iff.1 h'
    refine beq_iff.2 ⟨Value.isObject_trans hsystem hsystem', hpermission.trans hpermission',
      PartialEquivBEq.trans hrequest hrequest', ?_⟩
    rcases hversion with ⟨hv, hv'⟩ | ⟨v, v', hv, hv', hequal⟩
    · rcases hversion' with ⟨_, hw⟩ | ⟨w, _, hw, _, _⟩
      · exact .inl ⟨hv, hw⟩
      · rw [hv'] at hw
        cases hw
    · rcases hversion' with ⟨hw, _⟩ | ⟨w, w', hw, hw', hequal'⟩
      · rw [hv'] at hw
        cases hw
      · cases hv'.symm.trans hw
        exact .inr ⟨v, w', hv, hw', PartialEquivBEq.trans hequal hequal'⟩

end CacheKey
end NamedSlots
