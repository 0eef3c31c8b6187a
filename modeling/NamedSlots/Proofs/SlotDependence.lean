import NamedSlots.Proofs.StateEvaluation

/-!
# The slots that an evaluator depends on

An evaluator reads its storages at the places to which its leaves are bound, and nowhere else. Two
calls whose storages have the same items there, and whose times are the same if the time is used,
have the same outcome. A storage or a time of which nothing is used need not be given.
-/

namespace NamedSlots

open Traced

namespace Evaluator

variable {f : Evaluator} {u p t u' p' t' : Value}

/-- Two calls find the same, or miss it alike, wherever an evaluator reads. -/
structure AgreeOn (f : Evaluator) (u p t u' p' t' : Value) : Prop where
  state (x : Expr) (i : Index) : (x, .state i) ∈ f.table.bindings → u.item i = u'.item i
  parameter (x : Expr) (i : Index) : (x, .parameter i) ∈ f.table.bindings → p.item i = p'.item i
  time : f.usesTime = true → t = t'

/-- The places of two lists agree if both have the same value there or both are too short. -/
lemma item_list_eq_iff {us us' : List Value} {i : Index} :
    (Value.list us).item i = (Value.list us').item i ↔
      (∃ v, (Value.list us).item i = .ok v ∧ (Value.list us').item i = .ok v) ∨
        (Value.list us).item i = failWith .outOfRange ∧
          (Value.list us').item i = failWith .outOfRange := by
  have hcases (vs : List Value) :
      (∃ v, (Value.list vs).item i = .ok v) ∨ (Value.list vs).item i = failWith .outOfRange := by
    change (∃ v, Value.pick vs i.toInt = .ok v) ∨ Value.pick vs i.toInt = failWith .outOfRange
    unfold Value.pick
    split
    · exact .inl ⟨_, rfl⟩
    · exact .inr rfl
  constructor
  · intro h
    rcases hcases us with ⟨v, hv⟩ | hout
    · exact .inl ⟨v, hv, h ▸ hv⟩
    · exact .inr ⟨hout, h ▸ hout⟩
  · rintro (⟨v, hv, hv'⟩ | ⟨hout, hout'⟩)
    · rw [hv, hv']
    · rw [hout, hout']

/-- Times of which none is used are accepted alike, if none is given where none is expected. -/
lemma checkTime_eq_of_not_uses (hexpected : f.isTimeDependent = false → t = .none)
    (huses : f.usesTime = false) : f.checkTime t = .ok () := by
  unfold checkTime
  rw [huses, Bool.and_false]
  cases hd : f.isTimeDependent with
  | true => rw [Bool.not_true, Bool.and_false]; rfl
  | false => rw [hexpected hd]; rfl

lemma checkTime_congr (hexpected : f.isTimeDependent = false → t = .none)
    (hexpected' : f.isTimeDependent = false → t' = .none) (h : f.usesTime = true → t = t') :
    f.checkTime t = f.checkTime t' := by
  cases huses : f.usesTime with
  | true => rw [h huses]
  | false =>
    rw [checkTime_eq_of_not_uses hexpected huses, checkTime_eq_of_not_uses hexpected' huses]

section Serves

variable {tables : Except Failure Layout} {e : Expr} (hf : f.Serves tables e)
include hf

lemma Serves.source_cases {x : Expr} {src : Source} (hmem : (x, src) ∈ f.table.bindings) :
    (∃ i, src = .state i) ∨ (∃ i, src = .parameter i) ∨ src = .time := by
  cases src with
  | state i => exact .inl ⟨i, rfl⟩
  | parameter i => exact .inr (.inl ⟨i, rfl⟩)
  | time => exact .inr (.inr rfl)
  | provider g =>
    obtain ⟨_, _, _, hm⟩ := hf.2 x _ (LeafTable.mem_bindings.1 hmem)
    exact absurd rfl (Layout.role_of_meaningOf hm)

/-- What an evaluator is bound to determines what it returns. -/
lemma Serves.call_congr (hexpected : f.isTimeDependent = false → t = .none)
    (hexpected' : f.isTimeDependent = false → t' = .none) (h : f.AgreeOn u p t u' p' t') :
    f.call u p t = f.call u' p' t' := by
  refine Evaluator.call_congr (checkTime_congr hexpected hexpected' h.time) fun x src hmem => ?_
  rcases hf.source_cases hmem with ⟨i, rfl⟩ | ⟨i, rfl⟩ | rfl
  · exact h.state x i hmem
  · exact h.parameter x i hmem
  · exact congrArg Except.ok (h.time (usesTime_of_mem hmem))

end Serves

lemma AgreeOn.of_not_usesStates (h : f.usesStates = false) (u u' p t : Value) :
    f.AgreeOn u p t u' p t where
  state x i hmem := by
    rw [usesStates_of_mem hmem] at h
    cases h
  parameter _ _ _ := rfl
  time _ := rfl

lemma AgreeOn.of_not_usesParameters (h : f.usesParameters = false) (u p p' t : Value) :
    f.AgreeOn u p t u p' t where
  state _ _ _ := rfl
  parameter x i hmem := by
    rw [usesParameters_of_mem hmem] at h
    cases h
  time _ := rfl

lemma AgreeOn.of_not_usesTime (h : f.usesTime = false) (u p t t' : Value) :
    f.AgreeOn u p t u p t' where
  state _ _ _ := rfl
  parameter _ _ _ := rfl
  time huses := by
    rw [huses] at h
    cases h

/-- An evaluator that is compiled for a layout is bound as the layout says, and expects a time
exactly if the layout has an independent variable. -/
lemma serves_of_ofValue {states parameters independent observed : Value} {l : Layout}
    (hl : Layout.build states parameters independent observed = .ok l) {identity : Option Nat}
    {v version : Value} {backend : Backend}
    (hf : Returns (ofValue (l.system identity) v version backend) f) :
    ∃ e, f.Serves (.ok l) e ∧ f.isTimeDependent = l.isTimeDependent := by
  obtain ⟨b, hb, h⟩ := hf.bind
  obtain ⟨e, _, h⟩ := h.bind
  rcases Bound.of_eq_ok hb.of_lift with ⟨_, rfl⟩ | ⟨hconstant, _⟩
  · refine ⟨e, serves_of_compile (l.answeredBy_system identity) h, ?_⟩
    obtain ⟨_, _, htime, _⟩ := of_compile h
    have hbound := isTimeDependent_bound (l.answeredBy identity) (Layout.independent_size hl)
    exact Except.ok.inj (htime.symm.trans hbound)
  · rw [l.isConstant_system identity] at hconstant
    cases hconstant

lemma ofValue_of_compile {l : Layout} {identity : Option Nat} {e : Expr} {backend : Backend}
    (h : Yields (compile (l.bound identity) e backend) (.ok f)) :
    Returns (ofValue (l.system identity) (.expr e) .none backend) f :=
  (yields_lift_bind (l.bound_of_system identity) (yields_lift_bind rfl h)).returns

end Evaluator

/-- Calls of an evaluator that agree on the slots it is bound to return the same value or fail in
the same way, and what it does not use can be left out. -/
theorem Evaluator.call_eq_of_agreeOn {states parameters independent observed : Value} {l : Layout}
    (hl : Layout.build states parameters independent observed = .ok l) (identity : Option Nat)
    {v version : Value} {backend : Backend} {f : Evaluator}
    (hf : Returns (Evaluator.ofValue (l.system identity) v version backend) f) :
    (∀ u p t u' p' t', (l.isTimeDependent = false → t = .none ∧ t' = .none) →
      f.AgreeOn u p t u' p' t' → f.call u p t = f.call u' p' t') ∧
    ∀ u p t, (l.isTimeDependent = false → t = .none) →
      (f.usesStates = false → f.call .none p t = f.call u p t) ∧
      (f.usesParameters = false → f.call u .none t = f.call u p t) ∧
      (f.usesTime = false → f.call u p .none = f.call u p t) := by
  obtain ⟨e, hserves, htime⟩ := Evaluator.serves_of_ofValue hl hf
  rw [← htime]
  constructor
  · intro u p t u' p' t' hexpected hagree
    exact hserves.call_congr (fun hd => (hexpected hd).1) (fun hd => (hexpected hd).2) hagree
  · intro u p t hexpected
    refine ⟨fun h => ?_, fun h => ?_, fun h => ?_⟩
    · exact hserves.call_congr hexpected hexpected (.of_not_usesStates h .none u p t)
    · exact hserves.call_congr hexpected hexpected (.of_not_usesParameters h u .none p t)
    · exact hserves.call_congr (fun _ => rfl) hexpected (.of_not_usesTime h u p .none t)

namespace Clocked

def state : Expr := .symbol (some "x")

def other : Expr := .symbol (some "y")

def rate : Expr := .symbol (some "k")

def clock : Expr := .symbol (some "t")

def double : Expr := .symbol (some "a")

def definition : Expr := .binary .add state state

def product : Expr := .binary .mul double rate

/-- Two states, a parameter, a time and an observed symbol for twice the first state. -/
def layout : Layout :=
  ⟨⟨[("x", .expr state), ("y", .expr other)]⟩, ⟨[("k", .expr rate)]⟩, ⟨[("t", .expr clock)]⟩,
    ⟨[("a", .expr double, definition)]⟩⟩

lemma build_layout :
    Layout.build (.list [.expr state, .expr other]) (.list [.expr rate]) (.expr clock)
      (.dict [(.expr double, .expr definition)]) = .ok layout := by
  rfl

/-- The product of the observed symbol and the parameter, bound to one state and the parameter. -/
def evaluator : Evaluator :=
  ⟨product, ⟨[(rate, .source (.parameter (.int 0))), (double, .definition definition),
    (state, .source (.state (.int 0)))]⟩, true, none, none⟩

lemma bind_product : Yields ((layout.bound none).bind true product) (.ok evaluator.table) := by
  have hsource {unvisited : List Expr} {table : LeafTable} {leaf : Expr} {src : Source}
      (hplain : leaf.IsPlainSymbol) (hnew : ¬ table.contains leaf = true)
      (hsrc : layout.meaningOf leaf = some (.source src)) :
      Yields ((layout.bound none).bindLeaf true unvisited table leaf)
        (.ok (table.insert leaf (.source src))) :=
    Bound.bindLeaf_of_source (layout.answeredBy none) (fun _ _ => rfl) hplain hnew hsrc
  let unvisited := product.scalarLeaves ++ (layout.system none).definitionLeaves none
  have hstate : Yields ((layout.bound none).bindLeaf true (Unvisited.enter unvisited double) {}
      state) (.ok (LeafTable.insert {} state (.source (.state (.int 0))))) :=
    hsource ⟨some "x", [], rfl⟩ Bool.false_ne_true rfl
  have hnew : ¬ LeafTable.contains {} double = true := Bool.false_ne_true
  have hinner : Yields ((layout.bound none).bindAll true (Unvisited.enter unvisited double) {}
      definition.scalarLeaves) (.ok (LeafTable.insert {} state (.source (.state (.int 0))))) :=
    Bound.bindAll_cons hstate Bound.bindAll_nil
  have hmay : Unvisited.mayEnter unvisited double = true := rfl
  have hdouble := Bound.bindLeaf_of_definition (layout.answeredBy none) ⟨some "a", [], rfl⟩
    hnew rfl hmay hinner
  exact Bound.bindAll_cons hdouble
    (Bound.bindAll_cons (hsource ⟨some "k", [], rfl⟩ Bool.false_ne_true rfl) Bound.bindAll_nil)

lemma ofValue_product :
    Returns (Evaluator.ofValue (layout.system none) (.expr product) .none .interpreter)
      evaluator := by
  have htime : (layout.bound none).isTimeDependent = .ok true := rfl
  exact Evaluator.ofValue_of_compile
    (yields_lift_bind htime (bind_product.bind_ok (yields_pure evaluator)))

/-- The state that is not bound and the time may differ. -/
lemma agreeOn : evaluator.AgreeOn (.list [.int 2, .int 7]) (.list [.int 3]) .none
    (.list [.int 2]) (.list [.int 3, .int 5]) (.int 4) where
  state x i hmem := by
    have hmem' : (x, Source.state i) ∈
      [(state, Source.state (.int 0)), (rate, Source.parameter (.int 0))] := hmem
    rcases List.mem_cons.1 hmem' with heq | hmem'
    · cases heq
      exact Evaluator.item_list_eq_iff.2 (.inl ⟨.int 2, rfl, rfl⟩)
    · cases List.mem_singleton.1 hmem'
  parameter x i hmem := by
    have hmem' : (x, Source.parameter i) ∈
      [(state, Source.state (.int 0)), (rate, Source.parameter (.int 0))] := hmem
    rcases List.mem_cons.1 hmem' with heq | hmem'
    · cases heq
    · cases List.mem_singleton.1 hmem'
      exact Evaluator.item_list_eq_iff.2 (.inl ⟨.int 3, rfl, rfl⟩)
  time h := by cases h

end Clocked

/-- The product depends on the first state and the parameter alone, at any time or none. -/
theorem Evaluator.call_eq_of_agreeOn_product :
    Clocked.evaluator.call (.list [.int 2, .int 7]) (.list [.int 3]) .none =
        Clocked.evaluator.call (.list [.int 2]) (.list [.int 3, .int 5]) (.int 4) ∧
      Clocked.evaluator.call (.list [.int 2]) (.list [.int 3]) .none =
        Clocked.evaluator.call (.list [.int 2]) (.list [.int 3]) (.int 4) := by
  obtain ⟨hagree, hunused⟩ :=
    Evaluator.call_eq_of_agreeOn Clocked.build_layout none Clocked.ofValue_product
  have htime : Clocked.layout.isTimeDependent = true := by decide
  refine ⟨hagree _ _ _ _ _ _ (fun h => ?_) Clocked.agreeOn, ?_⟩
  · rw [htime] at h
    cases h
  · refine (hunused _ _ (.int 4) fun h => ?_).2.2 (by decide)
    rw [htime] at h
    cases h

end NamedSlots
