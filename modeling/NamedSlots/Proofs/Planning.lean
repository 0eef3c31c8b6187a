import NamedSlots.Access.Factory
import NamedSlots.Proofs.TracedRun

/-!
# Planning by role

The plan of a symbol is made in two steps: the symbol is classified, and its role decides what is
looked up and which capabilities have to be offered. Whatever holds of all plans of symbols is read
off the cases that are given here.
-/

namespace NamedSlots

open Traced

/-- A system of constant structure is bound to no version, any other to the version that is given
or else to its current one. -/
lemma Bound.of_eq_ok {s : System} {version : Value} {b : Bound} (h : Bound.of s version = .ok b) :
    (s.isConstant = .ok true ∧ b = ⟨s, none⟩) ∨
      (s.isConstant = .ok false ∧ ∃ v, v ≠ .none ∧ b = ⟨s, some v⟩ ∧
        (version = .none ∧ s.currentVersion = .ok v ∨ version = v)) := by
  unfold Bound.of at h
  cases hhashable : version.isHashableClass with
  | false =>
    rw [hhashable] at h
    cases h
  | true =>
    simp only [hhashable, Bool.not_true, Bool.false_eq_true, if_false] at h
    obtain ⟨isConstant, hconstant, h⟩ := Except.eq_ok_of_bind h
    cases isConstant with
    | true =>
      cases h
      exact .inl ⟨hconstant, rfl⟩
    | false =>
      simp only [Bool.false_eq_true, if_false] at h
      split at h
      · obtain ⟨v, hcurrent, h⟩ := Except.eq_ok_of_bind h
        split at h
        · cases h
        · rename_i hne
          cases h
          exact .inr ⟨hconstant, v, hne, rfl, .inl ⟨rfl, hcurrent⟩⟩
      · obtain ⟨v, hv, h⟩ := Except.eq_ok_of_bind h
        cases hv
        split at h
        · cases h
        · rename_i hne
          cases h
          exact .inr ⟨hconstant, version, hne, rfl, .inr rfl⟩

namespace Reader

/-- The reader of a symbol of a role. -/
def ofRole (b : Bound) (backend : Backend) (p : Permission) (symbol : Value) : Role → Traced Reader
  | .unknown => throw (.unknownSymbol symbol "")
  | .state => do
    p.check symbol .state
    b.system.own.require .stateValues
    return state (← b.locate symbol)
  | .parameter => do
    p.check symbol .parameter
    b.system.own.require .parameterValues
    return parameter (← b.locate symbol)
  | .independent => do
    p.check symbol .independent
    b.system.own.require .currentTime
    return time
  | .observed => do
    p.check symbol .observed
    ofObserved b backend symbol

lemma ofSymbol_eq (b : Bound) (backend : Backend) (p : Permission) (symbol : Value) :
    ofSymbol b backend p symbol = liftM (b.classify symbol) >>= ofRole b backend p symbol := by
  unfold ofSymbol
  congr 1
  funext role
  cases role <;> rfl

/-- A reader that is made for a symbol, with what has been looked up, permitted and required for it. -/
inductive MadeFor (b : Bound) (backend : Backend) (p : Permission) (symbol : Value) : Reader → Prop
  | state {i : Index} (hrole : b.classify symbol = .ok .state)
      (hcheck : p.check symbol .state = .ok ())
      (hstates : b.system.own.require .stateValues = .ok ())
      (hplace : b.locate symbol = .ok i) : MadeFor b backend p symbol (.state i)
  | parameter {i : Index} (hrole : b.classify symbol = .ok .parameter)
      (hcheck : p.check symbol .parameter = .ok ())
      (hparameters : b.system.own.require .parameterValues = .ok ())
      (hplace : b.locate symbol = .ok i) : MadeFor b backend p symbol (.parameter i)
  | time (hrole : b.classify symbol = .ok .independent)
      (hcheck : p.check symbol .independent = .ok ())
      (htime : b.system.own.require .currentTime = .ok ()) : MadeFor b backend p symbol .time
  | provider {g : Provider} {isTimeDependent : Bool} (hrole : b.classify symbol = .ok .observed)
      (hcheck : p.check symbol .observed = .ok ())
      (hprovider : Returns (b.provider symbol) (some g))
      (hstates : b.system.own.require .stateValues = .ok ())
      (hparameters : b.system.own.require .parameterValues = .ok ())
      (htime : isTimeDependent = true → b.system.own.require .currentTime = .ok ()) :
      MadeFor b backend p symbol (.provider g isTimeDependent)
  | definition {d e : Expr} {f : Evaluator} (hrole : b.classify symbol = .ok .observed)
      (hcheck : p.check symbol .observed = .ok ())
      (hprovider : Returns (b.provider symbol) none)
      (hdefinition : b.definition symbol = .ok (some d)) (hexpr : symbol.toExpr = .ok e)
      (hcompile : Returns (Evaluator.compile b e backend) f)
      (hused : requireUsed b.system.own f = .ok ()) : MadeFor b backend p symbol (.expression f)

variable {b : Bound} {backend : Backend} {p : Permission} {symbol : Value} {r : Reader}

lemma madeFor_of_observed (hrole : b.classify symbol = .ok .observed)
    (hcheck : p.check symbol .observed = .ok ()) (h : Returns (ofObserved b backend symbol) r) :
    MadeFor b backend p symbol r := by
  obtain ⟨provider, hprovider, h⟩ := h.bind
  cases provider with
  | some g =>
    obtain ⟨isTimeDependent, _, h⟩ := h.bind
    obtain ⟨_, hstates, h⟩ := h.bind
    obtain ⟨_, hparameters, h⟩ := h.bind
    have hmade (htime : isTimeDependent = true → b.system.own.require .currentTime = .ok ()) :
        MadeFor b backend p symbol (.provider g isTimeDependent) :=
      .provider hrole hcheck hprovider hstates.of_lift hparameters.of_lift htime
    cases isTimeDependent with
    | true =>
      obtain ⟨_, htime, h⟩ := h.bind
      cases h.of_pure
      exact hmade fun _ => htime.of_lift
    | false =>
      cases h.of_pure
      exact hmade nofun
  | none =>
    obtain ⟨definition, hdefinition, h⟩ := h.bind
    cases definition with
    | none => exact absurd h not_returns_throw
    | some d =>
      obtain ⟨e, hexpr, h⟩ := h.bind
      obtain ⟨f, hcompile, h⟩ := h.bind
      obtain ⟨_, hused, h⟩ := Except.eq_ok_of_bind h.of_lift
      cases h
      exact .definition hrole hcheck hprovider hdefinition.of_lift hexpr.of_lift hcompile hused

lemma madeFor_of_symbol (h : Returns (ofSymbol b backend p symbol) r) :
    MadeFor b backend p symbol r := by
  rw [ofSymbol_eq] at h
  obtain ⟨role, hclassify, h⟩ := h.bind
  have hrole := hclassify.of_lift
  cases role with
  | unknown => exact absurd h not_returns_throw
  | state =>
    obtain ⟨_, hcheck, h⟩ := h.bind
    obtain ⟨_, hstates, h⟩ := h.bind
    obtain ⟨i, hplace, h⟩ := h.bind
    cases h.of_pure
    exact .state hrole hcheck.of_lift hstates.of_lift hplace.of_lift
  | parameter =>
    obtain ⟨_, hcheck, h⟩ := h.bind
    obtain ⟨_, hparameters, h⟩ := h.bind
    obtain ⟨i, hplace, h⟩ := h.bind
    cases h.of_pure
    exact .parameter hrole hcheck.of_lift hparameters.of_lift hplace.of_lift
  | independent =>
    obtain ⟨_, hcheck, h⟩ := h.bind
    obtain ⟨_, htime, h⟩ := h.bind
    cases h.of_pure
    exact .time hrole hcheck.of_lift htime.of_lift
  | observed =>
    obtain ⟨_, hcheck, h⟩ := h.bind
    exact madeFor_of_observed hrole hcheck.of_lift h

/-- Only a symbol of a permitted role gets a reader. -/
lemma MadeFor.exists_role (h : MadeFor b backend p symbol r) :
    ∃ role, b.classify symbol = .ok role ∧ role ≠ .unknown ∧ p.check symbol role = .ok () := by
  cases h with
  | state hrole hcheck => exact ⟨.state, hrole, nofun, hcheck⟩
  | parameter hrole hcheck => exact ⟨.parameter, hrole, nofun, hcheck⟩
  | time hrole hcheck => exact ⟨.independent, hrole, nofun, hcheck⟩
  | provider hrole hcheck => exact ⟨.observed, hrole, nofun, hcheck⟩
  | definition hrole hcheck => exact ⟨.observed, hrole, nofun, hcheck⟩

end Reader

namespace Writer

/-- The writer of a symbol of a role. -/
def ofRole (b : Bound) (p : Permission) (symbol : Value) (role : Role) : Except Failure Writer :=
  match role with
  | .unknown => throw (.unknownSymbol symbol "")
  | .observed | .independent =>
    throw (.notSettable symbol (role.name ++ " symbols have no storage slot"))
  | .state | .parameter => do
    p.check symbol role
    b.system.own.require (if role = .state then .stateValues else .parameterValues)
    return slot role (← b.locate symbol)

lemma ofSymbol_eq (b : Bound) (p : Permission) (symbol : Value) :
    ofSymbol b p symbol = b.classify symbol >>= ofRole b p symbol := by
  unfold ofSymbol
  congr 1

variable {b : Bound} {p : Permission} {symbol : Value} {role : Role} {w : Writer}

lemma ofRole_of_isStored (h : Interface.isStored role = true) :
    ofRole b p symbol role = (do
      p.check symbol role
      b.system.own.require (if role = .state then .stateValues else .parameterValues)
      return slot role (← b.locate symbol)) := by
  cases role with
  | state => rfl
  | parameter => rfl
  | _ => cases h

lemma isStored_of_role (h : ofRole b p symbol role = .ok w) : Interface.isStored role = true := by
  cases role with
  | state => rfl
  | parameter => rfl
  | _ => cases h

/-- The writer of a symbol writes to its slot, which is permitted and has storage. -/
lemma eq_slot_of_symbol (h : ofSymbol b p symbol = .ok w) :
    ∃ role i, w = slot role i ∧ Interface.isStored role = true ∧
      b.classify symbol = .ok role ∧ b.locate symbol = .ok i ∧ p.check symbol role = .ok () ∧
      b.system.own.require (if role = .state then .stateValues else .parameterValues) = .ok () := by
  rw [ofSymbol_eq] at h
  obtain ⟨role, hclassify, h⟩ := Except.eq_ok_of_bind h
  have hstored := isStored_of_role h
  rw [ofRole_of_isStored hstored] at h
  obtain ⟨_, hcheck, h⟩ := Except.eq_ok_of_bind h
  obtain ⟨_, hrequired, h⟩ := Except.eq_ok_of_bind h
  obtain ⟨i, hplace, h⟩ := Except.eq_ok_of_bind h
  cases h
  exact ⟨role, i, rfl, hstored, hclassify, hplace, hcheck, hrequired⟩

end Writer

/-- A plan that is made is that of a writer or that of a reader, as the permission says. -/
lemma Factory.planFor_cases {b : Bound} {backend : Backend} {p : Permission} {q : Request}
    {plan : AccessPlan} (h : Returns (planFor backend b p q) plan) :
    (p.isWrite = true ∧ ∃ w, Writer.ofRequest b p q = .ok w ∧ plan = .setter w) ∨
      p.isWrite = false ∧ ∃ r, Returns (Reader.ofRequest b backend p q) r ∧ plan = .getter r := by
  unfold planFor at h
  split at h
  · rename_i hwrite
    obtain ⟨w, hw, h⟩ := h.bind
    exact .inl ⟨hwrite, w, hw.of_lift, h.of_pure.symm⟩
  · rename_i hread
    obtain ⟨r, hr, h⟩ := h.bind
    exact .inr ⟨Bool.eq_false_iff.2 hread, r, hr, h.of_pure.symm⟩

namespace Evaluator

/-- What lowering adds to an evaluator. -/
def IsLowered (f : Evaluator) : Backend → Prop
  | .interpreter => f.lowered = none
  | .graph => ∃ graph, Graph.ofExpr .float f.table f.expr = .ok graph ∧ f.lowered = some graph

/-- An evaluator holds the expression, the version and the table of its compilation. -/
lemma of_compile {b : Bound} {e : Expr} {backend : Backend} {f : Evaluator}
    (h : Returns (compile b e backend) f) :
    f.expr = e ∧ f.version = b.version ∧ b.isTimeDependent = .ok f.isTimeDependent ∧
      Returns (b.bind f.isTimeDependent e) f.table ∧ f.IsLowered backend := by
  obtain ⟨isTimeDependent, htime, h⟩ := h.bind
  obtain ⟨table, htable, h⟩ := h.bind
  cases backend with
  | interpreter =>
    cases h.of_pure
    exact ⟨rfl, rfl, htime.of_lift, htable, rfl⟩
  | graph =>
    -- the graph is added after a warning or without one
    have hlowered (h : Returns (do
        let graph ← (Graph.ofExpr .float table e : Except Failure _)
        return (⟨e, table, isTimeDependent, b.version, some graph⟩ : Evaluator)) f) :
        f.expr = e ∧ f.version = b.version ∧ b.isTimeDependent = .ok f.isTimeDependent ∧
          Returns (b.bind f.isTimeDependent e) f.table ∧ f.IsLowered .graph := by
      obtain ⟨graph, hgraph, h⟩ := h.bind
      cases h.of_pure
      exact ⟨rfl, rfl, htime.of_lift, htable, graph, hgraph.of_lift, rfl⟩
    dsimp only at h
    split at h
    · split at h
      · obtain ⟨_, _, h⟩ := h.bind
        exact hlowered h
      · obtain ⟨_, hthrow, _⟩ := h.bind
        exact absurd hthrow not_returns_throw
    · exact hlowered h

end Evaluator
end NamedSlots
