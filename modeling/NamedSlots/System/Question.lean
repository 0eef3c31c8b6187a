import NamedSlots.System.Resolution

/-!
# Questions

What can be asked about a system, and by which route: at the current version unless another one
is named, at a version fixed beforehand, or with the version spelled out in every question.
-/

namespace NamedSlots

inductive Question
  | classify (symbol : Value)
  | locate (symbol : Value)
  | enumerate (role : Role)
  | allSolvable
  | allSymbols
  | isTimeDependent
  | definition (symbol : Value)
  | observedIndex (symbol : Value)
  | stateDependencies (symbol : Value)
  | observedSymbols

inductive Answer
  | role (r : Role)
  | index (i : Index)
  | symbols (vs : List Value)
  | flag (b : Bool)
  | expression (e : Option Expr)
  | position (n : Option Nat)

namespace Question

/-- The answer of a system, with the version argument that resolution methods take. -/
def answer (q : Question) (s : System) (extra : Extra) : Except Failure Answer := do
  match q with
  | classify symbol => return .role (← s.classify extra symbol)
  | locate symbol => return .index (← s.locate extra symbol)
  | enumerate role => return .symbols (← s.enumerate extra role)
  | allSolvable => return .symbols (← s.allSolvable extra)
  | allSymbols => return .symbols (← s.allSymbols extra)
  | isTimeDependent => return .flag (← s.isTimeDependent extra)
  | definition symbol => return .expression (← s.definition extra symbol)
  | observedIndex symbol => return .position (← s.observedIndex extra symbol)
  | stateDependencies symbol => return .symbols (← s.stateDependencies extra symbol)
  | observedSymbols => return .symbols (← s.enumerate extra .observed)

end Question

/-- How a question reaches a system. -/
inductive Route
  | direct
  | bound
  | resolver (isVersioned : Option Bool)

namespace Route

/-- Not every route takes every question. -/
def takes : Route → Question → Bool
  | direct, _ => true
  | bound, .classify _ | bound, .locate _ | bound, .enumerate _ | bound, .allSymbols
  | bound, .isTimeDependent | bound, .definition _ => true
  | bound, _ => false
  | resolver _, .observedSymbols => false
  | resolver _, _ => true

/-- The version argument of a resolver that spells the version out, or has none. -/
def extra (isVersioned : Bool) (version : Option Value) : Except Failure Extra :=
  match isVersioned, version with
  | false, none => return none
  | true, some v => if v.isHashableClass then return some v else failWith .badArgument
  | _, _ => failWith .wrongType

/-- Asks a system a question, with a version if one is given. -/
def ask (route : Route) (s : System) (version : Option Value) (q : Question) : Except Failure Answer := do
  match route with
  | resolver isVersioned =>
    let isVersioned ←
      match isVersioned with
      | some b => pure b
      | none => do pure !(← s.isConstant)
    if !route.takes q then failWith .missingAttribute
    q.answer s (← extra isVersioned version)
  | _ =>
    let b ← Bound.of s (version.getD .none)
    if !route.takes q then failWith .missingAttribute
    q.answer s b.version

end Route
end NamedSlots
