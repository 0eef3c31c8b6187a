import NamedSlots.System.Interface
import NamedSlots.Unvisited

/-!
# Resolution

What a symbol means to a system: its role, its place in storage, its definition, and the states
it depends on. The container of a system is asked; a structure version is passed along when the
system has versions. A symbol has one role, and a name enumerated under two roles is ambiguous.
-/

namespace NamedSlots

namespace Definitions

/-- The scalar symbols that the definitions of a table mention. -/
def leaves (d : Definitions) (extra : Extra) : List Expr :=
  match d.entries extra with
  | .error _ => []
  | .ok entries => entries.flatMap fun (_, v) =>
    match v.toExpr with
    | .ok e => e.scalarLeaves
    | .error _ => []

end Definitions

/-- Whether two unnamed symbols are one object. -/
def Value.isObject : Value → Value → Bool
  | .foreign a _ _, .foreign b _ _ => a.identity == b.identity
  | .handle a, .handle b => a.identity == b.identity
  | .none, .none => true
  | .number (.bool a), .number (.bool b) => a == b
  | _, _ => false

/-- Whether two symbols stand for one: by name, or as objects when neither has a name. -/
def Value.isSymbol (a b : Value) : Bool :=
  match a.key?, b.key? with
  | some x, some y => x == y
  | Option.none, Option.none => a.isObject b
  | _, _ => false

/-- Concatenates enumerations without repeats within a role; a symbol of two roles is ambiguous. -/
def disjointUnion (seen : List (Role × Value)) : List (Role × Value) → Except Failure (List Value)
  | [] => return []
  | (role, symbol) :: rest =>
    match seen.find? fun (_, other) => other.isSymbol symbol with
    | some (first, _) =>
      if first = role then disjointUnion seen rest else throw (.ambiguousSymbol symbol [first, role])
    | none => do return symbol :: (← disjointUnion ((role, symbol) :: seen) rest)

namespace System

def claims (s : System) (extra : Extra) (symbol : Value) : Except Failure (List Role) :=
  [Role.state, .parameter, .independent, .observed].filterM fun role =>
    match (s.container.predicate role).method? with
    | some f => f symbol extra
    | none => return false

def classify (s : System) (extra : Extra) (symbol : Value) : Except Failure Role :=
  match Classifier.standard.form symbol with
  | .notSymbolic => return .unknown
  | .array => throw (.unexpandedArray symbol)
  | .scalar => do
    match ← s.claims extra symbol with
    | [] => return .unknown
    | [role] => return role
    | roles => throw (.ambiguousSymbol symbol roles)

/-- The place of a symbol in the storage of its role, which has to be an integer. -/
def indexOf (s : System) (extra : Extra) (role : Role) (symbol : Value) : Except Failure Index := do
  let place ←
    match (s.container.index role).method? with
    | some f => f symbol extra
    | none => pure Value.none
  match place with
  | .none => throw (.unknownSymbol symbol "system returned no index")
  | place =>
    match place.toIndex? with
    | some i => return i
    | none => failWith .badResult

def locate (s : System) (extra : Extra) (symbol : Value) : Except Failure Index := do
  match ← s.classify extra symbol with
  | .state => s.indexOf extra .state symbol
  | .parameter => s.indexOf extra .parameter symbol
  | .unknown => throw (.unknownSymbol symbol "")
  | role => throw (.unknownSymbol symbol (role.name ++ " symbols have no storage index"))

def enumerate (s : System) (extra : Extra) (role : Role) : Except Failure (List Value) :=
  if role = .unknown then throw (.notEnumerable role)
  else
    match (s.container.symbols role).method? with
    | some f => do (← f extra).iterate
    | none => return []

def group (s : System) (extra : Extra) (role : Role) : Except Failure (List (Role × Value)) := do
  return (← s.enumerate extra role).map fun symbol => (role, symbol)

/-- States and observed symbols. -/
def allSolvable (s : System) (extra : Extra) : Except Failure (List Value) := do
  let states ← s.group extra .state
  let observed ← s.group extra .observed
  disjointUnion [] (states ++ observed)

/-- All symbols: states, observed symbols, parameters and the independent variable. -/
def allSymbols (s : System) (extra : Extra) : Except Failure (List Value) := do
  let states ← s.group extra .state
  let observed ← s.group extra .observed
  let parameters ← s.group extra .parameter
  let independent ← s.group extra .independent
  disjointUnion [] (states ++ observed ++ parameters ++ independent)

/-- Whether there is an independent variable; there is at most one. -/
def isTimeDependent (s : System) (extra : Extra) : Except Failure Bool := do
  let count := (← s.enumerate extra .independent).length
  if 1 < count then throw (.severalIndependent count) else return count == 1

def definition (s : System) (extra : Extra) (symbol : Value) : Except Failure (Option Expr) :=
  match s.container.definitions.method? with
  | none => return none
  | some d => do
    match ← d.find? symbol extra with
    | none | some .none => return none
    | some v => return some (← v.toExpr)

def definitionLeaves (s : System) (extra : Extra) : List Expr :=
  match s.container.definitions.method? with
  | none => []
  | some d => d.leaves extra

/-- The position of a name among the observed symbols. -/
def observedIndex (s : System) (extra : Extra) (symbol : Value) : Except Failure (Option Nat) := do
  return (← s.enumerate extra .observed).findIdx? fun other => other.key? == symbol.key?

/-- States by their place. -/
abbrev Dependencies := List (Index × Value)

mutual

/-- Collects the states that a symbol depends on. The names in `unvisited` are not under definition;
a definition that comes back to a name under definition is cyclic. -/
def visit (s : System) (extra : Extra) (unvisited : List (Option String)) (found : Dependencies)
    (symbol : Value) : Except Failure Dependencies := do
  match ← s.classify extra symbol with
  | .state => return Assoc.put (← s.locate extra symbol) symbol found
  | .observed =>
    if _h : Unvisited.mayEnter unvisited symbol.key? then
      match ← s.definition extra symbol with
      | none => return found
      | some e =>
        s.visitAll extra (Unvisited.enter unvisited symbol.key?) found (e.scalarLeaves.map Value.expr)
    else throw (.cyclicDefinition (some (symbol.key?.getD "None")))
  | _ => return found
termination_by (unvisited.length, 0)
decreasing_by exact Prod.Lex.left _ _ (Unvisited.length_enter_lt (by assumption))

def visitAll (s : System) (extra : Extra) (unvisited : List (Option String)) (found : Dependencies) :
    List Value → Except Failure Dependencies
  | [] => return found
  | symbol :: rest => do
    let found ← s.visit extra unvisited found symbol
    s.visitAll extra unvisited found rest
termination_by symbols => (unvisited.length, 1 + symbols.length)
decreasing_by
  · exact Prod.Lex.right _ (by simp only [List.length_cons]; omega)
  · exact Prod.Lex.right _ (by simp)

end

/-- The states that a symbol depends on, through definitions, in storage order. -/
def stateDependencies (s : System) (extra : Extra) (symbol : Value) : Except Failure (List Value) := do
  let leaves ← Classifier.standard.expand symbol
  let names := leaves.map Value.key? ++ (s.definitionLeaves extra).map fun e => (Value.expr e).key?
  let found ← s.visitAll extra names [] leaves
  return (found.mergeSort fun a b => a.1.toInt ≤ b.1.toInt).map (·.2)

end System

/-- A system at a fixed structure version; a system of constant structure has none. -/
structure Bound where
  system : System
  version : Extra

namespace Bound

/-- Fixes the version that is given, or else the current one. -/
def of (s : System) (version : Value) : Except Failure Bound := do
  if !version.isHashableClass then failWith .badArgument
  if ← s.isConstant then return ⟨s, none⟩
  let version ←
    match version with
    | .none => s.currentVersion
    | version => pure version
  match version with
  | .none => throw (.versionMismatch .none .none)
  | version => return ⟨s, some version⟩

def classify (b : Bound) (symbol : Value) : Except Failure Role := b.system.classify b.version symbol

def locate (b : Bound) (symbol : Value) : Except Failure Index := b.system.locate b.version symbol

def isTimeDependent (b : Bound) : Except Failure Bool := b.system.isTimeDependent b.version

def definition (b : Bound) (symbol : Value) : Except Failure (Option Expr) :=
  b.system.definition b.version symbol

end Bound
end NamedSlots
