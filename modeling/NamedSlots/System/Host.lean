import NamedSlots.System.Query
import NamedSlots.Value.Functions

/-!
# Host objects

A host is an object described by the attributes it has. A method of a host answers from a list
of names, a table or a fixed value, which may depend on the structure version that is passed.
A provider of an observed quantity is a linear function of the storage.
-/

namespace NamedSlots

/-- Something that may depend on the structure version. -/
inductive Choice (α : Type)
  | always (a : α)
  | byVersion (cases : List (Value × α))

namespace Choice

/-- What stands for a version; without a version it is the first case. -/
def pick? : Choice α → Extra → Option α
  | always a, _ => some a
  | byVersion cases, none => cases.head?.map (·.2)
  | byVersion cases, some version => Assoc.find? version cases

end Choice

/-- A constant plus multiples of state items, of parameter items and, when there is one, of the time. -/
structure LinearProvider where
  states : List Number := []
  parameters : List Number := []
  time : Number := .real 0.0
  offset : Number := .real 0.0

namespace LinearProvider

/-- Adds the multiples of the items of a storage, starting at a given place. -/
def addItems (storage : Value) (place : Nat) (total : Value) : List Number → Except Failure Value
  | [] => return total
  | c :: cs => do
    let term ← Value.binaryOperator .mul (.number c) (← storage.item (.int place))
    addItems storage (place + 1) (← Value.binaryOperator .add total term) cs

def provider (l : LinearProvider) : Provider := fun u p t => do
  let total ← addItems u 0 (.number l.offset) l.states
  let total ← addItems p 0 total l.parameters
  match t with
  | none => return total
  | some t => Value.binaryOperator .add total (← Value.binaryOperator .mul (.number l.time) t)

end LinearProvider

inductive HostMethod
  | names (c : Choice (List String))
  | table (c : Choice (List (String × Value)))
  | listing (c : Choice Value)
  | providers (c : Choice (List (String × Option LinearProvider)))
  | constant (v : Value)

structure Host where
  attributes : List (Query × Attribute HostMethod)
  /-- Whether others can refer to the host without keeping it alive. -/
  isWeak : Bool := true

/-- The text under which a host looks a symbol up: a text as it is, any other value as written. -/
def Value.lookupText? : Value → Option String
  | .string s _ => some s
  | v => v.text?

namespace Host

def className (h : Host) : String := if h.isWeak then "CustomSystem" else "SlottedSystem"

def find (h : Host) (q : Query) : Attribute HostMethod :=
  match h.attributes.find? fun (k, _) => k == q with
  | some (_, a) => a
  | none => .absent

private def textOf (symbol : Value) : Except Failure String :=
  match symbol.lookupText? with
  | some s => return s
  | none => failWith .outOfRange

private def names : HostMethod → Extra → List String
  | .names c, extra => (c.pick? extra).getD []
  | _, _ => []

private def table : HostMethod → Extra → List (String × Value)
  | .table c, extra => (c.pick? extra).getD []
  | _, _ => []

private def listing : HostMethod → Extra → Value
  | .listing c, extra => (c.pick? extra).getD (.list [])
  | _, _ => .list []

private def providers : HostMethod → Extra → List (String × Option LinearProvider)
  | .providers c, extra => (c.pick? extra).getD []
  | _, _ => []

private def value : HostMethod → Value
  | .constant v => v
  | _ => .none

/-- The value of a storage method; it is replaced when items are written. -/
def setConstant (h : Host) (q : Query) (v : Value) : Host :=
  { h with attributes := h.attributes.map fun (k, a) =>
      if k == q then (k, a.map fun _ => .constant v) else (k, a) }

def toInterface (h : Host) (identity : Option Nat) : Interface where
  className := h.className
  identity := identity
  predicate role := (h.find (.predicate role)).map fun m symbol extra => do
    let text ← textOf symbol
    let listed := names m extra
    return listed.contains text || listed.contains "*"
  index role := (h.find (.index role)).map fun m symbol extra => do
    return (Assoc.find? (← textOf symbol) (table m extra)).getD .none
  symbols role := (h.find (.symbols role)).map fun m extra => return listing m extra
  definitions := (h.find .definition).map fun m =>
    ⟨Value.lookupText?, fun extra => return table m extra⟩
  constantStructure := (h.find .constantStructure).map value
  provider := (h.find .provider).map fun m symbol extra => do
    let found := Assoc.find? (← textOf symbol) (providers m extra)
    return (found.bind id).map LinearProvider.provider
  stateValues := (h.find .stateValues).map value
  parameterValues := (h.find .parameterValues).map value
  currentTime := (h.find .currentTime).map fun m => return value m
  hasCurrentTime := (h.find .hasCurrentTime).map value
  currentVersion := (h.find .currentVersion).map fun m => return value m
  container := (h.find .container).map value

end Host
end NamedSlots
