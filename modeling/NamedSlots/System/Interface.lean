import NamedSlots.Request
import NamedSlots.System.Layout
import NamedSlots.Value.Functions
import NamedSlots.Value.Item

/-!
# Interfaces

What an object offers to resolution and storage access. Each attribute may be absent, a plain
value, or a method. Resolution methods take the structure version as an extra argument when the
system has versions. A system is an object together with the object that answers resolution
queries for it.
-/

namespace NamedSlots

inductive Attribute (α : Type)
  | absent
  | plain (v : Value)
  | method (f : α)

namespace Attribute

def method? : Attribute α → Option α
  | method f => some f
  | _ => none

def isMethod (a : Attribute α) : Bool := a.method?.isSome

/-- The method, or the fault of calling what is not one. -/
def invoke : Attribute α → Except Failure α
  | method f => return f
  | absent => failWith .missingAttribute
  | plain _ => failWith .wrongType

def map (g : α → β) : Attribute α → Attribute β
  | absent => absent
  | plain v => plain v
  | method f => method (g f)

end Attribute

/-- The structure version passed to a resolution method, if any. -/
abbrev Extra := Option Value

/-- The value of an observed quantity from state and parameter storage, and the time if there is one. -/
abbrev Provider := Value → Value → Option Value → Except Failure Value

/-- A finite table of definitions, and the text under which a symbol is looked up in it. -/
structure Definitions where
  textOf : Value → Option String
  entries : Extra → Except Failure (List (String × Value))

namespace Definitions

def find? (d : Definitions) (symbol : Value) (extra : Extra) : Except Failure (Option Value) := do
  let entries ← d.entries extra
  return (d.textOf symbol).bind fun text => Assoc.find? text entries

end Definitions

structure Interface where
  className : String
  identity : Option Nat := none
  predicate : Role → Attribute (Value → Extra → Except Failure Bool) := fun _ => .absent
  index : Role → Attribute (Value → Extra → Except Failure Value) := fun _ => .absent
  symbols : Role → Attribute (Extra → Except Failure Value) := fun _ => .absent
  definitions : Attribute Definitions := .absent
  constantStructure : Attribute Value := .absent
  provider : Attribute (Value → Extra → Except Failure (Option Provider)) := .absent
  stateValues : Attribute Value := .absent
  parameterValues : Attribute Value := .absent
  currentTime : Attribute (Except Failure Value) := .absent
  hasCurrentTime : Attribute Value := .absent
  currentVersion : Attribute (Except Failure Value) := .absent
  container : Attribute Value := .absent

namespace Interface

/-- A method without a version argument is not given one. -/
def withoutVersion (a : α) : Extra → Except Failure α
  | none => return a
  | some _ => failWith .wrongType

/-- A method with a version argument has to be given one. -/
def withVersion (a : Value → Except Failure α) : Extra → Except Failure α
  | some version => a version
  | none => failWith .wrongType

private def placeValue (place : Option Nat) : Value :=
  (place.map fun (n : Nat) => Value.int n).getD .none

private def definitionEntries (t : DefinitionTable) : List (String × Value) :=
  t.definitions.map fun (n, e) => (n, .expr e)

def isQueried : Role → Bool
  | .unknown => false
  | _ => true

def isStored : Role → Bool
  | .state | .parameter => true
  | _ => false

/-- What answers come from when the layout is found from the version argument. -/
def ofLayoutAt (className : String) (identity : Option Nat) (layoutAt : Extra → Except Failure Layout) : Interface where
  className := className
  identity := identity
  predicate role :=
    if isQueried role then .method fun s extra => do return (← layoutAt extra).has role s else .absent
  index role :=
    if isStored role then .method fun s extra => do return placeValue ((← layoutAt extra).place? role s)
    else .absent
  symbols role :=
    if isQueried role then .method fun extra => do return .list ((← layoutAt extra).symbols role) else .absent
  definitions := .method ⟨Value.key?, fun extra => do return definitionEntries (← layoutAt extra).observed⟩

def ofLayout (l : Layout) (identity : Option Nat) : Interface :=
  { ofLayoutAt "SymbolCache" identity (withoutVersion l) with constantStructure := .method (.bool true) }

/-- A versioned layout; every query names a version. -/
def ofVersionedLayout (l : VersionedLayout) (identity : Option Nat) : Interface :=
  { ofLayoutAt "VersionedSymbolCache" identity (withVersion l.layoutAt) with
    constantStructure := .method (.bool false)
    currentVersion := .method (if l.current.isHashableClass then return l.current else failWith .badResult) }

end Interface

/-- What each value offers as an object. -/
abbrev World := Value → Interface

/-- An object and the object that answers resolution queries for it. -/
structure System where
  own : Interface
  container : Interface

namespace System

/-- The value that answers resolution queries for an object. -/
def containerValue (world : World) (v : Value) : Value :=
  (world v).container.method?.getD v

def of (world : World) (v : Value) : System :=
  ⟨world v, world (containerValue world v)⟩

end System

namespace Interface

/-- Whether a capability is offered; a time that has a probe is offered when the probe says so. -/
def hasCapability (i : Interface) : Capability → Except Failure Bool
  | .stateValues => return i.stateValues.isMethod
  | .parameterValues => return i.parameterValues.isMethod
  | .currentTime =>
    if !i.currentTime.isMethod then return false
    else
      match i.hasCurrentTime.method? with
      | some probe => probe.truth
      | none => return true
  | .observed => return i.provider.isMethod
  | .observedExpression => return i.definitions.isMethod
  | .currentVersion => return i.currentVersion.isMethod

def require (i : Interface) (c : Capability) : Except Failure Unit := do
  if !(← i.hasCapability c) then throw (.missingCapability c.name (some i.className))

end Interface

namespace System

/-- Whether the structure never changes; so it is unless the container denies it. -/
def isConstant (s : System) : Except Failure Bool :=
  match s.container.constantStructure with
  | .absent | .plain .none => return true
  | .plain v => v.truth
  | .method v => v.truth

/-- The current version of the object or of its container. -/
def currentVersion (s : System) : Except Failure Value := do
  let version ←
    match s.own.currentVersion, s.container.currentVersion with
    | .method v, _ => v
    | _, .method v => v
    | _, _ => return .none
  if version.isHashableClass then return version else failWith .badResult

end System
end NamedSlots
