import NamedSlots.System.SlotTable

/-!
# Layouts

A layout names the slots of state and parameter storage, at most one independent variable, and
observed quantities with their definitions. A versioned layout has one pair of slot tables for
each structure version; the independent variable and the definitions are shared.
-/

namespace NamedSlots

/-- A declaration may be missing, one symbol, or a sequence of symbols. -/
def Value.declared : Value → List Value
  | .none => []
  | .list items => items
  | .tuple items => items
  | v => [v]

structure Layout where
  states : SlotTable := {}
  parameters : SlotTable := {}
  independent : SlotTable := {}
  observed : DefinitionTable := {}
deriving Repr

/-- The table of the independent variable, which holds at most one. -/
def SlotTable.independent (v : Value) : Except Failure SlotTable := do
  let t ← SlotTable.ofSymbols "independent variable" v.declared
  if 1 < t.size then throw (.severalIndependentNames t.symbols) else return t

/-- The table of observed definitions, given as a dictionary or not at all. -/
def DefinitionTable.ofValue : Value → Except Failure DefinitionTable
  | .none => return {}
  | .dict pairs => DefinitionTable.ofPairs pairs
  | _ => failWith .badArgument

namespace Layout

def build (states parameters independent observed : Value) : Except Failure Layout := do
  match observed with
  | .none | .dict _ => pure ()
  | _ => failWith .badArgument
  let states ← SlotTable.ofSymbols "variable" states.declared
  let parameters ← SlotTable.ofSymbols "parameter" parameters.declared
  let independent ← SlotTable.independent independent
  return ⟨states, parameters, independent, ← DefinitionTable.ofValue observed⟩

def table? (l : Layout) : Role → Option SlotTable
  | .state => some l.states
  | .parameter => some l.parameters
  | .independent => some l.independent
  | _ => none

def has (l : Layout) (role : Role) (symbol : Value) : Bool :=
  match role with
  | .observed => l.observed.contains symbol
  | .unknown => false
  | role => ((l.table? role).map (·.contains symbol)).getD false

def symbols (l : Layout) : Role → List Value
  | .observed => l.observed.symbols
  | role => ((l.table? role).map SlotTable.symbols).getD []

def place? (l : Layout) (role : Role) (symbol : Value) : Option Nat :=
  (l.table? role).bind (·.find? symbol)

def text? (l : Layout) : Option String := do
  let show? (role : Role) : Option String := (Value.list (l.symbols role)).text?
  return "SymbolCache(variables=" ++ (← show? .state) ++ ", parameters=" ++ (← show? .parameter)
    ++ ", independent_variables=" ++ (← show? .independent) ++ ", observed=" ++ (← show? .observed) ++ ")"

end Layout

/-- The slot tables of one structure version. -/
structure Structure where
  states : SlotTable
  parameters : SlotTable
deriving Repr

structure VersionedLayout where
  structures : List (Value × Structure) := []
  independent : SlotTable := {}
  observed : DefinitionTable := {}
  current : Value := .none
deriving Repr

namespace VersionedLayout

def build (independent observed : Value) : Except Failure VersionedLayout := do
  match observed with
  | .none | .dict _ => pure ()
  | _ => failWith .badArgument
  let independent ← SlotTable.independent independent
  return ⟨[], independent, ← DefinitionTable.ofValue observed, .none⟩

/-- A version has to be a possible key. -/
def checkVersion (version : Value) : Except Failure Unit := do
  if !version.isHashableClass then failWith .badArgument
  if !version.isHashable then failWith .wrongType

/-- Declares the tables of a new version and makes it current. -/
def addVersion (l : VersionedLayout) (version states parameters : Value) : Except Failure VersionedLayout := do
  checkVersion version
  if Assoc.contains l.structures version then throw (.versionExists version)
  let states ← SlotTable.ofSymbols "variable" states.declared
  let parameters ← SlotTable.ofSymbols "parameter" parameters.declared
  return { l with structures := l.structures ++ [(version, ⟨states, parameters⟩)], current := version }

/-- The layout of one version; it has to have been added. -/
def layoutAt (l : VersionedLayout) (version : Value) : Except Failure Layout := do
  checkVersion version
  match Assoc.find? version l.structures with
  | some s => return ⟨s.states, s.parameters, l.independent, l.observed⟩
  | none => throw (.versionMismatch version l.current)

def setCurrent (l : VersionedLayout) (version : Value) : Except Failure VersionedLayout := do
  let _ ← l.layoutAt version
  return { l with current := version }

def versions (l : VersionedLayout) : List Value := Assoc.keys l.structures

end VersionedLayout
end NamedSlots
