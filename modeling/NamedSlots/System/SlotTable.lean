import NamedSlots.Assoc
import NamedSlots.Classifier

/-!
# Slot tables

A slot table gives each scalar symbol a place, in order of declaration; an array symbol takes
one place for each of its elements. A definition table gives observed symbols their defining
expressions. No name stands twice in a table.
-/

namespace NamedSlots

/-- Scalar symbols with their names, in order of their places. -/
structure SlotTable where
  entries : List (String × Value) := []
deriving Repr

namespace SlotTable

def symbols (t : SlotTable) : List Value := t.entries.map (·.2)

def names (t : SlotTable) : List String := t.entries.map (·.1)

def size (t : SlotTable) : Nat := t.entries.length

def place? (t : SlotTable) (name : String) : Option Nat :=
  t.names.findIdx? (· == name)

def find? (t : SlotTable) (symbol : Value) : Option Nat :=
  symbol.key?.bind t.place?

def contains (t : SlotTable) (symbol : Value) : Bool := (t.find? symbol).isSome

/-- Adds a scalar symbol at the end; it has to have a name that is new. -/
def insert (table : String) (t : SlotTable) (leaf : Value) : Except Failure SlotTable :=
  match leaf.key? with
  | none => throw (.unnamedEntry table leaf)
  | some name =>
    if (t.place? name).isSome then throw (.duplicateEntry table name)
    else return ⟨t.entries ++ [(name, leaf)]⟩

def insertAll (table : String) (t : SlotTable) (symbol : Value) : Except Failure SlotTable := do
  (← Classifier.standard.expand symbol).foldlM (insert table) t

/-- The table of a list of symbols; its role is named in failures. -/
def ofSymbols (table : String) (symbols : List Value) : Except Failure SlotTable :=
  symbols.foldlM (insertAll table) {}

end SlotTable

/-- Observed symbols with their names and definitions, in order. -/
structure DefinitionTable where
  entries : List (String × Value × Expr) := []
deriving Repr

namespace DefinitionTable

def symbols (t : DefinitionTable) : List Value := t.entries.map (·.2.1)

def definitions (t : DefinitionTable) : List (String × Expr) := t.entries.map fun (n, _, e) => (n, e)

def contains (t : DefinitionTable) (symbol : Value) : Bool :=
  (symbol.key?.bind fun name => Assoc.find? name t.definitions).isSome

/-- Adds an observed symbol with what stands for its definition. -/
def insert (t : DefinitionTable) (pair : Value × Value) : Except Failure DefinitionTable :=
  match pair.1.key? with
  | none => throw (.unnamedObserved pair.1)
  | some name =>
    if (Assoc.find? name t.definitions).isSome then throw (.duplicateEntry "observed" name)
    else do return ⟨t.entries ++ [(name, pair.1, ← pair.2.toExpr)]⟩

def ofPairs (pairs : List (Value × Value)) : Except Failure DefinitionTable :=
  pairs.foldlM insert {}

end DefinitionTable
end NamedSlots
