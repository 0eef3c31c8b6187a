import NamedSlots.Evaluation.Semantics
import NamedSlots.System.Resolution

/-!
# Binding

Binding resolves every scalar leaf of an expression once. A leaf comes from a slot of state or
parameter storage, is the time, comes from a provider, or is an observed symbol whose definition
stands in its place. The leaves of a definition are bound before the symbol that it defines, so
a table of bound leaves can be evaluated entry by entry.
-/

namespace NamedSlots

/-- Where the value of a leaf comes from. -/
inductive Source
  | state (i : Index)
  | parameter (i : Index)
  | time
  | provider (p : Provider)

namespace Source

def role : Source → Role
  | state _ => .state
  | parameter _ => .parameter
  | time => .independent
  | provider _ => .observed

def index? : Source → Option Index
  | state i | parameter i => some i
  | _ => none

end Source

/-- What a scalar leaf stands for. -/
inductive Meaning
  | source (s : Source)
  | definition (e : Expr)

/-- The bound leaves with what they stand for, latest first. -/
structure LeafTable where
  entries : List (Expr × Meaning) := []

namespace LeafTable

def contains (t : LeafTable) (leaf : Expr) : Bool := Assoc.contains t.entries leaf

def insert (t : LeafTable) (leaf : Expr) (m : Meaning) : LeafTable := ⟨(leaf, m) :: t.entries⟩

/-- The leaves that come from storage, time or providers, in the order of binding. -/
def bindings (t : LeafTable) : List (Expr × Source) :=
  t.entries.reverse.filterMap fun
    | (leaf, .source s) => some (leaf, s)
    | _ => none

/-- The leaves replaced by definitions, in the order of binding. -/
def inlined (t : LeafTable) : List (Expr × Expr) :=
  t.entries.reverse.filterMap fun
    | (leaf, .definition e) => some (leaf, e)
    | _ => none

variable {V : Type} (sem : Semantics V) (read : Source → Except Failure V)

/-- The value of a leaf. A definition sees only the entries before its own, and gives way to a source
that an equal leaf among them is bound to. -/
def valueIn : List (Expr × Meaning) → Expr → Except Failure V
  | [], _ => failWith .missingKey
  | (key, m) :: earlier, leaf =>
    if key == leaf then
      match m with
      | .source s => read s
      | .definition e =>
        if Assoc.contains earlier leaf then valueIn earlier leaf else e.eval sem (valueIn earlier)
    else valueIn earlier leaf

def value (t : LeafTable) (leaf : Expr) : Except Failure V := valueIn sem read t.entries leaf

end LeafTable

/-- What is seen from outside while something is built: the objects asked for a provider, and warnings. -/
structure Trace where
  asked : List (Option Nat) := []
  warnings : List String := []

abbrev Traced := ExceptT Failure (StateM Trace)

namespace Bound

/-- The provider of an observed symbol: the object itself is asked, or else its container. -/
def provider (b : Bound) (symbol : Value) : Traced (Option Provider) := do
  let i := if b.system.own.provider.isMethod then b.system.own else b.system.container
  match i.provider.method? with
  | none => return none
  | some f =>
    modify fun t => { t with asked := t.asked ++ [i.identity] }
    f symbol b.version

mutual

/-- Binds a leaf unless it is bound. The leaves in `unvisited` are not under definition; a
definition that comes back to a leaf under definition is cyclic. -/
def bindLeaf (b : Bound) (isTimeDependent : Bool) (unvisited : List Expr) (table : LeafTable)
    (leaf : Expr) : Traced LeafTable := do
  if table.contains leaf then return table
  else
    match ← b.classify (.expr leaf) with
    | .state => return table.insert leaf (.source (.state (← b.locate (.expr leaf))))
    | .parameter => return table.insert leaf (.source (.parameter (← b.locate (.expr leaf))))
    | .independent =>
      if isTimeDependent then return table.insert leaf (.source .time)
      else throw (.unknownSymbol (.expr leaf) "system is not time dependent")
    | .observed =>
      match ← b.definition (.expr leaf) with
      | some e =>
        if _h : Unvisited.mayEnter unvisited leaf then do
          let table ← b.bindAll isTimeDependent (Unvisited.enter unvisited leaf) table e.scalarLeaves
          return table.insert leaf (.definition e)
        else throw (.cyclicDefinition leaf.text?)
      | none =>
        match ← b.provider (.expr leaf) with
        | some p => return table.insert leaf (.source (.provider p))
        | none => throw (.unknownSymbol (.expr leaf) "observed symbol has no definition or provider")
    | .unknown => throw (.unknownSymbol (.expr leaf) "")
termination_by (unvisited.length, 0)
decreasing_by exact Prod.Lex.left _ _ (Unvisited.length_enter_lt (by assumption))

def bindAll (b : Bound) (isTimeDependent : Bool) (unvisited : List Expr) (table : LeafTable) :
    List Expr → Traced LeafTable
  | [] => return table
  | leaf :: rest => do
    let table ← b.bindLeaf isTimeDependent unvisited table leaf
    b.bindAll isTimeDependent unvisited table rest
termination_by leaves => (unvisited.length, 1 + leaves.length)
decreasing_by
  · exact Prod.Lex.right _ (by simp only [List.length_cons]; omega)
  · exact Prod.Lex.right _ (by simp)

end

def bind (b : Bound) (isTimeDependent : Bool) (e : Expr) : Traced LeafTable :=
  b.bindAll isTimeDependent (e.scalarLeaves ++ b.system.definitionLeaves b.version) {} e.scalarLeaves

end Bound
end NamedSlots
