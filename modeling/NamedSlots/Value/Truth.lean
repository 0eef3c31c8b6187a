import NamedSlots.Value.Conversion
import NamedSlots.Value.Grid

/-!
# Truth and sequences

Whether a value counts as true, how many items it has, and what running through it gives. An
array symbol has the length of its first dimension and runs through its elements; any other
expression has neither length nor elements.
-/

namespace NamedSlots

namespace Expr

def length (e : Expr) : Except Failure Index :=
  if e.kind ≠ .array then throw (.noLength e)
  else
    match e.label.shape with
    | d :: _ => return d
    | [] => failWith .outOfRange

/-- The length as a count; it may not be negative. -/
def count (e : Expr) : Except Failure Nat := do
  let d ← e.length
  if d.toInt < 0 then failWith .wrongValue else return d.toInt.toNat

/-- The elements picked by single indices from 0 on. -/
def iterate (e : Expr) : Except Failure (List Expr) :=
  if e.kind ≠ .array then throw (.element (.notArray e))
  else
    match e.label.shape with
    | [] => failWith .outOfRange
    | [d] =>
      if d.toInt < 0 then failWith .wrongValue
      else return (List.range d.extent).map fun (i : Nat) => symbol e.label.name [Index.int i]
    | shape => throw (.element (.wrongCount e.label.name shape.length 1))

end Expr

namespace Value

/-- Whether a term counts as true; a relation has to be decided first. -/
def termTruth : Term → Except Failure Bool
  | .constant .false => return false
  | .integer n => return n != 0
  | .float x => return x != 0.0
  | .apply head _ =>
    if head ∈ ["StrictLessThan", "LessThan", "StrictGreaterThan", "GreaterThan", "Equality", "Unequality"]
    then failWith .wrongType
    else return true
  | _ => return true

/-- Whether a value counts as true. An array has to have exactly one item. -/
def truth : Value → Except Failure Bool
  | none => return false
  | number n => return n.isTrue
  | element _ n => return n.isTrue
  | string s _ => return !s.isEmpty
  | list items => return !items.isEmpty
  | tuple items => return !items.isEmpty
  | dict entries => return !entries.isEmpty
  | numbers _ _ items =>
    match items with
    | [n] => return n.isTrue
    | _ => failWith .wrongValue
  | texts _ _ items =>
    match items with
    | [s] => return !s.isEmpty
    | _ => failWith .wrongValue
  | objects _ items =>
    match items with
    | [v] => truth v
    | _ => failWith .wrongValue
  | expr e => return (← e.count) != 0
  | term t => termTruth t
  | foreign _ _ _ => return true
  | handle _ => return true

/-- The items met in running through a value. -/
def iterate : Value → Except Failure (List Value)
  | list items => return items
  | tuple items => return items
  | string s _ => return s.toList.map fun c => text (String.singleton c)
  | dict entries => return entries.map (·.1)
  | expr e => return (← e.iterate).map expr
  | v =>
    match v.shape? with
    | some (_ :: _) => return v.rows
    | _ => failWith .wrongType

end Value
end NamedSlots
