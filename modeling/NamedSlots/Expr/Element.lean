import NamedSlots.Expr.Basic

/-!
# Elements of array symbols

An index list picks one scalar symbol out of an array symbol when it has an index in range for
each dimension.
-/

namespace NamedSlots

/-- Why an index list picks no element. -/
inductive ElementError
  | notArray (e : Expr)
  | wrongCount (name : Option String) (needed given : Nat)
  | outOfBounds (index : Index) (dimension : Nat) (name : Option String) (size : Index)
deriving Repr

namespace ElementError

def message? : ElementError → Option String
  | notArray e => e.text?.map ("Only array symbols can be indexed, not " ++ ·)
  | wrongCount name needed given =>
    some ("'" ++ name.getD "None" ++ "' needs " ++ toString needed ++ " indices, got " ++ toString given)
  | outOfBounds index dimension name size =>
    some ("Index " ++ index.text ++ " out of bounds for dimension " ++ toString dimension ++ " of '"
      ++ name.getD "None" ++ "' with size " ++ size.text)

end ElementError

namespace Expr

/-- The first index that is out of range, with its dimension. -/
def outOfBounds? (dimension : Nat) : List Index → List Index → Option (Index × Nat × Index)
  | i :: is, d :: ds =>
    if i.toInt < 0 ∨ d.toInt ≤ i.toInt then some (i, dimension, d)
    else outOfBounds? (dimension + 1) is ds
  | _, _ => none

def element (e : Expr) (position : List Index) : Except ElementError Expr :=
  if e.kind ≠ .array then throw (.notArray e)
  else
    let { name, shape, .. } := e.label
    if position.length ≠ shape.length then throw (.wrongCount name shape.length position.length)
    else
      match outOfBounds? 0 position shape with
      | some (i, dimension, size) => throw (.outOfBounds i dimension name size)
      | none => return symbol name position

end Expr
end NamedSlots
