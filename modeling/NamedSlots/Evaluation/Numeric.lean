import NamedSlots.Evaluation.Semantics
import NamedSlots.Value.Functions

/-!
# Numeric semantics

Expressions over stored values: operators act on plain numbers, on elements and on whole arrays.
-/

namespace NamedSlots

def Literal.value (x : Literal) : Value :=
  if x.isElement then .element .float64 (.real x.number) else .real x.number

def Semantics.numeric : Semantics Value where
  constant x := (x.map Literal.value).getD .none
  unary := Value.applyUnary
  binary := Value.applyBinary
  truth := Value.truth
  assemble shape items := do (← (Value.list items).assemble).reshape shape

end NamedSlots
