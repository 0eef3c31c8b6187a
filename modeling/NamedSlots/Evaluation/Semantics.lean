import NamedSlots.Expr.Leaves
import NamedSlots.Failure

/-!
# Semantics of expressions

A semantics says what constants and operators mean over a type of values. Given what the scalar
symbols stand for, it makes every expression denote a value or a failure. Operands are evaluated
from left to right; a conditional evaluates its condition and then one branch only.
-/

namespace NamedSlots

structure Semantics (V : Type) where
  constant : Option Literal → V
  unary : UnaryOp → V → Except Failure V
  binary : BinaryOp → V → V → Except Failure V
  /-- Whether a condition holds. -/
  truth : V → Except Failure Bool
  /-- The array of a shape with given items, row-major. -/
  assemble : List Index → List V → Except Failure V

namespace Expr

variable {V : Type} (sem : Semantics V) (leaf : Expr → Except Failure V)

/-- The value of an expression; an operand that is missing is out of range. -/
def eval : Expr → Except Failure V
  | node .symbol cs l => leaf (node .symbol cs l)
  | node .array cs l => do sem.assemble l.shape (← (node .array cs l).elements.mapM leaf)
  | node .constant _ l => return sem.constant l.value
  | node (.unary op) (c :: _) _ => do sem.unary op (← eval c)
  | node (.unary _) [] _ => failWith .outOfRange
  | node (.binary op) (c :: d :: _) _ => do
    let x ← eval c
    let y ← eval d
    sem.binary op x y
  | node (.binary _) [c] _ => do
    let _ ← eval c
    failWith .outOfRange
  | node (.binary _) [] _ => failWith .outOfRange
  | node .ifThenElse (c :: t :: f :: _) _ => do
    let x ← eval c
    if ← sem.truth x then eval t else eval f
  | node .ifThenElse [c, t] _ => do
    let x ← eval c
    if ← sem.truth x then eval t else failWith .outOfRange
  | node .ifThenElse [c] _ => do
    let x ← eval c
    let _ ← sem.truth x
    failWith .outOfRange
  | node .ifThenElse [] _ => failWith .outOfRange

end Expr
end NamedSlots
