import NamedSlots.Term.Conversion

/-!
# Values as expressions and as floating numbers

Texts name scalar symbols, numbers become constants, terms and foreign objects are converted,
and an array of one number counts as that number. Anything else is no expression.
-/

namespace NamedSlots.Value

/-- A term as a floating number: only numbers and constants are. -/
def termToFloat : Term → Except Failure Float
  | .constant .true | .constant .false => failWith .wrongType
  | .constant c =>
    match c.toFloat? with
    | some x => return x
    | Option.none => failWith .wrongType
  | .integer n => return Number.doubleOfInt n
  | .rational p q =>
    return Number.doubleOfRatio (decide (p < 0) != decide (q < 0)) p.natAbs q.natAbs
  | .float x => return x
  | _ => failWith .wrongType

def toFloat : Value → Except Failure Float
  | number (.complex _ _) => failWith .wrongType
  | number n =>
    match n.toFloat? with
    | some x => return x
    | Option.none => failWith .overflow
  | element _ n => return n.toFloat
  | string s _ =>
    match Text.Numeral.floating? s with
    | some x => return x
    | Option.none => failWith .wrongValue
  | numbers _ [] [n] => return n.toFloat
  | texts _ [] [s] =>
    match Text.Numeral.floating? s with
    | some x => return x
    | Option.none => failWith .wrongValue
  | objects [] [v] => toFloat v
  | term t => termToFloat t
  | _ => failWith .wrongType

def toExpr : Value → Except Failure Expr
  | expr e => return e
  | string s _ => return Expr.ofName s
  | number (.complex _ _) => throw (.notConvertible "complex")
  | number n => return Expr.constant (← toFloat (number n))
  | element (.complex p) _ => throw (.notConvertible ("numpy." ++ (ElementType.complex p).name))
  | element _ n => return Expr.constant n.toFloat
  | numbers _ _ [n] => return Expr.constant n.toFloat
  | texts _ _ [s] => return Expr.constant (← toFloat (text s))
  | objects _ [v] => return Expr.constant (← toFloat v)
  | term t => t.toExpr
  | foreign _ _ definition => toExpr definition
  | v => throw (.notConvertible v.className)

/-- The expression of a term; truth values count as their constants, other values have no parts to convert. -/
def termToExpr : Value → Except Failure Expr
  | term t => t.toExpr
  | number (.bool b) => return Expr.constant (if b then 1.0 else 0.0)
  | _ => failWith .missingAttribute

end NamedSlots.Value
