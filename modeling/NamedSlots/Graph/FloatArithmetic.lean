import NamedSlots.Graph.Node
import NamedSlots.Number.Elementary

/-!
# Floating arithmetic of graphs

Graphs over floating numbers. Comparisons and connectives give 0 or 1; any number but zero
counts as true; minimum and maximum pass over what is not a number; a remainder has the sign of
the dividend.
-/

namespace NamedSlots.Graph

private def ofBool (b : Bool) : Float := if b then 1.0 else 0.0

private def isTrue (x : Float) : Bool := x != 0.0

/-- The smaller or larger of two numbers; what is not a number loses. -/
private def extremum (first : Float → Float → Bool) (x y : Float) : Float :=
  if x.isNaN then y else if y.isNaN then x else if first x y then x else y

private def unaryFunction : UnaryNode → Float → Float
  | .neg => fun x => -x
  | .not => fun x => ofBool (!isTrue x)
  | .sq => fun x => x * x
  | .inv => fun x => 1.0 / x
  | .sin => Float.sin | .cos => Float.cos | .tan => Float.tan
  | .asin => Float.asin | .acos => Float.acos | .atan => Float.atan
  | .sqrt => Float.sqrt | .exp => Float.exp | .log => Float.log
  | .abs => Float.abs
  | .sign => fun x => if x < 0.0 then -1.0 else if x > 0.0 then 1.0 else x
  | .floor => Float.floor | .ceil => Float.ceil
  | .sinh => Float.sinh | .cosh => Float.cosh | .tanh => Float.tanh

private def binaryFunction : BinaryNode → Float → Float → Float
  | .add => (· + ·) | .sub => (· - ·) | .mul => (· * ·) | .div => (· / ·)
  | .pow | .constantPow => Float.pow
  | .lt => fun x y => ofBool (x < y)
  | .le => fun x y => ofBool (x ≤ y)
  | .eq => fun x y => ofBool (x == y)
  | .ne => fun x y => ofBool (x != y)
  | .and => fun x y => ofBool (isTrue x && isTrue y)
  | .or => fun x y => ofBool (isTrue x || isTrue y)
  | .atan2 => Float.atan2
  | .min => extremum fun x y => x ≤ y
  | .max => extremum fun x y => x ≥ y
  | .mod => Number.truncatedRemainder
  | .ifElseZero => fun x y => if isTrue x then y else 0.0

private def integer? (x : Float) : Option Int :=
  (Number.integral? x).filter fun n => n.natAbs < twoTo 63

def Arithmetic.float : Arithmetic Float where
  ofInt := Number.doubleOfInt
  ofFloat := id
  kept x := if x == 0.0 then 0.0 else x
  same x y := x == y || x.isNaN && y.isNaN
  toInt? := integer?
  isHalf x := x == 0.5
  isNonnegative x := x ≥ 0.0
  isZero x := x == 0.0
  unary := unaryFunction
  binary := binaryFunction

end NamedSlots.Graph
