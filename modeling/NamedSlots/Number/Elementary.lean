import NamedSlots.Expr.Operator
import NamedSlots.Number.Plain

/-!
# Elementary functions

Real functions of one argument by operator, the sign, rounding to integers, and the complex
functions that array elements need.
-/

namespace NamedSlots.Number

/-- The sign of a number: a NaN stays, a zero of either sign gives zero. -/
def signOf (x : Float) : Float :=
  if x > 0.0 then 1.0 else if x < 0.0 then -1.0 else if x == 0.0 then 0.0 else x

def realFunction? : UnaryOp → Option (Float → Float)
  | .sin => some Float.sin
  | .cos => some Float.cos
  | .tan => some Float.tan
  | .asin => some Float.asin
  | .acos => some Float.acos
  | .atan => some Float.atan
  | .sqrt => some Float.sqrt
  | .exp => some Float.exp
  | .log => some Float.log
  | .log10 => some Float.log10
  | .sinh => some Float.sinh
  | .cosh => some Float.cosh
  | .tanh => some Float.tanh
  | _ => none

namespace ComplexPair

def exp (x : Float × Float) : Float × Float :=
  let r := Float.exp x.1
  if x.2 == 0.0 then (r, x.2) else (r * Float.cos x.2, r * Float.sin x.2)

def log (x : Float × Float) : Float × Float :=
  (Float.log (abs x), Float.atan2 x.2 x.1)

/-- The root with non-negative real part; the imaginary part keeps its sign. -/
def sqrt (x : Float × Float) : Float × Float :=
  if x.1 == 0.0 && x.2 == 0.0 then (0.0, x.2)
  else
    let t := Float.sqrt ((x.1.abs + abs x) / 2.0)
    if x.1 ≥ 0.0 then (t, x.2 / (2.0 * t))
    else (x.2.abs / (2.0 * t), if isNegative x.2 then -t else t)

def sinh (x : Float × Float) : Float × Float :=
  (Float.sinh x.1 * Float.cos x.2, Float.cosh x.1 * Float.sin x.2)

def cosh (x : Float × Float) : Float × Float :=
  (Float.cosh x.1 * Float.cos x.2, Float.sinh x.1 * Float.sin x.2)

def timesI (x : Float × Float) : Float × Float := (-x.2, x.1)

def overI (x : Float × Float) : Float × Float := (x.2, -x.1)

def sin (x : Float × Float) : Float × Float := overI (sinh (timesI x))

def cos (x : Float × Float) : Float × Float := cosh (timesI x)

def tanh (x : Float × Float) : Float × Float := div (sinh x) (cosh x)

def tan (x : Float × Float) : Float × Float := overI (tanh (timesI x))

private def plus (x y : Float × Float) : Float × Float := (x.1 + y.1, x.2 + y.2)

private def minus (x y : Float × Float) : Float × Float := (x.1 - y.1, x.2 - y.2)

def asinh (x : Float × Float) : Float × Float :=
  let s1 := sqrt (1.0 + x.2, -x.1)
  let s2 := sqrt (1.0 - x.2, x.1)
  (Float.asinh (s1.1 * s2.2 - s2.1 * s1.2), Float.atan2 x.2 (s1.1 * s2.1 - s1.2 * s2.2))

def asin (x : Float × Float) : Float × Float :=
  let s := asinh (-x.2, x.1)
  (s.2, -s.1)

def acos (x : Float × Float) : Float × Float :=
  let s1 := sqrt (1.0 - x.1, -x.2)
  let s2 := sqrt (1.0 + x.1, x.2)
  (2.0 * Float.atan2 s1.1 s2.1, Float.asinh (s2.1 * s1.2 - s2.2 * s1.1))

def atan (x : Float × Float) : Float × Float :=
  let l := minus (log (plus (1.0, 0.0) (x.2, -x.1))) (log (minus (1.0, 0.0) (x.2, -x.1)))
  timesI (l.1 / 2.0, l.2 / 2.0)

def log10 (x : Float × Float) : Float × Float :=
  let l := log x
  let s := Float.log 10.0
  (l.1 / s, l.2 / s)

/-- The unit vector in the direction of a number, zero for zero. -/
def sign (x : Float × Float) : Float × Float :=
  let r := abs x
  if r == 0.0 then (0.0, 0.0) else (x.1 / r, x.2 / r)

end ComplexPair

def complexFunction? : UnaryOp → Option (Float × Float → Float × Float)
  | .sin => some ComplexPair.sin
  | .cos => some ComplexPair.cos
  | .tan => some ComplexPair.tan
  | .asin => some ComplexPair.asin
  | .acos => some ComplexPair.acos
  | .atan => some ComplexPair.atan
  | .sqrt => some ComplexPair.sqrt
  | .exp => some ComplexPair.exp
  | .log => some ComplexPair.log
  | .log10 => some ComplexPair.log10
  | .sinh => some ComplexPair.sinh
  | .cosh => some ComplexPair.cosh
  | .tanh => some ComplexPair.tanh
  | .sign => some ComplexPair.sign
  | _ => none

end NamedSlots.Number
