/-!
# Binary floating formats

A finite binary number is a sign, a mantissa and an exponent. This file decodes a `Float` into
these parts, rounds an exact quotient of naturals to the nearest number of a format (ties to
the even mantissa), and builds on the two the conversions that have to be exact: integers,
integer quotients, truncation, remainders and the narrower formats.
-/

namespace NamedSlots

def twoTo (n : Nat) : Nat := Nat.pow 2 n

def tenTo (n : Nat) : Nat := Nat.pow 10 n

/-- The digits of a mantissa and the exponents of the least and the greatest unit. -/
structure BinaryFormat where
  precision : Nat
  minExponent : Int
  maxExponent : Int

namespace BinaryFormat

def half : BinaryFormat := ⟨11, -24, 5⟩

def single : BinaryFormat := ⟨24, -149, 104⟩

def double : BinaryFormat := ⟨53, -1074, 971⟩

/-- The nearest `m * 2 ^ q` to `num / den`, ties to even `m`; none beyond the greatest number. -/
def roundRatio? (f : BinaryFormat) (num den : Nat) : Option (Nat × Int) :=
  if num = 0 then some (0, f.minExponent)
  else
    let low : Int := (num.log2 : Int) - den.log2 - 1
    let q₀ := max f.minExponent (low - f.precision + 1)
    let floorAt (q : Int) : Nat × Nat × Nat :=
      let n := num * twoTo (-q).toNat
      let d := den * twoTo q.toNat
      (n / d, n % d, d)
    let q := if (floorAt q₀).1 < twoTo f.precision then q₀
      else if (floorAt (q₀ + 1)).1 < twoTo f.precision then q₀ + 1 else q₀ + 2
    let (m, rest, d) := floorAt q
    let up := decide (d < 2 * rest) || (decide (2 * rest = d) && m % 2 == 1)
    let m := if up then m + 1 else m
    let (m, q) := if m = twoTo f.precision then (twoTo (f.precision - 1), q + 1) else (m, q)
    if f.maxExponent < q then none else some (m, q)

end BinaryFormat

/-- What a floating number stands for. -/
inductive FloatView
  | nan
  | infinite (negative : Bool)
  | finite (negative : Bool) (mantissa : Nat) (exponent : Int)
deriving Repr, DecidableEq

namespace FloatView

def ofFloat (x : Float) : FloatView :=
  let bits := x.toBits.toNat
  let negative := decide (twoTo 63 ≤ bits)
  let biased : Nat := bits / twoTo 52 % twoTo 11
  let fraction : Nat := bits % twoTo 52
  if biased = 2047 then
    if fraction = 0 then .infinite negative else .nan
  else if biased = 0 then .finite negative fraction (-1074)
  else .finite negative (twoTo 52 + fraction) ((biased : Int) - 1075)

def negative : FloatView → Bool
  | .nan => false
  | .infinite s => s
  | .finite s _ _ => s

end FloatView

namespace Number

def infinity (negative : Bool) : Float :=
  if negative then -1.0 / 0.0 else 1.0 / 0.0

def notANumber : Float := 0.0 / 0.0

/-- The double with these parts; the mantissa has at most 53 digits and is normal or at the least exponent. -/
def packDouble (negative : Bool) (m : Nat) (q : Int) : Float :=
  let sign := if negative then twoTo 63 else 0
  let magnitude := if m < twoTo 52 then m else (q + 1075).toNat * twoTo 52 + (m - twoTo 52)
  Float.ofBits (UInt64.ofNat (sign + magnitude))

/-- The double nearest to `± num / den`; none when it is too large. -/
def doubleOfRatio? (negative : Bool) (num den : Nat) : Option Float :=
  (BinaryFormat.double.roundRatio? num den).map fun (m, q) => packDouble negative m q

def doubleOfRatio (negative : Bool) (num den : Nat) : Float :=
  (doubleOfRatio? negative num den).getD (infinity negative)

/-- The double nearest to an integer; none when it is too large. -/
def doubleOfInt? (n : Int) : Option Float :=
  doubleOfRatio? (decide (n < 0)) n.natAbs 1

/-- The double nearest to an integer, infinite when it is too large. -/
def doubleOfInt (n : Int) : Float :=
  (doubleOfInt? n).getD (infinity (decide (n < 0)))

/-- The double `± m * 2 ^ q`, rounded. -/
def doubleOfScaled (negative : Bool) (m : Nat) (q : Int) : Float :=
  doubleOfRatio negative (m * twoTo q.toNat) (twoTo (-q).toNat)

/-- The nearest number of a narrower format, kept as a double. -/
def roundTo (f : BinaryFormat) (x : Float) : Float :=
  match FloatView.ofFloat x with
  | .finite s m q =>
    match f.roundRatio? (m * twoTo q.toNat) (twoTo (-q).toNat) with
    | some (m, q) => doubleOfScaled s m q
    | none => infinity s
  | _ => x

/-- The integer part of a finite number, toward zero. -/
def truncate? (x : Float) : Option Int :=
  match FloatView.ofFloat x with
  | .finite s m q =>
    let n : Nat := (m * twoTo q.toNat) / twoTo (-q).toNat
    some (if s then -n else n)
  | _ => none

/-- The integer that a finite number equals, if it does. -/
def integral? (x : Float) : Option Int :=
  match FloatView.ofFloat x with
  | .finite s m q =>
    let n : Nat := (m * twoTo q.toNat) / twoTo (-q).toNat
    if n * twoTo (-q).toNat = m * twoTo q.toNat then some (if s then -n else n) else none
  | _ => none

def isNegative (x : Float) : Bool := (FloatView.ofFloat x).negative

/-- The order of an integer and a finite or infinite number, decided exactly; none for a NaN. -/
def compareInt (n : Int) (x : Float) : Option Ordering :=
  match FloatView.ofFloat x with
  | .nan => none
  | .infinite s => some (if s then .gt else .lt)
  | .finite s m q =>
    let num : Int := (m * twoTo q.toNat : Nat)
    some (compare (n * (twoTo (-q).toNat : Nat)) (if s then -num else num))

/-- The exact remainder of a division that truncates; it has the sign of `x`. -/
def truncatedRemainder (x y : Float) : Float :=
  match FloatView.ofFloat x, FloatView.ofFloat y with
  | .finite s m q, .finite _ n r =>
    if n = 0 then notANumber
    else
      let e := min q r
      let a := m * twoTo (q - e).toNat
      let b := n * twoTo (r - e).toNat
      doubleOfScaled s (a % b) e
  | .finite _ _ _, .infinite _ => x
  | _, _ => notANumber

/-- The remainder of a division that rounds down; it has the sign of `y`, a zero included. -/
def flooredRemainder (x y : Float) : Float :=
  let r := truncatedRemainder x y
  if r == 0.0 then (if isNegative y then -0.0 else 0.0)
  else if decide (r < 0.0) != decide (y < 0.0) then r + y
  else r

end Number
end NamedSlots
