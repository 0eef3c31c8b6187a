import NamedSlots.Fault
import NamedSlots.Number.Element

/-!
# Arithmetic of plain numbers

Integers are unbounded and exact, a quotient of integers is rounded once, and mixed operands
meet in the wider kind. Dividing by zero is a fault, and so is a result or an integer too large
for a floating number. A negative base with a fractional exponent gives a complex power.
-/

namespace NamedSlots.Number

/-- The floating value of an operand; an integer may be too large. -/
def toFloatChecked (n : Number) : Except Fault Float :=
  match n.toFloat? with
  | some x => return x
  | none => throw .overflow

def complexOperand (n : Number) : Except Fault (Float × Float) :=
  match n with
  | complex re im => return (re, im)
  | n => do return (← n.toFloatChecked, 0.0)

/-- Applies the operation of the wider kind of the two operands. -/
def lift (onInt : Int → Int → Except Fault Number) (onReal : Float → Float → Except Fault Number)
    (onComplex : Float × Float → Float × Float → Except Fault Number) (a b : Number) :
    Except Fault Number := do
  match a.toInt?, b.toInt? with
  | some m, some n => onInt m n
  | _, _ =>
    if a.rank = 3 ∨ b.rank = 3 then onComplex (← a.complexOperand) (← b.complexOperand)
    else onReal (← a.toFloatChecked) (← b.toFloatChecked)

namespace ComplexPair

def mul (x y : Float × Float) : Float × Float :=
  (x.1 * y.1 - x.2 * y.2, x.1 * y.2 + x.2 * y.1)

/-- The quotient, scaled by the larger part of the divisor. -/
def div (x y : Float × Float) : Float × Float :=
  if y.1.abs ≥ y.2.abs then
    let ratio := y.2 / y.1
    let den := y.1 + y.2 * ratio
    ((x.1 + x.2 * ratio) / den, (x.2 - x.1 * ratio) / den)
  else if y.2.abs ≥ y.1.abs then
    let ratio := y.1 / y.2
    let den := y.1 * ratio + y.2
    ((x.1 * ratio + x.2) / den, (x.2 * ratio - x.1) / den)
  else (notANumber, notANumber)

def abs (x : Float × Float) : Float :=
  if x.1.abs.isInf || x.2.abs.isInf then infinity false
  else
    let big := if x.1.abs ≥ x.2.abs then x.1.abs else x.2.abs
    let small := if x.1.abs ≥ x.2.abs then x.2.abs else x.1.abs
    if big == 0.0 then 0.0
    else
      let r := small / big
      big * Float.sqrt (1.0 + r * r)

/-- A power with a natural exponent, by repeated squaring. -/
def powNat (x : Float × Float) (n : Nat) : Float × Float :=
  go n (1.0, 0.0) x 7
where
  go (n : Nat) (r p : Float × Float) : Nat → Float × Float
    | 0 => r
    | steps + 1 =>
      if n = 0 then r
      else go (n / 2) (if n % 2 = 1 then mul r p else r) (mul p p) steps

def powPolar (x y : Float × Float) : Float × Float :=
  let size := abs x
  let angle := Float.atan2 x.2 x.1
  let len := Float.pow size y.1
  let phase := angle * y.1
  if y.2 != 0.0 then (len / Float.exp (angle * y.2), phase + y.2 * Float.log size)
  else (len, phase)

def ofPolar (p : Float × Float) : Float × Float :=
  (p.1 * Float.cos p.2, p.1 * Float.sin p.2)

end ComplexPair

/-- An integer that a float is, when its size is at most 100. -/
private def smallInteger? (x : Float) : Option Int :=
  if x.abs ≤ 100.0 then integral? x else none

def complexPow (x y : Float × Float) : Except Fault Number := do
  let (re, im) ←
    match (if y.2 == 0.0 then smallInteger? y.1 else none) with
    | some n =>
      let p := ComplexPair.powNat x n.natAbs
      if 0 < n then pure p
      else if p.1 == 0.0 && p.2 == 0.0 then throw .divisionByZero
      else pure (ComplexPair.div (1.0, 0.0) p)
    | none =>
      if y.1 == 0.0 && y.2 == 0.0 then pure (1.0, 0.0)
      else if x.1 == 0.0 && x.2 == 0.0 then
        if y.2 != 0.0 || y.1 < 0.0 then throw .divisionByZero else pure (0.0, 0.0)
      else
        let p := ComplexPair.powPolar x y
        if p.2.isInf then throw .divisionByZero else pure (ComplexPair.ofPolar p)
  if re.isInf || im.isInf then throw .overflow
  return complex re im

/-- A power of floating numbers; without a real value it is complex. -/
def realPow (x y : Float) : Except Fault Number := do
  if x == 0.0 && y < 0.0 && y.isFinite then throw .divisionByZero
  if x < 0.0 && x.isFinite && y.isFinite && (integral? y).isNone then
    complexPow (x, 0.0) (y, 0.0)
  else
    let r := Float.pow x y
    if r.isInf && x.isFinite && y.isFinite then throw .overflow
    return real r

def add : Number → Number → Except Fault Number :=
  lift (fun m n => pure (int (m + n))) (fun x y => pure (real (x + y)))
    (fun x y => pure (complex (x.1 + y.1) (x.2 + y.2)))

def sub : Number → Number → Except Fault Number :=
  lift (fun m n => pure (int (m - n))) (fun x y => pure (real (x - y)))
    (fun x y => pure (complex (x.1 - y.1) (x.2 - y.2)))

def mul : Number → Number → Except Fault Number :=
  lift (fun m n => pure (int (m * n))) (fun x y => pure (real (x * y)))
    (fun x y => let p := ComplexPair.mul x y; pure (complex p.1 p.2))

/-- The quotient of two integers, rounded once. -/
def intQuotient (m n : Int) : Except Fault Number :=
  if n = 0 then throw .divisionByZero
  else
    match doubleOfRatio? (decide (m < 0) != decide (n < 0)) m.natAbs n.natAbs with
    | some x => return real x
    | none => throw .overflow

def div : Number → Number → Except Fault Number :=
  lift intQuotient
    (fun x y => if y == 0.0 then throw .divisionByZero else pure (real (x / y)))
    (fun x y =>
      if y.1 == 0.0 && y.2 == 0.0 then throw .divisionByZero
      else let q := ComplexPair.div x y; pure (complex q.1 q.2))

/-- A natural power of an integer. Powers of 0, 1 and -1 never grow; of any other integer, a power
with an exponent of 25 bits or more is too large. -/
def intPow (m : Int) (n : Nat) : Except Fault Number :=
  if m.natAbs ≤ 1 then
    return int (if n = 0 then 1 else if n % 2 = 0 then m.natAbs else m)
  else if n < twoTo 24 then
    let size : Int := (Nat.pow m.natAbs n : Nat)
    return int (if m < 0 ∧ n % 2 = 1 then -size else size)
  else throw .overflow

def pow : Number → Number → Except Fault Number :=
  lift
    (fun m n =>
      if 0 ≤ n then intPow m n.toNat
      else do realPow (← (int m).toFloatChecked) (← (int n).toFloatChecked))
    realPow complexPow

def neg : Number → Number
  | bool b => int (-ofBool b)
  | int n => int (-n)
  | real x => real (-x)
  | complex re im => complex (-re) (-im)

/-- The order of two numbers that are not complex; none when one is a NaN. -/
def order? : Number → Number → Option Ordering
  | real a, real b =>
    if a < b then some .lt else if a == b then some .eq else if b < a then some .gt else none
  | real a, y => (y.toInt?.bind fun n => compareInt n a).map Ordering.swap
  | x, real b => x.toInt?.bind fun n => compareInt n b
  | x, y => do return compare (← x.toInt?) (← y.toInt?)

/-- Compares by an order test; complex numbers have no order. -/
def ordered (test : Ordering → Bool) (a b : Number) : Except Fault Bool :=
  if a.rank = 3 ∨ b.rank = 3 then throw .wrongType
  else return ((order? a b).map test).getD false

end NamedSlots.Number
