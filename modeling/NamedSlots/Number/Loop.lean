import NamedSlots.Number.Elementary

/-!
# Loops over array elements

An operator on elements selects a loop by the element types of its operands: the type in which
it computes, the type of its result, and the function for one element. Integers wrap around,
floating numbers are rounded to their precision, and nothing divides by zero with a fault.
-/

namespace NamedSlots

namespace ElementType

/-- A number converted to an element type: integers wrap, fractions are cut off, reals are rounded. -/
def cast (t : ElementType) (n : Number) : Number :=
  match t with
  | bool => .bool n.isTrue
  | int signed bits =>
    match n.toInt? with
    | some m => .int (wrap signed bits m)
    | none =>
      match Number.truncate? n.toFloat with
      | some m => .int (wrap signed bits m)
      | none => .int (wrap signed bits (-(twoTo 63 : Int)))
  | real p => .real (p.round n.toFloat)
  | complex p =>
    let (re, im) := n.toComplex
    .complex (p.round re) (p.round im)

/-- The least type that holds a plain number; integers beyond 64 bits have none. -/
def ofNumber? : Number → Option ElementType
  | .bool _ => some bool
  | .int n =>
    if fits true 64 n then some int64 else if fits false 64 n then some uint64 else none
  | .real _ => some float64
  | .complex _ _ => some complex128

end ElementType

/-- An operation on one element, in the types of its argument and its result. -/
structure UnaryLoop where
  input : ElementType
  output : ElementType
  apply : Number → Number

/-- An operation on two elements, in the types of its arguments and its result. -/
structure BinaryLoop where
  input : ElementType
  output : ElementType
  apply : Number → Number → Except Fault Number

namespace UnaryLoop

def ofInt (signed : Bool) (bits : Nat) (f : Int → Int) (n : Number) : Number :=
  .int (ElementType.wrap signed bits (f (n.toInt?.getD 0)))

def ofReal (p : Precision) (f : Float → Float) (n : Number) : Number :=
  .real (p.round (f n.toFloat))

def ofComplex (p : Precision) (f : Float × Float → Float × Float) (n : Number) : Number :=
  let (re, im) := f n.toComplex
  .complex (p.round re) (p.round im)

def floating (op : UnaryOp) (t : ElementType) : Except Fault UnaryLoop :=
  match t.floating with
  | .real p =>
    match Number.realFunction? op with
    | some f => return ⟨.real p, .real p, ofReal p f⟩
    | none => throw .wrongType
  | .complex p =>
    match Number.complexFunction? op with
    | some f => return ⟨.complex p, .complex p, ofComplex p f⟩
    | none => throw .wrongType
  | _ => throw .wrongType

/-- The loop of an elementwise operator; aggregates have none. -/
def select (op : UnaryOp) (t : ElementType) : Except Fault UnaryLoop :=
  match op with
  | .neg =>
    match t with
    | .bool => throw .wrongType
    | .int s b => return ⟨t, t, ofInt s b (- ·)⟩
    | .real p => return ⟨t, t, ofReal p (- ·)⟩
    | .complex p => return ⟨t, t, ofComplex p fun x => (-x.1, -x.2)⟩
  | .not => return ⟨t, .bool, fun n => .bool (!n.isTrue)⟩
  | .abs =>
    match t with
    | .bool => return ⟨t, t, id⟩
    | .int s b => return ⟨t, t, ofInt s b fun n => (n.natAbs : Int)⟩
    | .real p => return ⟨t, t, ofReal p Float.abs⟩
    | .complex p => return ⟨t, .real p, fun n => .real (p.round (Number.ComplexPair.abs n.toComplex))⟩
  | .sign =>
    match t with
    | .bool => throw .wrongType
    | .int s b => return ⟨t, t, ofInt s b Int.sign⟩
    | .real p => return ⟨t, t, ofReal p Number.signOf⟩
    | .complex p => return ⟨t, t, ofComplex p Number.ComplexPair.sign⟩
  | .floor | .ceil =>
    match t with
    | .bool | .int _ _ => return ⟨t, t, id⟩
    | .real p => return ⟨t, t, ofReal p (if op = .floor then Float.floor else Float.ceil)⟩
    | .complex _ => throw .wrongType
  | .sum | .prod | .norm => throw .wrongType
  | op => floating op t

end UnaryLoop

namespace BinaryLoop

def ints (signed : Bool) (bits : Nat) (f : Int → Int → Except Fault Int) (a b : Number) :
    Except Fault Number := do
  return .int (ElementType.wrap signed bits (← f (a.toInt?.getD 0) (b.toInt?.getD 0)))

def reals (p : Precision) (f : Float → Float → Float) (a b : Number) : Except Fault Number :=
  return .real (p.round (f a.toFloat b.toFloat))

def pairs (p : Precision) (f : Float × Float → Float × Float → Float × Float) (a b : Number) :
    Except Fault Number :=
  let (re, im) := f a.toComplex b.toComplex
  return .complex (p.round re) (p.round im)

def test (f : Number → Number → Bool) (a b : Number) : Except Fault Number :=
  return .bool (f a b)

/-- A power of integers modulo the values of their type; the exponent may not be negative. -/
def intPow (signed : Bool) (bits : Nat) (a b : Int) : Except Fault Int :=
  if b < 0 then throw .wrongValue
  else return go bits (ElementType.wrap signed bits a) b.toNat 1
where
  go : Nat → Int → Nat → Int → Int
    | 0, _, _, r => r
    | steps + 1, x, n, r =>
      if n = 0 then r
      else go steps (ElementType.wrap signed bits (x * x)) (n / 2)
        (if n % 2 = 1 then ElementType.wrap signed bits (r * x) else r)

/-- The lexicographic order of complex numbers. -/
private def complexOrder (a b : Number) : Option Ordering :=
  let (ar, ai) := a.toComplex
  let (br, bi) := b.toComplex
  if ar < br then some .lt else if br < ar then some .gt
  else if ar == br then
    if ai < bi then some .lt else if bi < ai then some .gt
    else if ai == bi then some .eq else none
  else none

def order? (a b : Number) : Option Ordering :=
  if a.rank = 3 ∨ b.rank = 3 then complexOrder a b else Number.order? a b

def ordered (f : Ordering → Bool) (a b : Number) : Bool := ((order? a b).map f).getD false

def isNaN : Number → Bool
  | .real x => x.isNaN
  | .complex re im => re.isNaN || im.isNaN
  | _ => false

/-- The lesser or the greater of two elements; a NaN wins. -/
def extremum (wanted : Ordering) (a b : Number) : Number :=
  if isNaN a then a else if order? a b == some wanted then a else b

def arithmetic (t : ElementType) (onInt : Int → Int → Int) (onReal : Float → Float → Float)
    (onComplex : Float × Float → Float × Float → Float × Float) : Number → Number → Except Fault Number :=
  match t with
  | .bool => fun a _ => return a
  | .int s b => ints s b fun m n => return onInt m n
  | .real p => reals p onReal
  | .complex p => pairs p onComplex

private def complexPower (x y : Float × Float) : Float × Float :=
  if y.1 == 0.0 && y.2 == 0.0 then (1.0, 0.0)
  else if x.1 == 0.0 && x.2 == 0.0 then
    if y.1 > 0.0 && y.2 == 0.0 then (0.0, 0.0) else (Number.notANumber, Number.notANumber)
  else
    match (if y.2 == 0.0 && y.1.abs < 100.0 then Number.integral? y.1 else none) with
    | some n =>
      let p := Number.ComplexPair.powNat x n.natAbs
      if 0 ≤ n then p else Number.ComplexPair.div (1.0, 0.0) p
    | none => Number.ComplexPair.ofPolar (Number.ComplexPair.powPolar x y)

/-- The loop of an operator on elements of one joined type; `dot` has none. -/
def select (op : BinaryOp) (t : ElementType) : Except Fault BinaryLoop :=
  match op with
  | .add =>
    match t with
    | .bool => return ⟨t, t, test fun a b => a.isTrue || b.isTrue⟩
    | t => return ⟨t, t, arithmetic t (· + ·) (· + ·) fun x y => (x.1 + y.1, x.2 + y.2)⟩
  | .sub =>
    match t with
    | .bool => throw .wrongType
    | t => return ⟨t, t, arithmetic t (· - ·) (· - ·) fun x y => (x.1 - y.1, x.2 - y.2)⟩
  | .mul =>
    match t with
    | .bool => return ⟨t, t, test fun a b => a.isTrue && b.isTrue⟩
    | t => return ⟨t, t, arithmetic t (· * ·) (· * ·) Number.ComplexPair.mul⟩
  | .div =>
    match t with
    | .bool | .int _ _ => return ⟨.float64, .float64, reals .double (· / ·)⟩
    | .real p => return ⟨t, t, reals p (· / ·)⟩
    | .complex p => return ⟨t, t, pairs p Number.ComplexPair.div⟩
  | .pow =>
    match t with
    | .bool => return ⟨.int8, .int8, ints true 8 (intPow true 8)⟩
    | .int s b => return ⟨t, t, ints s b (intPow s b)⟩
    | .real p => return ⟨t, t, reals p Float.pow⟩
    | .complex p => return ⟨t, t, pairs p complexPower⟩
  | .mod =>
    match t with
    | .bool => return ⟨.int8, .int8, ints true 8 fun m n => return if n = 0 then 0 else Int.fmod m n⟩
    | .int s b => return ⟨t, t, ints s b fun m n => return if n = 0 then 0 else Int.fmod m n⟩
    | .real p => return ⟨t, t, reals p Number.flooredRemainder⟩
    | .complex _ => throw .wrongType
  | .lt => return ⟨t, .bool, test (ordered (· == .lt))⟩
  | .le => return ⟨t, .bool, test (ordered (· != .gt))⟩
  | .gt => return ⟨t, .bool, test (ordered (· == .gt))⟩
  | .ge => return ⟨t, .bool, test (ordered (· != .lt))⟩
  | .eq => return ⟨t, .bool, test Number.same⟩
  | .ne => return ⟨t, .bool, test fun a b => !a.same b⟩
  | .and => return ⟨t, .bool, test fun a b => a.isTrue && b.isTrue⟩
  | .or => return ⟨t, .bool, test fun a b => a.isTrue || b.isTrue⟩
  | .min => return ⟨t, t, fun a b => return extremum .lt a b⟩
  | .max => return ⟨t, t, fun a b => return extremum .gt a b⟩
  | .atan2 =>
    match t.floating with
    | .real p => return ⟨.real p, .real p, reals p Float.atan2⟩
    | _ => throw .wrongType
  | .dot => throw .wrongType

end BinaryLoop
end NamedSlots
