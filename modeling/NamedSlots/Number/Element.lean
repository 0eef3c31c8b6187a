import NamedSlots.Number.Decimal

/-!
# Numbers and element types

A number is a truth value, an unbounded integer, a floating number or a complex number. Standing
alone it is plain; as an element of an array it has an element type, which bounds its integers
and rounds its floating numbers.
-/

namespace NamedSlots

inductive Precision
  | half | single | double
deriving DecidableEq, Repr

namespace Precision

def format : Precision → BinaryFormat
  | half => .half
  | single => .single
  | double => .double

def rank : Precision → Nat
  | half => 0
  | single => 1
  | double => 2

def max (a b : Precision) : Precision := if a.rank < b.rank then b else a

def round (p : Precision) (x : Float) : Float :=
  match p with
  | double => x
  | p => Number.roundTo p.format x

/-- The count of digits in which an element of this precision is shown. -/
def shownDigits : Precision → Nat
  | half => 3
  | single => 5
  | double => 12

end Precision

/-- The type of a numeric element. -/
inductive ElementType
  | bool
  | int (signed : Bool) (bits : Nat)
  | real (p : Precision)
  | complex (p : Precision)
deriving DecidableEq, Repr

inductive Number
  | bool (b : Bool)
  | int (n : Int)
  | real (x : Float)
  | complex (re im : Float)
deriving Repr

namespace ElementType

abbrev int8 : ElementType := .int true 8
abbrev int64 : ElementType := .int true 64
abbrev uint64 : ElementType := .int false 64
abbrev float64 : ElementType := .real .double
abbrev complex128 : ElementType := .complex .double

def name : ElementType → String
  | bool => "bool"
  | int signed bits => (if signed then "int" else "uint") ++ toString bits
  | real .half => "float16"
  | real .single => "float32"
  | real .double => "float64"
  | complex .double => "complex128"
  | complex _ => "complex64"

def all : List ElementType :=
  [bool, int true 8, int true 16, int true 32, int true 64, int false 8, int false 16,
   int false 32, int false 64, real .half, real .single, real .double, complex .single,
   complex .double]

def named? (name : String) : Option ElementType :=
  all.find? fun t => t.name == name

/-- The least and the greatest integer of an integer type. -/
def bounds (signed : Bool) (bits : Nat) : Int × Int :=
  if signed then (-(twoTo (bits - 1) : Int), (twoTo (bits - 1) : Int) - 1) else (0, (twoTo bits : Int) - 1)

def fits (signed : Bool) (bits : Nat) (n : Int) : Bool :=
  let (low, high) := bounds signed bits
  decide (low ≤ n) && decide (n ≤ high)

/-- The integer of the type that agrees with `n` modulo the number of its values. -/
def wrap (signed : Bool) (bits : Nat) (n : Int) : Int :=
  if signed then Int.bmod n (twoTo bits) else Int.emod n (twoTo bits)

def isInexact : ElementType → Bool
  | real _ | complex _ => true
  | _ => false

/-- The smallest type that holds every element of both types. -/
def join : ElementType → ElementType → ElementType
  | bool, t => t
  | t, bool => t
  | int true a, int true b => int true (max a b)
  | int false a, int false b => int false (max a b)
  | int true a, int false b | int false b, int true a =>
    if b < a then int true a
    else if b < 64 then int true (2 * b)
    else float64
  | int _ bits, real p | real p, int _ bits => real (p.max (intPrecision bits))
  | int _ bits, complex p | complex p, int _ bits => complex (p.max (.max .single (intPrecision bits)))
  | real p, real q => real (p.max q)
  | real p, complex q | complex p, real q => complex (.max .single (p.max q))
  | complex p, complex q => complex (p.max q)
where
  intPrecision (bits : Nat) : Precision :=
    if bits ≤ 8 then .half else if bits ≤ 16 then .single else .double

/-- The type in which functions of a real argument compute. -/
def floating : ElementType → ElementType
  | bool => real .half
  | int _ bits => real (join.intPrecision bits)
  | t => t

end ElementType

namespace Number

def rank : Number → Nat
  | bool _ => 0
  | int _ => 1
  | real _ => 2
  | complex _ _ => 3

def ofBool (b : Bool) : Int := if b then 1 else 0

/-- The value as an integer, for truth values and integers. -/
def toInt? : Number → Option Int
  | bool b => some (ofBool b)
  | int n => some n
  | _ => none

/-- Whether the number differs from zero; a NaN does. -/
def isTrue : Number → Bool
  | bool b => b
  | int n => n != 0
  | real x => x != 0.0
  | complex re im => re != 0.0 || im != 0.0

/-- The real number nearest to a number that is not complex; integers that are too large have none. -/
def toFloat? : Number → Option Float
  | bool b => some (if b then 1.0 else 0.0)
  | int n => doubleOfInt? n
  | real x => some x
  | complex _ _ => none

/-- The real number nearest to the real part, infinite when it is too large. -/
def toFloat : Number → Float
  | bool b => if b then 1.0 else 0.0
  | int n => doubleOfInt n
  | real x => x
  | complex re _ => re

def toComplex : Number → Float × Float
  | complex re im => (re, im)
  | n => (n.toFloat, 0.0)

def realPart : Number → Number
  | complex re _ => real re
  | n => n

def imaginaryPart : Number → Float
  | complex _ im => im
  | _ => 0.0

/-- Equality of numbers that are not complex; an integer and a floating number are compared exactly. -/
def sameReal : Number → Number → Bool
  | real a, real b => a == b
  | real a, y => (y.toInt?.bind fun n => compareInt n a) == some .eq
  | x, real b => (x.toInt?.bind fun n => compareInt n b) == some .eq
  | x, y => x.toInt? == y.toInt?

/-- Two numbers are equal when they stand for the same value, whatever their types. -/
def same (a b : Number) : Bool :=
  a.realPart.sameReal b.realPart && a.imaginaryPart == b.imaginaryPart

end Number
end NamedSlots
