import NamedSlots.Number.Decimal

/-!
# Algebraic terms

Trees of a computer algebra: symbols, exact and floating numbers, named constants, matrix
symbols and their elements, piecewise terms, and any other function by its name.
-/

namespace NamedSlots

/-- The constants that have a name of their own. -/
inductive NamedConstant
  | pi | e | infinity | negativeInfinity | nan | complexInfinity | imaginaryUnit
  | true | false | eulerGamma | goldenRatio | catalan
deriving DecidableEq, Repr

inductive Term
  | symbol (name : String)
  | integer (n : Int)
  | rational (num den : Int)
  | float (x : Float)
  | constant (c : NamedConstant)
  | matrix (name : String) (rows cols : Int)
  | element (name : String) (rows cols : Int) (i j : Int)
  | piecewise (branches : List (Term × Term))
  | apply (head : String) (args : List Term)
deriving Repr

namespace NamedConstant

/-- The short name in which the constant is given and printed. -/
def name : NamedConstant → String
  | pi => "pi"
  | e => "E"
  | infinity => "oo"
  | negativeInfinity => "-oo"
  | nan => "nan"
  | complexInfinity => "zoo"
  | imaginaryUnit => "I"
  | true => "true"
  | false => "false"
  | eulerGamma => "EulerGamma"
  | goldenRatio => "GoldenRatio"
  | catalan => "Catalan"

def all : List NamedConstant :=
  [pi, e, infinity, negativeInfinity, nan, complexInfinity, imaginaryUnit, true, false,
   eulerGamma, goldenRatio, catalan]

def named? (name : String) : Option NamedConstant :=
  all.find? fun c => c.name == name

/-- The nearest real number, for constants that are real or infinite. -/
def toFloat? : NamedConstant → Option Float
  | pi => some 3.141592653589793
  | e => some 2.718281828459045
  | infinity => some (Number.infinity Bool.false)
  | negativeInfinity => some (Number.infinity Bool.true)
  | nan => some Number.notANumber
  | true => some 1.0
  | false => some 0.0
  | eulerGamma => some 0.5772156649015329
  | goldenRatio => some 1.618033988749895
  | catalan => some 0.915965594177219
  | complexInfinity | imaginaryUnit => none

def className : NamedConstant → String
  | pi => "Pi"
  | e => "Exp1"
  | infinity => "Infinity"
  | negativeInfinity => "NegativeInfinity"
  | nan => "NaN"
  | complexInfinity => "ComplexInfinity"
  | imaginaryUnit => "ImaginaryUnit"
  | true => "BooleanTrue"
  | false => "BooleanFalse"
  | eulerGamma => "EulerGamma"
  | goldenRatio => "GoldenRatio"
  | catalan => "Catalan"

/-- The text in which the constant is printed inside a term. -/
def text : NamedConstant → String
  | true => "True"
  | false => "False"
  | c => c.name

end NamedConstant

namespace Term

def isTrue : Term → Bool
  | constant .true => true
  | _ => false

def isHalf : Term → Bool
  | rational 1 2 => true
  | _ => false

def className : Term → String
  | symbol _ => "Symbol"
  | integer 0 => "Zero"
  | integer 1 => "One"
  | integer (-1) => "NegativeOne"
  | integer _ => "Integer"
  | rational 1 2 => "Half"
  | rational _ _ => "Rational"
  | float _ => "Float"
  | constant c => c.className
  | matrix _ _ _ => "MatrixSymbol"
  | element _ _ _ _ _ => "MatrixElement"
  | piecewise _ => "Piecewise"
  | apply head _ => head

mutual

def same : Term → Term → Bool
  | symbol a, symbol b => a == b
  | integer a, integer b => a == b
  | rational a b, rational c d => a == c && b == d
  | float a, float b => a == b
  | constant a, constant b => decide (a = b)
  | matrix a b c, matrix a' b' c' => a == a' && b == b' && c == c'
  | element a b c i j, element a' b' c' i' j' =>
    a == a' && b == b' && c == c' && i == i' && j == j'
  | piecewise bs, piecewise bs' => sameBranches bs bs'
  | apply h xs, apply h' xs' => h == h' && sameAll xs xs'
  | _, _ => false

def sameAll : List Term → List Term → Bool
  | [], [] => true
  | x :: xs, y :: ys => same x y && sameAll xs ys
  | _, _ => false

def sameBranches : List (Term × Term) → List (Term × Term) → Bool
  | [], [] => true
  | (v, c) :: bs, (v', c') :: bs' => same v v' && same c c' && sameBranches bs bs'
  | _, _ => false

end

instance : BEq Term := ⟨same⟩

instance : Inhabited Term := ⟨integer 0⟩

end Term
end NamedSlots
