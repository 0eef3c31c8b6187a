/-!
# Graph nodes

A scalar graph computes one number from numbered inputs. Its nodes are inputs, constants, and
operators of one or two operands; each operator node knows the place where it was made. The
arithmetic of the numbers is a parameter: it folds constants and it evaluates graphs.
-/

namespace NamedSlots.Graph

inductive UnaryNode
  | neg | not | sq | inv
  | sin | cos | tan | asin | acos | atan | sqrt | exp | log
  | abs | sign | floor | ceil | sinh | cosh | tanh
deriving DecidableEq, Repr

inductive BinaryNode
  | add | sub | mul | div | pow | constantPow
  | lt | le | eq | ne | and | or
  | atan2 | min | max | mod
  /-- The second operand where the first is not zero, and zero elsewhere. -/
  | ifElseZero
deriving DecidableEq, Repr

namespace BinaryNode

def isCommutative : BinaryNode → Bool
  | add | mul | eq | ne | and | or | min | max => true
  | _ => false

end BinaryNode

/-- Where a node was made: the path down to it. Different nodes are made at different places. -/
abbrev Place := List Nat

inductive Node (K : Type)
  | input (i : Nat)
  | constant (x : K)
  | unary (place : Place) (op : UnaryNode) (a : Node K)
  | binary (place : Place) (op : BinaryNode) (a b : Node K)
deriving Repr

/-- The numbers of a graph and what the operators do with them. -/
structure Arithmetic (K : Type) where
  ofInt : Int → K
  ofFloat : Float → K
  /-- How a number is kept as a constant; kept numbers have no signed zero. -/
  kept : K → K
  same : K → K → Bool
  /-- The integer that a number is, if it is one. -/
  toInt? : K → Option Int
  isHalf : K → Bool
  isNonnegative : K → Bool
  isZero : K → Bool
  unary : UnaryNode → K → K
  binary : BinaryNode → K → K → K

namespace Node

variable {K : Type}

def size : Node K → Nat
  | input _ => 1
  | constant _ => 1
  | unary _ _ a => a.size + 1
  | binary _ _ a b => a.size + b.size + 1

def value (arith : Arithmetic K) (inputs : Nat → K) : Node K → K
  | input i => inputs i
  | constant x => x
  | unary _ op a => arith.unary op (a.value arith inputs)
  | binary _ op a b => arith.binary op (a.value arith inputs) (b.value arith inputs)

def isConstant : Node K → Bool
  | constant _ => true
  | _ => false

/-- Whether two graphs are of one form, wherever their nodes were made. -/
def sameForm (arith : Arithmetic K) : Node K → Node K → Bool
  | input i, input j => i == j
  | constant x, constant y => arith.same x y
  | unary _ op a, unary _ op' a' => decide (op = op') && sameForm arith a a'
  | binary _ op a b, binary _ op' a' b' => decide (op = op') && sameForm arith a a' && sameForm arith b b'
  | _, _ => false

/-- Whether two operator nodes were made at one place; inputs and constants have no place. -/
def samePlace : Node K → Node K → Bool
  | unary p _ _, unary q _ _ => decide (p = q)
  | binary p _ _ _, binary q _ _ _ => decide (p = q)
  | _, _ => true

def isOne (arith : Arithmetic K) (x y : Node K) : Bool := x.samePlace y && x.sameForm arith y

/-- Whether two graphs are one, or apply one operator to operands that are. -/
def isEqual (arith : Arithmetic K) (x y : Node K) : Bool :=
  x.isOne arith y ||
  match x, y with
  | unary _ op a, unary _ op' a' => decide (op = op') && a.isOne arith a'
  | binary _ op a b, binary _ op' a' b' =>
    decide (op = op') &&
      (a.isOne arith a' && b.isOne arith b' || op.isCommutative && a.isOne arith b' && b.isOne arith a')
  | _, _ => false

end Node
end NamedSlots.Graph
