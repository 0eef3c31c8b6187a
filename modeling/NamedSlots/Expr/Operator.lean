/-!
# Operators

The operators of expressions: one, two or three operands. Each has a lower-case name; some are
written between or before their operands.
-/

namespace NamedSlots

inductive UnaryOp
  | neg | not
  | sin | cos | tan | asin | acos | atan | sqrt | exp | log | log10
  | abs | sign | floor | ceil | sinh | cosh | tanh
  | sum | prod | norm
deriving DecidableEq, Repr

inductive BinaryOp
  | add | sub | mul | div | pow
  | lt | le | gt | ge | eq | ne
  | and | or
  | atan2 | min | max | mod | dot
deriving DecidableEq, Repr

/-- What a node of an expression is. -/
inductive Kind
  | symbol
  | array
  | constant
  | unary (op : UnaryOp)
  | binary (op : BinaryOp)
  | ifThenElse
deriving DecidableEq, Repr

namespace UnaryOp

def all : List UnaryOp :=
  [neg, not, sin, cos, tan, asin, acos, atan, sqrt, exp, log, log10, abs, sign, floor, ceil,
   sinh, cosh, tanh, sum, prod, norm]

def name : UnaryOp → String
  | neg => "neg" | not => "not"
  | sin => "sin" | cos => "cos" | tan => "tan" | asin => "asin" | acos => "acos" | atan => "atan"
  | sqrt => "sqrt" | exp => "exp" | log => "log" | log10 => "log10"
  | abs => "abs" | sign => "sign" | floor => "floor" | ceil => "ceil"
  | sinh => "sinh" | cosh => "cosh" | tanh => "tanh"
  | sum => "sum" | prod => "prod" | norm => "norm"

end UnaryOp

namespace BinaryOp

def all : List BinaryOp :=
  [add, sub, mul, div, pow, lt, le, gt, ge, eq, ne, and, or, atan2, min, max, mod, dot]

def name : BinaryOp → String
  | add => "add" | sub => "sub" | mul => "mul" | div => "div" | pow => "pow"
  | lt => "lt" | le => "le" | gt => "gt" | ge => "ge" | eq => "eq" | ne => "ne"
  | and => "and" | or => "or"
  | atan2 => "atan2" | min => "min" | max => "max" | mod => "mod" | dot => "dot"

/-- The sign written between the operands, for operators that have one. -/
def sign? : BinaryOp → Option String
  | add => some "+" | sub => some "-" | mul => some "*" | div => some "/" | pow => some "**"
  | lt => some "<" | le => some "<=" | gt => some ">" | ge => some ">="
  | eq => some "==" | ne => some "!="
  | and => some "and" | or => some "or"
  | atan2 | min | max | mod | dot => none

end BinaryOp

namespace Kind

def name : Kind → String
  | symbol => "symbol"
  | array => "array"
  | constant => "constant"
  | unary op => op.name
  | binary op => op.name
  | ifThenElse => "if_then_else"

def all : List Kind :=
  [symbol, array, constant] ++ UnaryOp.all.map unary ++ BinaryOp.all.map binary ++ [ifThenElse]

def named? (name : String) : Option Kind :=
  all.find? fun k => k.name == name

end Kind
end NamedSlots
