import NamedSlots.Failure

/-!
# Terms as expressions

A term becomes an expression node by node. Sums, products, extrema and connectives of many
arguments are folded from the left, a power with exponent one half becomes a square root, and a
piecewise term becomes nested conditionals that end in its first branch with a true condition.
-/

namespace NamedSlots.Term

def unaryOp? : String → Option UnaryOp
  | "sin" => some .sin
  | "cos" => some .cos
  | "tan" => some .tan
  | "asin" => some .asin
  | "acos" => some .acos
  | "atan" => some .atan
  | "exp" => some .exp
  | "log" => some .log
  | "Abs" => some .abs
  | "sign" => some .sign
  | "floor" => some .floor
  | "ceiling" => some .ceil
  | "sinh" => some .sinh
  | "cosh" => some .cosh
  | "tanh" => some .tanh
  | "Not" => some .not
  | _ => none

/-- The functions of any number of arguments that are folded from the left. -/
def foldOp? : String → Option BinaryOp
  | "Add" => some .add
  | "Mul" => some .mul
  | "Min" => some .min
  | "Max" => some .max
  | "And" => some .and
  | "Or" => some .or
  | _ => none

/-- The functions of two arguments that have an operator. -/
def binaryOp? : String → Option BinaryOp
  | "StrictLessThan" => some .lt
  | "LessThan" => some .le
  | "StrictGreaterThan" => some .gt
  | "GreaterThan" => some .ge
  | "Equality" => some .eq
  | "Unequality" => some .ne
  | "atan2" => some .atan2
  | "Mod" => some .mod
  | _ => none

/-- Combines expressions with an operator, from the left. -/
def foldLeft (op : BinaryOp) : List Expr → Except Failure Expr
  | [] => failWith .wrongType
  | e :: es => return es.foldl (Expr.binary op) e

mutual

def toExpr : Term → Except Failure Expr
  | symbol name => return Expr.symbol (some name)
  | integer n => return Expr.constant (Number.doubleOfInt n)
  | rational p q =>
    return Expr.constant (Number.doubleOfRatio (decide (p < 0) != decide (q < 0)) p.natAbs q.natAbs)
  | float x => return Expr.constant x
  | constant c =>
    match c.toFloat? with
    | some x => return Expr.constant x
    | none => throw (.unsupportedTerm c.className c.text)
  | matrix name rows cols => return Expr.array (some name) [rows, cols]
  | element name _ _ i j => return Expr.symbol (some name) [i, j]
  | piecewise branches => branchesToExpr branches
  | apply head args =>
    match foldOp? head, binaryOp? head, unaryOp? head, args with
    | some op, _, _, args => do foldLeft op (← allToExpr args)
    | _, some op, _, [l, r] => do return Expr.binary op (← toExpr l) (← toExpr r)
    | _, _, some op, [x] => do return Expr.unary op (← toExpr x)
    | _, _, _, [base, power] => do
      if head = "Pow" then
        if power.isHalf then return Expr.unary .sqrt (← toExpr base)
        else return Expr.binary .pow (← toExpr base) (← toExpr power)
      else throw (.unsupportedTerm head (apply head [base, power]).text)
    | _, _, _, args => throw (.unsupportedTerm head (apply head args).text)

def allToExpr : List Term → Except Failure (List Expr)
  | [] => return []
  | t :: ts => do return (← toExpr t) :: (← allToExpr ts)

def branchesToExpr : List (Term × Term) → Except Failure Expr
  | [] => throw .noDefaultBranch
  | (value, cond) :: rest =>
    if cond.isTrue then toExpr value
    else if rest.isEmpty then throw .noDefaultBranch
    else do
      let c ← toExpr cond
      let v ← toExpr value
      return Expr.ifThenElse c v (← branchesToExpr rest)

end

end NamedSlots.Term
