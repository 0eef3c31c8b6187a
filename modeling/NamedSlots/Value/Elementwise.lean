import NamedSlots.Value.Truth

/-!
# Operators on values

Plain numbers follow plain arithmetic. Elements and arrays follow the loops of their types: a
plain number beside them takes their type where it can, arrays are broadcast, and a result
without dimensions is a single element. Texts and sequences can be joined and repeated, arrays
of objects combine item by item, and an expression operand gives an expression.
-/

namespace NamedSlots.Value

/-- A numeric operand: its type, whether it yields to the other operand's type, and its items. -/
structure Operand where
  type : ElementType
  isWeak : Bool
  isArray : Bool
  shape : List Nat
  items : List Number

/-- The numeric operand that a number, element or numeric array is; integers beyond 64 bits are none. -/
def operand? : Value → Option Operand
  | number n => (ElementType.ofNumber? n).map fun t =>
      ⟨t, decide (n.rank ≠ 0), false, [], [n]⟩
  | element t n => some ⟨t, false, false, [], [n]⟩
  | numbers t shape items => some ⟨t, false, true, shape, items⟩
  | _ => Option.none

def isTyped : Value → Bool
  | element _ _ | numbers _ _ _ | texts _ _ _ | objects _ _ => true
  | _ => false

/-- The type of a plain number beside an operand of a given type. -/
def weakType (strong weak : ElementType) : ElementType :=
  match weak, strong with
  | .int _ _, .bool => .int64
  | .int _ _, t => t
  | .real _, .bool | .real _, .int _ _ => .float64
  | .real _, t => t
  | .complex _, .bool | .complex _, .int _ _ => .complex128
  | .complex _, .real .double => .complex128
  | .complex _, .real _ => .complex .single
  | .complex _, t => t
  | .bool, t => t

def meetType (a b : Operand) : ElementType :=
  match a.isWeak, b.isWeak with
  | false, true => weakType a.type b.type
  | true, false => weakType b.type a.type
  | _, _ => a.type.join b.type

/-- A plain integer beside an integer type has to fit it. -/
def Operand.fitsIn (o : Operand) (t : ElementType) : Bool :=
  match t with
  | .int signed bits => !o.isWeak || o.items.all fun n => (n.toInt?.map (ElementType.fits signed bits)).getD true
  | _ => true

/-- An array, or a single element when there are no dimensions. -/
def ofItems (t : ElementType) (shape : List Nat) (items : List Number) : Value :=
  (numbers t shape items).unwrap

def isComparison : BinaryOp → Bool
  | .lt | .le | .gt | .ge | .eq | .ne => true
  | _ => false

/-- The operator applied to each pair of items of two broadcast operands; integers are compared exactly. -/
def combine (op : BinaryOp) (a b : Operand) : Except Failure Value := do
  let t := meetType a b
  let loop ← BinaryLoop.select op t
  let exact := isComparison op && !a.type.isInexact && !b.type.isInexact
  let anyInteger := isComparison op || op = .and || op = .or
  if !anyInteger && !(a.fitsIn t && b.fitsIn t) then failWith .overflow
  match Shape.broadcast? a.shape b.shape with
  | Option.none => failWith .wrongValue
  | some shape =>
    let convert (n : Number) : Number := if exact then n else loop.input.cast n
    let xs := (Shape.spread a.shape shape a.items).map convert
    let ys := (Shape.spread b.shape shape b.items).map convert
    let items ← (xs.zip ys).mapM fun (x, y) => loop.apply x y
    return ofItems loop.output shape items

/-- The square root in place of a power with exponent one half, for floating arrays. -/
def rootPower? (a b : Value) : Option Value :=
  match a, b with
  | numbers (.real p) shape items, number (.real x) =>
    if x == 0.5 then some (ofItems (.real p) shape (items.map fun n => .real (p.round n.toFloat.sqrt)))
    else Option.none
  | _, _ => Option.none

def plainOperator (op : BinaryOp) (a b : Number) : Except Fault Value := do
  match op with
  | .add => return number (← a.add b)
  | .sub => return number (← a.sub b)
  | .mul => return number (← a.mul b)
  | .div => return number (← a.div b)
  | .pow => return number (← a.pow b)
  | .lt => return bool (← Number.ordered (· == .lt) a b)
  | .le => return bool (← Number.ordered (· != .gt) a b)
  | .gt => return bool (← Number.ordered (· == .gt) a b)
  | .ge => return bool (← Number.ordered (· != .lt) a b)
  | .eq => return bool (a.same b)
  | .ne => return bool (!a.same b)
  | .mod =>
    match a.toInt?, b.toInt? with
    | some m, some n => if n = 0 then throw .divisionByZero else return int (Int.fmod m n)
    | _, _ =>
      if a.rank = 3 ∨ b.rank = 3 then throw .wrongType
      else
        let x ← a.toFloatChecked
        let y ← b.toFloatChecked
        if y == 0.0 then throw .divisionByZero else return real (Number.flooredRemainder x y)
  | _ => throw .wrongType

/-- The outcome of comparing values of unrelated kinds: they differ and have no order. -/
def unrelated (op : BinaryOp) (a b : Value) : Except Failure Value :=
  match op with
  | .eq => return bool (a == b)
  | .ne => return bool (!(a == b))
  | _ => failWith .wrongType

def repeated {α : Type} (items : List α) (n : Int) : Except Failure (List α) :=
  if !ElementType.fits true 64 n then failWith .overflow
  else if items.isEmpty then return []
  else return (List.replicate n.toNat items).flatten

private def testOf : BinaryOp → Option (Ordering → Bool)
  | .lt => some (· == .lt)
  | .le => some (· != .gt)
  | .gt => some (· == .gt)
  | .ge => some (· != .lt)
  | .eq => some (· == .eq)
  | .ne => some (· != .eq)
  | _ => Option.none

/-- Operators on texts: joining and the order by characters. -/
def textOperator (op : BinaryOp) (a b : String) : Except Failure Value :=
  match op, testOf op with
  | .add, _ => return text (a ++ b)
  | _, some test => return bool (test (compare a b))
  | _, _ => failWith .wrongType

def repeated? (v : Value) (n : Number) : Option (Except Failure Value) := do
  let k ← n.toInt?
  match v with
  | string s _ => some ((fun cs => text (String.ofList cs)) <$> repeated s.toList k)
  | list items => some (list <$> repeated items k)
  | tuple items => some (tuple <$> repeated items k)
  | _ => Option.none

mutual

/-- Compares two numbers, texts or sequences by an order test. -/
def ordered (test : Ordering → Bool) : Value → Value → Except Failure Bool
  | number x, number y => Number.ordered test x y
  | string x _, string y _ => return test (compare x y)
  | list as, list bs => sequenceOrdered test as bs
  | tuple as, tuple bs => sequenceOrdered test as bs
  | _, _ => failWith .wrongType

/-- The order of two sequences is that of their first items that differ. -/
def sequenceOrdered (test : Ordering → Bool) : List Value → List Value → Except Failure Bool
  | [], [] => return test .eq
  | [], _ => return test .lt
  | _, [] => return test .gt
  | a :: as, b :: bs => if a == b then sequenceOrdered test as bs else ordered test a b

end

def sequenceOperator (op : BinaryOp) (wrap : List Value → Value) (as bs : List Value) : Except Failure Value :=
  match op, testOf op with
  | .add, _ => return wrap (as ++ bs)
  | .eq, _ => return bool (sameAll as bs)
  | .ne, _ => return bool (!sameAll as bs)
  | _, some test => return bool (← sequenceOrdered test as bs)
  | _, _ => failWith .wrongType

def depth : Value → Nat
  | objects _ items => 1 + depths items
  | _ => 0
where
  depths : List Value → Nat
    | [] => 0
    | v :: vs => max (depth v) (depths vs)

/-- The items of an operand in an operation on objects, and its shape. -/
def objectOperand (v : Value) : Except Failure (List Nat × List Value) := do
  match v with
  | number _ | element _ _ | string _ _ | none => return ([], [v])
  | list _ | tuple _ | numbers _ _ _ | texts _ _ _ | objects _ _ =>
    let a ← v.assemble
    return (a.shape?.getD [], a.gridItems)
  | v => return ([], [v])

def ofObjects (op : BinaryOp) (shape : List Nat) (items : List Value) : Value :=
  if isComparison op then
    ofItems .bool shape (items.map fun v =>
      match v with
      | number n => .bool n.isTrue
      | element _ n => .bool n.isTrue
      | _ => .bool true)
  else (objects shape items).unwrap

def repetition? (a b : Value) : Option (Except Failure Value) :=
  match a, b with
  | v, number n => repeated? v n
  | number n, v => repeated? v n
  | v, element (.int _ _) n => repeated? v n
  | element (.int _ _) n, v => repeated? v n
  | _, _ => Option.none

/-- A comparison with the expression on the right turns around; other operators keep their sides. -/
def reflected (op : BinaryOp) (l r : Expr) : Expr :=
  match op with
  | .lt => Expr.binary .gt r l
  | .le => Expr.binary .ge r l
  | .gt => Expr.binary .lt r l
  | .ge => Expr.binary .le r l
  | op => Expr.binary op l r

/-- Sequences beside arrays become arrays. -/
def assembled (v : Value) : Except Failure Value :=
  match v with
  | list _ | tuple _ => v.assemble
  | v => return v

/-- Item by item on objects; texts beside numbers can only be told apart. -/
def objectwise (combineItems : Value → Value → Except Failure Value) (op : BinaryOp) (a b : Value) :
    Except Failure Value := do
  let (s, xs) ← objectOperand a
  let (t, ys) ← objectOperand b
  let isText (v : Value) : Bool := v matches texts _ _ _ | string _ _
  let isNumeric (v : Value) : Bool := v matches numbers _ _ _ | number _ | element _ _
  let mixed := (isText a && isNumeric b) || (isNumeric a && isText b)
  if mixed && op != .eq && op != .ne then failWith .wrongType
  match Shape.broadcast? s t with
  | Option.none => failWith .wrongValue
  | some shape =>
    let items ← ((Shape.spread s shape xs).zip (Shape.spread t shape ys)).mapM fun (x, y) =>
      combineItems x y
    return ofObjects op shape items

/-- A double element to the right of a plain complex number counts as plain, unless they are ordered. -/
def besideComplex (op : BinaryOp) (a b : Value) : Value :=
  match a, b with
  | number (.complex _ _), element (.real .double) n =>
    match op with
    | .lt | .le | .gt | .ge => b
    | _ => number n
  | _, b => b

/-- The operator between two values, with a given way to combine arrays of objects. -/
def operateWith (onObjects : BinaryOp → Value → Value → Except Failure Value) (op : BinaryOp)
    (a b : Value) : Except Failure Value := do
  match a, besideComplex op a b with
  | expr e, v =>
    if op = .eq ∨ op = .ne then unrelated op a b
    else return expr (Expr.binary op e (← v.toExpr))
  | number x, number y => plainOperator op x y
  | string s _, string t _ => textOperator op s t
  | list as, list bs => sequenceOperator op list as bs
  | tuple as, tuple bs => sequenceOperator op tuple as bs
  | a, expr e =>
    if a.shape?.isSome then onObjects op a (expr e)
    else if op = .eq ∨ op = .ne then unrelated op a b
    else return expr (reflected op (← a.toExpr) e)
  | a, b =>
    if let (.mul, some r) := (op, repetition? a b) then return ← r
    if let (.pow, some r) := (op, rootPower? a b) then return r
    match a, b with
    | element _ _, none | none, element _ _ => unrelated op a b
    | a, b =>
      if a.isTyped || b.isTyped then
        let x ← a.assembled
        let y ← b.assembled
        match x.operand?, y.operand? with
        | some m, some n => combine op m n
        | _, _ => onObjects op x y
      else unrelated op a b

/-- The operator between two values in which objects are nested at most so deep. -/
def operate : Nat → BinaryOp → Value → Value → Except Failure Value
  | 0 => operateWith fun _ _ _ => failWith .wrongType
  | depth + 1 => operateWith fun op a b => objectwise (operate depth op) op a b

def binaryOperator (op : BinaryOp) (a b : Value) : Except Failure Value :=
  operate (1 + max a.depth b.depth) op a b

def negate : Value → Except Failure Value
  | number n => return number n.neg
  | element t n => do
    let loop ← UnaryLoop.select .neg t
    return element loop.output (loop.apply n)
  | numbers t shape items => do
    let loop ← UnaryLoop.select .neg t
    return ofItems loop.output shape (items.map loop.apply)
  | objects shape items => do return (objects shape (← negateAll items)).unwrap
  | expr e => return expr (Expr.unary .neg e)
  | _ => failWith .wrongType
where
  negateAll : List Value → Except Failure (List Value)
    | [] => return []
    | v :: vs => do return (← negate v) :: (← negateAll vs)

end NamedSlots.Value
