import NamedSlots.Number.Summation
import NamedSlots.Value.Elementwise

/-!
# Functions of values

Elementwise functions turn their arguments into elements or arrays first, so their results are
elements or arrays even for plain numbers. Aggregates run over all items of an array: sums and
products widen small integers, norms are floating, inner products flatten both sides.
-/

namespace NamedSlots.Value

/-- A function of one object: truth, size, sign and rounding are defined for numbers. -/
def objectFunction (op : UnaryOp) (v : Value) : Except Failure Value := do
  match op, v with
  | .not, v => return bool (!(← v.truth))
  | .abs, number (.complex re im) => return real (Number.ComplexPair.abs (re, im))
  | .abs, number (.real x) => return real x.abs
  | .abs, number n =>
    match n.toInt? with
    | some m => return int m.natAbs
    | Option.none => failWith .wrongType
  | .sign, number n =>
    match Number.order? n (.int 0) with
    | some .lt => return int (-1)
    | some .eq => return int 0
    | some .gt => return int 1
    | Option.none => failWith .wrongType
  | .floor, number (.real x) | .ceil, number (.real x) =>
    match Number.truncate? (if op = .floor then x.floor else x.ceil) with
    | some m => return int m
    | Option.none => if x.isNaN then failWith .wrongValue else failWith .overflow
  | .floor, number n | .ceil, number n =>
    match n.toInt? with
    | some m => return int m
    | Option.none => failWith .wrongType
  | _, element t n =>
    let loop ← UnaryLoop.select op t
    return element loop.output (loop.apply n)
  | _, _ => failWith .wrongType

def elementFunction (op : UnaryOp) (v : Value) : Except Failure Value := do
  match ← v.assemble with
  | numbers t shape items =>
    let loop ← UnaryLoop.select op t
    return ofItems loop.output shape (items.map fun n => loop.apply (loop.input.cast n))
  | objects shape items =>
    let results ← items.mapM (objectFunction op)
    if op = .not then
      return ofItems .bool shape (results.map fun v => .bool (v == bool true))
    else return (objects shape results).unwrap
  | _ => failWith .wrongType

/-- The type in which a sum or product of elements is formed. -/
def aggregateType : ElementType → ElementType
  | .bool => .int64
  | .int true _ => .int64
  | .int false _ => .uint64
  | t => t

/-- The numbers of a precision are added with one rounding each; half precision keeps more digits. -/
def sumReals (p : Precision) (xs : List Float) : Float :=
  match p with
  | .double => Number.sum (· + ·) xs
  | p => p.round (Number.sum (fun a b => Precision.single.round (a + b)) xs)

/-- The sum of numbers of one type, in the type of sums. -/
def sumNumbers (t : ElementType) (items : List Number) : Number :=
  match aggregateType t with
  | .real p => .real (0.0 + sumReals p (items.map Number.toFloat))
  | .complex p =>
    .complex (0.0 + sumReals p (items.map fun n => n.toComplex.1))
      (0.0 + sumReals p (items.map fun n => n.toComplex.2))
  | t => t.cast (.int ((items.map fun n => n.toInt?.getD 0).foldl (· + ·) 0))

/-- The product of numbers of one type, in the type of products. -/
def productNumbers (t : ElementType) (items : List Number) : Number :=
  match aggregateType t with
  | .real p => .real (items.foldl (fun a n => p.round (a * n.toFloat)) 1.0)
  | .complex p =>
    let (re, im) := items.foldl (fun a n => Number.ComplexPair.mul a n.toComplex) (1.0, 0.0)
    .complex (p.round re) (p.round im)
  | t => t.cast (.int (items.foldl (fun a n => a * n.toInt?.getD 0) 1))

/-- Combines objects from the left; without objects there is only the neutral number. -/
def foldObjects (op : BinaryOp) (neutral : Int) : List Value → Except Failure Value
  | [] => return int neutral
  | v :: vs => vs.foldlM (binaryOperator op) v

/-- The inner product of two rows of numbers of one type. -/
def dotNumbers (t : ElementType) (xs ys : List Number) : Number :=
  let pairs := xs.zip ys
  match t with
  | .bool => .bool (pairs.any fun (x, y) => x.isTrue && y.isTrue)
  | .real p =>
    .real (p.round (pairs.foldl (fun a (x, y) => a + x.toFloat * y.toFloat) 0.0))
  | .complex p =>
    let (re, im) := pairs.foldl (fun a (x, y) =>
      let q := Number.ComplexPair.mul x.toComplex y.toComplex
      (a.1 + q.1, a.2 + q.2)) (0.0, 0.0)
    .complex (p.round re) (p.round im)
  | t => t.cast (.int (pairs.foldl (fun a (x, y) => a + x.toInt?.getD 0 * y.toInt?.getD 0) 0))

/-- The inner product of two arrays, flattened; they need the same number of items. -/
def dot (a b : Value) : Except Failure Value := do
  let x ← a.assemble
  let y ← b.assemble
  if (x.shape?.map Shape.size) != (y.shape?.map Shape.size) then failWith .wrongValue
  match x, y with
  | numbers s _ xs, numbers t _ ys =>
    let u := s.join t
    return element u (dotNumbers u (xs.map u.cast) (ys.map u.cast))
  | objects _ _, _ | _, objects _ _ => do
    let products ← (x.gridItems.zip y.gridItems).mapM fun (v, w) => binaryOperator .mul v w
    foldObjects .add 0 products
  | _, _ => failWith .wrongType

def norm (v : Value) : Except Failure Value := do
  match ← v.assemble with
  | numbers (.complex p) _ items =>
    let squares := items.foldl (fun a n =>
      let (re, im) := n.toComplex
      a + (re * re + im * im)) 0.0
    return element (.real p) (.real (p.round squares.sqrt))
  | numbers t _ items =>
    let p : Precision := match t with
      | .real p => p
      | _ => .double
    let xs := items.map fun n => Number.real n.toFloat
    return element (.real p) (.real (p.round (dotNumbers (.real p) xs xs).toFloat.sqrt))
  | texts _ _ items => do
    let xs ← items.mapM fun s => do return Number.real (← (text s).toFloat)
    return element .float64 (.real (dotNumbers .float64 xs xs).toFloat.sqrt)
  | objects _ items => do
    let squares ← items.mapM fun w => binaryOperator .mul w w
    elementFunction .sqrt (← foldObjects .add 0 squares)
  | _ => failWith .wrongType

def aggregate (op : BinaryOp) (neutral : Int) (ofNumbers : ElementType → List Number → Number)
    (v : Value) : Except Failure Value := do
  match ← v.assemble with
  | numbers t _ items => return element (aggregateType t) (ofNumbers t items)
  | objects _ items => foldObjects op neutral items
  | _ => failWith .wrongType

def applyUnary (op : UnaryOp) (v : Value) : Except Failure Value :=
  match op with
  | .neg => v.negate
  | .sum => v.aggregate .add 0 sumNumbers
  | .prod => v.aggregate .mul 1 productNumbers
  | .norm => v.norm
  | op => v.elementFunction op

/-- A function of two objects; connectives give back one of them. -/
def objectPair (op : BinaryOp) (a b : Value) : Except Failure Value := do
  match op with
  | .and => return if ← a.truth then b else a
  | .or => return if ← a.truth then a else b
  | .min => return if ← (← binaryOperator .le a b).truth then a else b
  | .max => return if ← (← binaryOperator .ge a b).truth then a else b
  | .mod => binaryOperator .mod a b
  | _ => failWith .wrongType

/-- A plain number stays one beside an element or array, and is an element otherwise. -/
def functionOperand (v : Value) : Except Failure Value :=
  match v with
  | number _ | element _ _ => return v
  | v => v.assemble

def textTruth : Value → Value
  | string s _ => bool (!s.isEmpty)
  | texts _ shape items => numbers .bool shape (items.map fun s => .bool (!s.isEmpty))
  | v => v

def pairFunction (op : BinaryOp) (a b : Value) : Except Failure Value := do
  let isConnective := op = .and ∨ op = .or
  let a ← functionOperand (if isConnective then textTruth a else a)
  let b ← functionOperand (if isConnective then textTruth b else b)
  match a.operand?, b.operand? with
  | some x, some y => combine op x y
  | _, _ =>
    if (a matches texts _ _ _) || (b matches texts _ _ _) then failWith .wrongType
    else objectwise (objectPair op) op a b

def applyBinary (op : BinaryOp) (a b : Value) : Except Failure Value :=
  match op with
  | .and | .or | .atan2 | .min | .max | .mod => pairFunction op a b
  | .dot => dot a b
  | op => binaryOperator op a b

end NamedSlots.Value
