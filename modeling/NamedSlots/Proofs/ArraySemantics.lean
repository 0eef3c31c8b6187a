import NamedSlots.Evaluation.Evaluator
import NamedSlots.Proofs.PairwiseSum
import NamedSlots.Proofs.RealFunctions

/-!
# Arrays over any arithmetic

What the interpreter does with floating numbers and arrays of them, for any type of numbers: sums,
differences, products and negations item by item, the aggregates over all items, and array symbols
that are put together from their elements. An operation that is none of these gives nothing.
-/

namespace NamedSlots

/-- What the interpreter does with the items of floating arrays. -/
structure ArrayArithmetic (R : Type) where
  /-- The number that a constant stands for. -/
  ofFloat : Float → Option R
  zero : R
  one : R
  neg : R → R
  sqrt : R → R
  addition : Addition R
  sub : R → R → R
  mul : R → R → R

namespace ArrayArithmetic

variable {R : Type} (arith : ArrayArithmetic R)

/-- The operators that act item by item. -/
def operator? : BinaryOp → Option (R → R → R)
  | .add => some arith.addition.add
  | .sub => some arith.sub
  | .mul => some arith.mul
  | _ => none

def total (xs : List R) : R := arith.addition.add arith.zero (arith.addition.sum xs)

def product (xs : List R) : R := xs.foldl arith.mul arith.one

def inner (xs ys : List R) : R :=
  (xs.zip ys).foldl (fun a (x, y) => arith.addition.add a (arith.mul x y)) arith.zero

def magnitude (xs : List R) : R := arith.sqrt (arith.inner xs xs)

/-- The operators that run over all items of one array. -/
def aggregate? : UnaryOp → Option (List R → R)
  | .sum => some arith.total
  | .prod => some arith.product
  | .norm => some arith.magnitude
  | _ => none

/-- The arithmetic that runs. -/
def float : ArrayArithmetic Float where
  ofFloat := some
  zero := 0.0
  one := 1.0
  neg x := -x
  sqrt := Float.sqrt
  addition := .float (· + ·)
  sub := (· - ·)
  mul := (· * ·)

/-- Nothing is rounded; only finite constants are numbers. -/
noncomputable def exact : ArrayArithmetic ℝ where
  ofFloat := realOf?
  zero := 0
  one := 1
  neg x := -x
  sqrt := Real.sqrt
  addition := .exact
  sub := (· - ·)
  mul := (· * ·)

/-! ### Aggregates of real numbers -/

lemma total_exact (xs : List ℝ) : exact.total xs = xs.sum := by
  change 0 + Addition.exact.sum xs = _
  rw [zero_add, Addition.sum_exact]

lemma product_exact (xs : List ℝ) : exact.product xs = xs.prod :=
  List.prod_eq_foldl.symm

lemma inner_exact (xs ys : List ℝ) : exact.inner xs ys = (List.zipWith (· * ·) xs ys).sum := by
  have hproducts : exact.inner xs ys =
      ((xs.zip ys).map fun p => p.1 * p.2).foldl Addition.exact.add 0 := List.foldl_map.symm
  rw [hproducts, Addition.foldl_exact, zero_add, List.zip, List.map_zipWith]

end ArrayArithmetic

/-- A plain number, a single element, or an array of items listed row-major. -/
inductive ArrayValue (R : Type)
  | plain (x : R)
  | element (x : R)
  | array (shape : List Nat) (items : List R) (count : items.length = Shape.size shape)

namespace ArrayValue

variable {R : Type} (arith : ArrayArithmetic R)

/-- The items of a value; a number is its only item. -/
def items : ArrayValue R → List R
  | plain x | element x => [x]
  | array _ xs _ => xs

def shape : ArrayValue R → List Nat
  | plain _ | element _ => []
  | array s _ _ => s

def number? : ArrayValue R → Option R
  | plain x | element x => some x
  | array _ _ _ => none

lemma length_items (a : ArrayValue R) : a.items.length = Shape.size a.shape := by
  cases a with
  | array _ _ count => exact count
  | _ => rfl

/-- An array, or a single element when there are no dimensions. -/
def ofItems (shape : List Nat) (items : List R) (count : items.length = Shape.size shape) :
    ArrayValue R :=
  match shape, items, count with
  | [], [x], _ => element x
  | shape, items, count => array shape items count

/-- Applies a function to every item. -/
def map (f : R → R) : ArrayValue R → ArrayValue R
  | plain x => plain (f x)
  | element x => element (f x)
  | array s xs count => ofItems s (xs.map f) (by rw [List.length_map, count])

/-- An operator item by item; a number stands beside every item of an array. Arrays of different
shapes are not combined. -/
def zip? (f : R → R → R) : ArrayValue R → ArrayValue R → Option (ArrayValue R)
  | plain x, plain y => some (plain (f x y))
  | plain x, element y | element x, plain y | element x, element y => some (element (f x y))
  | plain x, array t ys count | element x, array t ys count => some ((array t ys count).map (f x))
  | array s xs count, plain y | array s xs count, element y =>
    some ((array s xs count).map (f · y))
  | array s xs count, array t ys count' =>
    if h : s = t then
      some (ofItems s (List.zipWith f xs ys)
        (by rw [List.length_zipWith, count, count', h, Nat.min_self]))
    else none

def unary (op : UnaryOp) (a : ArrayValue R) : Option (ArrayValue R) :=
  match op with
  | .neg => some (a.map arith.neg)
  | op => (arith.aggregate? op).map fun f => element (f a.items)

def binary (op : BinaryOp) (a b : ArrayValue R) : Option (ArrayValue R) :=
  match op with
  | .dot =>
    if a.items.length = b.items.length then some (element (arith.inner a.items b.items)) else none
  | op => do a.zip? (← arith.operator? op) b

/-- The array of a shape with numbers as its items. -/
def assemble (shape : List Index) (vs : List (ArrayValue R)) : Option (ArrayValue R) := do
  let xs ← vs.mapM number?
  let dims ← Shape.resolve? xs.length shape
  if h : xs.length = Shape.size dims then some (array dims xs h) else none

def ofLiteral (x : Literal) : Option (ArrayValue R) :=
  (arith.ofFloat x.number).map fun r => if x.isElement then element r else plain r

end ArrayValue

/-- Expressions over numbers and arrays; what is none has no value among them. -/
def Semantics.array {R : Type} (arith : ArrayArithmetic R) : Semantics (Option (ArrayValue R)) where
  constant x := x.bind (ArrayValue.ofLiteral arith)
  unary op a := return a.bind (ArrayValue.unary arith op)
  binary op a b := return do ArrayValue.binary arith op (← a) (← b)
  truth _ := failWith .wrongType
  assemble shape vs := return do ArrayValue.assemble shape (← vs.mapM id)

namespace Semantics.array

variable {R : Type} {arith : ArrayArithmetic R} {a b : Option (ArrayValue R)} {c : ArrayValue R}

lemma unary_eq_ok {op : UnaryOp} :
    (Semantics.array arith).unary op a = .ok (some c) ↔
      ∃ x, a = some x ∧ x.unary arith op = some c :=
  (Except.ok.injEq _ _).to_iff.trans Option.bind_eq_some_iff

lemma binary_eq_ok {op : BinaryOp} :
    (Semantics.array arith).binary op a b = .ok (some c) ↔
      ∃ x y, a = some x ∧ b = some y ∧ x.binary arith op y = some c := by
  refine (Except.ok.injEq _ _).to_iff.trans (Option.bind_eq_some_iff.trans ?_)
  simp only [Option.bind_eq_bind, Option.bind_eq_some_iff, exists_and_left]

lemma mapM_id_eq_some_iff {α : Type} {vs : List (Option α)} {as : List α} :
    vs.mapM id = some as ↔ vs = as.map some := by
  induction vs generalizing as with
  | nil => cases as <;> simp
  | cons v vs ih =>
    rw [List.mapM_cons]
    cases as with
    | nil => simp [Option.bind_eq_some_iff]
    | cons a as => simp [Option.bind_eq_some_iff, ih]

lemma assemble_eq_ok {shape : List Index} {vs : List (Option (ArrayValue R))} :
    (Semantics.array arith).assemble shape vs = .ok (some c) ↔
      ∃ as, vs = as.map some ∧ ArrayValue.assemble shape as = some c := by
  refine (Except.ok.injEq _ _).to_iff.trans (Option.bind_eq_some_iff.trans ?_)
  simp only [mapM_id_eq_some_iff]

end Semantics.array
end NamedSlots
