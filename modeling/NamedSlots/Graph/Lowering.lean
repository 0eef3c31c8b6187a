import NamedSlots.Evaluation.Binding
import NamedSlots.Graph.Rectangle
import NamedSlots.Graph.Simplification

/-!
# Lowering

An expression whose leaves are bound is lowered to a rectangle of scalar graphs. An array symbol
with two dimensions becomes rows and columns, any other one a column; aggregates run over all
items. A conditional is lowered to a sum of which one summand is zero, so both of its branches
are lowered.
-/

namespace NamedSlots.Graph

abbrev Sheet (K : Type) := Rectangle (Node K)

namespace Sheet

variable {K : Type} (arith : Arithmetic K)

def itemPlace (place : Place) (i : Nat) : Place := i :: 1 :: place

def operandPlace (place : Place) (i : Nat) : Place := i :: 0 :: place

def mapUnary (place : Place) (op : UnaryNode) (a : Sheet K) : Sheet K :=
  a.mapWithPlace fun i x => x.applyUnary arith (itemPlace place i) op

/-- Applies an operator item by item; sheets whose sizes do not fit are a mismatch. -/
def mapBinary (place : Place) (op : BinaryNode) (a b : Sheet K) : Except Failure (Sheet K) :=
  match a.combine? (fun i x y => x.applyBinary arith (itemPlace place i) op y) b with
  | some m => return m
  | none => failWith .mismatch

def fold (place : Place) (op : BinaryNode) (start : Int) (xs : List (Node K)) : Node K :=
  (xs.foldl (fun (total, i) x => (total.applyBinary arith (itemPlace place i) op x, i + 1))
    (Node.ofInt arith start, 0)).1

def sum (place : Place) (a : Sheet K) : Node K :=
  let rows := a.rowList.mapIdx fun i row => fold arith (itemPlace place i) .add 0 row
  fold arith (operandPlace place 0) .add 0 rows

/-- The sum of the products of corresponding items, column by column. -/
def dot (place : Place) (a b : Sheet K) : Except Failure (Node K) :=
  let xs := a.byColumns
  let ys := b.byColumns
  if xs.length = ys.length then
    let products := (xs.zip ys).mapIdx fun i (x, y) => x.applyBinary arith (itemPlace place i) .mul y
    return fold arith (operandPlace place 0) .add 0 products
  else failWith .mismatch

/-- The decadic logarithm, by way of the natural one. -/
def log10 (place : Place) (a : Sheet K) : Sheet K :=
  let ten := arith.unary .log (arith.ofInt 10)
  let factor := Node.constant (arith.kept (arith.binary .div (arith.ofInt 1) ten))
  a.mapWithPlace fun i x =>
    (x.applyUnary arith (0 :: itemPlace place i) .log).applyBinary arith (itemPlace place i) .mul factor

def unary (place : Place) (op : UnaryOp) (a : Sheet K) : Except Failure (Sheet K) :=
  let map (op : UnaryNode) : Except Failure (Sheet K) := return mapUnary arith place op a
  match op with
  | .neg => map .neg | .not => map .not
  | .sin => map .sin | .cos => map .cos | .tan => map .tan
  | .asin => map .asin | .acos => map .acos | .atan => map .atan
  | .sqrt => map .sqrt | .exp => map .exp | .log => map .log
  | .log10 => return log10 arith place a
  | .abs => map .abs | .sign => map .sign
  | .floor => map .floor | .ceil => map .ceil
  | .sinh => map .sinh | .cosh => map .cosh | .tanh => map .tanh
  | .sum => return .single (sum arith place a)
  | .prod => return .single (fold arith place .mul 1 a.byColumns)
  | .norm => do
    let square ← dot arith (operandPlace place 0) a a
    return .single (square.applyUnary arith place .sqrt)

def binary (place : Place) (op : BinaryOp) (a b : Sheet K) : Except Failure (Sheet K) :=
  let map (op : BinaryNode) : Except Failure (Sheet K) := mapBinary arith place op a b
  match op with
  | .add => map .add | .sub => map .sub | .mul => map .mul | .div => map .div | .pow => map .pow
  | .lt => map .lt | .le => map .le
  | .gt => mapBinary arith place .lt b a
  | .ge => mapBinary arith place .le b a
  | .eq => map .eq | .ne => map .ne
  | .and => map .and | .or => map .or
  | .atan2 => map .atan2 | .min => map .min | .max => map .max | .mod => map .mod
  | .dot => do return .single (← dot arith place a b)

/-- One summand for each branch, of which one is zero. -/
def conditional (place : Place) (c t f : Sheet K) : Except Failure (Sheet K) := do
  let first ← mapBinary arith (operandPlace place 3) .ifElseZero c t
  let otherwise := mapUnary arith (operandPlace place 4) .not c
  let second ← mapBinary arith (operandPlace place 5) .ifElseZero otherwise f
  mapBinary arith place .add first second

private def joined (m : Option (Sheet K)) : Except Failure (Sheet K) :=
  match m with
  | some m => return m
  | none => failWith .mismatch

/-- The sheet of an array symbol from the sheets of its elements. -/
def ofElements (leaf : Expr → Except Failure (Sheet K)) (e : Expr) : Except Failure (Sheet K) :=
  match e.label.shape with
  | [rows, columns] => do
    let rows ← (List.range rows.extent).mapM fun (i : Nat) => do
      let row ← (List.range columns.extent).mapM fun (j : Nat) =>
        leaf (.symbol e.label.name [Index.int i, Index.int j])
      joined (Rectangle.sideBySide? row)
    joined (Rectangle.stacked? rows)
  | _ => do joined (Rectangle.stacked? (← e.elements.mapM leaf))

end Sheet

variable {K : Type} (arith : Arithmetic K) (leaf : Expr → Except Failure (Sheet K))

/-- Lowers an expression, given the sheets of its scalar leaves. -/
def lower (place : Place) : Expr → Except Failure (Sheet K)
  | .node .symbol cs l => leaf (.node .symbol cs l)
  | .node .array cs l => Sheet.ofElements leaf (.node .array cs l)
  | .node .constant _ l =>
    match l.value with
    | some x => return .single (.constant (arith.kept (arith.ofFloat x.number)))
    | none => failWith .notImplemented
  | .node (.unary op) (c :: _) _ => do
    Sheet.unary arith place op (← lower (Sheet.operandPlace place 0) c)
  | .node (.unary _) [] _ => failWith .outOfRange
  | .node (.binary op) (c :: d :: _) _ => do
    let x ← lower (Sheet.operandPlace place 0) c
    let y ← lower (Sheet.operandPlace place 1) d
    Sheet.binary arith place op x y
  | .node (.binary _) [c] _ => do
    let _ ← lower place c
    failWith .outOfRange
  | .node (.binary _) [] _ => failWith .outOfRange
  | .node .ifThenElse (c :: t :: f :: _) _ => do
    let x ← lower (Sheet.operandPlace place 0) c
    let y ← lower (Sheet.operandPlace place 1) t
    let z ← lower (Sheet.operandPlace place 2) f
    Sheet.conditional arith place x y z
  | .node .ifThenElse [c, t] _ => do
    let _ ← lower place c
    let _ ← lower place t
    failWith .outOfRange
  | .node .ifThenElse [c] _ => do
    let _ ← lower place c
    failWith .outOfRange
  | .node .ifThenElse [] _ => failWith .outOfRange

/-- The sheet of a leaf: an input for a source, and the sheet of its definition otherwise, unless an
equal leaf was bound before it. -/
def lowerLeaf : List (Expr × Meaning) → Expr → Except Failure (Sheet K)
  | [], _ => failWith .missingKey
  | (key, m) :: earlier, leaf =>
    if key == leaf then
      match m with
      | .source _ => return .single (.input (LeafTable.mk earlier).bindings.length)
      | .definition e =>
        if Assoc.contains earlier leaf then lowerLeaf earlier leaf
        else lower arith (lowerLeaf earlier) [earlier.length, 1] e
    else lowerLeaf earlier leaf

/-- Lowers an expression whose leaves are bound; its inputs are the bound leaves in order. -/
def ofExpr (table : LeafTable) (e : Expr) : Except Failure (Sheet K) :=
  lower arith (lowerLeaf arith table.entries) [0] e

def Sheet.values (inputs : List K) (fallback : K) (m : Sheet K) : Rectangle K :=
  ⟨m.rows, m.columns, m.items.map fun n => n.value arith fun i => inputs[i]?.getD fallback⟩

end NamedSlots.Graph
