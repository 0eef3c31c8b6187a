import NamedSlots.Expr.Operator
import NamedSlots.Text.IndexedName

/-!
# Expressions

A node has a kind, children and a label. Scalar symbols carry a name and, as elements of an
array, indices; array symbols carry a name and a shape; constants carry a value. Nothing forces
a node to have the children its kind needs.
-/

namespace NamedSlots

/-- The value of a constant: a plain floating number, or an element of a floating array. -/
structure Literal where
  number : Float
  isElement : Bool := false
deriving Repr

/-- Literals are compared as numbers. -/
instance : BEq Literal := ⟨fun a b => a.number == b.number⟩

/-- The parts of a node besides its kind and children. -/
structure Label where
  name : Option String := none
  value : Option Literal := none
  indices : List Index := []
  shape : List Index := []
deriving Repr

instance : BEq Label :=
  ⟨fun a b => a.name == b.name && a.value == b.value && a.indices == b.indices && a.shape == b.shape⟩

inductive Expr
  | node (kind : Kind) (children : List Expr) (label : Label)
deriving Repr

namespace Expr

def kind : Expr → Kind
  | node k _ _ => k

def children : Expr → List Expr
  | node _ cs _ => cs

def label : Expr → Label
  | node _ _ l => l

def symbol (name : Option String) (indices : List Index := []) : Expr :=
  node .symbol [] ⟨name, none, indices, []⟩

def array (name : Option String) (shape : List Index) : Expr :=
  node .array [] ⟨name, none, [], shape⟩

def constant (x : Float) : Expr :=
  node .constant [] ⟨none, some ⟨x, false⟩, [], []⟩

def unary (op : UnaryOp) (e : Expr) : Expr :=
  node (.unary op) [e] {}

def binary (op : BinaryOp) (l r : Expr) : Expr :=
  node (.binary op) [l, r] {}

def ifThenElse (c t f : Expr) : Expr :=
  node .ifThenElse [c, t, f] {}

/-- The symbol that a text names, with its indices read off. -/
def ofName (s : String) : Expr :=
  let (base, indices) := Text.IndexedName.parse s
  symbol (some base) (indices.map Index.int)

mutual

/-- Structural equality; constants are compared as numbers. -/
def same : Expr → Expr → Bool
  | node k cs l, node k' cs' l' => decide (k = k') && sameAll cs cs' && l == l'

def sameAll : List Expr → List Expr → Bool
  | [], [] => true
  | c :: cs, c' :: cs' => same c c' && sameAll cs cs'
  | _, _ => false

end

instance : BEq Expr := ⟨same⟩

instance : Inhabited Expr := ⟨node .constant [] {}⟩

/-- The name and the indices as written. -/
def indexedName (e : Expr) : String :=
  Text.IndexedName.format (e.label.name.getD "") e.label.indices

mutual

/-- The text of an expression; none when a node lacks an operand that its text shows. -/
def text? : Expr → Option String
  | node kind children label =>
    let operands := texts children
    match kind with
    | .symbol => some (Text.IndexedName.format (label.name.getD "") label.indices)
    | .array => some (label.name.getD "None" ++ "[" ++ "x".intercalate (label.shape.map Index.text) ++ "]")
    | .constant => some ((label.value.map fun x => FloatStyle.exact.text x.number).getD "None")
    | .unary .neg => do
      let x ← (← operands[0]?)
      return "(-" ++ x ++ ")"
    | .unary .not => do
      let x ← (← operands[0]?)
      return "(not " ++ x ++ ")"
    | .ifThenElse => do
      let c ← (← operands[0]?)
      let t ← (← operands[1]?)
      let f ← (← operands[2]?)
      return "(if " ++ c ++ " then " ++ t ++ " else " ++ f ++ ")"
    | .unary op => do
      let xs ← operands.mapM id
      return op.name ++ "(" ++ ", ".intercalate xs ++ ")"
    | .binary op =>
      match op.sign? with
      | some sign => do
        let l ← (← operands[0]?)
        let r ← (← operands[1]?)
        return "(" ++ l ++ " " ++ sign ++ " " ++ r ++ ")"
      | none => do
        let xs ← operands.mapM id
        return op.name ++ "(" ++ ", ".intercalate xs ++ ")"

def texts : List Expr → List (Option String)
  | [] => []
  | c :: cs => text? c :: texts cs

end

end Expr
end NamedSlots
