import NamedSlots.Expr.Leaves
import NamedSlots.Value.Conversion

/-!
# Classification of values

A classifier is a registry from classes of values to traits. The traits of a value are those of
its own class or of the nearest class it derives from; a value without traits is not symbolic.
Traits tell the form of a value, its name, its scalar leaves and its shape.
-/

namespace NamedSlots

/-- The classes of values that can be registered. -/
inductive ValueClass
  | expr | text | termSymbol | termElement | termMatrix | term
  | foreign (c : ForeignClass)
deriving DecidableEq, Repr

/-- How a classifier treats the values of one class. -/
structure Traits where
  form : Value → Form
  name : Option (Value → Option String)
  expand : Option (Value → Except Failure (List Value))
  shape : Option (Value → Except Failure (List Index))

abbrev Classifier := List (ValueClass × Traits)

/-- The class of a value and the classes it derives from, nearest first. -/
def Value.classes : Value → List ValueClass
  | .expr _ => [.expr]
  | .string _ _ => [.text]
  | .term (.symbol _) => [.termSymbol, .term]
  | .term (.element _ _ _ _ _) => [.termElement, .term]
  | .term (.matrix _ _ _) => [.termMatrix, .term]
  | .term _ => [.term]
  | .foreign facts _ _ =>
    match facts.cls with
    | .base => [.foreign .base]
    | .derived => [.foreign .derived, .foreign .base]
  | _ => []

namespace Traits

private def exprOf (f : Expr → α) (otherwise : α) : Value → α
  | .expr e => f e
  | _ => otherwise

/-- Array symbols are arrays, all other expressions are scalars; only symbols have names. -/
def ofExpr : Traits where
  form := exprOf (fun e => if e.kind = .array then .array else .scalar) .notSymbolic
  name := some (exprOf
    (fun e => match e.kind with
      | .symbol => some e.indexedName
      | .array => e.label.name
      | _ => none) none)
  expand := some (exprOf (fun e => return e.elements.map Value.expr) (return []))
  shape := some (exprOf (fun e => return e.label.shape) (return []))

/-- A text is a scalar symbol named by itself. -/
def ofText : Traits where
  form := fun _ => .scalar
  name := some fun
    | .string s _ => some s
    | _ => none
  expand := none
  shape := none

def ofTermSymbol : Traits where
  form := fun _ => .scalar
  name := some fun
    | .term (.symbol name) => some name
    | _ => none
  expand := none
  shape := none

def ofTermElement : Traits where
  form := fun _ => .scalar
  name := some fun
    | .term (.element name _ _ i j) => some (Text.IndexedName.format name [i, j])
    | _ => none
  expand := none
  shape := none

/-- A matrix symbol is an array of its elements. -/
def ofTermMatrix : Traits where
  form := fun _ => .array
  name := some fun
    | .term (.matrix name _ _) => some name
    | _ => none
  expand := some fun
    | .term (.matrix name rows cols) =>
      return (Shape.positions [rows.toNat, cols.toNat]).filterMap fun
        | [i, j] => some (.term (.element name rows cols i j))
        | _ => none
    | _ => return []
  shape := some fun
    | .term (.matrix _ rows cols) => return [.int rows, .int cols]
    | _ => return []

/-- Any other term is a scalar without a name. -/
def ofTerm : Traits where
  form := fun _ => .scalar
  name := none
  expand := none
  shape := none

private def factsOf (f : ForeignFacts → α) (otherwise : α) : Value → α
  | .foreign facts _ _ => f facts
  | _ => otherwise

/-- The elements of a foreign array are named after its label. -/
def foreignElements (facts : ForeignFacts) : List Value :=
  (List.range facts.count).map fun i =>
    .text (facts.label.getD "None" ++ "[" ++ toString i ++ "]")

/-- The shape that a foreign object declares, a sequence of indices. -/
def foreignShape : Value → Except Failure (List Index)
  | .foreign _ (.list items) _ | .foreign _ (.tuple items) _ =>
    match items.mapM Value.toIndex? with
    | some shape => return shape
    | none => failWith .badResult
  | _ => failWith .wrongType

/-- Traits of a foreign class: its form may be fixed, and each function may be left out. -/
def ofForeign (form : Option Form) (named expandable shaped : Bool) : Traits where
  form := factsOf (fun facts => form.getD facts.form) .notSymbolic
  name := if named then some (factsOf (·.label) none) else none
  expand := if expandable then some (factsOf (fun facts => return foreignElements facts) (return [])) else none
  shape := if shaped then some foreignShape else none

end Traits

namespace Classifier

/-- Expressions and texts. -/
def native : Classifier := [(.expr, .ofExpr), (.text, .ofText)]

def standard : Classifier :=
  native ++
  [(.termSymbol, .ofTermSymbol), (.termElement, .ofTermElement), (.termMatrix, .ofTermMatrix),
   (.term, .ofTerm), (.foreign .base, .ofForeign none true true false)]

def register (c : Classifier) (cls : ValueClass) (traits : Traits) : Classifier :=
  match c with
  | [] => [(cls, traits)]
  | (k, t) :: rest => if k = cls then (k, traits) :: rest else (k, t) :: register rest cls traits

def lookup? (c : Classifier) (cls : ValueClass) : Option Traits :=
  match c with
  | [] => none
  | (k, t) :: rest => if k = cls then some t else lookup? rest cls

/-- The traits of a value's nearest registered class. -/
def traits? (c : Classifier) (v : Value) : Option Traits :=
  v.classes.findSome? c.lookup?

def form (c : Classifier) (v : Value) : Form :=
  match c.traits? v with
  | some t => t.form v
  | none => .notSymbolic

def isSymbolic (c : Classifier) (v : Value) : Bool :=
  decide (c.form v ≠ .notSymbolic)

def name? (c : Classifier) (v : Value) : Option String :=
  if c.form v = .notSymbolic then none
  else do
    let t ← c.traits? v
    let f ← t.name
    f v

def hasName (c : Classifier) (v : Value) : Bool := (c.name? v).isSome

def nameOf (c : Classifier) (v : Value) : Except Failure String :=
  match c.name? v with
  | some s => return s
  | none => throw (.noName v)

/-- The scalar leaves of a symbolic value; a scalar is its own only leaf. -/
def expand (c : Classifier) (v : Value) : Except Failure (List Value) :=
  match c.form v with
  | .notSymbolic => throw (.notExpandable v)
  | .scalar => return [v]
  | .array =>
    match c.traits? v >>= Traits.expand with
    | some f => f v
    | none => throw (.noExpansion v.className)

/-- The shape of an array symbol, empty for a scalar. -/
def shapeOf (c : Classifier) (v : Value) : Except Failure (List Index) :=
  match c.form v with
  | .notSymbolic => throw (.notSymbolic v)
  | .scalar => return []
  | .array =>
    match c.traits? v >>= Traits.shape with
    | some f => f v
    | none => do
      let leaves ← c.expand v
      return [.int leaves.length]

end Classifier

/-- The name under which a scalar symbol is looked up; none for arrays and unnamed values. -/
def Value.key? (v : Value) : Option String :=
  if Classifier.standard.form v = .scalar then Classifier.standard.name? v else Option.none

end NamedSlots
