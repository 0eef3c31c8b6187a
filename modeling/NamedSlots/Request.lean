import NamedSlots.Classifier
import NamedSlots.Value.Grid

/-!
# Requests

What an accessor is asked for, in normal form: a named symbol, an array or a sequence of
requests, or an expression. Array symbols are expanded to their scalar leaves; sequences and
arrays become requests item by item.
-/

namespace NamedSlots

inductive Request
  | symbol (name : String) (symbol : Value)
  | array (shape : List Index) (elements : List Request)
  | sequence (items : List Request) (isTuple : Bool)
  | expression (e : Expr)
deriving Repr

namespace Request

mutual

/-- Requests are compared by the names of their symbols and by their expressions. -/
def same : Request → Request → Bool
  | symbol a _, symbol b _ => a == b
  | array s as, array t bs => s == t && sameAll as bs
  | sequence as t, sequence bs u => sameAll as bs && t == u
  | expression a, expression b => a == b
  | _, _ => false

def sameAll : List Request → List Request → Bool
  | [], [] => true
  | a :: as, b :: bs => same a b && sameAll as bs
  | _, _ => false

end

instance : BEq Request := ⟨same⟩

/-- The request of a scalar symbol: its name, or its expression when it has none. -/
def ofScalar (c : Classifier) (v : Value) : Except Failure Request :=
  match c.name? v with
  | some name => return symbol name v
  | none => return expression (← v.toExpr)

def ofLeaf (c : Classifier) (v : Value) : Except Failure Request :=
  match c.form v with
  | .scalar => ofScalar c v
  | _ => throw (.noAccessor v)

mutual

/-- The normal form of a request. -/
def ofValue (c : Classifier) (v : Value) : Except Failure Request :=
  match c.form v with
  | .array => do
    let leaves ← c.expand v
    let shape ← c.shapeOf v
    return array shape (← leaves.mapM (ofLeaf c))
  | .scalar => ofScalar c v
  | .notSymbolic =>
    match v with
    | .list items => do return sequence (← ofValues c items) false
    | .tuple items => do return sequence (← ofValues c items) true
    | .objects shape items => do
      return array (shape.map fun (n : Nat) => Index.int n) (← ofValues c items)
    | .texts _ shape items => do
      return array (shape.map fun (n : Nat) => Index.int n) (← items.mapM fun s => ofLeaf c (.string s true))
    | .numbers _ shape [] => return array (shape.map fun (n : Nat) => Index.int n) []
    | .numbers t _ (n :: _) => throw (.noAccessor (.element t n))
    | v => throw (.noAccessor v)

def ofValues (c : Classifier) : List Value → Except Failure (List Request)
  | [] => return []
  | v :: vs => do
    let r ← ofValue c v
    return r :: (← ofValues c vs)

end

end Request
end NamedSlots
