import NamedSlots.Value.Functions
import NamedSlots.Value.Item

/-!
# Operations by name

The operations with which values are built from values: operators between them, access to array
symbols, and the functions that make expressions out of anything that stands for one.
-/

namespace NamedSlots

inductive Operation
  | operator (op : BinaryOp)
  | negative | positive
  | comparison (op : BinaryOp)
  | element | length | truth | items
  | expression | symbol | constant
  | unary (op : UnaryOp)
  | binary (op : BinaryOp)
  | conditional
deriving DecidableEq, Repr

namespace Value

private def optional {α : Type} (read : Value → Option α) (v : Value) : Except Failure (Option α) :=
  match v, read v with
  | none, _ => return Option.none
  | _, some a => return some a
  | _, Option.none => failWith .badArgument

private def required {α : Type} (read : Value → Option α) (v : Value) : Except Failure α :=
  match read v with
  | some a => return a
  | Option.none => failWith .badArgument

/-- A node put together from parts; only the kinds of the parts are checked. -/
def nodeOf (kind : Kind) (children : List Value) (name value : Value) (indices shape : List Value) :
    Except Failure Expr := do
  let cs ← children.mapM (required fun | expr e => some e | _ => Option.none)
  let name ← optional (fun | string s _ => some s | _ => Option.none) name
  let value ← optional
    (fun
      | number (.real x) => some ⟨x, false⟩
      | element (.real .double) n => some ⟨n.toFloat, true⟩
      | _ => Option.none) value
  let indices ← indices.mapM (required toIndex?)
  let shape ← shape.mapM (required toIndex?)
  return .node kind cs ⟨name, value, indices, shape⟩

/-- An array of a given type with the items of nested sequences. -/
def arrayOf (type : ItemType) (v : Value) : Except Failure Value :=
  let nest := v.toNest
  match nest.shape? with
  | Option.none => failWith .wrongValue
  | some shape =>
    match type with
    | .number t => do return numbers t shape (← nest.items.mapM (storedNumber t))
    | .text _ =>
      let ss := nest.items.map fun v => match v with
        | string s _ => s
        | v => v.text?.getD ""
      return texts (ss.foldl (fun w s => max w s.length) 1) shape ss
    | .object => return objects shape nest.items

end Value

namespace Operation

private def signs : List (String × Operation) :=
  [("+", operator .add), ("-", operator .sub), ("*", operator .mul), ("/", operator .div),
   ("**", operator .pow), ("<", operator .lt), ("<=", operator .le), (">", operator .gt),
   (">=", operator .ge), ("==", operator .eq), ("!=", operator .ne), ("neg", negative),
   ("pos", positive), ("eq", comparison .eq), ("ne", comparison .ne), ("at", element),
   ("len", length), ("bool", truth), ("iter", items), ("as_expr", expression), ("sym", symbol),
   ("const", constant), ("logical_and", binary .and), ("logical_or", binary .or),
   ("logical_not", unary .not), ("if_then_else", conditional)]

private def functions : List (String × Operation) :=
  (UnaryOp.all.filter fun op => op != .neg && op != .not).map (fun op => (op.name, unary op)) ++
  [BinaryOp.atan2, .min, .max, .mod, .dot].map fun op => (op.name, binary op)

def named? (name : String) : Option Operation :=
  (signs ++ functions).lookup name

/-- The index list that picks an element: one index, or a tuple of them. -/
private def position (v : Value) : Except Failure (List Index) :=
  match v.toIndex?, v.toIndices? with
  | some i, _ => return [i]
  | none, some is => return is
  | none, none => failWith .badArgument

private def lengthOf (v : Value) : Except Failure Value := do
  match v with
  | .expr e => return .int (← e.count)
  | .string s _ => return .int s.length
  | .list xs | .tuple xs => return .int xs.length
  | .dict entries => return .int entries.length
  | v =>
    match v.shape? with
    | some (d :: _) => return .int d
    | _ => failWith .wrongType

private def positiveOf (v : Value) : Except Failure Value :=
  match v with
  | .number (.bool b) => return .int (Number.ofBool b)
  | .number _ | .expr _ => return v
  | .element .bool _ => failWith .wrongType
  | .element _ _ | .numbers _ _ _ => return v
  | _ => failWith .wrongType

/-- A scalar symbol, or an array symbol when a shape with dimensions is given. -/
def symbolOf (name shape : Value) : Except Failure Expr :=
  match name, shape.toIndices? with
  | .string s _, some [] => return Expr.symbol (some s)
  | .string s _, some dims =>
    if dims.any fun d => d.toInt < 0 then throw (.negativeDimension dims s)
    else return Expr.array (some s) dims
  | _, _ => failWith .badArgument

private def constantOf (v : Value) : Except Failure Expr :=
  match v with
  | .number (.complex _ _) => failWith .badArgument
  | .number _ => do return Expr.constant (← v.toFloat)
  | .element (.real .double) n => return Expr.constant n.toFloat
  | _ => failWith .badArgument

def apply (f : Operation) (args : List Value) : Except Failure Value := do
  match f, args with
  | operator op, [a, b] => Value.binaryOperator op a b
  | negative, [v] => v.negate
  | positive, [v] => positiveOf v
  | comparison op, [.expr e, v] => return .expr (Expr.binary op e (← v.toExpr))
  | comparison _, [_, _] => failWith .missingAttribute
  | element, [.expr e, v] => return .expr (← e.element (← position v))
  | element, [a, v] =>
    match a, v.toIndex? with
    | .dict entries, _ =>
      if !v.isHashable then failWith .wrongType
      match Value.valueAt? entries v with
      | some w => return w
      | none => failWith .missingKey
    | a, some i => a.item i
    | _, none => failWith .wrongType
  | length, [v] => lengthOf v
  | truth, [v] => return .bool (← v.truth)
  | items, [v] => return .list (← v.iterate)
  | expression, [v] => return .expr (← v.toExpr)
  | symbol, [name] => return .expr (← symbolOf name (.tuple []))
  | symbol, [name, shape] => return .expr (← symbolOf name shape)
  | constant, [v] => return .expr (← constantOf v)
  | unary op, [v] => return .expr (Expr.unary op (← v.toExpr))
  | binary op, [a, b] =>
    let l ← a.toExpr
    return .expr (Expr.binary op l (← b.toExpr))
  | conditional, [c, t, f] =>
    let c ← c.toExpr
    let t ← t.toExpr
    return .expr (Expr.ifThenElse c t (← f.toExpr))
  | _, _ => failWith .wrongType

end Operation
end NamedSlots
