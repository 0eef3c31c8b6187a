import NamedSlots.Access.Permission
import NamedSlots.Value.Grid
import NamedSlots.Value.Item

/-!
# Writers

A writer says which slots a value goes to. Given a value it makes a plan: the slot writes in
order, and the failure that ends them if the value does not fit the request. Counts are checked
level by level, so writes planned before a failure are carried out.
-/

namespace NamedSlots

inductive Writer
  | slot (role : Role) (i : Index)
  | vector (items : List Writer)
  | array (items : List Writer) (shape : List Index)

/-- One value that goes into one slot. -/
structure SlotWrite where
  role : Role
  index : Index
  value : Value

/-- Slot writes in order, and the failure that ends them. -/
structure WritePlan where
  writes : List SlotWrite := []
  failure : Option Failure := none

namespace WritePlan

def fail (f : Failure) : WritePlan := ⟨[], some f⟩

/-- One plan after another; a failure ends both. -/
def append (p q : WritePlan) : WritePlan :=
  match p.failure with
  | some _ => p
  | none => ⟨p.writes ++ q.writes, q.failure⟩

end WritePlan

namespace Writer

/-- The items of a value that is written to an array of a given shape. -/
def arrayItems (shape : List Index) (v : Value) : Except Failure (List Value) := do
  let grid ← v.assemble
  let given := grid.shape?.getD []
  let size := (shape.map Index.toInt).foldl (· * ·) 1
  if given.map (fun (n : Nat) => (n : Int)) ≠ shape.map Index.toInt ∧ (Shape.size given : Int) ≠ size then
    throw (.wrongShape shape given)
  else return grid.gridItems

mutual

def plan : Writer → Value → WritePlan
  | slot role i, v => ⟨[⟨role, i, v⟩], none⟩
  | vector items, v =>
    match v.iterate with
    | .error f => .fail f
    | .ok vs =>
      if vs.length ≠ items.length then .fail (.wrongCount items.length vs.length) else planAll items vs
  | array items shape, v =>
    match arrayItems shape v with
    | .error f => .fail f
    | .ok vs =>
      if vs.length ≠ items.length then .fail (.wrongCount items.length vs.length) else planAll items vs

def planAll : List Writer → List Value → WritePlan
  | w :: ws, v :: vs => (plan w v).append (planAll ws vs)
  | _, _ => {}

end

/-- The writer of a named symbol, which has to have a slot. -/
def ofSymbol (b : Bound) (p : Permission) (symbol : Value) : Except Failure Writer := do
  let role ← b.classify symbol
  match role with
  | .unknown => throw (.unknownSymbol symbol "")
  | .observed | .independent =>
    throw (.notSettable symbol (role.name ++ " symbols have no storage slot"))
  | .state | .parameter =>
    p.check symbol role
    b.system.own.require (if role = .state then .stateValues else .parameterValues)
    return slot role (← b.locate symbol)

mutual

def ofRequest (b : Bound) (p : Permission) : Request → Except Failure Writer
  | .symbol _ symbol => ofSymbol b p symbol
  | .expression e => throw (.notSettable (.expr e) "expressions have no storage slot")
  | .sequence items _ => do return vector (← ofRequests b p items)
  | .array shape elements => do return array (← ofRequests b p elements) shape

def ofRequests (b : Bound) (p : Permission) : List Request → Except Failure (List Writer)
  | [] => return []
  | r :: rs => do
    let writer ← ofRequest b p r
    return writer :: (← ofRequests b p rs)

end

end Writer
end NamedSlots
