import NamedSlots.Evaluation.Numeric
import NamedSlots.Graph.FloatArithmetic
import NamedSlots.Graph.Lowering
import NamedSlots.Value.Item

/-!
# Evaluators

An evaluator is an expression with its leaves bound: a function of state storage, parameter
storage and, for a system with an independent variable, the time. It interprets the expression,
or it runs the graph that the expression was lowered to.
-/

namespace NamedSlots

structure Evaluator where
  expr : Expr
  table : LeafTable
  isTimeDependent : Bool
  version : Extra
  lowered : Option (Graph.Sheet Float) := none

namespace Source

/-- Reads a source. A provider is given the time exactly if the system has an independent variable. -/
def read (isTimeDependent : Bool) (u p t : Value) : Source → Except Failure Value
  | state i => u.item i
  | parameter i => p.item i
  | time => return t
  | provider f => f u p (if isTimeDependent then some t else none)

end Source

namespace Evaluator

private def uses (e : Evaluator) (role : Role) : Bool :=
  e.table.bindings.any fun (_, s) => s.role == role

/-- A provider may read all storage. -/
def usesProvider (e : Evaluator) : Bool := e.uses .observed

def usesStates (e : Evaluator) : Bool := e.uses .state || e.usesProvider

def usesParameters (e : Evaluator) : Bool := e.uses .parameter || e.usesProvider

def usesTime (e : Evaluator) : Bool := e.uses .independent || (e.usesProvider && e.isTimeDependent)

def isTime : Value → Bool
  | .none => false
  | _ => true

/-- A time has to be given if it is used, and must not be given to a system without one. -/
def checkTime (e : Evaluator) (t : Value) : Except Failure Unit := do
  if isTime t && !e.isTimeDependent then throw .unexpectedTime
  if !isTime t && e.usesTime then throw (.timeRequired e.expr)

/-- The value of the numbers of a sheet: a number, a column or an array of rank two. -/
def sheetValue (m : Graph.Rectangle Float) : Value :=
  match m.single?, m.columns with
  | some x, _ => .real x
  | none, 1 => .numbers .float64 [m.rows] (m.items.map .real)
  | none, columns => .numbers .float64 [m.rows, columns] (m.items.map .real)

def interpret (e : Evaluator) (u p t : Value) : Except Failure Value :=
  e.expr.eval .numeric (e.table.value .numeric (Source.read e.isTimeDependent u p t))

/-- The slot that the whole expression is, if it is a bare state or a bare parameter. -/
def slot? (e : Evaluator) : Option Source :=
  match Assoc.find? e.expr e.table.bindings.reverse with
  | some (.state i) => some (.state i)
  | some (.parameter i) => some (.parameter i)
  | _ => none

def run (e : Evaluator) (graph : Graph.Sheet Float) (u p t : Value) : Except Failure Value := do
  let inputs ← e.table.bindings.mapM fun (_, s) => do (← s.read e.isTimeDependent u p t).toFloat
  return sheetValue (graph.values .float inputs 0.0)

/-- The value of an evaluator at given storage and time. A bare slot is read without a walk
through the expression. -/
def call (e : Evaluator) (u p t : Value) : Except Failure Value := do
  e.checkTime t
  match e.lowered, e.slot? with
  | none, some s => s.read e.isTimeDependent u p t
  | none, none => e.interpret u p t
  | some graph, _ => e.run graph u p t

def className (e : Evaluator) : String :=
  if e.lowered.isSome then "CasadiEvaluator" else "Evaluator"

def text? (e : Evaluator) : Option String :=
  e.expr.text?.map fun s => e.className ++ "(" ++ s ++ ")"

end Evaluator
end NamedSlots
