import NamedSlots.Access.Factory
import NamedSlots.System.Object
import NamedSlots.System.Question

/-!
# Sessions

A session holds named values and the objects behind them: systems, evaluators, accessors,
factories and classifiers. Several names may refer to one object, which is known by its identity.
A step of a session may fail; what it did before stays done.
-/

namespace NamedSlots

structure Session where
  names : List (String × Value) := []
  objects : Objects := []
  evaluators : List (Nat × Evaluator) := []
  accessors : List (Nat × Accessor) := []
  factories : List (Nat × Factory) := []
  classifiers : List (Nat × Classifier) := []
  nextIdentity : Nat := 0
  trace : Trace := {}
  /-- The values that the step under way has looked up. -/
  used : List Value := []
  /-- The values that the last failed step looked up. -/
  held : List Value := []

abbrev Step := ExceptT Failure (StateM Session)

namespace Session

/-- An object seen as a value shows its text as it is now. -/
def refresh (s : Session) : Value → Value
  | .handle h =>
    match Assoc.find? h.identity s.objects with
    | some object => .handle { h with text := object.text?.getD h.text }
    | none => .handle h
  | v => v

def nameOf? (s : Session) (v : Value) : Option String :=
  (s.names.find? fun (_, w) => w.isObject v).map (·.1)

/-- What stands behind a value in one of the tables of objects. -/
def behind? (table : List (Nat × α)) : Value → Option α
  | .handle h => Assoc.find? h.identity table
  | _ => none

end Session

namespace Step

/-- An identity that no object has yet. -/
def fresh : Step Nat :=
  modifyGet fun s => (s.nextIdentity, { s with nextIdentity := s.nextIdentity + 1 })

def find (name : String) : Step Value := do
  let s ← get
  match Assoc.find? name s.names with
  | none => failWith .missingKey
  | some v =>
    modify fun s => { s with used := v :: s.used }
    return s.refresh v

def assign (name : String) (v : Value) : Step Unit :=
  modify fun s => { s with names := Assoc.put name v s.names }

/-- Forgets names; an object that nothing refers to any more is lost. -/
def forget (names : List String) : Step Unit :=
  modify fun s => { s with names := s.names.filter fun (name, _) => !names.contains name }

def traced (act : Traced α) : Step α := do
  let (result, trace) := act.run.run (← get).trace
  modify fun s => { s with trace := trace }
  return ← (result : Except Failure α)

/-- The object behind a value, which must be in a given table. -/
def behind (table : Session → List (Nat × α)) (fault : Fault) (v : Value) : Step α := do
  match Session.behind? (table (← get)) v with
  | some a => return a
  | none => failWith fault

end Step
end NamedSlots
