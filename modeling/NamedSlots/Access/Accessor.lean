import NamedSlots.Access.Reader
import NamedSlots.Access.Writer

/-!
# Accessors

A getter or a setter, with the request it was built for and, for a system with versions, the
structure version that its slots belong to. A call on storage at another version fails before
anything is read or written.
-/

namespace NamedSlots

inductive AccessPlan
  | getter (r : Reader)
  | setter (w : Writer)

/-- A built accessor; its identity tells it apart from accessors of the same plan. -/
structure Accessor where
  identity : Nat
  plan : AccessPlan
  request : Request
  version : Extra

/-- State and parameter storage while slots are written. -/
structure Storage where
  states : Except Failure Value
  parameters : Except Failure Value

namespace Storage

def ofInterface (i : Interface) : Storage := ⟨i.stateValues.invoke, i.parameterValues.invoke⟩

def write (s : Storage) (w : SlotWrite) : Except Failure Storage :=
  match w.role with
  | .parameter => do
    let written ← (← s.parameters).setItem w.index w.value
    return { s with parameters := .ok written }
  | _ => do
    let written ← (← s.states).setItem w.index w.value
    return { s with states := .ok written }

/-- Writes slots in order up to the first failure. What was written before stays written. -/
def writeAll (s : Storage) : List SlotWrite → Storage × Option Failure
  | [] => (s, none)
  | w :: ws =>
    match s.write w with
    | .error f => (s, some f)
    | .ok s => s.writeAll ws

end Storage

namespace Accessor

def className (a : Accessor) : String :=
  match a.plan with
  | .getter _ => "Getter"
  | .setter _ => "Setter"

/-- Fails when an object reports a version that differs from the accessor's. -/
def checkVersion (a : Accessor) (s : System) : Except Failure Unit := do
  match a.version with
  | none => return ()
  | some expected =>
    match ← s.currentVersion with
    | .none => return ()
    | actual => if actual == expected then return () else throw (.versionMismatch expected actual)

def get (a : Accessor) (s : System) : Except Failure Value := do
  match a.plan with
  | .setter _ => failWith .wrongType
  | .getter r =>
    a.checkVersion s
    r.read s.own

/-- Writes a value through a setter: the storage afterwards, and the failure if there is one. -/
def set (a : Accessor) (s : System) (v : Value) : Storage × Option Failure :=
  let storage := Storage.ofInterface s.own
  match a.plan with
  | .getter _ => (storage, some (.fault .wrongType))
  | .setter w =>
    match a.checkVersion s with
    | .error f => (storage, some f)
    | .ok _ =>
      let plan := w.plan v
      let (storage, failure) := storage.writeAll plan.writes
      (storage, failure <|> plan.failure)

end Accessor
end NamedSlots
