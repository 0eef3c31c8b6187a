import NamedSlots.Session.Basic

/-!
# Systems of a session

Declaring systems, asking them questions, and looking at their storage.
-/

namespace NamedSlots.Step

def system (v : Value) : Step System :=
  return System.of (← get).objects.world v

def declare (object : SystemObject) : Step Value := do
  let identity ← fresh
  modify fun s => { s with objects := (identity, object) :: s.objects }
  return .handle ⟨identity, object.className, object.text?.getD object.className⟩

def ask (route : Route) (sys : Value) (version : Option Value) (q : Question) : Step Answer := do
  let s ← system sys
  return ← route.ask s version q

/-- Whether a system has versions, and the version that it is bound to. -/
def boundVersion (sys version : Value) : Step Extra := do
  let s ← system sys
  return (← (Bound.of s version : Except Failure Bound)).version

def isConstant (sys : Value) : Step Bool := do
  let s ← system sys
  return ← s.isConstant

def currentVersion (sys : Value) : Step Value := do
  let s ← system sys
  return ← s.currentVersion

/-- The first name that refers to the object answering resolution queries for a system. -/
def containerName (sys : Value) : Step (Option String) := do
  let s ← get
  return s.nameOf? (System.containerValue s.objects.world sys)

def hasCapability (sys : Value) (c : Capability) : Step Bool := do
  let s ← system sys
  return ← s.own.hasCapability c

def require (sys : Value) (c : Capability) : Step Unit := do
  let s ← system sys
  return ← s.own.require c

def notice (i : Interface) (name : String) (args : List Value) : Step Unit := do
  if name == Query.provider.name && i.provider.isMethod && (args.length == 1 || args.length == 2) then
    modify fun s => { s with trace := { s.trace with asked := s.trace.asked ++ [i.identity] } }

def callMethod (sys : Value) (name : String) (args : List Value) : Step Value := do
  let objects := (← get).objects
  match sys, Session.behind? objects sys with
  | .handle h, some object =>
    let i := objects.interfaceAt h.identity
    notice i name args
    let (object, v) ← (object.call i name args : Except Failure _)
    modify fun s => { s with objects := s.objects.update h.identity fun _ => object }
    return v
  | _, _ => failWith .missingAttribute

def providerCalls (sys : Value) : Step Nat := do
  let s ← get
  match sys with
  | .handle h => return s.trace.asked.count (some h.identity)
  | _ => return 0

/-- The state and parameter storage of a value, as far as it offers them. -/
def storage (v : Value) : Step (Option Value × Option Value) := do
  let i := (← get).objects.world v
  return (i.stateValues.method?, i.parameterValues.method?)

/-- Changes a problem state; any other object stays as it is. -/
def changeState (v : Value) (f : ProblemState → ProblemState) : Step Unit := do
  match v with
  | .handle h =>
    modify fun s => { s with objects := s.objects.update h.identity fun
      | .state p => .state (f p)
      | object => object }
  | _ => return ()

end NamedSlots.Step
