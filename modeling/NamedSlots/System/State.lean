import NamedSlots.System.Interface

/-!
# Problem states

A problem state holds numeric storage and leaves resolution to the system that it belongs to.
It may pin the structure version that its storage is laid out for; otherwise it follows the
current version of its system.
-/

namespace NamedSlots

structure ProblemState where
  system : Value
  states : Value
  parameters : Value
  time : Value := .none
  version : Value := .none
deriving Repr

namespace ProblemState

def className : String := "ProblemState"

def build (system states parameters time version : Value) : Except Failure ProblemState :=
  if version.isHashableClass then return ⟨system, states, parameters, time, version⟩
  else failWith .badArgument

def text? (s : ProblemState) : Option String := do
  return className ++ "(u=" ++ (← s.states.text?) ++ ", p=" ++ (← s.parameters.text?)
    ++ ", t=" ++ (← s.time.text?) ++ ")"

/-- The time, which is a missing capability unless it is set. -/
def currentTime (s : ProblemState) : Except Failure Value :=
  match s.time with
  | .none => throw (.missingCapability Capability.currentTime.name (some className))
  | t => return t

def hasTime (s : ProblemState) : Bool :=
  match s.time with
  | .none => false
  | _ => true

/-- The pinned version, or else the current version of the system. -/
def currentVersion (world : World) (s : ProblemState) : Except Failure Value := do
  let version ←
    match s.version, (world s.system).currentVersion with
    | .none, .method v => v
    | version, _ => return version
  if version.isHashableClass then return version else failWith .badResult

def toInterface (world : World) (s : ProblemState) (identity : Option Nat) : Interface where
  className := className
  identity := identity
  stateValues := .method s.states
  parameterValues := .method s.parameters
  currentTime := .method s.currentTime
  hasCurrentTime := .method (.bool s.hasTime)
  currentVersion := .method (s.currentVersion world)
  container := .method s.system

end ProblemState
end NamedSlots
