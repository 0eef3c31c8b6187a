import NamedSlots.Session.Basic

/-!
# Liveness

An object lives while a name or another living object refers to it, or a factory keeps it. A
factory keeps only objects that cannot be referred to weakly. What the last failed step looked
up lives until another step fails. After each step, objects that do not live are lost, and so
are the accessors that factories kept for them.
-/

namespace NamedSlots

mutual

/-- The identities of the objects that a value refers to. -/
def Value.identities : Value → List Nat
  | .list items | .tuple items | .objects _ items => Value.allIdentities items
  | .dict entries => Value.entryIdentities entries
  | .foreign _ shape definition => shape.identities ++ definition.identities
  | .handle h => [h.identity]
  | _ => []

def Value.allIdentities : List Value → List Nat
  | [] => []
  | v :: vs => v.identities ++ Value.allIdentities vs

def Value.entryIdentities : List (Value × Value) → List Nat
  | [] => []
  | (k, v) :: es => k.identities ++ v.identities ++ Value.entryIdentities es

end

namespace Session

def isKept (s : Session) (v : Value) : Bool :=
  match behind? s.objects v with
  | some object => !object.isWeak
  | none => false

def kept (s : Session) (f : Factory) : List Nat :=
  f.cache.flatMap fun (key, _) => if s.isKept key.system then key.system.identities else []

/-- The identities that names and the last failed step refer to, and those that factories keep. -/
def roots (s : Session) : List Nat :=
  let named := Value.allIdentities (s.names.map (·.2) ++ s.held)
  named ++ s.factories.flatMap fun (k, f) => if named.contains k then s.kept f else []

/-- Adds what living objects refer to; an object refers only to older ones. -/
def reach (live : List Nat) : Objects → List Nat
  | [] => live
  | (k, object) :: older =>
    reach (if live.contains k then live ++ Value.allIdentities object.heldValues else live) older

def live (s : Session) : List Nat := reach s.roots s.objects

/-- Loses the objects that do not live. -/
def sweep (s : Session) : Session :=
  let live := s.live
  let isLive : Value → Bool
    | .handle h => live.contains h.identity
    | _ => true
  { s with
    objects := s.objects.filter fun (k, _) => live.contains k
    evaluators := s.evaluators.filter fun (k, _) => live.contains k
    accessors := s.accessors.filter fun (k, _) => live.contains k
    classifiers := s.classifiers.filter fun (k, _) => live.contains k
    factories := s.factories.filterMap fun (k, f) =>
      if live.contains k then some (k, f.dropDead isLive) else none }

/-- What a step leaves: its result, the warnings it gave, and the session afterwards. -/
structure Outcome (α : Type) where
  result : Except Failure α
  warnings : List String
  session : Session

def perform (s : Session) (step : Step α) : Outcome α :=
  let (result, after) := step.run.run { s with trace := { s.trace with warnings := [] }, used := [] }
  let held :=
    match result with
    | .ok _ => s.held
    | .error _ => after.used
  ⟨result, after.trace.warnings, { after with used := [], held := held }.sweep⟩

end Session
end NamedSlots
