import NamedSlots.Session.Systems

/-!
# Evaluators and accessors of a session

Compiling and evaluating expressions, and building and calling accessors. Accessors come from a
factory of the session or from the one that keeps nothing.
-/

namespace NamedSlots.Step

/-- Compiles what a value stands for. The evaluator becomes an object of the session. -/
def compile (sys expr version backend : Value) : Step (Value × Evaluator) := do
  if !version.isHashableClass then failWith .badArgument
  let backend ← (Backend.ofValue backend : Except Failure Backend)
  let s ← system sys
  let e ← traced (Evaluator.ofValue s expr version backend)
  let identity ← fresh
  modify fun s => { s with evaluators := (identity, e) :: s.evaluators }
  return (.handle ⟨identity, e.className, e.text?.getD e.className⟩, e)

/-- The value of an evaluator on storage; both storages have to be given. -/
def evaluate (f : Value) (u p t : Option Value) : Step Value := do
  let e ← behind Session.evaluators .wrongType f
  match u, p with
  | some u, some p => return ← e.call u p (t.getD .none)
  | _, _ => failWith .wrongType

def declareFactory (f : Factory) : Step Value := do
  let identity ← fresh
  modify fun s => { s with factories := (identity, f) :: s.factories }
  return .handle ⟨identity, "AccessorFactory", "AccessorFactory"⟩

def declareClassifier (c : Classifier) : Step Value := do
  let identity ← fresh
  modify fun s => { s with classifiers := (identity, c) :: s.classifiers }
  return .handle ⟨identity, "SymbolicTypeClassifier", "SymbolicTypeClassifier"⟩

/-- The classifier that a value stands for, if it is given. -/
def classifier? : Value → Step (Option Classifier)
  | .none => return none
  | v => return some (← behind Session.classifiers .badArgument v)

def factory (v : Value) : Step Factory := behind Session.factories .missingAttribute v

def setFactory (v : Value) (f : Factory) : Step Unit := do
  match v with
  | .handle h =>
    modify fun s => { s with factories := s.factories.map fun (k, g) => (k, if k = h.identity then f else g) }
  | _ => return ()

/-- The factory that keeps nothing. -/
def uncaching : Factory := { isCaching := false }

/-- Builds an accessor, or finds the one that the factory kept. -/
def build (owner : Option Value) (sys : Value) (p : Permission) (request version : Value) :
    Step (Value × Accessor) := do
  let f ←
    match owner with
    | some v => factory v
    | none => pure uncaching
  let s ← system sys
  let identity ← fresh
  let (f, trace, result) := f.request identity s sys p request version
  modify fun s => { s with trace := ⟨s.trace.asked ++ trace.asked, s.trace.warnings ++ trace.warnings⟩ }
  match owner with
  | some v => setFactory v f
  | none => pure ()
  let a ← (result : Except Failure Accessor)
  modify fun s => { s with accessors := Assoc.put a.identity a s.accessors }
  return (.handle ⟨a.identity, a.className, a.className⟩, a)

def getThrough (acc obj : Value) : Step Value := do
  let a ← behind Session.accessors .wrongType acc
  let s ← system obj
  return ← a.get s

def replaceStorage (obj : Value) (storage : Storage) : Step Unit := do
  match obj with
  | .handle h =>
    let replace (role : Role) (v : Except Failure Value) (object : SystemObject) : SystemObject :=
      match v with
      | .ok v => object.setStorage role v
      | .error _ => object
    let change := replace .parameter storage.parameters ∘ replace .state storage.states
    modify fun s => { s with objects := s.objects.update h.identity change }
  | _ => return ()

/-- Writes a value through a setter. What was written before a failure stays written. -/
def setThrough (acc obj v : Value) : Step Unit := do
  let a ← behind Session.accessors .wrongType acc
  let s ← system obj
  let (storage, failure) := a.set s v
  replaceStorage obj storage
  match failure with
  | some f => throw f
  | none => return ()

end NamedSlots.Step
