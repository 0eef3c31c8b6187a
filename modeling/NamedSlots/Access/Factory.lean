import NamedSlots.Access.Accessor

/-!
# Accessor factories

A factory builds accessors and may keep them: a request that was built before for the same
object, permission and version is answered by the very accessor built then. When an object
reports a current version, entries of its other versions are dropped on the next build for it.
-/

namespace NamedSlots

structure CacheKey where
  system : Value
  permission : Permission
  request : Request
  version : Extra

namespace CacheKey

private def sameVersion : Extra → Extra → Bool
  | none, none => true
  | some a, some b => a == b
  | _, _ => false

/-- Keys agree when objects are one, permissions agree, and requests and versions are equal. -/
def same (a b : CacheKey) : Bool :=
  a.system.isObject b.system && decide (a.permission = b.permission) && a.request == b.request &&
    sameVersion a.version b.version

instance : BEq CacheKey := ⟨same⟩

end CacheKey

structure Factory where
  backend : Backend := .interpreter
  isCaching : Bool := true
  classifier : Classifier := Classifier.standard
  cache : List (CacheKey × Accessor) := []

namespace Factory

/-- A factory from its options; the backend is checked first to be a text. -/
def build (backend caching : Value) (classifier : Option Classifier) : Except Failure Factory := do
  match backend, caching with
  | .string _ _, .number (.bool isCaching) =>
    return { backend := ← Backend.ofValue backend, isCaching := isCaching,
             classifier := classifier.getD Classifier.standard }
  | _, _ => failWith .badArgument

def size (f : Factory) : Nat := f.cache.length

def clear (f : Factory) : Factory := { f with cache := [] }

/-- Drops the entries of objects that do not live any more. -/
def dropDead (isLive : Value → Bool) (f : Factory) : Factory :=
  { f with cache := f.cache.filter fun (key, _) => isLive key.system }

/-- Drops the entries of an object that belong to other versions than the current one. -/
def dropVersions (f : Factory) (system current : Value) : Factory :=
  { f with cache := f.cache.filter fun (key, _) =>
      !(key.system.isObject system && !(key.version.getD .none == current)) }

/-- What is said when an accessor is built for another version than the current one. -/
def versionWarning (version current : Value) : List String :=
  if version == current then []
  else
    match version.text?, current.text? with
    | some v, some c => ["Building accessor for structure version " ++ v ++ "; system is at " ++ c]
    | _, _ => []

/-- Prepares the cache for a build at a version: warns, and drops outdated entries. -/
def noteVersion (f : Factory) (s : System) (system : Value) : Extra → Except Failure (Factory × Trace)
  | none => return (f, {})
  | some version => do
    match ← s.currentVersion with
    | .none => return (f, {})
    | current => return (f.dropVersions system current, { warnings := versionWarning version current })

def planFor (backend : Backend) (b : Bound) (p : Permission) (request : Request) : Traced AccessPlan := do
  if p.isWrite then return .setter (← Writer.ofRequest b p request)
  else return .getter (← Reader.ofRequest b backend p request)

/-- What a build works on: a request in normal form, and the object at a version. -/
def prepare (f : Factory) (s : System) (request version : Value) : Except Failure (Request × Bound) := do
  if !version.isHashableClass then failWith .badArgument
  let normal ← Request.ofValue f.classifier request
  return (normal, ← Bound.of s version)

def make (f : Factory) (identity : Nat) (key : CacheKey) (b : Bound) (trace : Trace) :
    Factory × Trace × Except Failure Accessor :=
  match (planFor f.backend b key.permission key.request).run.run trace with
  | (.error e, trace) => (f, trace, .error e)
  | (.ok plan, trace) =>
    let a : Accessor := ⟨identity, plan, key.request, key.version⟩
    (if f.isCaching then { f with cache := f.cache ++ [(key, a)] } else f, trace, .ok a)

def lookup? (f : Factory) (key : CacheKey) : Option Accessor :=
  if f.isCaching then Assoc.find? key f.cache else none

/-- Builds an accessor for an object, or finds the one that was built before. The identity is the
one of a new accessor. -/
def request (f : Factory) (identity : Nat) (s : System) (system : Value) (p : Permission)
    (request version : Value) : Factory × Trace × Except Failure Accessor :=
  match f.prepare s request version with
  | .error e => (f, {}, .error e)
  | .ok (normal, b) =>
    match f.noteVersion s system b.version with
    | .error e => (f, {}, .error e)
    | .ok (f, trace) =>
      let key : CacheKey := ⟨system, p, normal, b.version⟩
      if f.isCaching && !(b.version.getD .none).isHashable then (f, trace, .error (.fault .wrongType))
      else
        match f.lookup? key with
        | some a => (f, trace, .ok a)
        | none => f.make identity key b trace

end Factory
end NamedSlots
