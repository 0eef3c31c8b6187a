import NamedSlots.System.Host
import NamedSlots.System.State

/-!
# System objects

The kinds of objects that can serve as systems. Objects are kept newest first, each with its
identity; an object refers only to older ones.
-/

namespace NamedSlots

inductive SystemObject
  | layout (l : Layout)
  | versioned (l : VersionedLayout)
  | state (s : ProblemState)
  | host (h : Host)

namespace SystemObject

def toInterface (world : World) (identity : Nat) : SystemObject → Interface
  | layout l => .ofLayout l (some identity)
  | versioned l => .ofVersionedLayout l (some identity)
  | state s => s.toInterface world (some identity)
  | host h => h.toInterface (some identity)

def className : SystemObject → String
  | layout _ => "SymbolCache"
  | versioned _ => "VersionedSymbolCache"
  | state _ => ProblemState.className
  | host h => h.className

/-- The text of an object; hosts and versioned layouts have none of their own. -/
def text? : SystemObject → Option String
  | layout l => l.text?
  | state s => s.text?
  | object => some ("<" ++ object.className ++ ">")

/-- The state and parameter storage that an object offers. -/
def storage (world : World) (identity : Nat) (object : SystemObject) : Option Value × Option Value :=
  let i := object.toInterface world identity
  (i.stateValues.method?, i.parameterValues.method?)

/-- Whether others can refer to an object without keeping it alive. -/
def isWeak : SystemObject → Bool
  | host h => h.isWeak
  | _ => true

/-- Replaces the state or parameter storage by one with other items. -/
def setStorage (role : Role) (v : Value) : SystemObject → SystemObject
  | state s =>
    match role with
    | .state => state { s with states := v }
    | .parameter => state { s with parameters := v }
    | _ => state s
  | host h =>
    match role with
    | .state => host (h.setConstant .stateValues v)
    | .parameter => host (h.setConstant .parameterValues v)
    | _ => host h
  | object => object

/-- A change of a versioned layout, by its name and arguments. -/
def changeLayout (l : VersionedLayout) (name : String) (args : List Value) :
    Option (Except Failure VersionedLayout) :=
  match name, args with
  | "add_version", [version] => some (l.addVersion version .none .none)
  | "add_version", [version, states] => some (l.addVersion version states .none)
  | "add_version", [version, states, parameters] => some (l.addVersion version states parameters)
  | "set_current_version", [version] => some (l.setCurrent version)
  | "add_version", _ | "set_current_version", _ => some (failWith .wrongType)
  | _, _ => none

/-- Calls a method of an object that offers a given interface: the object afterwards, and the answer. -/
def call (i : Interface) (object : SystemObject) (name : String) (args : List Value) :
    Except Failure (SystemObject × Value) := do
  match object, Query.named? name with
  | object, some q => return (object, ← i.call q args)
  | versioned l, none =>
    if name == "versions" then
      if args.isEmpty then return (versioned l, .list l.versions) else failWith .wrongType
    match changeLayout l name args with
    | some changed => return (versioned (← changed), Value.none)
    | none => failWith .missingAttribute
  | _, none => failWith .missingAttribute

def heldValues : SystemObject → List Value
  | state s => [s.system, s.states, s.parameters, s.time, s.version]
  | host h => h.attributes.filterMap fun
    | (_, .method (.constant v)) => some v
    | (_, .plain v) => some v
    | _ => none
  | _ => []

end SystemObject

abbrev Objects := List (Nat × SystemObject)

/-- The class name of a value without the names of enclosing modules. -/
def Value.plainClassName (v : Value) : String :=
  (v.className.splitOn ".").getLastD v.className

namespace Objects

def interfaceAt : Objects → Nat → Interface
  | [], _ => { className := "object" }
  | (k, object) :: older, identity =>
    if k = identity then
      object.toInterface
        (fun
          | .handle h => interfaceAt older h.identity
          | v => { className := v.plainClassName })
        identity
    else interfaceAt older identity

/-- What each value offers. -/
def world (objects : Objects) : World
  | .handle h => if Assoc.contains objects h.identity then objects.interfaceAt h.identity else { className := h.className }
  | v => { className := v.plainClassName }

def update (objects : Objects) (identity : Nat) (f : SystemObject → SystemObject) : Objects :=
  objects.map fun (k, object) => if k = identity then (k, f object) else (k, object)

end Objects
end NamedSlots
