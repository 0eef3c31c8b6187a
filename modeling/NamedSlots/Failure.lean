import NamedSlots.Expr.Element
import NamedSlots.Fault
import NamedSlots.Value.Basic

/-!
# Failures

Each way in which resolving, compiling, building or accessing can fail, with the values it
concerns. A failure has a kind and, unless it is a bare fault, a text. A text that cannot be
written, because an expression in it lacks operands, turns the failure into a range fault.
-/

namespace NamedSlots

/-- The role that a symbol plays in a system. -/
inductive Role
  | state | parameter | independent | observed | unknown
deriving DecidableEq, Repr

namespace Role

def name : Role → String
  | state => "variable"
  | parameter => "parameter"
  | independent => "independent"
  | observed => "observed"
  | unknown => "unknown"

def all : List Role := [state, parameter, independent, observed, unknown]

def named? (name : String) : Option Role := all.find? fun r => r.name == name

end Role

/-- The optional methods of a system. -/
inductive Capability
  | stateValues | parameterValues | currentTime | observed | observedExpression | currentVersion
deriving DecidableEq, Repr

namespace Capability

def name : Capability → String
  | stateValues => "state_values"
  | parameterValues => "parameter_values"
  | currentTime => "current_time"
  | observed => "observed"
  | observedExpression => "observed_expression"
  | currentVersion => "current_version"

def all : List Capability :=
  [stateValues, parameterValues, currentTime, observed, observedExpression, currentVersion]

def named? (name : String) : Option Capability := all.find? fun c => c.name == name

end Capability

inductive Failure
  | fault (f : Fault)
  | element (e : ElementError)
  | unknownSymbol (symbol : Value) (reason : String)
  | ambiguousSymbol (symbol : Value) (roles : List Role)
  | missingCapability (capability : String) (owner : Option String)
  | notSettable (request : Value) (reason : String)
  | versionMismatch (expected actual : Value)
  | general (text : String)
  | notConvertible (className : String)
  | negativeDimension (shape : List Index) (name : String)
  | noLength (e : Expr)
  | noName (v : Value)
  | notSymbolic (v : Value)
  | notExpandable (v : Value)
  | noExpansion (className : String)
  | unexpandedArray (v : Value)
  | notEnumerable (role : Role)
  | severalIndependent (count : Nat)
  | severalIndependentNames (symbols : List Value)
  | cyclicDefinition (name : Option String)
  | unnamedEntry (table : String) (leaf : Value)
  | unnamedObserved (leaf : Value)
  | duplicateEntry (table key : String)
  | versionExists (version : Value)
  | unexpectedTime
  | timeRequired (e : Expr)
  | unknownBackend (name : String)
  | wrongCount (expected given : Nat)
  | wrongShape (expected : List Index) (given : List Nat)
  | noAccessor (v : Value)
  | noDefaultBranch
  | unsupportedTerm (className text : String)
deriving Repr

namespace Failure

def kind : Failure → Fault
  | fault f => f
  | element (.outOfBounds _ _ _ _) => .outOfRange
  | element _ => .wrongType
  | unknownSymbol _ _ => .unknownSymbol
  | ambiguousSymbol _ _ => .ambiguousSymbol
  | missingCapability _ _ => .missingCapability
  | notSettable _ _ => .notSettable
  | versionMismatch _ _ => .versionMismatch
  | general _ => .general
  | notConvertible _ | noLength _ | noName _ | notSymbolic _ | notExpandable _ | noExpansion _
  | unexpandedArray _ | unnamedEntry _ _ | unnamedObserved _ | unexpectedTime | noAccessor _ => .wrongType
  | negativeDimension _ _ | notEnumerable _ | severalIndependent _ | severalIndependentNames _
  | cyclicDefinition _ | duplicateEntry _ _ | versionExists _ | timeRequired _ | unknownBackend _
  | wrongCount _ _ | wrongShape _ _ => .wrongValue
  | noDefaultBranch | unsupportedTerm _ _ => .notImplemented

private def indexTuple (shape : List Index) : String :=
  match shape with
  | [d] => "(" ++ d.text ++ ",)"
  | ds => "(" ++ ", ".intercalate (ds.map Index.text) ++ ")"

/-- The text of a failure; none for a bare fault and for a text that cannot be written. -/
def text? : Failure → Option String
  | fault _ => none
  | element e => e.message?
  | unknownSymbol v reason => do
    let s ← v.text?
    return "Unknown symbol: " ++ s ++ (if reason.isEmpty then "" else " (" ++ reason ++ ")")
  | ambiguousSymbol v roles => do
    let s ← v.text?
    return "Ambiguous symbol " ++ s ++ ": claimed as " ++ ", ".intercalate (roles.map Role.name)
  | missingCapability capability owner =>
    some ("Missing capability '" ++ capability ++ "'" ++ (owner.map (" on " ++ ·)).getD "")
  | notSettable v reason => do
    let s ← v.text?
    return "Cannot build a setter for " ++ s ++ (if reason.isEmpty then "" else ": " ++ reason)
  | versionMismatch expected actual => do
    let e ← expected.text?
    let a ← actual.text?
    return "Structure version mismatch: built for " ++ e ++ ", system is at " ++ a
  | general t => some t
  | notConvertible c => some ("Cannot convert <class '" ++ c ++ "'> to Expr")
  | negativeDimension shape name =>
    some ("Negative dimension in shape " ++ indexTuple shape ++ " of '" ++ name ++ "'")
  | noLength e => e.text?.map fun s => "Scalar expression " ++ s ++ " has no length"
  | noName v => v.text?.map (· ++ " has no symbolic name")
  | notSymbolic v => v.text?.map (· ++ " is not symbolic")
  | notExpandable v => v.text?.map ("Cannot expand non-symbolic value " ++ ·)
  | noExpansion c => some ("No expansion registered for array symbol type " ++ c)
  | unexpandedArray v =>
    v.text?.map fun s => "Array symbol " ++ s ++ " must be expanded before classification"
  | notEnumerable role => some ("Cannot enumerate symbols of kind " ++ role.name.toUpper)
  | severalIndependent n =>
    some ("At most one independent variable is supported, system reports " ++ toString n)
  | severalIndependentNames symbols =>
    (Value.list symbols).text?.map ("At most one independent variable is supported, got " ++ ·)
  | cyclicDefinition name =>
    name.map fun s => "Cyclic observed definition through '" ++ s ++ "'"
  | unnamedEntry table v => v.text?.map fun s => table ++ " " ++ s ++ " is not a named scalar symbol"
  | unnamedObserved v => v.text?.map fun s => "Observed " ++ s ++ " is not a named scalar symbol"
  | duplicateEntry table key => some ("Duplicate " ++ table ++ " '" ++ key ++ "'")
  | versionExists v => v.text?.map fun s => "Structure version " ++ s ++ " already exists"
  | unexpectedTime => some "Evaluator of a time-independent system takes (u, p) only"
  | timeRequired e => e.text?.map fun s => "Evaluating " ++ s ++ " requires a time value"
  | unknownBackend name =>
    some ("Unknown backend '" ++ name ++ "', expected one of ('numpy', 'casadi')")
  | wrongCount expected given =>
    some ("Expected " ++ toString expected ++ " values, got " ++ toString given)
  | wrongShape expected given =>
    some ("Expected values of shape " ++ indexTuple expected ++ ", got "
      ++ indexTuple (given.map fun (n : Nat) => Index.int n))
  | noAccessor v => v.text?.map ("Cannot build an accessor for non-symbolic value " ++ ·)
  | noDefaultBranch => some "Piecewise without a default branch"
  | unsupportedTerm c t => some ("Unhandled SymPy type " ++ c ++ ": " ++ t)

/-- The kind and the text with which a failure is reported. -/
def report : Failure → Fault × Option String
  | fault f => (f, none)
  | failure =>
    match failure.text? with
    | some t => (failure.kind, some t)
    | none => (.outOfRange, none)

end Failure

/-- Bare faults are failures. -/
instance : MonadLift (Except Fault) (Except Failure) where
  monadLift x := x.mapError Failure.fault

instance : MonadLift (Except ElementError) (Except Failure) where
  monadLift x := x.mapError Failure.element

def failWith {α : Type} (f : Fault) : Except Failure α := throw (.fault f)

end NamedSlots
