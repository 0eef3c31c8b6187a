import NamedSlots.System.Interface

/-!
# Queries

The methods of an interface by name, and the answer that each gives when it is called directly.
Resolution methods take the symbol first and then, perhaps, a structure version.
-/

namespace NamedSlots

inductive Query
  | predicate (role : Role)
  | index (role : Role)
  | symbols (role : Role)
  | definition | provider
  | stateValues | parameterValues | currentTime | hasCurrentTime | currentVersion
  | constantStructure | container
deriving DecidableEq, Repr

namespace Query

/-- The noun that stands for a role in the names of methods. -/
def roleNoun : Role → String
  | .independent => "independent_variable"
  | role => role.name

def name : Query → String
  | predicate role => "is_" ++ roleNoun role
  | index role => roleNoun role ++ "_index"
  | symbols role => roleNoun role ++ "_symbols"
  | definition => "observed_expression"
  | provider => "observed"
  | stateValues => "state_values"
  | parameterValues => "parameter_values"
  | currentTime => "current_time"
  | hasCurrentTime => "has_current_time"
  | currentVersion => "current_version"
  | constantStructure => "constant_structure"
  | container => "symbolic_container"

def all : List Query :=
  let roles : List Role := [.state, .parameter, .independent, .observed]
  roles.map predicate ++ roles.map index ++ roles.map symbols ++
  [definition, provider, stateValues, parameterValues, currentTime, hasCurrentTime, currentVersion,
   constantStructure, container]

def named? (name : String) : Option Query := all.find? fun q => q.name == name

end Query

namespace Interface

def extraOf : List Value → Except Failure Extra
  | [] => return none
  | [version] => return some version
  | _ => failWith .wrongType

private def constant (a : Attribute Value) (args : List Value) : Except Failure Value := do
  let v ← a.invoke
  if args.isEmpty then return v else failWith .wrongType

private def symbolArgument : List Value → Except Failure (Value × Extra)
  | [] => failWith .wrongType
  | symbol :: rest => do return (symbol, ← extraOf rest)

def call (i : Interface) (q : Query) (args : List Value) : Except Failure Value := do
  match q with
  | .predicate role =>
    let f ← (i.predicate role).invoke
    let (symbol, extra) ← symbolArgument args
    return .bool (← f symbol extra)
  | .index role =>
    let f ← (i.index role).invoke
    let (symbol, extra) ← symbolArgument args
    f symbol extra
  | .symbols role =>
    let f ← (i.symbols role).invoke
    f (← extraOf args)
  | .definition =>
    let d ← i.definitions.invoke
    let (symbol, extra) ← symbolArgument args
    return (← d.find? symbol extra).getD .none
  | .provider =>
    let f ← i.provider.invoke
    let (symbol, extra) ← symbolArgument args
    let _ ← f symbol extra
    return .none
  | .stateValues => constant i.stateValues args
  | .parameterValues => constant i.parameterValues args
  | .currentTime =>
    let t ← i.currentTime.invoke
    if args.isEmpty then t else failWith .wrongType
  | .hasCurrentTime => constant i.hasCurrentTime args
  | .currentVersion =>
    let v ← i.currentVersion.invoke
    if args.isEmpty then v else failWith .wrongType
  | .constantStructure => constant i.constantStructure args
  | .container => constant i.container args

end Interface
end NamedSlots
