import NamedSlots.Evaluation.Compilation
import NamedSlots.Request

/-!
# Permissions

An accessor either reads or writes, and it may be confined to states or to parameters. A symbol
or an expression of another role is unknown to such an accessor.
-/

namespace NamedSlots

structure Permission where
  isWrite : Bool
  roles : List Role
deriving DecidableEq, Repr

namespace Permission

def allRoles : List Role := [.state, .parameter, .independent, .observed]

def readAny : Permission := ⟨false, allRoles⟩
def writeAny : Permission := ⟨true, allRoles⟩
def writeStates : Permission := ⟨true, [.state]⟩
def readParameters : Permission := ⟨false, [.parameter]⟩
def writeParameters : Permission := ⟨true, [.parameter]⟩

private def label : Role → String
  | .state => "a state variable"
  | .parameter => "a parameter"
  | role => role.name

/-- What a refused symbol is not. -/
def refusal (p : Permission) : String :=
  "not " ++ " or ".intercalate ((p.roles.map label).mergeSort fun a b => a ≤ b) ++ " of the system"

def check (p : Permission) (symbol : Value) (role : Role) : Except Failure Unit :=
  if p.roles.contains role then return () else throw (.unknownSymbol symbol p.refusal)

/-- Refuses an expression with a leaf of a role that is not permitted; a replaced leaf is observed. -/
def checkEvaluator (p : Permission) (e : Evaluator) : Except Failure Unit := do
  if p.roles = allRoles then return ()
  for (_, s) in e.table.bindings do
    p.check (.expr e.expr) s.role
  if !e.table.inlined.isEmpty then p.check (.expr e.expr) .observed

end Permission
end NamedSlots
