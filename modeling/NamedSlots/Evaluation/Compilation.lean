import NamedSlots.Evaluation.Evaluator

/-!
# Compilation

To compile an expression is to bind its leaves at one structure version and, if the backend asks
for it, to lower it to a graph. All failures of resolution show here, and evaluation asks the
system nothing more.
-/

namespace NamedSlots

/-- What runs a compiled expression. -/
inductive Backend
  | interpreter
  | graph
deriving DecidableEq, Repr

namespace Backend

def name : Backend → String
  | interpreter => "numpy"
  | graph => "casadi"

/-- The backend of a name, which has to be a text. -/
def ofValue : Value → Except Failure Backend
  | .string s _ =>
    match [interpreter, graph].find? fun b => b.name == s with
    | some b => return b
    | none => throw (.unknownBackend s)
  | _ => failWith .badArgument

end Backend

/-- What is said when a graph gets values from a provider. -/
def providerWarning (text : String) : String :=
  "Observed leaves of " ++ text ++
    " come from the system's provider; they are evaluated numerically and passed to CasADi as inputs."

namespace Evaluator

/-- Compiles an expression for a system at a fixed version. -/
def compile (b : Bound) (e : Expr) (backend : Backend) : Traced Evaluator := do
  let isTimeDependent ← b.isTimeDependent
  let table ← b.bind isTimeDependent e
  let evaluator : Evaluator := ⟨e, table, isTimeDependent, b.version, none⟩
  match backend with
  | .interpreter => return evaluator
  | .graph =>
    if evaluator.usesProvider then
      match e.text? with
      | some s => modify fun t => { t with warnings := t.warnings ++ [providerWarning s] }
      | none => throw (.fault .outOfRange)
    return { evaluator with lowered := some (← Graph.ofExpr .float table e) }

/-- Compiles what a value stands for, at the version that is given or else at the current one. -/
def ofValue (s : System) (v version : Value) (backend : Backend) : Traced Evaluator := do
  let b ← Bound.of s version
  compile b (← v.toExpr) backend

end Evaluator
end NamedSlots
