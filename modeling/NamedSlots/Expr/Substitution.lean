import NamedSlots.Assoc
import NamedSlots.Expr.Leaves

/-!
# Substitution

Substitution replaces every node that is a key of a mapping by the key's value. A node whose
children do not change is kept as it is.
-/

namespace NamedSlots.Expr

abbrev Mapping := List (Expr × Expr)

/-- The outcome of a substitution, and whether the very node came back. -/
structure Substituted where
  expr : Expr
  kept : Bool

mutual

def substituted (mapping : Mapping) : Expr → Substituted
  | node kind children label =>
    match Assoc.find? (node kind children label) mapping with
    | some e => ⟨e, false⟩
    | none =>
      let (children', unchanged) := substitutedAll mapping children
      if unchanged then ⟨node kind children label, true⟩
      else ⟨node kind children' label, false⟩

/-- The new children, and whether each is the old one or equals it. -/
def substitutedAll (mapping : Mapping) : List Expr → List Expr × Bool
  | [] => ([], true)
  | c :: cs =>
    let s := substituted mapping c
    let (cs', unchanged) := substitutedAll mapping cs
    (s.expr :: cs', (s.kept || s.expr == c) && unchanged)

end

def substitute (e : Expr) (mapping : Mapping) : Expr :=
  (substituted mapping e).expr

end NamedSlots.Expr
