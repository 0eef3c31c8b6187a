import NamedSlots.Expr.Basic

/-!
# Leaves

The free symbols of an expression are its scalar and array symbols in order of first appearance.
They are collected in a walk from left to right that keeps the nodes still to be visited on a
stack. The scalar leaves have each array symbol replaced by its elements.
-/

namespace NamedSlots.Expr

mutual

/-- The number of nodes of an expression. -/
def nodeCount : Expr → Nat
  | node _ cs _ => nodeCounts cs + 1

def nodeCounts : List Expr → Nat
  | [] => 0
  | c :: cs => nodeCount c + nodeCounts cs

end

theorem nodeCounts_append (cs ds : List Expr) :
    nodeCounts (cs ++ ds) = nodeCounts cs + nodeCounts ds := by
  induction cs with
  | nil => exact (Nat.zero_add _).symm
  | cons c cs ih => rw [List.cons_append, nodeCounts, nodeCounts, ih, Nat.add_assoc]

/-- Adds an expression to those seen, latest first, unless it is among them. -/
def note (seen : List Expr) (e : Expr) : List Expr :=
  if seen.contains e then seen else e :: seen

/-- Visits the nodes on a stack. A symbol is noted, and any other node gives way to its children. -/
@[semireducible] def collect (seen : List Expr) : List Expr → List Expr
  | [] => seen.reverse
  | node k cs l :: rest =>
    if k = .symbol ∨ k = .array then collect (note seen (node k cs l)) rest
    else collect seen (cs ++ rest)
termination_by stack => nodeCounts stack
decreasing_by
  · simp only [nodeCounts, nodeCount]
    omega
  · simp only [nodeCounts, nodeCount, nodeCounts_append]
    omega

/-- The symbols of an expression in order of first appearance. -/
def freeSymbols (e : Expr) : List Expr := collect [] [e]

/-- The elements of an array symbol, row-major. -/
def elements (e : Expr) : List Expr :=
  (Shape.indexPositions e.label.shape).map fun p => symbol e.label.name p

def scalars (e : Expr) : List Expr :=
  if e.kind = .array then e.elements else [e]

/-- The scalar symbols of an expression in order of first appearance. -/
def scalarLeaves (e : Expr) : List Expr :=
  (e.freeSymbols.flatMap scalars).eraseDups

end NamedSlots.Expr
