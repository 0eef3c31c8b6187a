import Mathlib.Tactic.Lemma
import NamedSlots.Expr.Leaves

/-!
# The walk through an expression

The leaves of an expression are its symbols from left to right, by recursion on the tree. The walk
that keeps a stack of nodes meets the leaves of the nodes on its stack, one node after the other,
so that it collects the leaves of the expression without repeats.
-/

namespace NamedSlots.Expr

mutual

/-- The symbols of an expression from left to right, repeats included. -/
def leaves : Expr → List Expr
  | node .symbol cs l => [node .symbol cs l]
  | node .array cs l => [node .array cs l]
  | node _ cs _ => leavesOfAll cs

def leavesOfAll : List Expr → List Expr
  | [] => []
  | c :: cs => leaves c ++ leavesOfAll cs

end

lemma leavesOfAll_eq (cs : List Expr) : leavesOfAll cs = cs.flatMap leaves := by
  induction cs with
  | nil => rfl
  | cons c cs ih => rw [leavesOfAll, ih, List.flatMap_cons]

/-- A leaf is a node of its own; the leaves of any other node are those of its children. -/
lemma leaves_node (k : Kind) (cs : List Expr) (l : Label) :
    leaves (node k cs l) =
      if k = .symbol ∨ k = .array then [node k cs l] else cs.flatMap leaves := by
  cases k <;> simp [leaves, leavesOfAll_eq]

/-- A noted expression stands before what is new in a list after it. -/
lemma note_append (seen : List Expr) (e : Expr) (es : List Expr) :
    (note seen e).reverse ++ (es.filter fun s => !(note seen e).contains s).eraseDups =
      seen.reverse ++ ((e :: es).filter fun s => !seen.contains s).eraseDups := by
  unfold note
  split
  · rename_i hseen
    rw [List.filter_cons_of_neg (by simpa using hseen)]
  · rename_i hnew
    rw [List.filter_cons_of_pos (by simpa using hnew), List.eraseDups_cons, List.filter_filter,
      List.reverse_cons, List.append_assoc, List.singleton_append]
    simp only [List.contains_cons, Bool.not_or]

/-- The walk adds to the symbols seen what is new among the leaves of the nodes on its stack. -/
lemma collect_eq (seen stack : List Expr) :
    collect seen stack =
      seen.reverse ++ ((stack.flatMap leaves).filter fun s => !seen.contains s).eraseDups := by
  fun_induction collect seen stack with
  | case1 seen => exact (List.append_nil _).symm
  | case2 seen k cs l rest hk ih =>
    rw [ih, note_append, List.flatMap_cons, leaves_node, if_pos hk, List.singleton_append]
  | case3 seen k cs l rest hk ih =>
    rw [ih, List.flatMap_append, List.flatMap_cons, leaves_node, if_neg hk]

theorem freeSymbols_eq (e : Expr) : e.freeSymbols = e.leaves.eraseDups := by
  have hnew : (e.leaves.filter fun s => !List.contains [] s) = e.leaves :=
    List.filter_eq_self.2 fun _ _ => rfl
  rw [freeSymbols, collect_eq, List.flatMap_singleton, hnew]
  rfl

end NamedSlots.Expr
