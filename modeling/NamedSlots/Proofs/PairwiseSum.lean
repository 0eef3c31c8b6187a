import Mathlib.Algebra.BigOperators.Group.List.Basic
import Mathlib.Data.Real.Basic
import Mathlib.Tactic.Ring
import NamedSlots.Number.Summation

/-!
# Pairwise sums over any numbers

The interpreter adds the items of an array in halves, in blocks of eight accumulators, and one after
the other. The same order of additions makes sense for numbers of any type. Over floating numbers it
is the sum that runs, and over the real numbers it is the sum.
-/

namespace NamedSlots

/-- What sums of numbers are made of. -/
structure Addition (R : Type) where
  /-- Where a sum of few numbers starts. -/
  start : R
  add : R → R → R

namespace Addition

variable {R : Type} (a : Addition R)

def inOrder (xs : List R) : R := xs.foldl a.add a.start

/-- Eight accumulators are added as a balanced tree. -/
def tree : List R → R
  | [s, t, u, v, w, x, y, z] =>
    a.add (a.add (a.add s t) (a.add u v)) (a.add (a.add w x) (a.add y z))
  | acc => a.inOrder acc

/-- Adds rows of eight to the accumulators; the last rows are added to their total. -/
def rows : Nat → List R → List R → R
  | 0, acc, rest | 1, acc, rest => rest.foldl a.add (a.tree acc)
  | n + 2, acc, rest => rows (n + 1) (List.zipWith a.add acc (rest.take 8)) (rest.drop 8)

def block (xs : List R) : R := a.rows (xs.length / 8) (xs.take 8) (xs.drop 8)

def pairwise : (depth : Nat) → List R → R
  | 0, xs => a.inOrder xs
  | depth + 1, xs =>
    if xs.length < 8 then a.inOrder xs
    else if xs.length ≤ 128 then a.block xs
    else
      let half := xs.length / 2
      let cut := half - half % 8
      a.add (pairwise depth (xs.take cut)) (pairwise depth (xs.drop cut))

/-- The sum of numbers in the order of the interpreter. -/
def sum (xs : List R) : R := a.pairwise xs.length xs

/-! ### Floating numbers -/

/-- Sums that run start from the negative zero. -/
def float (add : Float → Float → Float) : Addition Float := ⟨-0.0, add⟩

section Float

variable (add : Float → Float → Float)

lemma foldl_tree_float (acc rest : List Float) :
    rest.foldl add ((float add).tree acc) =
      match acc with
      | [s, t, u, v, w, x, y, z] =>
        rest.foldl add (add (add (add s t) (add u v)) (add (add w x) (add y z)))
      | _ => rest.foldl add (Number.sumInOrder add acc) := by
  unfold tree
  split
  · rfl
  · rename_i hlength
    split
    · exact absurd rfl (hlength _ _ _ _ _ _ _ _)
    · rfl

lemma rows_float (n : Nat) (acc rest : List Float) :
    (float add).rows n acc rest = Number.sumBlock.go add n acc rest := by
  induction n using Nat.twoStepInduction generalizing acc rest with
  | zero => exact foldl_tree_float add acc rest
  | one => exact foldl_tree_float add acc rest
  | more n _ ih => exact ih _ _

lemma pairwise_float (depth : Nat) (xs : List Float) :
    (float add).pairwise depth xs = Number.sumPairwise add depth xs := by
  induction depth generalizing xs with
  | zero => rfl
  | succ depth ih =>
    unfold pairwise Number.sumPairwise
    simp only [ih, block, rows_float]
    rfl

/-- Over floating numbers this is the sum that runs. -/
theorem sum_float (xs : List Float) : (float add).sum xs = Number.sum add xs :=
  pairwise_float add xs.length xs

end Float

/-! ### Real numbers -/

noncomputable def exact : Addition ℝ := ⟨0, (· + ·)⟩

lemma foldl_exact (x : ℝ) (xs : List ℝ) : xs.foldl exact.add x = x + xs.sum := by
  induction xs generalizing x with
  | nil => exact (add_zero x).symm
  | cons y ys ih =>
    rw [List.foldl_cons, ih, List.sum_cons, ← add_assoc]
    rfl

lemma inOrder_exact (xs : List ℝ) : exact.inOrder xs = xs.sum :=
  (foldl_exact 0 xs).trans (zero_add _)

lemma tree_exact (acc : List ℝ) : exact.tree acc = acc.sum := by
  unfold tree
  split
  · simp only [exact, List.sum_cons, List.sum_nil]
    ring
  · exact inOrder_exact acc

/-- Rows that are added to the accumulators are not lost, as long as there are whole rows. -/
lemma rows_exact {n : Nat} {acc rest : List ℝ} (hacc : 2 ≤ n → acc.length = 8)
    (hrest : 8 * (n - 1) ≤ rest.length) : exact.rows n acc rest = acc.sum + rest.sum := by
  induction n using Nat.twoStepInduction generalizing acc rest with
  | zero | one => rw [rows, foldl_exact, tree_exact]
  | more n _ ih =>
    have hlength : acc.length = (rest.take 8).length := by
      rw [hacc (Nat.le_add_left 2 n), List.length_take]
      omega
    have hsum : (List.zipWith exact.add acc (rest.take 8)).sum = acc.sum + (rest.take 8).sum :=
      (List.sum_add_sum_eq_sum_zipWith_of_length_eq acc (rest.take 8) hlength).symm
    rw [rows, ih]
    · rw [hsum, add_assoc, List.sum_take_add_sum_drop]
    · intro _
      rw [List.length_zipWith, ← hlength, min_self]
      exact hacc (Nat.le_add_left 2 n)
    · rw [List.length_drop]
      omega

lemma block_exact {xs : List ℝ} (hxs : 8 ≤ xs.length) : exact.block xs = xs.sum := by
  rw [block, rows_exact, List.sum_take_add_sum_drop]
  · intro _
    rw [List.length_take]
    omega
  · rw [List.length_drop]
    omega

lemma pairwise_exact (depth : Nat) (xs : List ℝ) : exact.pairwise depth xs = xs.sum := by
  induction depth generalizing xs with
  | zero => exact inOrder_exact xs
  | succ depth ih =>
    unfold pairwise
    split
    · exact inOrder_exact xs
    · rename_i hlong
      split
      · exact block_exact (Nat.le_of_not_lt hlong)
      · simp only [ih]
        exact List.sum_take_add_sum_drop xs _

/-- The order of the additions makes no difference to a sum of real numbers. -/
theorem sum_exact (xs : List ℝ) : exact.sum xs = xs.sum := pairwise_exact xs.length xs

end Addition
end NamedSlots
