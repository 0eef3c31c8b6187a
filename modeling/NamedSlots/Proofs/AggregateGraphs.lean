import Mathlib.Algebra.Order.BigOperators.Group.List
import NamedSlots.Proofs.ArrayLowering
import NamedSlots.Proofs.ExactSimplification

/-!
# Aggregates of graphs

Graphs of sums, products and norms run over the items of a sheet row by row or column by column,
which makes no difference to a sum or a product of real numbers. An inner product pairs the items
of two sheets column by column. The pairs are those of the items row by row if the two have the same
sides, or one row or one column each; otherwise there are items that are paired differently.
-/

namespace NamedSlots

open NamedSlots.Graph

/-! ### Items column by column -/

namespace Shape

variable {α β : Type} {s t : List Nat}

/-- The items of an array, column by column in the rectangle that it is lowered to. -/
def byColumns (s : List Nat) (xs : List α) : List α :=
  (Rectangle.mk (sides s).1 (sides s).2 xs).byColumns

/-- There is one row or one column. -/
def IsFlat (s : List Nat) : Prop := (sides s).1 = 1 ∨ (sides s).2 = 1

instance (s : List Nat) : Decidable (IsFlat s) :=
  inferInstanceAs (Decidable ((sides s).1 = 1 ∨ (sides s).2 = 1))

variable {xs : List α} {ys : List β}

lemma isFull_sides (hxs : xs.length = size s) :
    (Rectangle.mk (sides s).1 (sides s).2 xs).IsFull :=
  hxs.trans (sides_mul s).symm

lemma byColumns_perm (hxs : xs.length = size s) : (byColumns s xs).Perm xs :=
  Rectangle.byColumns_perm (isFull_sides hxs)

lemma byColumns_of_isFlat (hs : IsFlat s) (hxs : xs.length = size s) : byColumns s xs = xs := by
  rcases hs with hs | hs
  · exact Rectangle.byColumns_of_one_row hs (isFull_sides hxs)
  · exact Rectangle.byColumns_of_one_column hs (isFull_sides hxs)

/-- Pairs column by column are the pairs row by row in another order. -/
lemma zip_byColumns_perm (hxs : xs.length = size s) (hys : ys.length = size s) :
    ((byColumns s xs).zip (byColumns s ys)).Perm (xs.zip ys) := by
  unfold byColumns
  rw [Rectangle.zip_byColumns _ _ (hxs.trans hys.symm)]
  refine Rectangle.byColumns_perm (isFull_sides ?_)
  rw [List.length_zip, hxs, hys, min_self]

/-- Where the second item column by column stands row by row. -/
def secondByColumns (s : List Nat) : Nat := if (sides s).1 = 1 then 1 else (sides s).2

lemma getElem?_one_byColumns (hxs : xs.length = size s) (hsize : 1 < size s) :
    (byColumns s xs)[1]? = xs[secondByColumns s]? := by
  unfold secondByColumns
  split
  · rename_i hrows
    rw [byColumns_of_isFlat (.inl hrows) hxs]
  · rename_i hrows
    have hsides := sides_mul s
    obtain ⟨hrowspos, hcolumnspos⟩ : 0 < (sides s).1 ∧ 0 < (sides s).2 :=
      CanonicallyOrderedAdd.mul_pos.1 (by omega)
    have hrows' : (sides s).1 = (sides s).1 - 2 + 2 := by omega
    have hcolumns' : (sides s).2 = (sides s).2 - 1 + 1 := by omega
    rw [byColumns, Rectangle.getElem?_one_byColumns hrows' hcolumns' (isFull_sides hxs),
      ← hcolumns']

lemma exists_second (hxs : xs.length = size s) (hsize : 1 < size s) :
    ∃ x, xs[secondByColumns s]? = some x := by
  have hlength : 1 < (byColumns s xs).length := by
    rw [(byColumns_perm hxs).length_eq, hxs]
    exact hsize
  exact ⟨_, (getElem?_one_byColumns hxs hsize).symm.trans (List.getElem?_eq_getElem hlength)⟩

lemma secondByColumns_of_isFlat (hs : IsFlat s) : secondByColumns s = 1 := by
  unfold secondByColumns
  split
  · rfl
  · rename_i hrows
    exact hs.resolve_left hrows

lemma eq_sides_of_not_isFlat (hs : ¬ IsFlat s) : s = [(sides s).1, (sides s).2] := by
  unfold sides
  split
  · rfl
  · rename_i hshape
    refine absurd (.inr ?_) hs
    unfold sides
    split
    · exact absurd rfl (hshape _ _)
    · rfl

lemma isFlat_of_size_le_one (hs : ∀ d ∈ s, 0 < d) (hsize : size s ≤ 1) : IsFlat s := by
  by_contra hflat
  have hrows : (sides s).1 ≠ 1 := fun h => hflat (.inl h)
  have hcolumns : (sides s).2 ≠ 1 := fun h => hflat (.inr h)
  have hrowspos : 0 < (sides s).1 := hs _ (by
    rw [eq_sides_of_not_isFlat hflat]
    exact List.mem_cons_self)
  have hcolumnspos : 0 < (sides s).2 := hs _ (by
    rw [eq_sides_of_not_isFlat hflat]
    exact List.mem_cons_of_mem _ List.mem_cons_self)
  have hmul : 2 * 2 ≤ (sides s).1 * (sides s).2 := Nat.mul_le_mul (by omega) (by omega)
  rw [sides_mul] at hmul
  omega

/-- Shapes of one size agree on the second item only if they are equal or both are flat. -/
lemma eq_or_isFlat_of_second (hs : ∀ d ∈ s, 0 < d) (hsize : size s = size t)
    (h : secondByColumns s = secondByColumns t) : s = t ∨ IsFlat s ∧ IsFlat t := by
  have hsecond {u : List Nat} (hu : ¬ IsFlat u) : secondByColumns u = (sides u).2 :=
    if_neg fun hrows => hu (.inl hrows)
  by_cases hflat : IsFlat s
  · refine .inr ⟨hflat, by_contra fun hflat' => hflat' (.inr ?_)⟩
    rw [← hsecond hflat', ← h, secondByColumns_of_isFlat hflat]
  · have hflat' : ¬ IsFlat t := fun hflat' => hflat <| .inr <| by
      rw [← hsecond hflat, h, secondByColumns_of_isFlat hflat']
    have hcolumns : (sides s).2 = (sides t).2 := by rw [← hsecond hflat, h, hsecond hflat']
    have hpos : 0 < (sides s).2 := by
      refine hs _ ?_
      rw [eq_sides_of_not_isFlat hflat]
      exact List.mem_cons_of_mem _ List.mem_cons_self
    have hrows : (sides s).1 = (sides t).1 := by
      refine Nat.eq_of_mul_eq_mul_right hpos ?_
      rw [sides_mul, hcolumns, sides_mul, hsize]
    left
    rw [eq_sides_of_not_isFlat hflat, eq_sides_of_not_isFlat hflat', hrows, hcolumns]

end Shape

/-! ### Inner products of real numbers -/

namespace Shape

variable {s t : List Nat} {xs ys : List ℝ}

/-- Shapes that are equal, or one row or column each, pair items in the same way. -/
lemma sum_byColumns_eq (hxs : xs.length = size s) (hys : ys.length = size t)
    (h : s = t ∨ IsFlat s ∧ IsFlat t) :
    (List.zipWith (· * ·) (byColumns s xs) (byColumns t ys)).sum =
      (List.zipWith (· * ·) xs ys).sum := by
  rcases h with rfl | ⟨hs, ht⟩
  · simp only [← List.map_uncurry_zip_eq_zipWith]
    exact ((zip_byColumns_perm hxs hys).map _).sum_eq
  · rw [byColumns_of_isFlat hs hxs, byColumns_of_isFlat ht hys]

/-- One item is 1, all others are 0. -/
def IsUnit (i : Nat) (xs : List ℝ) : Prop :=
  xs[i]? = some 1 ∧ ∀ k x, k ≠ i → xs[k]? = some x → x = 0

lemma IsUnit.nonneg {i : Nat} (h : IsUnit i xs) {x : ℝ} (hx : x ∈ xs) : 0 ≤ x := by
  obtain ⟨k, hk⟩ := List.mem_iff_getElem?.1 hx
  by_cases hki : k = i
  · rw [hki, h.1] at hk
    exact Option.some.inj hk ▸ zero_le_one
  · exact (h.2 k x hki hk).ge

/-- Where the second items column by column stand at different places, items that are 1 there and 0
elsewhere are paired column by column, but not row by row. -/
lemma sum_byColumns_ne (hne : secondByColumns s ≠ secondByColumns t) (hsize : size s = size t)
    (hone : 1 < size s) (hxs : xs.length = size s) (hys : ys.length = size t)
    (hx : IsUnit (secondByColumns s) xs) (hy : IsUnit (secondByColumns t) ys) :
    (List.zipWith (· * ·) (byColumns s xs) (byColumns t ys)).sum ≠
      (List.zipWith (· * ·) xs ys).sum := by
  have hrows : (List.zipWith (· * ·) xs ys).sum = 0 := by
    refine List.sum_eq_zero fun z hz => ?_
    obtain ⟨k, hk⟩ := List.mem_iff_getElem?.1 hz
    obtain ⟨x, y, hxk, hyk, rfl⟩ := List.getElem?_zipWith_eq_some.1 hk
    by_cases hki : k = secondByColumns s
    · rw [hy.2 k y (hki ▸ hne) hyk, mul_zero]
    · rw [hx.2 k x hki hxk, zero_mul]
  have hnonneg (z : ℝ) (hz : z ∈ List.zipWith (· * ·) (byColumns s xs) (byColumns t ys)) :
      0 ≤ z := by
    obtain ⟨k, hk⟩ := List.mem_iff_getElem?.1 hz
    obtain ⟨x, y, hxk, hyk, rfl⟩ := List.getElem?_zipWith_eq_some.1 hk
    exact mul_nonneg (hx.nonneg ((byColumns_perm hxs).subset (List.mem_of_getElem? hxk)))
      (hy.nonneg ((byColumns_perm hys).subset (List.mem_of_getElem? hyk)))
  have hsecond : (1 : ℝ) ∈ List.zipWith (· * ·) (byColumns s xs) (byColumns t ys) := by
    refine List.mem_iff_getElem?.2 ⟨1, List.getElem?_zipWith_eq_some.2 ⟨1, 1, ?_, ?_, mul_one 1⟩⟩
    · rw [getElem?_one_byColumns hxs hone, hx.1]
    · rw [getElem?_one_byColumns hys (hsize ▸ hone), hy.1]
  rw [hrows]
  exact (zero_lt_one.trans_le (List.single_le_sum hnonneg 1 hsecond)).ne'

end Shape

/-! ### Graphs of aggregates -/

namespace Graph.Sheet

variable {inputs : Nat → Option ℝ} {place : Place} {m k : Sheet (Option ℝ)} {rs ss : List ℝ}

lemma has_fold {op : BinaryNode} {g : ℝ → ℝ → ℝ} (hop : op ≠ .ifElseZero)
    (hg : ∀ s t, op.onReals s t = some (g s t)) {xs : List (Node (Option ℝ))} {start : Int}
    (h : List.Forall₂ (Node.Has inputs) xs rs) :
    (fold .exact place op start xs).Has inputs (rs.foldl g start) := by
  have hfrom {total : Node (Option ℝ)} {r : ℝ} (i : Nat) (htotal : total.Has inputs r) :
      (xs.foldl (fun (total, i) x =>
        (total.applyBinary .exact (itemPlace place i) op x, i + 1)) (total, i)).1.Has inputs
        (rs.foldl g r) := by
    induction h generalizing total r i with
    | nil => exact htotal
    | cons hx _ ih => exact ih (i + 1) (Node.has_applyBinary hop htotal hx (hg _ _))
  exact hfrom 0 (Node.has_ofInt.2 rfl)

lemma has_fold_add {xs : List (Node (Option ℝ))} (h : List.Forall₂ (Node.Has inputs) xs rs) :
    (fold .exact place .add 0 xs).Has inputs rs.sum := by
  have hfold : (fold .exact place .add 0 xs).Has inputs (rs.foldl (· + ·) ((0 : ℤ) : ℝ)) :=
    has_fold (nofun : BinaryNode.add ≠ .ifElseZero) (fun _ _ => rfl) h
  rwa [Int.cast_zero, ← List.sum_eq_foldl] at hfold

section Aggregates

variable (hm : m.IsFull) (h : List.Forall₂ (Node.Has inputs) m.items rs)
include hm h

lemma has_sum : (Sheet.sum .exact place m).Has inputs rs.sum := by
  have hfull : (Rectangle.mk m.rows m.columns rs).IsFull := h.length_eq.symm.trans hm
  have hrows := Rectangle.forall₂_rowList m.rows m.columns h
  have hsums : List.Forall₂ (Node.Has inputs)
      (m.rowList.mapIdx fun i row => fold .exact (itemPlace place i) .add 0 row)
      ((Rectangle.mk m.rows m.columns rs).rowList.map List.sum) := by
    refine forall₂_mapIdx (fun i _ _ hrow => ?_) hrows
    exact has_fold_add hrow
  have htotal : (Sheet.sum .exact place m).Has inputs _ := has_fold_add hsums
  rwa [← List.sum_flatten, Rectangle.flatten_rowList hfull] at htotal

lemma has_prod : (fold .exact place .mul 1 m.byColumns).Has inputs rs.prod := by
  have hfull : (Rectangle.mk m.rows m.columns rs).IsFull := h.length_eq.symm.trans hm
  have hfold : (fold .exact place .mul 1 m.byColumns).Has inputs
      ((Rectangle.mk m.rows m.columns rs).byColumns.foldl (· * ·) ((1 : ℤ) : ℝ)) :=
    has_fold (nofun : BinaryNode.mul ≠ .ifElseZero) (fun _ _ => rfl)
      (Rectangle.forall₂_byColumns m.rows m.columns h)
  rwa [Int.cast_one, ← List.prod_eq_foldl, (Rectangle.byColumns_perm hfull).prod_eq] at hfold

end Aggregates

/-- Items are paired column by column. -/
lemma has_dot {n : Node (Option ℝ)} (hn : dot .exact place m k = .ok n)
    (h : List.Forall₂ (Node.Has inputs) m.items rs)
    (h' : List.Forall₂ (Node.Has inputs) k.items ss) :
    n.Has inputs (List.zipWith (· * ·) (Rectangle.mk m.rows m.columns rs).byColumns
      (Rectangle.mk k.rows k.columns ss).byColumns).sum := by
  have hpairs := forall₂_zip
    (Rectangle.forall₂_byColumns m.rows m.columns h)
    (Rectangle.forall₂_byColumns k.rows k.columns h')
  have hproducts : List.Forall₂ (Node.Has inputs)
      ((m.byColumns.zip k.byColumns).mapIdx fun i (x, y) =>
        x.applyBinary .exact (itemPlace place i) .mul y)
      (((Rectangle.mk m.rows m.columns rs).byColumns.zip
        (Rectangle.mk k.rows k.columns ss).byColumns).map fun p => p.1 * p.2) :=
    forall₂_mapIdx (fun _ _ _ hp =>
      Node.has_applyBinary (nofun : BinaryNode.mul ≠ .ifElseZero) hp.1 hp.2 rfl) hpairs
  unfold dot at hn
  dsimp only at hn
  split at hn
  · cases hn
    rw [← List.map_uncurry_zip_eq_zipWith]
    exact has_fold_add hproducts
  · cases hn

/-- Sheets of equally many items have an inner product, and a sheet has every aggregate. -/
lemma exists_dot {K : Type} (arith : Arithmetic K) {m k : Sheet K} (hm : m.IsFull) (hk : k.IsFull)
    (hlength : m.items.length = k.items.length) : ∃ n, dot arith place m k = .ok n := by
  have hcount : m.byColumns.length = k.byColumns.length := by
    rw [(Rectangle.byColumns_perm hm).length_eq, (Rectangle.byColumns_perm hk).length_eq, hlength]
  exact ⟨_, if_pos hcount⟩

lemma exists_aggregate {K : Type} (arith : Arithmetic K) {op : UnaryOp}
    (hop : op.isAggregate = true) {m : Sheet K} (hm : m.IsFull) :
    ∃ n, unary arith place op m = .ok (.single n) := by
  cases op
  case sum | prod => exact ⟨_, rfl⟩
  case norm =>
    obtain ⟨n, hn⟩ : ∃ n, dot arith (operandPlace place 0) m m = .ok n :=
      exists_dot arith hm hm rfl
    refine ⟨n.applyUnary arith place .sqrt, ?_⟩
    rw [unary, hn]
    rfl
  all_goals exact absurd hop Bool.false_ne_true

end Graph.Sheet
end NamedSlots
