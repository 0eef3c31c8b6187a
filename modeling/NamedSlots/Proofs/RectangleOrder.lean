import Mathlib.Data.List.Forall2
import Mathlib.Data.Multiset.Bind
import NamedSlots.Graph.Rectangle

/-!
# The order of the items of a rectangle

The items of a rectangle are listed row by row. Row by row they make up its rows; column by column
they come in another order, unless there is only one row or one column.
-/

namespace NamedSlots.Graph.Rectangle

variable {α β : Type} {a b m : Rectangle α} {x y : α}

/-- There is an item for each row and column. -/
def IsFull (m : Rectangle α) : Prop := m.items.length = m.rows * m.columns

lemma single?_eq_some_iff : m.single? = some x ↔ m = .single x := by
  constructor
  · intro h
    obtain ⟨rows, columns, items⟩ := m
    unfold single? at h
    split at h
    · rename_i hrows hcolumns hitems
      cases hrows
      cases hcolumns
      cases hitems
      cases h
      rfl
    · cases h
  · rintro rfl
    rfl

lemma exists_single (hrows : m.rows = 1) (hcolumns : m.columns = 1) (hm : m.IsFull) :
    ∃ x, m = .single x := by
  obtain ⟨rows, columns, items⟩ := m
  cases hrows
  cases hcolumns
  obtain ⟨x, rfl⟩ := List.length_eq_one_iff.1 hm
  exact ⟨x, rfl⟩

/-! ### Item by item -/

section Combine

variable (f : Nat → α → α → β)

lemma combine?_single_left :
    (single x).combine? f b = some (b.mapWithPlace fun i y => f i x y) := rfl

lemma combine?_single_right :
    a.combine? f (single y) = some (a.mapWithPlace fun i x => f i x y) := by
  cases ha : a.single? with
  | none =>
    unfold combine?
    rw [ha]
    rfl
  | some x =>
    cases single?_eq_some_iff.1 ha
    rfl

/-- Rectangles with the same sides are combined item by item. -/
lemma combine?_of_sides (hrows : a.rows = b.rows) (hcolumns : a.columns = b.columns)
    (ha : a.IsFull) (hb : b.IsFull) :
    a.combine? f b =
      some ⟨a.rows, a.columns, (a.items.zip b.items).mapIdx fun i (x, y) => f i x y⟩ := by
  have hsides {x : α} {c d : Rectangle α} (hc : c.single? = some x) (hr : c.rows = d.rows)
      (hcol : c.columns = d.columns) (hd : d.IsFull) : ∃ y, d = .single y := by
    cases single?_eq_some_iff.1 hc
    exact exists_single hr.symm hcol.symm hd
  cases hsingle : a.single? with
  | some x =>
    obtain ⟨y, rfl⟩ := hsides hsingle hrows hcolumns hb
    cases single?_eq_some_iff.1 hsingle
    rfl
  | none =>
    cases hsingle' : b.single? with
    | some y =>
      obtain ⟨x, rfl⟩ := hsides hsingle' hrows.symm hcolumns.symm ha
      cases hsingle
    | none =>
      unfold combine?
      rw [hsingle, hsingle']
      dsimp only
      rw [if_pos ⟨hrows, hcolumns⟩]
      rfl

end Combine

/-! ### Rows and columns -/

lemma filterMap_range_getElem? (xs : List α) (n : Nat) :
    (List.range n).filterMap (fun i => xs[i]?) = xs.take n := by
  induction n with
  | zero => rfl
  | succ n ih =>
    rw [List.range_succ, List.filterMap_append, ih, List.take_add_one]
    rfl

lemma row_eq (i : Nat) : m.row i = (m.items.drop (i * m.columns)).take m.columns := by
  rw [← filterMap_range_getElem?]
  simp only [List.getElem?_drop]
  rfl

/-- Rows one after the other are the items. -/
lemma flatten_rowList (hm : m.IsFull) : m.rowList.flatten = m.items := by
  have htake (n : Nat) : ((List.range n).map m.row).flatten = m.items.take (n * m.columns) := by
    induction n with
    | zero => rw [Nat.zero_mul]; rfl
    | succ n ih =>
      rw [List.range_succ, List.map_append, List.flatten_append, ih, Nat.succ_mul, List.take_add,
        ← row_eq]
      simp
  rw [rowList, htake, ← hm, List.take_length]

lemma flatMap_filterMap_comm {ι κ : Type} (f : ι → κ → Option α) (xs : List ι) (ys : List κ) :
    (ys.flatMap fun j => xs.filterMap fun i => f i j).Perm
      (xs.flatMap fun i => ys.filterMap fun j => f i j) := by
  simp only [List.filterMap_eq_flatMap_toList]
  refine Multiset.coe_eq_coe.1 ?_
  simp only [← Multiset.coe_bind]
  exact Multiset.bind_bind _ _

/-- Column by column, the items come in another order. -/
theorem byColumns_perm (hm : m.IsFull) : m.byColumns.Perm m.items := by
  rw [← flatten_rowList hm, rowList, ← List.flatMap_def]
  exact flatMap_filterMap_comm m.at? _ _

lemma byColumns_of_one_column (hcolumns : m.columns = 1) (hm : m.IsFull) :
    m.byColumns = m.items := by
  have htake : m.items = m.items.take m.rows := by
    rw [List.take_of_length_le]
    rw [hm, hcolumns, Nat.mul_one]
  rw [htake, ← filterMap_range_getElem?]
  simp [byColumns, at?, hcolumns]

lemma byColumns_of_one_row (hrows : m.rows = 1) (hm : m.IsFull) : m.byColumns = m.items := by
  have htake : m.items = m.items.take m.columns := by
    rw [List.take_of_length_le]
    rw [hm, hrows, Nat.one_mul]
  rw [htake, ← filterMap_range_getElem?, List.filterMap_eq_flatMap_toList]
  simp [byColumns, at?, hrows, List.filterMap_eq_flatMap_toList]

/-- The second item column by column is the first of the second row, if there are two rows. -/
lemma getElem?_one_byColumns {r c : Nat} (hrows : m.rows = r + 2) (hcolumns : m.columns = c + 1)
    (hm : m.IsFull) : m.byColumns[1]? = m.items[c + 1]? := by
  have hlength : 2 * (c + 1) ≤ m.items.length := by
    rw [hm, hrows, hcolumns]
    exact Nat.mul_le_mul_right _ (Nat.le_add_left 2 r)
  have hfirst : 0 < m.items.length := by omega
  have hsecond : c + 1 < m.items.length := by omega
  unfold byColumns at?
  rw [hrows, hcolumns]
  simp only [List.range_succ_eq_map]
  simp [hfirst, hsecond]

/-! ### Related items -/

section Related

variable {P : α → β → Prop} {xs : List α} {ys : List β}

lemma rel_getElem? (h : List.Forall₂ P xs ys) (i : Nat) : Option.Rel P xs[i]? ys[i]? := by
  induction h generalizing i with
  | nil => exact .none
  | cons hxy _ ih =>
    cases i with
    | zero => exact .some hxy
    | succ i => exact ih i

lemma forall₂_eq (xs : List α) : List.Forall₂ (· = ·) xs xs :=
  List.forall₂_same.2 fun _ _ => rfl

variable (rows columns : Nat)

lemma forall₂_rowList (h : List.Forall₂ P xs ys) :
    List.Forall₂ (List.Forall₂ P) (mk rows columns xs).rowList (mk rows columns ys).rowList := by
  refine List.rel_map (fun i i' hi => ?_) (forall₂_eq _)
  subst hi
  exact List.rel_filterMap (fun j j' hj => hj ▸ rel_getElem? h _) (forall₂_eq _)

lemma forall₂_byColumns (h : List.Forall₂ P xs ys) :
    List.Forall₂ P (mk rows columns xs).byColumns (mk rows columns ys).byColumns := by
  refine List.rel_flatMap (forall₂_eq _) fun j j' hj => ?_
  subst hj
  exact List.rel_filterMap (fun i i' hi => hi ▸ rel_getElem? h _) (forall₂_eq _)

lemma byColumns_map (g : α → β) (xs : List α) :
    (mk rows columns (xs.map g)).byColumns = (mk rows columns xs).byColumns.map g := by
  have hitems : List.Forall₂ (fun y x => y = g x) (xs.map g) xs :=
    List.forall₂_map_left_iff.2 (List.forall₂_same.2 fun _ _ => rfl)
  rw [← List.forall₂_eq_eq_eq]
  exact List.forall₂_map_right_iff.2 (forall₂_byColumns rows columns hitems)

/-- Pairs column by column are the columns of the pairs. -/
lemma zip_byColumns (hlength : xs.length = ys.length) :
    (mk rows columns xs).byColumns.zip (mk rows columns ys).byColumns =
      (mk rows columns (xs.zip ys)).byColumns := by
  have hfirst : (mk rows columns xs).byColumns =
      (mk rows columns (xs.zip ys)).byColumns.map Prod.fst := by
    rw [← byColumns_map, List.map_fst_zip hlength.le]
  have hsecond : (mk rows columns ys).byColumns =
      (mk rows columns (xs.zip ys)).byColumns.map Prod.snd := by
    rw [← byColumns_map, List.map_snd_zip hlength.ge]
  rw [hfirst, hsecond, List.zip_map']
  exact List.map_id _

end Related
end NamedSlots.Graph.Rectangle
