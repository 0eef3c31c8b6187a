import NamedSlots.Proofs.ArrayExpansion
import NamedSlots.Proofs.ArrayRun
import NamedSlots.Proofs.RectangleOrder
import NamedSlots.Proofs.ScalarLowering
import NamedSlots.Proofs.SharedLeaves

/-!
# Lowering of arrays

An array symbol is lowered to the rectangle of the graphs of its elements, row by row. Sums,
differences, products and negations of arrays of one shape keep this order: the graphs of an
expression stand where the items of its value stand.
-/

namespace NamedSlots

open NamedSlots.Graph

/-! ### Array symbols -/

namespace Shape

/-- The rows and columns that an array of a shape is lowered to. -/
def sides : List Nat → Nat × Nat
  | [rows, columns] => (rows, columns)
  | s => (size s, 1)

lemma sides_mul (s : List Nat) : (sides s).1 * (sides s).2 = size s := by
  unfold sides
  split
  · rw [size, size, size, Nat.mul_one]
  · exact Nat.mul_one _

end Shape

namespace Graph.Rectangle

variable {α : Type}

lemma foldl_add_length {ι : Type} (is : List ι) (start : Nat) :
    is.foldl (fun n _ => n + 1) start = start + is.length := by
  induction is generalizing start with
  | nil => rfl
  | cons i is ih =>
    rw [List.foldl_cons, ih, List.length_cons]
    omega

lemma sideBySide?_singles (xs : List α) :
    sideBySide? (xs.map single) = some ⟨1, xs.length, xs⟩ := by
  cases xs with
  | nil => rfl
  | cons x xs =>
    have hrows : ((xs.map single).all fun r => r.rows == (single x).rows) = true := by
      simp [single]
    have hcolumns : (single x :: xs.map single).foldl (fun n m => n + m.columns) 0 =
        xs.length + 1 := by
      rw [List.foldl_cons, List.foldl_map]
      exact (foldl_add_length xs 1).trans (Nat.add_comm _ _)
    have hitems : (List.range 1).flatMap (fun i => (single x :: xs.map single).flatMap (row · i)) =
        x :: xs := by
      have hrow : (fun y => (single y).row 0) = fun y : α => [y] := rfl
      rw [← List.map_cons]
      simp only [List.range_one, List.flatMap_singleton, List.flatMap_map, hrow]
      exact List.flatMap_singleton' _
    rw [List.map_cons, sideBySide?, if_pos hrows, hcolumns]
    exact congrArg (fun items => some (Rectangle.mk 1 (xs.length + 1) items)) hitems

lemma stacked?_rows {ι : Type} {is : List ι} (his : is ≠ []) (c : Nat) (g : ι → List α) :
    stacked? (is.map fun i => ⟨1, c, g i⟩) = some ⟨is.length, c, is.flatMap g⟩ := by
  cases is with
  | nil => exact absurd rfl his
  | cons i is =>
    have hcolumns : ((is.map fun i => Rectangle.mk 1 c (g i)).all fun r => r.columns == c) =
        true := by
      simp
    have hrows : (Rectangle.mk 1 c (g i) :: is.map fun i => Rectangle.mk 1 c (g i)).foldl
        (fun n m => n + m.rows) 0 = is.length + 1 := by
      rw [List.foldl_cons, List.foldl_map]
      exact (foldl_add_length is 1).trans (Nat.add_comm _ _)
    have hitems : (Rectangle.mk 1 c (g i) :: is.map fun i => Rectangle.mk 1 c (g i)).flatMap
        items = (i :: is).flatMap g :=
      List.flatMap_map (fun i => Rectangle.mk 1 c (g i)) items (i :: is)
    rw [List.map_cons, stacked?, if_pos hcolumns, hrows, hitems]
    rfl

lemma stacked?_singles (xs : List α) : stacked? (xs.map single) = some (column xs) := by
  cases xs with
  | nil => rfl
  | cons x xs =>
    have h := stacked?_rows (List.cons_ne_nil x xs) 1 fun y => [y]
    rwa [List.flatMap_singleton'] at h

end Graph.Rectangle

namespace Expr

/-- An array symbol with the given dimensions. -/
structure IsArray (S : List Nat) (e : Expr) : Prop where
  kind_eq : e.kind = .array
  shape_eq : e.label.shape = S.map fun (d : Nat) => .int d

namespace IsArray

variable {S : List Nat} {e : Expr} (he : e.IsArray S)
include he

lemma extent_eq : e.label.shape.map Index.extent = S := by
  rw [he.shape_eq, List.map_map]
  exact List.map_id S

/-- The given dimensions are those that so many items take. -/
lemma resolve?_eq : Shape.resolve? (Shape.size S) e.label.shape = some S := by
  have hextent := he.extent_eq
  rw [he.shape_eq] at hextent ⊢
  refine (Shape.resolve?_of_size ?_ ?_ (by rw [hextent])).trans (congrArg some hextent)
  · rintro _ hd
    obtain ⟨n, _, rfl⟩ := List.mem_map.1 hd
    exact Int.natCast_nonneg n
  · rw [Shape.areDimensions, List.all_map]
    exact List.all_eq_true.2 fun _ _ => rfl

lemma occurrences_eq : e.occurrences = e.elements := by
  obtain ⟨kind, cs, l⟩ := e
  cases he.kind_eq
  exact occurrences_array cs l

lemma length_elements : e.elements.length = Shape.size S := by
  unfold elements Shape.indexPositions
  rw [List.length_map, List.length_map, Shape.length_positions, he.extent_eq]

end IsArray

end Expr

section ArraySymbol

variable {K R : Type} {S : List Nat} {e : Expr}

/-- The sheet of an array symbol has the graphs of its elements, row by row. -/
lemma Graph.Sheet.ofElements_eq {leaf : Expr → Except Failure (Sheet K)} (he : e.IsArray S)
    (hpos : ∀ d ∈ S, 0 < d) {node : Expr → Node K}
    (hnode : ∀ x ∈ e.elements, leaf x = .ok (.single (node x))) :
    ofElements leaf e = .ok ⟨(Shape.sides S).1, (Shape.sides S).2, e.elements.map node⟩ := by
  have hlength := he.length_elements
  have hextent := he.extent_eq
  unfold ofElements
  split
  · rename_i rows columns hshape
    rw [hshape] at hextent
    cases hextent
    let item (i j : Nat) : Node K := node (.symbol e.label.name [.int i, .int j])
    have hall := Expr.elements_matrix hshape
    have helements : e.elements.map node =
        (List.range rows.extent).flatMap fun i => (List.range columns.extent).map (item i) := by
      rw [hall, List.map_flatMap]
      simp only [List.map_map]
      rfl
    have hitem {i j : Nat} (hi : i ∈ List.range rows.extent) (hj : j ∈ List.range columns.extent) :
        leaf (.symbol e.label.name [.int i, .int j]) = .ok (.single (item i j)) := by
      refine hnode _ ?_
      rw [hall]
      exact List.mem_flatMap.2 ⟨i, hi, List.mem_map_of_mem hj⟩
    have hrange : List.range rows.extent ≠ [] := by
      rw [ne_eq, List.range_eq_nil]
      exact (hpos _ List.mem_cons_self).ne'
    rw [mapM_ok (g := fun i => ⟨1, columns.extent, (List.range columns.extent).map (item i)⟩)]
    · rw [Except.ok_bind, Rectangle.stacked?_rows hrange, List.length_range, helements]
      rfl
    · intro i hi
      rw [mapM_ok fun j hj => hitem hi hj, Except.ok_bind]
      have hrow : (List.range columns.extent).map (fun j => Rectangle.single (item i j)) =
          ((List.range columns.extent).map (item i)).map .single := by
        rw [List.map_map]
        rfl
      rw [hrow, Rectangle.sideBySide?_singles, List.length_map, List.length_range]
      rfl
  · rename_i hshape
    have hsides : Shape.sides S = (Shape.size S, 1) := by
      unfold Shape.sides
      split
      · rename_i rows columns
        obtain ⟨d, ds, hd, -, hds⟩ := List.map_eq_cons_iff.1 hextent
        obtain ⟨d', ds', rfl, -, hnil⟩ := List.map_eq_cons_iff.1 hds
        exact absurd hd (by rw [List.map_eq_nil_iff.1 hnil]; exact hshape d d')
      · rfl
    have hnodes : e.elements.map (fun x => Rectangle.single (node x)) =
        (e.elements.map node).map .single := by
      rw [List.map_map]
      rfl
    rw [mapM_ok hnode, Except.ok_bind, hnodes, Rectangle.stacked?_singles, hsides]
    change Except.ok (Rectangle.column _) = _
    rw [Rectangle.column, List.length_map, hlength]

/-- An array symbol has the numbers of its elements as items. -/
lemma Expr.IsArray.eval {arith : ArrayArithmetic R}
    {leaf : Expr → Except Failure (Option (ArrayValue R))} (he : e.IsArray S)
    {value : Expr → ArrayValue R} {number : Expr → R}
    (hvalue : ∀ x ∈ e.elements, leaf x = .ok (some (value x)))
    (hnumber : ∀ x ∈ e.elements, (value x).number? = some (number x)) :
    e.eval (.array arith) leaf = .ok (some (.array S (e.elements.map number)
      (by rw [List.length_map, he.length_elements]))) := by
  have hlength := he.length_elements
  have hresolve := he.resolve?_eq
  obtain ⟨kind, cs, l⟩ := e
  cases he.kind_eq
  have hnumbers : ((Expr.node .array cs l).elements.map value).mapM ArrayValue.number? =
      some ((Expr.node .array cs l).elements.map number) := by
    rw [mapM_eq_some_iff, List.forall₂_map_left_iff, List.forall₂_map_right_iff, List.forall₂_same]
    exact hnumber
  have hdims : Shape.resolve? ((Expr.node .array cs l).elements.map number).length l.shape =
      some S := by
    rw [List.length_map, hlength]
    exact hresolve
  rw [Expr.eval, mapM_ok hvalue, Except.ok_bind]
  refine Semantics.array.assemble_eq_ok.2 ⟨(Expr.node .array cs l).elements.map value, ?_, ?_⟩
  · rw [List.map_map]
    rfl
  · unfold ArrayValue.assemble
    rw [hnumbers, Option.bind_eq_bind, Option.bind_some, hdims, Option.bind_eq_bind,
      Option.bind_some, dif_pos]

end ArraySymbol

/-! ### Graphs and numbers -/

lemma forall₂_mapIdx {α β α' β' : Type} {P : α → β → Prop} {Q : α' → β' → Prop} {g : Nat → α → α'}
    {f : β → β'} (hg : ∀ i x y, P x y → Q (g i x) (f y)) {xs : List α} {ys : List β}
    (h : List.Forall₂ P xs ys) : List.Forall₂ Q (xs.mapIdx g) (ys.map f) := by
  induction h generalizing g with
  | nil => exact .nil
  | cons hxy _ ih =>
    rw [List.mapIdx_cons]
    exact .cons (hg 0 _ _ hxy) (ih fun i => hg (i + 1))

lemma forall₂_zip {α β : Type} {P : α → β → Prop} {xs xs' : List α} {ys ys' : List β}
    (h : List.Forall₂ P xs ys) (h' : List.Forall₂ P xs' ys') :
    List.Forall₂ (fun p q => P p.1 q.1 ∧ P p.2 q.2) (xs.zip xs') (ys.zip ys') := by
  induction h generalizing xs' ys' with
  | nil => exact .nil
  | cons hxy _ ih =>
    cases h' with
    | nil => exact .nil
    | cons hxy' h' => exact .cons ⟨hxy, hxy'⟩ (ih h')

/-- A relation of graphs and numbers that holds of constants and that negations, sums, differences
and products keep. -/
structure Tracks {K R : Type} (arith : Arithmetic K) (numbers : ArrayArithmetic R)
    (P : Node K → R → Prop) : Prop where
  constant {x : Float} : (realOf? x).isSome →
    ∃ r, numbers.ofFloat x = some r ∧ P (.constant (arith.kept (arith.ofFloat x))) r
  neg (place : Place) {n : Node K} {r : R} : P n r →
    P (n.applyUnary arith place .neg) (numbers.neg r)
  add (place : Place) {n m : Node K} {r s : R} : P n r → P m s →
    P (n.applyBinary arith place .add m) (numbers.addition.add r s)
  sub (place : Place) {n m : Node K} {r s : R} : P n r → P m s →
    P (n.applyBinary arith place .sub m) (numbers.sub r s)
  mul (place : Place) {n m : Node K} {r s : R} : P n r → P m s →
    P (n.applyBinary arith place .mul m) (numbers.mul r s)

section Tracking

variable {K R : Type} {arith : Arithmetic K} {numbers : ArrayArithmetic R} {P : Node K → R → Prop}
  {m k : Sheet K} {a b : ArrayValue R} {S : List Nat}

/-- A sheet has graphs of the items of a value, row by row. -/
structure Matches (P : Node K → R → Prop) (m : Sheet K) (a : ArrayValue R) : Prop where
  rows_eq : m.rows = (Shape.sides a.shape).1
  columns_eq : m.columns = (Shape.sides a.shape).2
  items : List.Forall₂ P m.items a.items

/-- A leaf has a single graph and a number. -/
def LeafMatches (P : Node K → R → Prop) (leaf : Expr → Except Failure (Sheet K))
    (leaf' : Expr → Except Failure (Option (ArrayValue R))) (s : Expr) : Prop :=
  ∃ n v r, leaf s = .ok (.single n) ∧ leaf' s = .ok (some v) ∧ v.number? = some r ∧ P n r

namespace ArrayValue

/-- A number, or an array of the given shape, which has dimensions. -/
def IsOver (S : List Nat) (a : ArrayValue R) : Prop := a.number?.isSome ∨ a.shape = S ∧ S ≠ []

lemma shape_ofItems (s : List Nat) (xs : List R) (count : xs.length = Shape.size s) :
    (ofItems s xs count).shape = s := by
  unfold ofItems
  split <;> rfl

lemma items_ofItems (s : List Nat) (xs : List R) (count : xs.length = Shape.size s) :
    (ofItems s xs count).items = xs := by
  unfold ofItems
  split <;> rfl

lemma shape_map (f : R → R) (a : ArrayValue R) : (a.map f).shape = a.shape := by
  cases a with
  | array s xs count => exact shape_ofItems _ _ _
  | _ => rfl

lemma items_map (f : R → R) (a : ArrayValue R) : (a.map f).items = a.items.map f := by
  cases a with
  | array s xs count => exact items_ofItems _ _ _
  | _ => rfl

lemma IsOver.map {f : R → R} (ha : a.IsOver S) : (a.map f).IsOver S := by
  cases a with
  | array s xs count =>
    obtain ⟨hs, hS⟩ := ha.resolve_left Bool.false_ne_true
    exact .inr ⟨(shape_map f _).trans hs, hS⟩
  | _ => exact .inl rfl

lemma zip?_number_left {f : R → R → R} {r : R} (ha : a.number? = some r) :
    ∃ c, a.zip? f b = some c ∧ c.shape = b.shape ∧ c.items = b.items.map (f r) ∧
      (b.IsOver S → c.IsOver S) := by
  cases a with
  | array => cases ha
  | plain x | element x =>
    cases ha
    cases b with
    | array t ys count => exact ⟨_, rfl, shape_map _ _, items_map _ _, .map⟩
    | _ => exact ⟨_, rfl, rfl, rfl, fun _ => .inl rfl⟩

lemma zip?_number_right {f : R → R → R} {r : R} (hb : b.number? = some r) :
    ∃ c, a.zip? f b = some c ∧ c.shape = a.shape ∧ c.items = a.items.map (f · r) ∧
      (a.IsOver S → c.IsOver S) := by
  cases b with
  | array => cases hb
  | plain y | element y =>
    cases hb
    cases a with
    | array t ys count => exact ⟨_, rfl, shape_map _ _, items_map _ _, .map⟩
    | _ => exact ⟨_, rfl, rfl, rfl, fun _ => .inl rfl⟩

lemma zip?_array {f : R → R → R} (ha : a.number? = none) (hb : b.number? = none)
    (hshape : a.shape = b.shape) :
    ∃ c, a.zip? f b = some c ∧ c.shape = a.shape ∧
      c.items = (a.items.zip b.items).map fun p => f p.1 p.2 := by
  cases a with
  | array s xs count =>
    cases b with
    | array t ys count' =>
      refine ⟨_, dif_pos hshape, shape_ofItems _ _ _, (items_ofItems _ _ _).trans ?_⟩
      rw [items, items, List.zip, List.map_zipWith]
    | _ => cases hb
  | _ => cases ha

end ArrayValue

namespace Matches

lemma isFull (h : Matches P m a) : m.IsFull := by
  unfold Rectangle.IsFull
  rw [h.items.length_eq, h.rows_eq, h.columns_eq, Shape.sides_mul, a.length_items]

lemma single {n : Node K} {r : R} (hr : a.number? = some r) (hn : P n r) :
    Matches P (.single n) a := by
  cases a <;> cases hr <;> exact ⟨rfl, rfl, .cons hn .nil⟩

lemma exists_single (h : Matches P m a) {r : R} (hr : a.number? = some r) :
    ∃ n, m = .single n ∧ P n r := by
  obtain ⟨rows, columns, items⟩ := m
  obtain ⟨hrows, hcolumns, hitems⟩ := h
  cases a <;> cases hr
  all_goals
    cases hrows
    cases hcolumns
    cases hitems with
    | cons hn hnil =>
      cases hnil
      exact ⟨_, rfl, hn⟩

/-- A graph for each item, made from the graph of the item. -/
lemma mapWithPlace {g : Nat → Node K → Node K} {f : R → R}
    (hg : ∀ i n r, P n r → P (g i n) (f r))
    (h : Matches P m a) {c : ArrayValue R} (hshape : c.shape = a.shape)
    (hitems : c.items = a.items.map f) : Matches P (m.mapWithPlace g) c := by
  refine ⟨hshape ▸ h.rows_eq, hshape ▸ h.columns_eq, ?_⟩
  rw [hitems]
  exact forall₂_mapIdx hg h.items

/-- Numbers and arrays of one shape, and sheets of their graphs, are combined in the same way. -/
lemma combine {g : Nat → Node K → Node K → Node K} {f : R → R → R}
    (hg : ∀ i n j r s, P n r → P j s → P (g i n j) (f r s)) (hm : Matches P m a)
    (hk : Matches P k b) (ha : a.IsOver S) (hb : b.IsOver S) :
    ∃ j c, m.combine? g k = some j ∧ a.zip? f b = some c ∧ Matches P j c ∧ c.IsOver S := by
  cases hr : a.number? with
  | some r =>
    obtain ⟨n, rfl, hn⟩ := hm.exists_single hr
    obtain ⟨c, hc, hshape, hitems, hover⟩ := ArrayValue.zip?_number_left (f := f) (b := b) hr
    exact ⟨_, c, Rectangle.combine?_single_left g, hc,
      hk.mapWithPlace (fun i _ _ => hg i _ _ _ _ hn) hshape hitems, hover hb⟩
  | none =>
    cases hs : b.number? with
    | some s =>
      obtain ⟨n, rfl, hn⟩ := hk.exists_single hs
      obtain ⟨c, hc, hshape, hitems, hover⟩ := ArrayValue.zip?_number_right (f := f) (a := a) hs
      exact ⟨_, c, Rectangle.combine?_single_right g, hc,
        hm.mapWithPlace (fun i _ _ hj => hg i _ _ _ _ hj hn) hshape hitems, hover ha⟩
    | none =>
      obtain ⟨haS, hS⟩ := ha.resolve_left (by rw [hr]; exact Bool.false_ne_true)
      obtain ⟨hbS, -⟩ := hb.resolve_left (by rw [hs]; exact Bool.false_ne_true)
      have hshape := haS.trans hbS.symm
      obtain ⟨c, hc, hcshape, hitems⟩ := ArrayValue.zip?_array (f := f) hr hs hshape
      have hrows : m.rows = k.rows := by rw [hm.rows_eq, hk.rows_eq, hshape]
      have hcolumns : m.columns = k.columns := by rw [hm.columns_eq, hk.columns_eq, hshape]
      refine ⟨_, c, Rectangle.combine?_of_sides g hrows hcolumns hm.isFull hk.isFull, hc, ?_,
        .inr ⟨hcshape.trans haS, hS⟩⟩
      refine ⟨hcshape ▸ hm.rows_eq, hcshape ▸ hm.columns_eq, ?_⟩
      rw [hitems]
      exact forall₂_mapIdx (fun i _ _ h => hg i _ _ _ _ h.1 h.2) (forall₂_zip hm.items hk.items)

end Matches

/-! ### Expressions -/

lemma Tracks.exists_node (hP : Tracks arith numbers P) {op : BinaryOp} {f : R → R → R}
    (hop : numbers.operator? op = some f) :
    ∃ node : BinaryNode,
      (∀ place (x y : Sheet K),
        Sheet.binary arith place op x y = Sheet.mapBinary arith place node x y) ∧
      ∀ place {n j : Node K} {r s : R}, P n r → P j s →
        P (n.applyBinary arith place node j) (f r s) := by
  cases op <;> cases hop
  · exact ⟨.add, fun _ _ _ => rfl, hP.add⟩
  · exact ⟨.sub, fun _ _ _ => rfl, hP.sub⟩
  · exact ⟨.mul, fun _ _ _ => rfl, hP.mul⟩

/-- Sums, differences, products and negations of finite constants, scalar symbols and array symbols
with the given dimensions; without dimensions there are no array symbols. -/
inductive Expr.IsElementwise (S : List Nat) : Expr → Prop
  | symbol {cs l} : IsElementwise S (.node .symbol cs l)
  | array {e} (hrank : S ≠ []) (he : e.IsArray S) : IsElementwise S e
  | constant {cs l x} (hx : l.value = some x) (hfinite : (realOf? x.number).isSome) :
    IsElementwise S (.node .constant cs l)
  | neg {c cs l} (hc : IsElementwise S c) : IsElementwise S (.node (.unary .neg) (c :: cs) l)
  | binary {op c d cs l} (hop : op = .add ∨ op = .sub ∨ op = .mul) (hc : IsElementwise S c)
    (hd : IsElementwise S d) : IsElementwise S (.node (.binary op) (c :: d :: cs) l)

/-- Every definition that an expression leads to is made of negations, sums, differences and
products of scalars. -/
def Layout.DefinesArithmetic (l : Layout) (e : Expr) : Prop :=
  ∀ s d, l.Reached e s → l.definitionOf s.indexedName = some d → d.IsElementwise []

section Lowering

variable {leaf : Expr → Except Failure (Sheet K)}
  {leaf' : Expr → Except Failure (Option (ArrayValue R))}

/-- An array symbol is lowered to graphs of its items. -/
lemma Expr.IsArray.exists_matches [Nonempty R] (arith : Arithmetic K) (numbers : ArrayArithmetic R)
    {e : Expr} (he : e.IsArray S) (hpos : ∀ d ∈ S, 0 < d)
    (hleaf : ∀ s ∈ e.elements, LeafMatches P leaf leaf' s) (place : Place) :
    ∃ m xs count, lower arith leaf place e = .ok m ∧
      e.eval (.array numbers) leaf' = .ok (some (.array S xs count)) ∧
      Matches P m (.array S xs count) := by
  have : Nonempty (Node K) := ⟨.input 0⟩
  have : Nonempty (ArrayValue R) := ⟨.plain (Classical.arbitrary R)⟩
  choose! node value number hnode hvalue hnumber hP using hleaf
  refine ⟨⟨(Shape.sides S).1, (Shape.sides S).2, e.elements.map node⟩, e.elements.map number,
    by rw [List.length_map, he.length_elements], ?_, he.eval hvalue hnumber, rfl, rfl, ?_⟩
  · rw [← Sheet.ofElements_eq he hpos hnode]
    obtain ⟨kind, cs, l⟩ := e
    cases he.kind_eq
    rfl
  · refine List.forall₂_map_left_iff.2 (List.forall₂_map_right_iff.2 (List.forall₂_same.2 ?_))
    exact hP

/-- The graphs of an expression stand where the items of its value stand. -/
theorem Expr.IsElementwise.exists_matches [Nonempty R] (hP : Tracks arith numbers P)
    (hpos : ∀ d ∈ S, 0 < d) {e : Expr} (he : e.IsElementwise S)
    (hleaf : ∀ s ∈ e.occurrences, LeafMatches P leaf leaf' s) (place : Place) :
    ∃ m a, lower arith leaf place e = .ok m ∧ e.eval (.array numbers) leaf' = .ok (some a) ∧
      Matches P m a ∧ a.IsOver S := by
  induction he generalizing place with
  | @symbol cs l =>
    obtain ⟨n, v, r, hn, hv, hr, hP⟩ :=
      hleaf (.node .symbol cs l) (by rw [occurrences_symbol]; exact List.mem_singleton_self _)
    exact ⟨_, v, hn, hv, .single hr hP, .inl (by rw [hr]; rfl)⟩
  | @array e hrank he =>
    have helements : ∀ s ∈ e.elements, LeafMatches P leaf leaf' s := fun s hs =>
      hleaf s (he.occurrences_eq ▸ hs)
    obtain ⟨m, xs, count, hm, ha, hmatches⟩ := he.exists_matches arith numbers hpos helements place
    exact ⟨m, _, hm, ha, hmatches, .inr ⟨rfl, hrank⟩⟩
  | @constant cs l x hx hfinite =>
    obtain ⟨r, hr, hn⟩ := hP.constant hfinite
    have hliteral : ∃ v, ArrayValue.ofLiteral numbers x = some v ∧ v.number? = some r := by
      unfold ArrayValue.ofLiteral
      rw [hr]
      cases x.isElement <;> exact ⟨_, rfl, rfl⟩
    obtain ⟨v, hv, hvr⟩ := hliteral
    refine ⟨_, v, ?_, ?_, .single hvr hn, .inl (by rw [hvr]; rfl)⟩
    · rw [lower, hx]
      rfl
    · rw [eval, hx]
      exact congrArg Except.ok hv
  | @neg c cs l _ ih =>
    obtain ⟨m, a, hm, ha, hmatches, hover⟩ := ih
      (fun s hs => hleaf s (mem_occurrences_unary hs)) (Sheet.operandPlace place 0)
    refine ⟨_, a.map numbers.neg, ?_, ?_,
      hmatches.mapWithPlace (fun i _ _ => hP.neg (Sheet.itemPlace place i))
        (ArrayValue.shape_map _ _) (ArrayValue.items_map _ _), hover.map⟩
    · rw [lower, hm]
      rfl
    · rw [eval, ha]
      exact Semantics.array.unary_eq_ok.2 ⟨a, rfl, rfl⟩
  | @binary op c d cs l hop _ _ ihc ihd =>
    obtain ⟨m, a, hm, ha, hmatches, hover⟩ := ihc
      (fun s hs => hleaf s (mem_occurrences_binary (.inl hs))) (Sheet.operandPlace place 0)
    obtain ⟨k, b, hk, hb, hmatches', hover'⟩ := ihd
      (fun s hs => hleaf s (mem_occurrences_binary (.inr hs))) (Sheet.operandPlace place 1)
    obtain ⟨f, hf, hbinary⟩ : ∃ f, numbers.operator? op = some f ∧
        ∀ a b : ArrayValue R, a.binary numbers op b = a.zip? f b := by
      rcases hop with rfl | rfl | rfl <;> exact ⟨_, rfl, fun _ _ => rfl⟩
    obtain ⟨node, hnode, hkeeps⟩ := hP.exists_node hf
    obtain ⟨j, v, hj, hv, hmatches'', hover''⟩ := hmatches.combine
      (g := fun i x y => x.applyBinary arith (Sheet.itemPlace place i) node y)
      (fun i _ _ _ _ => hkeeps (Sheet.itemPlace place i)) hmatches' hover hover'
    refine ⟨j, v, ?_, ?_, hmatches'', hover''⟩
    · rw [lower, hm, hk, Except.ok_bind, Except.ok_bind, hnode]
      unfold Sheet.mapBinary
      rw [hj]
      rfl
    · rw [eval, ha, hb, Except.ok_bind, Except.ok_bind]
      exact Semantics.array.binary_eq_ok.2 ⟨a, b, rfl, rfl, (hbinary a b).trans hv⟩

/-- The leaves on a settled table have single graphs and numbers if its sources have and its
definitions are made of negations, sums, differences and products. -/
theorem leafMatches_of_settled [Nonempty R] (hP : Tracks arith numbers P) {l : Layout} {e : Expr}
    (hresolves : l.Resolves e) (hdefinitions : l.DefinesArithmetic e)
    {read : Source → Except Failure (Option (ArrayValue R))} {entries : List (Expr × Meaning)}
    (h : Settled l e entries)
    (hread : ∀ {key src earlier}, (key, Meaning.source src) :: earlier <:+ entries →
      ∃ r, read src = .ok (some (.plain r)) ∧ P (.input (LeafTable.mk earlier).bindings.length) r)
    {s : Expr} (hs : s ∈ Assoc.keys entries) :
    LeafMatches P (lowerLeaf arith entries)
      (LeafTable.valueIn (.array numbers) read entries) s := by
  induction h generalizing s with
  | nil => cases hs
  | @cons earlier key m hearlier reached new meaning closed ih =>
    have hkey := hresolves.isPlainSymbol reached
    have ih {t : Expr} (ht : t ∈ Assoc.keys earlier) :=
      ih (fun {_ _ _} hsuffix => hread (hsuffix.trans (List.suffix_cons _ _))) ht
    unfold LeafMatches
    simp only [lowerLeaf_cons, LeafTable.valueIn_cons]
    rcases List.mem_cons.1 hs with rfl | hs
    · simp only [hkey.beq_self, if_true]
      cases m with
      | source src =>
        obtain ⟨r, hr, hn⟩ := hread (List.suffix_refl _)
        exact ⟨_, _, r, rfl, hr, rfl, hn⟩
      | definition d =>
        have hd := (Layout.rolesOf_of_definition meaning).2
        have hplain := hresolves.plain_of_definition reached hd
        have hpos : ∀ d ∈ ([] : List Nat), 0 < d := fun d hd => absurd hd List.not_mem_nil
        obtain ⟨j, a, hj, ha, hmatches, hover⟩ := (hdefinitions _ d reached hd).exists_matches hP
          hpos (fun t ht => ih (closed d rfl t ((Expr.mem_scalarLeaves hplain).2 ht)))
          [earlier.length, 1]
        obtain ⟨r, hr⟩ := Option.isSome_iff_exists.1 (hover.resolve_right fun h => h.2 rfl)
        obtain ⟨n, rfl, hn⟩ := hmatches.exists_single hr
        have hnew : ¬ Assoc.contains earlier s = true := by
          rwa [hearlier.contains_iff hresolves hkey]
        simp only [if_neg hnew]
        exact ⟨n, a, r, hj, ha, hr, hn⟩
    · have hne : ¬ (key == s) = true := fun heq => by
        rw [hkey.eq_of_beq (hearlier.isPlainSymbol_of_mem_keys hresolves hs) heq] at new
        exact new hs
      simp only [hne]
      exact ih hs

end Lowering
end Tracking
end NamedSlots
