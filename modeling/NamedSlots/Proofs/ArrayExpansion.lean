import Mathlib.Algebra.BigOperators.Group.List.Basic
import NamedSlots.Proofs.ArrayStorage
import NamedSlots.Proofs.IndexedNames
import NamedSlots.Proofs.KeyEquality

/-!
# The elements of an array

An array symbol stands for one element at each position of its shape. They are listed as a count
in mixed radix whose last digit runs fastest, each has a name of its own, and the array gives
exactly these when it is indexed.
-/

namespace NamedSlots

/-! ### Positions as mixed-radix numerals -/

namespace Shape

/-- The digits of a number when each dimension is the radix of its digit, the last one fastest. -/
def digits : List Nat → Nat → List Nat
  | [], _ => []
  | d :: ds, k => k / size ds % d :: digits ds k

/-- The digits of a number are those of its remainder by any multiple of the size. -/
lemma digits_mod (ds : List Nat) (m k : Nat) : digits ds (k % (m * size ds)) = digits ds k := by
  induction ds generalizing m with
  | nil => rfl
  | cons d ds ih =>
    have hsize : m * size (d :: ds) = m * d * size ds := by rw [size, Nat.mul_assoc]
    rw [digits, digits, hsize, ih, Nat.mod_mul_left_div_self, Nat.mod_mul_left_mod]

lemma forall₂_digits {shape : List Nat} (h : 0 < size shape) (k : Nat) :
    List.Forall₂ (· < ·) (digits shape k) shape := by
  induction shape with
  | nil => exact .nil
  | cons d ds ih =>
    exact .cons (Nat.mod_lt _ (Nat.pos_of_mul_pos_right h)) (ih (Nat.pos_of_mul_pos_left h))

lemma offset_digits {shape : List Nat} {k : Nat} (h : k < size shape) :
    offset shape (digits shape k) = k := by
  induction shape generalizing k with
  | nil => exact (Nat.lt_one_iff.1 h).symm
  | cons d ds ih =>
    have hpos : 0 < size ds := Nat.pos_of_mul_pos_left (Nat.zero_lt_of_lt h)
    have hhead : k / size ds < d := Nat.div_lt_of_lt_mul (by rwa [Nat.mul_comm])
    have htail : offset ds (digits ds k) = k % size ds := by
      rw [← digits_mod ds 1 k, Nat.one_mul]
      exact ih (Nat.mod_lt _ hpos)
    rw [digits, offset, htail, Nat.mod_eq_of_lt hhead]
    exact Nat.div_add_mod' k (size ds)

/-- The positions of a shape count in mixed radix. -/
lemma positions_eq (shape : List Nat) :
    positions shape = (List.range (size shape)).map (digits shape) := by
  refine List.ext_getElem? fun k => ?_
  by_cases hk : k < size shape
  · have hat := getElem?_offset (forall₂_digits (Nat.zero_lt_of_lt hk) k)
    rw [offset_digits hk] at hat
    rw [hat, List.getElem?_map, List.getElem?_range hk]
    rfl
  · rw [List.getElem?_eq_none (by rw [length_positions]; omega)]
    rw [List.getElem?_eq_none (by rw [List.length_map, List.length_range]; omega)]

lemma nodup_positions (shape : List Nat) : (positions shape).Nodup := by
  rw [positions_eq]
  refine List.Nodup.map_on ?_ List.nodup_range
  intro k hk m hm h
  rw [← offset_digits (List.mem_range.1 hk), h, offset_digits (List.mem_range.1 hm)]

lemma mem_positions_iff {shape p : List Nat} :
    p ∈ positions shape ↔ List.Forall₂ (· < ·) p shape := by
  constructor
  · rw [positions_eq]
    intro h
    obtain ⟨k, hk, rfl⟩ := List.mem_map.1 h
    exact forall₂_digits (Nat.zero_lt_of_lt (List.mem_range.1 hk)) k
  · intro h
    exact List.mem_of_getElem? (getElem?_offset h)

end Shape

/-! ### Elements -/

namespace Expr

variable {e : Expr}

lemma getElem?_elements {k : Nat} (hk : k < Shape.size (e.label.shape.map Index.extent)) :
    e.elements[k]? = some (symbol e.label.name
      ((Shape.digits (e.label.shape.map Index.extent) k).map fun (i : Nat) => .int i)) := by
  rw [elements, Shape.indexPositions, Shape.positions_eq, List.map_map, List.map_map,
    List.getElem?_map, List.getElem?_range hk]
  rfl

/-- The elements of an array are the symbols with plain integers in range. -/
lemma mem_elements_iff {x : Expr} :
    x ∈ e.elements ↔ ∃ p : List Int, List.Forall₂ Index.IsIn (p.map .int) e.label.shape ∧
      x = symbol e.label.name (p.map .int) := by
  rw [elements, Shape.indexPositions, List.map_map, List.mem_map]
  constructor
  · rintro ⟨p, hp, rfl⟩
    rw [Shape.mem_positions_iff, List.forall₂_map_right_iff] at hp
    refine ⟨p.map fun (i : Nat) => (i : Int), ?_, by rw [List.map_map]; rfl⟩
    rw [List.forall₂_map_left_iff, List.forall₂_map_left_iff]
    refine hp.imp fun i d hi => ?_
    unfold Index.extent at hi
    exact ⟨Int.natCast_nonneg i, show (i : Int) < d.toInt by omega⟩
  · rintro ⟨p, hp, rfl⟩
    rw [List.forall₂_map_left_iff] at hp
    have hnat : ∀ n ∈ p, ((n.toNat : Nat) : Int) = n := by
      intro n hn
      obtain ⟨k, hk, rfl⟩ := List.getElem_of_mem hn
      exact Int.toNat_of_nonneg (hp.get hk (hp.length_eq ▸ hk)).1
    refine ⟨p.map Int.toNat, ?_, ?_⟩
    · rw [Shape.mem_positions_iff, List.forall₂_map_left_iff, List.forall₂_map_right_iff]
      refine hp.imp fun n d hn => ?_
      obtain ⟨h0, hlt⟩ := hn
      change 0 ≤ n at h0
      change n < d.toInt at hlt
      unfold Index.extent
      omega
    · refine congrArg (fun is => symbol e.label.name is) ?_
      dsimp only
      rw [List.map_map]
      exact List.map_congr_left fun n hn => congrArg Index.int (hnat n hn)

/-- Two elements of an array have different names, even when its own name has brackets. -/
lemma nodup_indexedName_elements (e : Expr) : (e.elements.map indexedName).Nodup := by
  have hnames : e.elements.map indexedName = (Shape.positions (e.label.shape.map Index.extent)).map
      fun p => Text.IndexedName.format (e.label.name.getD "") (p.map fun (i : Nat) => .int i) := by
    rw [elements, Shape.indexPositions, List.map_map, List.map_map]
    rfl
  rw [hnames]
  refine (Shape.nodup_positions _).map fun p q h => ?_
  have hcast : Function.Injective fun (i : Nat) => Index.int i :=
    fun i j hij => Int.natCast_inj.1 (Index.int.inj hij)
  exact List.map_injective_iff.2 hcast (Text.IndexedName.format_right_inj h)

lemma elements_matrix {e : Expr} {rows columns : Index} (h : e.label.shape = [rows, columns]) :
    e.elements = (List.range rows.extent).flatMap fun (i : Nat) =>
      (List.range columns.extent).map fun (j : Nat) => symbol e.label.name [.int i, .int j] := by
  have hrow (n : Nat) : Shape.positions [n] = (List.range n).map fun j => [j] :=
    List.map_eq_flatMap.symm
  unfold elements Shape.indexPositions
  rw [h, List.map_cons, List.map_singleton, Shape.positions, hrow]
  simp only [List.map_flatMap, List.map_map]
  rfl

lemma beq_symbol_iff {name name' : Option String} {is js : List Index} :
    (symbol name is == symbol name' js) = true ↔
      name = name' ∧ is.map Index.toInt = js.map Index.toInt := by
  change same (node .symbol [] _) (node .symbol [] _) = true ↔ _
  rw [same_iff, Label.beq_iff]
  exact ⟨fun h => ⟨h.2.2.1, h.2.2.2.2.1⟩, fun h => ⟨rfl, rfl, h.1, rfl, h.2, rfl⟩⟩

/-- Indexing with plain integers gives the leaf that has these indices. -/
lemma element_int_eq_ok_iff (he : e.kind = .array) {p : List Int} {x : Expr} :
    e.element (p.map Index.int) = .ok x ↔ x ∈ e.elements ∧ x.label.indices = p.map Index.int := by
  rw [element_eq_ok_iff he, mem_elements_iff]
  constructor
  · rintro ⟨hin, rfl⟩
    exact ⟨⟨p, hin, rfl⟩, rfl⟩
  · rintro ⟨⟨q, hin, rfl⟩, hp⟩
    have hq : q.map Index.int = p.map Index.int := hp
    rw [← hq]
    exact ⟨hin, rfl⟩

/-- An index in range picks the leaf of its integer. -/
lemma mem_elements_toInt {p : List Index} (h : List.Forall₂ Index.IsIn p e.label.shape) :
    symbol e.label.name ((p.map Index.toInt).map .int) ∈ e.elements := by
  refine mem_elements_iff.2 ⟨_, ?_, rfl⟩
  rw [List.forall₂_map_left_iff, List.forall₂_map_left_iff]
  exact h

lemma exists_element_iff (he : e.kind = .array) {p : List Index} :
    (∃ x, e.element p = .ok x) ↔ ∃ y ∈ e.elements, (y.label.indices == p) = true := by
  constructor
  · rintro ⟨x, hx⟩
    refine ⟨_, mem_elements_toInt ((element_eq_ok_iff he).1 hx).1, Index.beq_iff.2 ?_⟩
    exact IsPlainSymbol.toInt_map_int _
  · rintro ⟨y, hy, hindices⟩
    obtain ⟨q, hin, rfl⟩ := mem_elements_iff.1 hy
    have hq : q = p.map Index.toInt := by
      rw [← IsPlainSymbol.toInt_map_int q]
      exact Index.beq_iff.1 hindices
    rw [hq, List.forall₂_map_left_iff, List.forall₂_map_left_iff] at hin
    exact ⟨_, (element_eq_ok_iff he).2 ⟨hin, rfl⟩⟩

/-- The expansion of an array symbol without negative dimensions: as many leaves as the dimensions
multiply to, the mixed-radix numerals in order, with names of their own, each a scalar that stands
for itself; and they are what the array gives when it is indexed, where a truth value picks the
leaf of its integer. -/
theorem array_expands_row_major (he : e.kind = .array) (hshape : ∀ d ∈ e.label.shape, 0 ≤ d.toInt) :
    ∃ (leaves : List Expr) (names : List String),
      Classifier.standard.expand (.expr e) = .ok (leaves.map Value.expr) ∧
      (leaves.length : Int) = (e.label.shape.map Index.toInt).prod ∧
      (∀ k < leaves.length, leaves[k]? = some (symbol e.label.name
        ((Shape.digits (e.label.shape.map Index.extent) k).map fun (i : Nat) => .int i))) ∧
      (leaves.map Value.expr).mapM Classifier.standard.nameOf = .ok names ∧ names.Nodup ∧
      (∀ x ∈ leaves, Classifier.standard.form (.expr x) = .scalar ∧
        Classifier.standard.expand (.expr x) = .ok [.expr x]) ∧
      (∀ (p : List Int) (x : Expr), e.element (p.map Index.int) = .ok x ↔
        x ∈ leaves ∧ x.label.indices = p.map Index.int) ∧
      ∀ p : List Index,
        ((∃ x, e.element p = .ok x) ↔ ∃ y ∈ leaves, (y.label.indices == p) = true) ∧
        ∀ x, e.element p = .ok x → ∃ y ∈ leaves, (x == y) = true := by
  obtain ⟨kind, cs, l⟩ := e
  cases he
  have hlength : ((node .array cs l).elements.length : Int) = (l.shape.map Index.toInt).prod := by
    rw [elements, Shape.indexPositions, List.length_map, List.length_map, Shape.length_positions,
      List.prod_eq_foldl]
    exact (Shape.foldl_toInt hshape).symm
  have hnames : ((node .array cs l).elements.map Value.expr).mapM Classifier.standard.nameOf =
      .ok ((node .array cs l).elements.map indexedName) := by
    rw [mapM_eq_ok_iff, List.forall₂_map_left_iff, List.forall₂_map_right_iff, List.forall₂_same]
    intro x hx
    obtain ⟨p, -, rfl⟩ := mem_elements_iff.1 hx
    rfl
  refine ⟨_, _, rfl, hlength, ?_, hnames, nodup_indexedName_elements _, ?_,
    fun p x => element_int_eq_ok_iff rfl, fun p => ⟨exists_element_iff rfl, ?_⟩⟩
  · intro k hk
    refine getElem?_elements ?_
    rwa [elements, Shape.indexPositions, List.length_map, List.length_map,
      Shape.length_positions] at hk
  · intro x hx
    obtain ⟨p, -, rfl⟩ := mem_elements_iff.1 hx
    exact ⟨rfl, rfl⟩
  · intro x hx
    obtain ⟨hin, rfl⟩ := (element_eq_ok_iff rfl).1 hx
    refine ⟨_, mem_elements_toInt hin, beq_symbol_iff.2 ⟨rfl, ?_⟩⟩
    exact (IsPlainSymbol.toInt_map_int _).symm

/-- A grid of two rows and three columns. -/
def grid : Expr := array (some "A") [.int 2, .int 3]

theorem array_expands_row_major_grid :
    grid.kind = .array ∧ (∀ d ∈ grid.label.shape, 0 ≤ d.toInt) ∧
      ∃ leaves : List Expr, Classifier.standard.expand (.expr grid) = .ok (leaves.map Value.expr) ∧
        (leaves.length : Int) = 6 ∧ leaves[4]? = some (symbol (some "A") [.int 1, .int 1]) := by
  have hshape : ∀ d ∈ grid.label.shape, 0 ≤ d.toInt := by decide
  obtain ⟨leaves, names, hexpand, hlength, hdigits, -⟩ := array_expands_row_major (e := grid) rfl hshape
  have hsix : (leaves.length : Int) = 6 := hlength
  refine ⟨rfl, hshape, leaves, hexpand, hsix, ?_⟩
  exact hdigits 4 (by omega)

end Expr
end NamedSlots
