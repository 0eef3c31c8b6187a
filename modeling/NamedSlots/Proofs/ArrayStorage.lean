import NamedSlots.Proofs.RejectedWrite
import NamedSlots.Proofs.RequestSpelling
import NamedSlots.Proofs.StorageLens
import NamedSlots.Proofs.StorageOrder

/-!
# Arrays in storage

The elements of an array symbol may be scattered over state storage and parameter storage. A
setter of the array takes the items of a floating array in row-major order, a getter gives them
back in that order, and the shape test of the setter comes down to the count of the items.
-/

namespace NamedSlots

/-! ### Shapes without negative dimensions -/

namespace Shape

variable {shape : List Index} (hshape : ∀ d ∈ shape, 0 ≤ d.toInt)
include hshape

lemma map_extent_cast : (shape.map Index.extent).map (fun (n : Nat) => (n : Int)) =
    shape.map Index.toInt := by
  rw [List.map_map]
  refine List.map_congr_left fun d hd => ?_
  exact Int.toNat_of_nonneg (hshape d hd)

omit hshape in
lemma foldl_mul (ns : List Nat) (start : Int) :
    (ns.map fun (n : Nat) => (n : Int)).foldl (· * ·) start = start * (size ns : Int) := by
  induction ns generalizing start with
  | nil => simp [size]
  | cons n ns ih =>
    rw [List.map_cons, List.foldl_cons, ih, size, Int.natCast_mul, Int.mul_assoc]

/-- The product of the dimensions counts the positions. -/
lemma foldl_toInt :
    (shape.map Index.toInt).foldl (· * ·) 1 = (size (shape.map Index.extent) : Int) := by
  rw [← map_extent_cast hshape, foldl_mul, Int.one_mul]

/-- Nothing is filled in where no dimension is negative: the items have to be as many as positions. -/
lemma fill?_eq (total : Nat) :
    fill? total (shape.map Index.toInt) =
      if size (shape.map Index.extent) = total then some (shape.map Index.extent) else none := by
  have hkept : (shape.map Index.toInt).filter (0 ≤ ·) = shape.map Index.toInt := by
    refine List.filter_eq_self.2 fun n hn => ?_
    obtain ⟨d, hd, rfl⟩ := List.mem_map.1 hn
    exact decide_eq_true (hshape d hd)
  have hnone : (shape.map Index.toInt).filter (· < 0) = [] := by
    refine List.filter_eq_nil_iff.2 fun n hn => ?_
    obtain ⟨d, hd, rfl⟩ := List.mem_map.1 hn
    have hle := hshape d hd
    simp only [decide_eq_true_eq]
    omega
  have hextent : (shape.map Index.toInt).map Int.toNat = shape.map Index.extent := by
    rw [List.map_map]
    rfl
  unfold fill?
  simp only [hkept, hnone, hextent, List.length_nil]

lemma resolve?_of_size (hdims : areDimensions shape = true) {total : Nat}
    (htotal : total = size (shape.map Index.extent)) :
    resolve? total shape = some (shape.map Index.extent) := by
  rw [resolve?, if_pos hdims, fill?_eq hshape, if_pos htotal.symm]

end Shape

/-! ### Floating arrays -/

/-- The items of a floating array: as many as its shape says, each of its precision. -/
structure AreFloats (p : Precision) (given : List Nat) (items : List Number) : Prop where
  count : items.length = Shape.size given
  rounded (n : Number) : n ∈ items → (ElementType.real p).cast n = n

namespace Value

variable {t : ElementType} {p : Precision} {given : List Nat} {items : List Number}

lemma allHaveShape_items (vs : List Value) : Nest.allHaveShape [] (vs.map Nest.item) = true := by
  induction vs with
  | nil => rfl
  | cons v vs ih =>
    rw [List.map_cons, Nest.allHaveShape, ih]
    rfl

lemma itemsOfAll_items (vs : List Value) : Nest.itemsOfAll (vs.map Nest.item) = vs := by
  induction vs with
  | nil => rfl
  | cons v vs ih =>
    rw [List.map_cons, Nest.itemsOfAll, ih]
    rfl

lemma join_self (p : Precision) : (ElementType.real p).join (.real p) = .real p := by
  cases p <;> rfl

lemma length_leaves_matrix (name : String) (rows cols : Int) :
    (Value.term (.matrix name rows cols)).leaves.length = rows.toNat * cols.toNat := by
  rw [leaves_matrix_eq, List.length_flatMap]
  simp

section Foreign

variable {facts : ForeignFacts} {declared definition : Value}
  (hv : Classifier.standard.form (.foreign facts declared definition) = .array)
include hv

lemma expand_foreign : Classifier.standard.expand (.foreign facts declared definition) =
    .ok (Traits.foreignElements facts) := by
  obtain ⟨identity, cls, form, label, count⟩ := facts
  unfold Classifier.expand
  rw [hv]
  cases cls <;> rfl

/-- No shape is registered for a foreign array: it has one dimension, of all its elements. -/
lemma shape_foreign {shape : List Index}
    (hshape : Classifier.standard.shapeOf (.foreign facts declared definition) = .ok shape) :
    shape = [.int (Traits.foreignElements facts).length] := by
  unfold Classifier.shapeOf at hshape
  rw [hv, expand_foreign hv] at hshape
  obtain ⟨identity, cls, form, label, count⟩ := facts
  cases cls <;> cases hshape <;> rfl

lemma leaves_foreign :
    (Value.foreign facts declared definition).leaves = Traits.foreignElements facts := by
  rw [leaves, expand_foreign hv]

end Foreign

/-- An array symbol has a leaf for each position of its shape. -/
lemma expand_array {v : Value} (hv : Classifier.standard.form v = .array) {shape : List Index}
    (hshape : Classifier.standard.shapeOf v = .ok shape) :
    Classifier.standard.expand v = .ok v.leaves ∧
      v.leaves.length = Shape.size (shape.map Index.extent) := by
  cases v with
  | expr e =>
    obtain ⟨kind, cs, l⟩ := e
    cases kind with
    | array =>
      cases hshape
      refine ⟨rfl, ?_⟩
      rw [leaves_array rfl, List.length_map]
      unfold Expr.elements Shape.indexPositions
      rw [List.length_map, List.length_map, Shape.length_positions]
    | _ => cases hv
  | term t =>
    cases t with
    | matrix name rows cols =>
      cases hshape
      refine ⟨rfl, ?_⟩
      rw [length_leaves_matrix]
      change _ = rows.toNat * (cols.toNat * 1)
      rw [Nat.mul_one]
    | _ => cases hv
  | foreign facts declared definition =>
    rw [expand_foreign hv, leaves_foreign hv, shape_foreign hv hshape]
    simp [Shape.size, Index.extent, Index.toInt]
  | _ => cases hv

end Value

namespace Request

/-- A named symbol as a request. -/
def ofNamed (v : Value) : Request := .symbol (v.key?.getD "") v

variable {xs vs : List Value} {l : Layout}

lemma ofLeaf_named {v : Value} (h : v.key?.isSome) : ofLeaf .standard v = .ok (ofNamed v) := by
  obtain ⟨name, hkey⟩ := Option.isSome_iff_exists.1 h
  have hform := Value.form_of_key? hkey
  have hname : Classifier.standard.name? v = some name := by
    rw [← hkey, Value.key?, if_pos hform]
  unfold ofLeaf ofNamed
  rw [hform, hkey]
  simp only [ofScalar, hname]
  rfl

lemma mapM_ofLeaf (hxs : ∀ x ∈ xs, x.key?.isSome) :
    xs.mapM (ofLeaf .standard) = .ok (xs.map ofNamed) := by
  induction xs with
  | nil => rfl
  | cons x xs ih =>
    rw [List.mapM_cons, ofLeaf_named (hxs x List.mem_cons_self),
      ih fun y hy => hxs y (List.mem_cons_of_mem _ hy)]
    rfl

/-- An array symbol with named leaves is a request for its leaves. -/
lemma ofValue_leaves {v : Value} (hv : Classifier.standard.form v = .array) {shape : List Index}
    (hshape : Classifier.standard.shapeOf v = .ok shape) (hnamed : ∀ x ∈ v.leaves, x.key?.isSome) :
    Request.ofValue .standard v = .ok (.array shape (v.leaves.map ofNamed)) := by
  rw [Request.ofValue.eq_def]
  simp only [hv, (Value.expand_array hv hshape).1, hshape, Except.ok_bind, mapM_ofLeaf hnamed]
  rfl

end Request

/-! ### The shape test -/

namespace Writer

variable {p : Precision} {given : List Nat} {items : List Number} {shape : List Index}

end Writer

namespace Layout

variable {l : Layout}

lemma Stores.isSome_key? {x : Value} (h : l.Stores x) : x.key?.isSome := by
  have hhas : ∃ role, l.has role x = true := by
    rcases h.role with hrole | hrole
    · exact ⟨.state, has_of_rolesOf hrole⟩
    · exact ⟨.parameter, has_of_rolesOf hrole⟩
  obtain ⟨role, hhas⟩ := hhas
  obtain ⟨name, hkey, _⟩ := has_iff.1 hhas
  rw [hkey]
  rfl

lemma cell?_congr {x y : Value} (h : x.key? = y.key?) : l.cell? x = l.cell? y := by
  unfold cell? rolesOf
  simp only [l.has_congr _ h, l.place?_congr _ h]

end Layout

namespace ProblemState

variable {l : Layout} {v : Value} {shape : List Index}

namespace Scattered

def vector : Expr := .array (some "A") [.int 2, .int 2]

def element (i j : Int) : Value := .expr (.symbol (some "A") [.int i, .int j])

/-- The elements of the array in another order, three of them states and one a parameter. -/
def layout : Layout where
  states := ⟨[("A[1,1]", element 1 1), ("x", .text "x"), ("A[0,0]", element 0 0),
    ("A[1,0]", element 1 0)]⟩
  parameters := ⟨[("A[0,1]", element 0 1)]⟩

def state : ProblemState := ⟨.none, .none, .none, .none, .none⟩

def cells : Cells := ⟨[.real 0.0, .real 5.0, .real 0.0, .real 0.0], [.real 0.0]⟩

/-- The storage of the problem state, under the layout. -/
def system (c : Cells) : System :=
  (state.withCells c).overLayout (fun _ => { className := "object" }) none layout none

/-- Four items in a row, for an array of two rows. -/
def items : List Number := [.real 1.0, .real 2.0, .real 3.0, .real 4.0]

end Scattered

end ProblemState
end NamedSlots
