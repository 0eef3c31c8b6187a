import Mathlib.Tactic.Lemma
import NamedSlots.Value.Grid

/-!
# The shape that a value assembles to

Sequences side by side assemble to an array exactly if they all have one shape. An array keeps its
shape when it is put into a sequence, up to its first empty dimension; what items it holds does not
matter.
-/

namespace NamedSlots

/-! ### Shapes side by side -/

namespace Shape

/-- The shape of parts side by side, which all have to have one shape. Without parts there is one
empty dimension. -/
def stack? : List (Option (List Nat)) → Option (List Nat)
  | [] => some [0]
  | s :: ss => if ss.all (· == s) then s.map ((ss.length + 1) :: ·) else none

/-- The dimensions that nested sequences show: nothing is seen below an empty one. -/
def visible : List Nat → List Nat
  | [] => []
  | 0 :: _ => [0]
  | d :: ds => d :: visible ds

variable {α : Type} {s dims : List Nat} {shapes : List (Option (List Nat))}

@[simp] lemma visible_succ (d : Nat) (ds : List Nat) :
    visible ((d + 1) :: ds) = (d + 1) :: visible ds := rfl

/-- Parts stack exactly if they all have the shape of the first one. -/
lemma stack?_cons_eq_some_iff {first : Option (List Nat)} :
    stack? (first :: shapes) = some dims ↔
      ∃ s, first = some s ∧ (∀ s' ∈ shapes, s' = some s) ∧ dims = (shapes.length + 1) :: s := by
  have hall : shapes.all (· == first) = true ↔ ∀ s' ∈ shapes, s' = first := by
    simp only [List.all_eq_true, beq_iff_eq]
  rw [stack?]
  constructor
  · intro h
    split at h
    · obtain ⟨s, rfl, rfl⟩ := Option.map_eq_some_iff.1 h
      exact ⟨s, rfl, hall.1 (by assumption), rfl⟩
    · cases h
  · rintro ⟨s, rfl, hsame, rfl⟩
    rw [if_pos (hall.2 hsame)]
    rfl

/-- Parts that stack have a shape each. -/
lemma isSome_of_stack? (h : stack? shapes = some dims) : ∀ s ∈ shapes, s.isSome := by
  cases shapes with
  | nil => nofun
  | cons first shapes =>
    obtain ⟨s, rfl, hsame, _⟩ := stack?_cons_eq_some_iff.1 h
    rintro s' (_ | ⟨_, hs'⟩)
    · rfl
    · rw [hsame s' hs']
      rfl

@[simp] lemma length_chunks (size : Nat) (items : List α) (n : Nat) :
    (chunks size items n).length = n := by
  induction n generalizing items with
  | zero => rfl
  | succ n ih => rw [chunks, List.length_cons, ih]

end Shape

/-! ### Nested sequences -/

namespace Nest

lemma allHaveShape_eq (s : List Nat) (parts : List Nest) :
    allHaveShape s parts = (parts.map shape?).all (· == some s) := by
  induction parts with
  | nil => rfl
  | cons p parts ih => rw [allHaveShape, ih, List.map_cons, List.all_cons]

lemma shape?_nest (parts : List Nest) : (nest parts).shape? = Shape.stack? (parts.map shape?) := by
  cases parts with
  | nil => rfl
  | cons p parts =>
    rw [shape?, List.map_cons, Shape.stack?]
    cases p.shape? with
    | none => simp only [Option.map_none, ite_self]
    | some s => simp only [allHaveShape_eq, List.length_map, Option.map_some]

end Nest

namespace Value

/-- The shape that a value has as a part of a nested sequence. -/
def gridShape? (v : Value) : Option (List Nat) := v.toNest.shape?

variable {vs : List Value} {v : Value} {dims : List Nat}

lemma toNests_eq_map (vs : List Value) : toNests vs = vs.map toNest := by
  induction vs with
  | nil => rfl
  | cons v vs ih => rw [toNests, ih, List.map_cons]

lemma gridShape?_list (vs : List Value) :
    (list vs).gridShape? = Shape.stack? (vs.map gridShape?) := by
  unfold gridShape?
  rw [toNest, Nest.shape?_nest, toNests_eq_map, List.map_map]
  rfl

lemma gridShape?_tuple (vs : List Value) : (tuple vs).gridShape? = (list vs).gridShape? := by
  unfold gridShape?
  rw [toNest, toNest]

/-- The parts of an array are its chunks along the first dimension. -/
lemma toNest_objects_cons (d : Nat) (ds : List Nat) (items : List Value) :
    (objects (d :: ds) items).toNest =
      .nest ((Shape.chunks (Shape.size ds) items d).map fun part => (objects ds part).toNest) := by
  simp only [toNest]
  rfl

lemma gridShape?_objects (dims : List Nat) (items : List Value) :
    (objects dims items).gridShape? = some (Shape.visible dims) := by
  induction dims generalizing items with
  | nil => 
    unfold gridShape?
    simp only [toNest]
    rfl
  | cons d ds ih =>
    unfold gridShape? at ih ⊢
    rw [toNest_objects_cons, Nest.shape?_nest, List.map_map]
    have hparts : (Shape.chunks (Shape.size ds) items d).map
        (Nest.shape? ∘ fun part => (objects ds part).toNest) =
          List.replicate d (some (Shape.visible ds)) := by
      refine List.eq_replicate_iff.2 ⟨?_, fun s hs => ?_⟩
      · rw [List.length_map, Shape.length_chunks]
      · obtain ⟨part, _, rfl⟩ := List.mem_map.1 hs
        exact ih part
    rw [hparts]
    cases d with
    | zero => rfl
    | succ d =>
      refine Shape.stack?_cons_eq_some_iff.2 ⟨_, rfl, fun s hs => List.eq_of_mem_replicate hs, ?_⟩
      rw [List.length_replicate, Shape.visible_succ]

lemma gridShape?_numbers (t : ElementType) (dims : List Nat) (items : List Number) :
    (numbers t dims items).gridShape? = some (Shape.visible dims) := by
  rw [← gridShape?_objects dims (items.map (element t))]
  unfold gridShape?
  rw [toNest, toNest]

lemma gridShape?_texts (width : Nat) (dims : List Nat) (items : List String) :
    (texts width dims items).gridShape? = some (Shape.visible dims) := by
  rw [← gridShape?_objects dims (items.map fun s => string s true)]
  unfold gridShape?
  rw [toNest, toNest]

/-- Whatever the common type of its items, an array in a new shape shows the new dimensions. -/
lemma gridShape?_withShape_gridOf (s dims : List Nat) (items : List Value) :
    ((gridOf s items).withShape dims).gridShape? = some (Shape.visible dims) := by
  unfold gridOf
  split
  · exact gridShape?_numbers _ dims _
  · split
    · exact gridShape?_numbers _ dims _
    · exact gridShape?_texts _ dims _
    · exact gridShape?_objects dims _

lemma shape?_gridOf (s : List Nat) (items : List Value) : (gridOf s items).shape? = some s := by
  unfold gridOf
  split
  · rfl
  · split <;> rfl

/-- What becomes of an array in a shape that it does not fit: a wrong type if an index is no
dimension, else a wrong value. -/
def refusal (shape : List Index) : Failure :=
  .fault (if Shape.areDimensions shape then .wrongValue else .wrongType)

lemma refusal_kind (shape : List Index) :
    (refusal shape).kind = .wrongValue ∨
      ¬ Shape.areDimensions shape = true ∧ (refusal shape).kind = .wrongType := by
  unfold refusal
  split
  · exact .inl rfl
  · exact .inr ⟨by assumption, rfl⟩

lemma reshape_gridOf (s : List Nat) (items : List Value) (shape : List Index) :
    (gridOf s items).reshape shape =
      match Shape.resolve? (Shape.size s) shape with
      | some dims => .ok ((gridOf s items).withShape dims)
      | Option.none => .error (refusal shape) := by
  unfold reshape
  rw [shape?_gridOf]
  rfl

/-- Values side by side make an array of given dimensions if they have one shape and the count of
all their items fits the dimensions; else this is a wrong value, or a wrong type where an index is
no dimension. -/
def AssemblesTo (vs : List Value) (shape : List Index) : Option (List Nat) → Prop
  | some dims => ∃ v, ((list vs).assemble >>= fun grid => grid.reshape shape) = .ok v ∧
      v.gridShape? = some dims
  | Option.none => ∃ f, ((list vs).assemble >>= fun grid => grid.reshape shape) = .error f ∧
      (f.kind = .wrongValue ∨ ¬ Shape.areDimensions shape = true ∧ f.kind = .wrongType)

/-- What becomes of values of given shapes that are to be an array of given dimensions. -/
lemma assemble_reshape (vs : List Value) (shape : List Index) :
    AssemblesTo vs shape ((Shape.stack? (vs.map gridShape?)).bind fun s =>
      (Shape.resolve? (Shape.size s) shape).map Shape.visible) := by
  rw [← gridShape?_list]
  have hassemble : (list vs).assemble =
      match (list vs).gridShape? with
      | some s => .ok (gridOf s (list vs).toNest.items)
      | Option.none => .error (.fault .wrongValue) := rfl
  cases hs : (list vs).gridShape? with
  | none =>
    rw [hs] at hassemble
    refine ⟨.fault .wrongValue, ?_, .inl rfl⟩
    rw [hassemble]
    rfl
  | some s =>
    rw [hs] at hassemble
    have hreshape := reshape_gridOf s (list vs).toNest.items shape
    rw [Option.bind_some]
    cases hdims : Shape.resolve? (Shape.size s) shape with
    | none =>
      rw [hdims] at hreshape
      refine ⟨refusal shape, ?_, refusal_kind shape⟩
      rw [hassemble]
      exact hreshape
    | some dims =>
      rw [hdims] at hreshape
      refine ⟨_, ?_, gridShape?_withShape_gridOf s dims (list vs).toNest.items⟩
      rw [hassemble]
      exact hreshape

end Value
end NamedSlots
