/-!
# Shapes and positions

A position inside an array is a list of indices, one for each dimension. The positions of a
shape are listed row-major: the last index runs fastest.
-/

namespace NamedSlots

/-- An index is an integer; a truth value counts as 0 or 1 and keeps its own spelling. -/
inductive Index
  | int (n : Int)
  | flag (b : Bool)
deriving Repr, DecidableEq

namespace Index

def toInt : Index → Int
  | int n => n
  | flag b => if b then 1 else 0

def text : Index → String
  | int n => toString n
  | flag b => if b then "True" else "False"

/-- Indices are compared as integers. -/
instance : BEq Index := ⟨fun a b => a.toInt == b.toInt⟩

instance : Coe Int Index := ⟨int⟩

/-- Whether an index is a plain integer, and no truth value. -/
def isPlain : Index → Bool
  | int _ => true
  | flag _ => false

/-- How many positions a dimension offers; none when it is negative. -/
def extent (d : Index) : Nat := d.toInt.toNat

/-- The indices between brackets, nothing for an empty list. -/
def bracketed (indices : List Index) : String :=
  if indices.isEmpty then "" else "[" ++ ",".intercalate (indices.map text) ++ "]"

end Index

namespace Shape

def size : List Nat → Nat
  | [] => 1
  | d :: ds => d * size ds

def positions : List Nat → List (List Nat)
  | [] => [[]]
  | d :: ds => (List.range d).flatMap fun i => (positions ds).map (i :: ·)

def offset : List Nat → List Nat → Nat
  | _ :: ds, i :: is => i * size ds + offset ds is
  | _, _ => 0

theorem length_positions (shape : List Nat) : (positions shape).length = size shape := by
  induction shape with
  | nil => rfl
  | cons d ds ih =>
    simp [positions, size, ih, List.length_flatMap, List.map_const']

/-- The positions of a shape whose dimensions are indices. -/
def indexPositions (shape : List Index) : List (List Index) :=
  (positions (shape.map Index.extent)).map fun p => p.map fun (i : Nat) => Index.int i

end Shape
end NamedSlots
