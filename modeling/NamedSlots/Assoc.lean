/-!
# Association lists

A list of pairs in order of insertion, at most one for each key.
-/

namespace NamedSlots.Assoc

variable {κ α : Type} [BEq κ]

def find? (key : κ) : List (κ × α) → Option α
  | [] => none
  | (k, a) :: rest => if k == key then some a else find? key rest

def contains (entries : List (κ × α)) (key : κ) : Bool :=
  (find? key entries).isSome

/-- Replaces the value of a key in place, or appends a new pair. -/
def put (key : κ) (value : α) : List (κ × α) → List (κ × α)
  | [] => [(key, value)]
  | (k, a) :: rest => if k == key then (k, value) :: rest else (k, a) :: put key value rest

/-- Pairs in order; a repeated key keeps its first place and takes the last value. -/
def ofPairs (pairs : List (κ × α)) : List (κ × α) :=
  pairs.foldl (fun entries (k, a) => put k a entries) []

def keys (entries : List (κ × α)) : List κ := entries.map (·.1)

end NamedSlots.Assoc
