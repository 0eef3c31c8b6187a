import Mathlib.Tactic.Lemma
import NamedSlots.Access.Accessor
import NamedSlots.System.State

/-!
# Cells of storage

State storage and parameter storage that are lists are cells side by side. A run of writes into
cells keeps both lengths, leaves every other cell as it is, and leaves in each written cell the
last item that was written to it. Slot writes of a plan are such writes.
-/

namespace NamedSlots

/-- A place in state storage or in parameter storage. -/
inductive Cell
  | state (n : Nat)
  | parameter (n : Nat)
deriving DecidableEq, Repr

/-- State storage and parameter storage that are lists. -/
structure Cells where
  states : List Value
  parameters : List Value

namespace Cells

def get? (c : Cells) : Cell → Option Value
  | .state n => c.states[n]?
  | .parameter n => c.parameters[n]?

def set (c : Cells) (cell : Cell) (v : Value) : Cells :=
  match cell with
  | .state n => { c with states := c.states.set n v }
  | .parameter n => { c with parameters := c.parameters.set n v }

/-- Writes one after the other. -/
def setAll (c : Cells) (writes : List (Cell × Value)) : Cells :=
  writes.foldl (fun c (cell, v) => c.set cell v) c

variable {c : Cells} {cell other : Cell} {v : Value} {writes : List (Cell × Value)}

@[simp] lemma setAll_nil (c : Cells) : c.setAll [] = c := rfl

@[simp] lemma setAll_cons (c : Cells) (write : Cell × Value) (writes : List (Cell × Value)) :
    c.setAll (write :: writes) = (c.set write.1 write.2).setAll writes := rfl

lemma get?_set_of_ne (h : cell ≠ other) : (c.set cell v).get? other = c.get? other := by
  cases cell <;> cases other <;> simp_all [set, get?]

lemma get?_set_self (h : (c.get? cell).isSome) : (c.set cell v).get? cell = some v := by
  cases cell <;> simp_all [set, get?]

/-- A cell is in storage before a write exactly if it is after it. -/
lemma isSome_get?_set : ((c.set cell v).get? other).isSome = (c.get? other).isSome := by
  by_cases h : cell = other
  · subst h
    cases cell <;> simp only [set, get?, List.getElem?_set_self', Option.isSome_map, Option.map_eq_map]
  · rw [get?_set_of_ne h]

/-- What is not written stays. -/
lemma get?_setAll_of_not_mem (h : other ∉ writes.map Prod.fst) :
    (c.setAll writes).get? other = c.get? other := by
  induction writes generalizing c with
  | nil => rfl
  | cons write writes ih =>
    simp only [List.map_cons, List.mem_cons, not_or] at h
    rw [setAll_cons, ih h.2, get?_set_of_ne (Ne.symm h.1)]

/-- A written cell holds what was written to it last. -/
lemma get?_setAll_of_last {before after : List (Cell × Value)} (h : (c.get? cell).isSome)
    (hlast : cell ∉ after.map Prod.fst) :
    (c.setAll (before ++ (cell, v) :: after)).get? cell = some v := by
  induction before generalizing c with
  | nil =>
    rw [List.nil_append, setAll_cons, get?_setAll_of_not_mem hlast]
    exact get?_set_self h
  | cons write before ih =>
    rw [List.cons_append, setAll_cons]
    exact ih (by rw [isSome_get?_set]; exact h)

lemma ext_get? {c' : Cells} (h : ∀ cell, c.get? cell = c'.get? cell) : c = c' := by
  obtain ⟨u, p⟩ := c
  obtain ⟨u', p'⟩ := c'
  have hu : u = u' := List.ext_getElem? fun n => h (.state n)
  have hp : p = p' := List.ext_getElem? fun n => h (.parameter n)
  rw [hu, hp]

/-- A written cell has a last write. -/
lemma exists_last (h : cell ∈ writes.map Prod.fst) :
    ∃ before v after, writes = before ++ (cell, v) :: after ∧ cell ∉ after.map Prod.fst := by
  induction writes with
  | nil => cases h
  | cons write writes ih =>
    by_cases hrest : cell ∈ writes.map Prod.fst
    · obtain ⟨before, v, after, rfl, hlast⟩ := ih hrest
      exact ⟨write :: before, v, after, rfl, hlast⟩
    · rcases List.mem_cons.1 h with rfl | h
      · exact ⟨[], write.2, writes, rfl, hrest⟩
      · exact absurd h hrest

/-- Writes leave storage as it is exactly if every written cell already holds the last item that
is written to it. -/
lemma setAll_eq_self_iff (hin : ∀ cell ∈ writes.map Prod.fst, (c.get? cell).isSome) :
    c.setAll writes = c ↔
      ∀ before cell v after, writes = before ++ (cell, v) :: after →
        cell ∉ after.map Prod.fst → c.get? cell = some v := by
  constructor
  · rintro h before cell v after rfl hlast
    have hcell : (c.get? cell).isSome := hin cell (by simp)
    have hget : (c.setAll (before ++ (cell, v) :: after)).get? cell = some v :=
      get?_setAll_of_last hcell hlast
    rw [← hget, h]
  · intro h
    refine ext_get? fun cell => ?_
    by_cases hmem : cell ∈ writes.map Prod.fst
    · obtain ⟨before, v, after, rfl, hlast⟩ := exists_last hmem
      rw [get?_setAll_of_last (hin cell hmem) hlast, h before cell v after rfl hlast]
    · rw [get?_setAll_of_not_mem hmem]

end Cells

namespace Cell

def role : Cell → Role
  | state _ => .state
  | parameter _ => .parameter

def place : Cell → Nat
  | state n => n
  | parameter n => n

def write (cell : Cell) (v : Value) : SlotWrite := ⟨cell.role, .int cell.place, v⟩

end Cell

namespace Cells

def storage (c : Cells) : Storage := ⟨.ok (.list c.states), .ok (.list c.parameters)⟩

variable {c : Cells} {cell : Cell} {v : Value}

lemma place?_of_lt {length n : Nat} (h : n < length) : Value.place? length n = some n := by
  unfold Value.place?
  have hpos : ¬ ((n : Int) < 0) := by omega
  have hrange : 0 ≤ (n : Int) ∧ (n : Int) < length := by omega
  simp only [hpos, if_false, hrange, and_self, if_true, Int.toNat_natCast]

lemma item_list {items : List Value} {n : Nat} {v : Value} (h : items[n]? = some v) :
    (Value.list items).item (.int n) = .ok v := by
  obtain ⟨hlt, _⟩ := List.getElem?_eq_some_iff.1 h
  change Value.pick items n = _
  unfold Value.pick
  rw [place?_of_lt hlt]
  simp only [Option.bind_some, h]
  rfl

lemma setItem_list {items : List Value} {n : Nat} (h : n < items.length) (v : Value) :
    (Value.list items).setItem (.int n) v = .ok (.list (items.set n v)) := by
  have hreplaced : Value.replaced items n v = .ok (items.set n v) := by
    unfold Value.replaced
    rw [place?_of_lt h]
    rfl
  change (Value.replaced items n v >>= fun items => pure (Value.list items)) = _
  rw [hreplaced]
  rfl

lemma lt_of_isSome (h : (c.get? cell).isSome) :
    match cell with
    | .state n => n < c.states.length
    | .parameter n => n < c.parameters.length := by
  cases cell <;> simpa [get?] using h

lemma write_storage (h : (c.get? cell).isSome) :
    c.storage.write (cell.write v) = .ok (c.set cell v).storage := by
  have hlt := lt_of_isSome h
  cases cell with
  | state n =>
    change (do
      let written ← (Value.list c.states).setItem (.int n) v
      return (⟨.ok written, .ok (.list c.parameters)⟩ : Storage)) = _
    rw [setItem_list hlt]
    rfl
  | parameter n =>
    change (do
      let written ← (Value.list c.parameters).setItem (.int n) v
      return (⟨.ok (.list c.states), .ok written⟩ : Storage)) = _
    rw [setItem_list hlt]
    rfl

/-- Slot writes into cells that are there are carried out one after the other. -/
lemma writeAll_storage {writes : List (Cell × Value)}
    (hin : ∀ cell ∈ writes.map Prod.fst, (c.get? cell).isSome) :
    c.storage.writeAll (writes.map fun (cell, v) => cell.write v) =
      ((c.setAll writes).storage, none) := by
  induction writes generalizing c with
  | nil => rfl
  | cons write writes ih =>
    have hfirst := hin write.1 (by simp)
    have hrest : ∀ cell ∈ writes.map Prod.fst, ((c.set write.1 write.2).get? cell).isSome := by
      intro cell hmem
      rw [isSome_get?_set]
      exact hin cell (List.mem_cons_of_mem _ hmem)
    rw [List.map_cons, Storage.writeAll, write_storage hfirst]
    exact ih hrest

end Cells
end NamedSlots
