import NamedSlots.Shape

/-!
# Rectangles

Items in rows and columns. Two rectangles combine item by item when their sizes agree, when one
is a single item, or when one fits a whole number of times side by side into the other.
-/

namespace NamedSlots.Graph

/-- Rows and columns of items, listed row by row. -/
structure Rectangle (α : Type) where
  rows : Nat
  columns : Nat
  items : List α
deriving Repr

namespace Rectangle

variable {α β : Type}

def single (a : α) : Rectangle α := ⟨1, 1, [a]⟩

def column (items : List α) : Rectangle α := ⟨items.length, 1, items⟩

def single? (m : Rectangle α) : Option α :=
  match m.rows, m.columns, m.items with
  | 1, 1, [a] => some a
  | _, _, _ => none

def at? (m : Rectangle α) (i j : Nat) : Option α := m.items[i * m.columns + j]?

def row (m : Rectangle α) (i : Nat) : List α := (List.range m.columns).filterMap fun j => m.at? i j

def rowList (m : Rectangle α) : List (List α) := (List.range m.rows).map m.row

def byColumns (m : Rectangle α) : List α :=
  (List.range m.columns).flatMap fun j => (List.range m.rows).filterMap fun i => m.at? i j

/-- Applies a function to every item, along with the item's place in the list. -/
def mapWithPlace (f : Nat → α → β) (m : Rectangle α) : Rectangle β :=
  ⟨m.rows, m.columns, m.items.mapIdx f⟩

def beside (m : Rectangle α) (copies : Nat) : Rectangle α :=
  ⟨m.rows, m.columns * copies, m.rowList.flatMap fun r => (List.replicate copies r).flatten⟩

private def zip (f : Nat → α → α → β) (a b : Rectangle α) : Rectangle β :=
  ⟨a.rows, a.columns, (a.items.zip b.items).mapIdx fun i (x, y) => f i x y⟩

def combine? (f : Nat → α → α → β) (a b : Rectangle α) : Option (Rectangle β) :=
  match a.single?, b.single? with
  | some x, _ => some (b.mapWithPlace fun i y => f i x y)
  | none, some y => some (a.mapWithPlace fun i x => f i x y)
  | none, none =>
    if a.rows = b.rows ∧ a.columns = b.columns then some (zip f a b)
    else if a.rows ≠ b.rows ∨ a.rows = 0 ∨ a.columns = 0 ∨ b.columns = 0 then none
    else if a.columns % b.columns = 0 then some (zip f a (b.beside (a.columns / b.columns)))
    else if b.columns % a.columns = 0 then some (zip f (a.beside (b.columns / a.columns)) b)
    else none

def sideBySide? (ms : List (Rectangle α)) : Option (Rectangle α) :=
  match ms with
  | [] => some ⟨1, 0, []⟩
  | m :: rest =>
    if rest.all fun r => r.rows == m.rows then
      some ⟨m.rows, ms.foldl (fun n m => n + m.columns) 0, (List.range m.rows).flatMap fun i => ms.flatMap (row · i)⟩
    else none

/-- Puts rectangles of equally many columns below each other. -/
def stacked? (ms : List (Rectangle α)) : Option (Rectangle α) :=
  match ms with
  | [] => some ⟨0, 1, []⟩
  | m :: rest =>
    if rest.all fun r => r.columns == m.columns then
      some ⟨ms.foldl (fun n m => n + m.rows) 0, m.columns, ms.flatMap items⟩
    else none

end Rectangle
end NamedSlots.Graph
