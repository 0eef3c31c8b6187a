/-!
# Unvisited items

A walk that never enters an item twice on one path keeps the list of items still unvisited.
Entering an item removes it, so that the list gets shorter with every step.
-/

namespace NamedSlots.Unvisited

variable {α : Type} [BEq α]

def mayEnter (unvisited : List α) (a : α) : Bool := unvisited.any (a == ·)

def enter (unvisited : List α) (a : α) : List α := unvisited.filter fun b => !(a == b)

theorem length_enter_lt {unvisited : List α} {a : α} (h : mayEnter unvisited a = true) :
    (enter unvisited a).length < unvisited.length := by
  obtain ⟨b, member, equal⟩ := List.any_eq_true.1 h
  exact List.length_filter_lt_length_iff_exists.2 ⟨b, member, by simp [equal]⟩

end NamedSlots.Unvisited
