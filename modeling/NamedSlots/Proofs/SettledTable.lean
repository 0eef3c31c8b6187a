import NamedSlots.Proofs.DefinitionGraph

/-!
# Settled tables of leaves

A table is settled for an expression when its leaves are reached from the expression, each bound
once and as the layout says, and the leaves of every definition are bound before the symbol that
it defines. Such a table shows that no name in it comes back to itself, and evaluation on it
never looks for a leaf that is not there.
-/

namespace NamedSlots

open Relation

/-- A table, latest entry first, that is right about the leaves of an expression. -/
inductive Settled (l : Layout) (e : Expr) : List (Expr × Meaning) → Prop
  | nil : Settled l e []
  | cons {entries : List (Expr × Meaning)} {leaf : Expr} {m : Meaning}
      (earlier : Settled l e entries) (reached : l.Reached e leaf)
      (new : leaf ∉ Assoc.keys entries) (meaning : l.meaningOf leaf = some m)
      (closed : ∀ d, m = .definition d → ∀ s ∈ d.scalarLeaves, s ∈ Assoc.keys entries) :
      Settled l e ((leaf, m) :: entries)

namespace Settled

variable {l : Layout} {e : Expr} {entries : List (Expr × Meaning)} {s : Expr} {m : Meaning}

lemma reached_of_mem_keys (h : Settled l e entries) (hs : s ∈ Assoc.keys entries) :
    l.Reached e s := by
  induction h with
  | nil => cases hs
  | cons earlier reached new meaning closed ih =>
    rcases List.mem_cons.1 hs with rfl | hs
    · exact reached
    · exact ih hs

lemma meaningOf_of_mem (h : Settled l e entries) (hs : (s, m) ∈ entries) :
    l.meaningOf s = some m := by
  induction h with
  | nil => cases hs
  | cons earlier reached new meaning closed ih =>
    rcases List.mem_cons.1 hs with heq | hs
    · cases heq
      exact meaning
    · exact ih hs

lemma nodup_keys (h : Settled l e entries) : (Assoc.keys entries).Nodup := by
  induction h with
  | nil => exact List.nodup_nil
  | cons earlier reached new meaning closed ih => exact List.nodup_cons.2 ⟨new, ih⟩

lemma of_append {later earlier : List (Expr × Meaning)} (h : Settled l e (later ++ earlier)) :
    Settled l e earlier := by
  induction later with
  | nil => exact h
  | cons entry later ih =>
    cases h with
    | cons earlier _ _ _ _ => exact ih earlier

/-- The leaves of a definition are bound, and before the symbol that it defines. -/
lemma closed_of_append {later earlier : List (Expr × Meaning)} {d : Expr}
    (h : Settled l e (later ++ (s, .definition d) :: earlier)) {t : Expr}
    (ht : t ∈ d.scalarLeaves) : t ∈ Assoc.keys earlier := by
  cases h.of_append with
  | cons _ _ _ _ closed => exact closed d rfl t ht

lemma closed_of_mem (h : Settled l e entries) {d : Expr} (hs : (s, .definition d) ∈ entries)
    {t : Expr} (ht : t ∈ d.scalarLeaves) : t ∈ Assoc.keys entries := by
  obtain ⟨later, earlier, rfl⟩ := List.append_of_mem hs
  have hmem := h.closed_of_append ht
  rw [Assoc.keys, List.map_append, List.map_cons]
  exact List.mem_append_right _ (List.mem_cons_of_mem _ hmem)

/-- Following definitions does not leave a settled table with the leaves of the expression. -/
lemma mem_keys_of_within (h : Settled l e entries) (he : l.PlainThrough e)
    (hroot : ∀ s ∈ e.scalarLeaves, s ∈ Assoc.keys entries) {d : Expr} (hd : l.Within e d)
    (hs : s ∈ d.scalarLeaves) : s ∈ Assoc.keys entries := by
  induction hd generalizing s with
  | refl => exact hroot s hs
  | @tail d d' hd hunfolds ih =>
    obtain ⟨t, ht, hdef⟩ := hunfolds
    obtain ⟨m, hm⟩ := Assoc.exists_mem_of_mem_keys (ih ht)
    have hmeaning := h.meaningOf_of_mem hm
    have hdefinition := Layout.meaningOf_of_definitionOf (he.isPlainSymbol ⟨d, hd, ht⟩)
      (Layout.exists_role_of_meaningOf hmeaning) hdef
    rw [hmeaning] at hdefinition
    cases hdefinition
    exact h.closed_of_mem hm hs

/-- Every leaf of an expression that has a settled table has one role. -/
lemma resolves (h : Settled l e entries) (he : l.PlainThrough e)
    (hroot : ∀ s ∈ e.scalarLeaves, s ∈ Assoc.keys entries) : l.Resolves e where
  plain := he
  known s hs := by
    obtain ⟨d, hd, hmem⟩ := hs
    obtain ⟨m, hm⟩ := Assoc.exists_mem_of_mem_keys (h.mem_keys_of_within he hroot hd hmem)
    exact Layout.exists_role_of_meaningOf (h.meaningOf_of_mem hm)

variable (he : l.Resolves e)
include he

lemma isPlainSymbol_of_mem_keys (h : Settled l e entries) (hs : s ∈ Assoc.keys entries) :
    s.IsPlainSymbol := he.isPlainSymbol (h.reached_of_mem_keys hs)

lemma plain_of_mem (h : Settled l e entries) {d : Expr} (hs : (s, .definition d) ∈ entries) :
    d.HasPlainSymbols := by
  have hreached := h.reached_of_mem_keys (Assoc.mem_keys_of_mem hs)
  have hdef := (Layout.rolesOf_of_definition (h.meaningOf_of_mem hs)).2
  exact he.plain_of_definition hreached hdef

lemma find?_eq_some_iff (h : Settled l e entries) (hs : s.IsPlainSymbol) :
    Assoc.find? s entries = some m ↔ (s, m) ∈ entries :=
  Assoc.find?_eq_some_iff (fun _ hk => h.isPlainSymbol_of_mem_keys he hk) h.nodup_keys hs

lemma contains_iff (h : Settled l e entries) (hs : s.IsPlainSymbol) :
    Assoc.contains entries s = true ↔ s ∈ Assoc.keys entries :=
  Assoc.contains_iff (fun _ hk => h.isPlainSymbol_of_mem_keys he hk) hs

/-- No leaf is bound twice. -/
lemma not_contains {earlier : List (Expr × Meaning)} (h : Settled l e ((s, m) :: earlier)) :
    ¬ Assoc.contains earlier s = true := by
  cases h with
  | cons settled reached new _ _ => rwa [settled.contains_iff he (he.isPlainSymbol reached)]

lemma mem_keys_of_reached (h : Settled l e entries)
    (hroot : ∀ s ∈ e.scalarLeaves, s ∈ Assoc.keys entries) (hs : l.Reached e s) :
    s ∈ Assoc.keys entries := by
  obtain ⟨d, hd, hmem⟩ := hs
  exact h.mem_keys_of_within he.plain hroot hd hmem

/-- The names in a settled table are founded on one another. -/
lemma isFounded_of_mem_keys (h : Settled l e entries) (hs : s ∈ Assoc.keys entries) :
    l.IsFounded s.indexedName := by
  induction h generalizing s with
  | nil => cases hs
  | @cons entries leaf m earlier reached new meaning closed ih =>
    rcases List.mem_cons.1 hs with rfl | hs
    · rcases Layout.meaningOf_cases (he.isPlainSymbol reached) (he.known _ reached) with
        ⟨_, _, hundefined⟩ | ⟨d, hd, hdef⟩
      · exact Layout.isFounded_of_undefined hundefined
      · rw [meaning] at hd
        cases hd
        exact Layout.isFounded_of_definition hdef fun t ht => ih (closed d rfl t ht)
    · exact ih hs

end Settled
end NamedSlots
