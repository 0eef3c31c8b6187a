import Mathlib.Data.Finset.Card
import Mathlib.Data.Finset.Dedup
import NamedSlots.Proofs.DefinitionGraph
import NamedSlots.Proofs.SymbolReplacement

/-!
# Inlining definitions

Inlining replaces every observed symbol by its definition, inlined in turn. Definitions that do
not come back to their own name are nested no deeper than there are names, so that so many
rounds of replacement are enough: inlining satisfies its recursion equation, and what it leaves
are the reached symbols without a definition.
-/

namespace NamedSlots.Layout

open Relation

/-- Replaces observed symbols by their definitions for a number of rounds. -/
def inlineTo (l : Layout) : Nat → Expr → Expr
  | 0, e => e
  | n + 1, e => e.mapSymbols fun s =>
    match l.definitionOf s.indexedName with
    | some d => inlineTo l n d
    | none => s

/-- An expression with every observed symbol replaced, recursively, by its definition. -/
def inline (l : Layout) (e : Expr) : Expr := l.inlineTo l.observed.entries.length e

/-- What inlining puts in the place of a symbol. -/
def expand (l : Layout) (s : Expr) : Expr :=
  match l.definitionOf s.indexedName with
  | some d => l.inline d
  | none => s

/-- Definitions are nested at most so deep below an expression. -/
def DepthAtMost (l : Layout) : Nat → Expr → Prop
  | 0, e => ∀ s ∈ e.scalarLeaves, l.definitionOf s.indexedName = none
  | n + 1, e => ∀ s ∈ e.scalarLeaves, ∀ d, l.definitionOf s.indexedName = some d →
    DepthAtMost l n d

variable {l : Layout} {e d s : Expr}

/-- Without cycles, definitions are nested no deeper than the names that can still be met. -/
lemma depthAtMost_of_card (hl : l.Acyclic) (n : Nat) (names : Finset String)
    (hcard : names.card ≤ n)
    (hnames : ∀ s ∈ e.scalarLeaves, ∀ name, ReflTransGen l.Mentions s.indexedName name →
      (l.definitionOf name).isSome = true → name ∈ names) : l.DepthAtMost n e := by
  induction n generalizing e names with
  | zero =>
    intro s hs
    rw [Option.eq_none_iff_forall_ne_some]
    intro d hd
    have hmem := hnames s hs _ .refl (by rw [hd]; rfl)
    rw [Finset.card_eq_zero.1 (Nat.le_zero.1 hcard)] at hmem
    exact absurd hmem (Finset.notMem_empty _)
  | succ n ih =>
    intro s hs d hd
    have hmem := hnames s hs _ .refl (by rw [hd]; rfl)
    refine ih (names.erase s.indexedName) ?_ ?_
    · rw [Finset.card_erase_of_mem hmem]
      omega
    · intro t ht name hpath hname
      have hmentions := mentions_of_definition hd ht
      have hmem' := hnames s hs name (hpath.head hmentions) hname
      refine Finset.mem_erase.2 ⟨?_, hmem'⟩
      rintro rfl
      exact hl _ (TransGen.head' hmentions hpath)

lemma depthAtMost (hl : l.Acyclic) (e : Expr) : l.DepthAtMost l.observed.entries.length e := by
  refine depthAtMost_of_card hl _ (Assoc.keys l.observed.definitions).toFinset ?_ ?_
  · refine (List.toFinset_card_le _).trans ?_
    rw [Assoc.keys, List.length_map, DefinitionTable.definitions, List.length_map]
  · intro s _ name _ hname
    obtain ⟨d, hd⟩ := Option.isSome_iff_exists.1 hname
    obtain ⟨k, hk, hkey⟩ := Assoc.mem_of_find? hd
    rw [← eq_of_beq hkey]
    exact List.mem_toFinset.2 (Assoc.mem_keys_of_mem hk)

/-- A well-formed expression whose leaves are known, through definitions too, and no array of
which has an observed element. -/
structure Inlinable (l : Layout) (e : Expr) : Prop where
  wellFormed (d : Expr) : l.Within e d → d.WellFormed
  known (s : Expr) : l.Reached e s → ∃ role, l.rolesOf (.expr s) = [role]
  arrays (d : Expr) : l.Within e d → ∀ a ∈ d.leaves, a.kind = .array → ∀ s ∈ a.elements,
    l.has .observed (.expr s) = false

namespace Inlinable

lemma resolves (he : l.Inlinable e) : l.Resolves e where
  plain d hd := (he.wellFormed d hd).hasPlainSymbols
  known := he.known

lemma of_unfolds (he : l.Inlinable e) (hed : l.Unfolds e d) : l.Inlinable d where
  wellFormed d' hd' := he.wellFormed d' (hd'.head hed)
  known s hs := he.known s (hs.of_unfolds hed)
  arrays d' hd' := he.arrays d' (hd'.head hed)

lemma of_within (he : l.Inlinable e) (hed : l.Within e d) : l.Inlinable d := by
  induction hed with
  | refl => exact he
  | tail _ hunfolds ih => exact ih.of_unfolds hunfolds

lemma of_definition (he : l.Inlinable e) (hs : l.Reached e s)
    (hd : l.definitionOf s.indexedName = some d) : l.Inlinable d := by
  obtain ⟨d', hwithin, hmem⟩ := hs
  exact (he.of_within hwithin).of_unfolds ⟨s, hmem, hd⟩

lemma hasPlainSymbols (he : l.Inlinable e) : e.HasPlainSymbols :=
  (he.wellFormed e .refl).hasPlainSymbols

lemma mem_scalarLeaves_of_mem_leaves (he : l.Inlinable e) (hs : s ∈ e.leaves)
    (hkind : s.kind = .symbol) : s ∈ e.scalarLeaves := by
  have hscalars : s ∈ s.scalars := by
    rw [Expr.scalars, if_neg (by simp [hkind])]
    exact List.mem_singleton_self s
  apply (Expr.mem_scalarLeaves he.hasPlainSymbols).2
  exact List.mem_flatMap.2 ⟨s, hs, hscalars⟩

lemma mem_scalarLeaves_of_mem_elements (he : l.Inlinable e) {a : Expr} (ha : a ∈ e.leaves)
    (hkind : a.kind = .array) (hs : s ∈ a.elements) : s ∈ e.scalarLeaves := by
  have hscalars : s ∈ a.scalars := by
    rw [Expr.scalars, if_pos hkind]
    exact hs
  apply (Expr.mem_scalarLeaves he.hasPlainSymbols).2
  exact List.mem_flatMap.2 ⟨a, ha, hscalars⟩

lemma definitionOf_element (he : l.Inlinable e) {a : Expr} (ha : a ∈ e.leaves)
    (hkind : a.kind = .array) (hs : s ∈ a.elements) : l.definitionOf s.indexedName = none := by
  have hobserved := he.arrays e .refl a ha hkind s hs
  rw [has_observed_of_plain (Expr.isPlainSymbol_of_mem_elements hs)] at hobserved
  simpa using hobserved

lemma leaf_cases (he : l.Inlinable e) (hs : s ∈ e.scalarLeaves) :
    (s ∈ e.leaves ∧ s.kind = .symbol) ∨
      ∃ a ∈ e.leaves, a.kind = .array ∧ s ∈ a.elements := by
  obtain ⟨leaf, hleaf, hmem⟩ := List.mem_flatMap.1 ((Expr.mem_scalarLeaves he.hasPlainSymbols).1 hs)
  rw [Expr.scalars] at hmem
  split at hmem
  · rename_i hkind
    exact .inr ⟨leaf, hleaf, hkind, hmem⟩
  · rename_i hkind
    rw [List.mem_singleton.1 hmem]
    exact .inl ⟨hleaf, (Expr.kind_of_mem_leaves hleaf).resolve_right hkind⟩

end Inlinable

/-- So many rounds as definitions are nested deep are enough. -/
lemma inlineTo_succ (he : l.Inlinable e) {n : Nat} (hn : l.DepthAtMost n e) :
    l.inlineTo n e = l.inlineTo (n + 1) e := by
  induction n generalizing e with
  | zero =>
    have hid : l.inlineTo 1 e = e.mapSymbols id := by
      rw [inlineTo]
      refine Expr.mapSymbols_congr fun s hs hkind => ?_
      rw [hn s (he.mem_scalarLeaves_of_mem_leaves hs hkind)]
      rfl
    rw [hid, Expr.mapSymbols_id]
    rfl
  | succ n ih =>
    rw [inlineTo, inlineTo]
    refine Expr.mapSymbols_congr fun s hs hkind => ?_
    have hmem := he.mem_scalarLeaves_of_mem_leaves hs hkind
    cases hd : l.definitionOf s.indexedName with
    | none => rfl
    | some d => exact ih (he.of_unfolds ⟨s, hmem, hd⟩) (hn s hmem d hd)

/-- Inlining satisfies its recursion equation. -/
theorem inline_eq (hl : l.Acyclic) (he : l.Inlinable e) : l.inline e = e.mapSymbols l.expand := by
  rw [inline, inlineTo_succ he (depthAtMost hl e)]
  rfl

lemma expand_of_definition (hd : l.definitionOf s.indexedName = some d) :
    l.expand s = l.inline d := by
  rw [expand, hd]

lemma expand_of_none (hs : l.definitionOf s.indexedName = none) : l.expand s = s := by
  rw [expand, hs]

lemma mem_occurrences_inline (hl : l.Acyclic) (he : l.Inlinable e) :
    s ∈ (l.inline e).occurrences ↔
      (∃ x ∈ e.leaves, x.kind = .symbol ∧ s ∈ (l.expand x).occurrences) ∨
        ∃ a ∈ e.leaves, a.kind = .array ∧ s ∈ a.elements := by
  rw [inline_eq hl he]
  exact Expr.mem_occurrences_mapSymbols

lemma occurrences_of_kind {x : Expr} (hkind : x.kind = .symbol) : x.occurrences = [x] := by
  obtain ⟨k, cs, lb⟩ := x
  cases hkind
  exact Expr.occurrences_symbol cs lb

/-- To show something of every expression, it is shown of one whose definitions have it. -/
theorem inductionOn_definitions (hl : l.Acyclic) {motive : (e : Expr) → l.Inlinable e → Prop}
    (e : Expr) (he : l.Inlinable e)
    (step : ∀ e (he : l.Inlinable e),
      (∀ d (hd : l.Unfolds e d), motive d (he.of_unfolds hd)) → motive e he) : motive e he := by
  obtain ⟨n, hn⟩ : ∃ n, l.DepthAtMost n e := ⟨_, depthAtMost hl e⟩
  induction n generalizing e with
  | zero =>
    refine step e he ?_
    rintro d ⟨s, hs, hd⟩
    rw [hn s hs] at hd
    cases hd
  | succ n ih =>
    refine step e he ?_
    rintro d ⟨s, hs, hd⟩
    exact ih d (he.of_unfolds ⟨s, hs, hd⟩) (hn s hs d hd)

/-- What inlining leaves is reached and has no definition. -/
lemma reached_of_mem_occurrences_inline (hl : l.Acyclic) (he : l.Inlinable e)
    (hs : s ∈ (l.inline e).occurrences) :
    l.Reached e s ∧ l.definitionOf s.indexedName = none := by
  induction e, he using inductionOn_definitions hl with
  | step e he ih =>
    rcases (mem_occurrences_inline hl he).1 hs with ⟨x, hx, hkind, hsx⟩ | ⟨a, ha, hkind, hsa⟩
    · have hmem := he.mem_scalarLeaves_of_mem_leaves hx hkind
      cases hd : l.definitionOf x.indexedName with
      | none =>
        rw [expand_of_none hd, occurrences_of_kind hkind, List.mem_singleton] at hsx
        rw [hsx]
        exact ⟨reached_of_mem hmem, hd⟩
      | some d =>
        rw [expand_of_definition hd] at hsx
        obtain ⟨hreached, hnone⟩ := ih d ⟨x, hmem, hd⟩ hsx
        exact ⟨hreached.of_unfolds ⟨x, hmem, hd⟩, hnone⟩
    · exact ⟨reached_of_mem (he.mem_scalarLeaves_of_mem_elements ha hkind hsa),
        he.definitionOf_element ha hkind hsa⟩

/-- Inlining leaves every reached symbol that has no definition. -/
lemma mem_occurrences_inline_of_reached (hl : l.Acyclic) (he : l.Inlinable e)
    (hs : l.Reached e s) (hnone : l.definitionOf s.indexedName = none) :
    s ∈ (l.inline e).occurrences := by
  obtain ⟨d, hwithin, hmem⟩ := hs
  induction hwithin using ReflTransGen.head_induction_on with
  | refl =>
    refine (mem_occurrences_inline hl he).2 ?_
    rcases he.leaf_cases hmem with ⟨hleaf, hkind⟩ | ⟨a, ha, hkind, hsa⟩
    · refine .inl ⟨s, hleaf, hkind, ?_⟩
      rw [expand_of_none hnone, occurrences_of_kind hkind]
      exact List.mem_singleton_self s
    · exact .inr ⟨a, ha, hkind, hsa⟩
  | @head e e' hunfolds _ ih =>
    have htail := ih (he.of_unfolds hunfolds)
    obtain ⟨x, hx, hd⟩ := hunfolds
    refine (mem_occurrences_inline hl he).2 (.inl ?_)
    rcases he.leaf_cases hx with ⟨hleaf, hkind⟩ | ⟨a, ha, hkind, hxa⟩
    · refine ⟨x, hleaf, hkind, ?_⟩
      rwa [expand_of_definition hd]
    · rw [he.definitionOf_element ha hkind hxa] at hd
      cases hd

lemma wellFormed_inline (hl : l.Acyclic) (he : l.Inlinable e) : (l.inline e).WellFormed := by
  induction e, he using inductionOn_definitions hl with
  | step e he ih =>
    rw [inline_eq hl he]
    refine (he.wellFormed e .refl).mapSymbols fun s hs hkind => ?_
    have hmem := he.mem_scalarLeaves_of_mem_leaves hs hkind
    cases hd : l.definitionOf s.indexedName with
    | none =>
      rw [expand_of_none hd]
      exact .of_isPlainSymbol (he.hasPlainSymbols s hs hkind)
    | some d =>
      rw [expand_of_definition hd]
      exact ih d ⟨s, hmem, hd⟩

section Inlined

variable (hl : l.Acyclic) (he : l.Inlinable e)
include hl he

lemma mem_scalarLeaves_inline :
    s ∈ (l.inline e).scalarLeaves ↔ l.Reached e s ∧ l.definitionOf s.indexedName = none := by
  rw [Expr.mem_scalarLeaves (wellFormed_inline hl he).hasPlainSymbols]
  constructor
  · exact reached_of_mem_occurrences_inline hl he
  · rintro ⟨hreached, hnone⟩
    exact mem_occurrences_inline_of_reached hl he hreached hnone

lemma within_inline {d : Expr} (hd : l.Within (l.inline e) d) : d = l.inline e := by
  induction hd with
  | refl => rfl
  | @tail d d' _ hunfolds ih =>
    obtain ⟨s, hs, hdef⟩ := hunfolds
    rw [ih, mem_scalarLeaves_inline hl he] at hs
    rw [hs.2] at hdef
    cases hdef

lemma reached_inline_iff :
    l.Reached (l.inline e) s ↔ l.Reached e s ∧ l.definitionOf s.indexedName = none := by
  rw [← mem_scalarLeaves_inline hl he]
  constructor
  · rintro ⟨d, hd, hs⟩
    rwa [within_inline hl he hd] at hs
  · exact reached_of_mem

lemma inlinable_inline : l.Inlinable (l.inline e) where
  wellFormed d hd := by
    rw [within_inline hl he hd]
    exact wellFormed_inline hl he
  known s hs := he.known s ((reached_inline_iff hl he).1 hs).1
  arrays d hd a ha hkind s hs := by
    rw [within_inline hl he hd] at ha
    have hmem : s ∈ (l.inline e).occurrences := by
      refine List.mem_flatMap.2 ⟨a, ha, ?_⟩
      rwa [Expr.scalars, if_pos hkind]
    rw [has_observed_of_plain (Expr.isPlainSymbol_of_mem_elements hs)]
    rw [(reached_of_mem_occurrences_inline hl he hmem).2]
    rfl

lemma inline_inline : l.inline (l.inline e) = l.inline e := by
  have hinlinable := inlinable_inline hl he
  rw [inline_eq hl hinlinable]
  have hid : (l.inline e).mapSymbols l.expand = (l.inline e).mapSymbols id := by
    refine Expr.mapSymbols_congr fun s hs hkind => ?_
    have hmem := hinlinable.mem_scalarLeaves_of_mem_leaves hs hkind
    exact expand_of_none ((mem_scalarLeaves_inline hl he).1 hmem).2
  rw [hid, Expr.mapSymbols_id]

end Inlined

end NamedSlots.Layout
