import Mathlib.Logic.Relation
import NamedSlots.Proofs.AssocLookup
import NamedSlots.Proofs.LayoutAnswer

/-!
# The graph of observed definitions

An observed symbol leads to its definition, and a definition to the symbols that it mentions.
Symbols are joined by name, so that two spellings of one name are one node of the graph.
-/

namespace NamedSlots.Layout

open Relation

section Graph

variable (l : Layout)

/-- One expression has a leaf whose definition is the other. -/
def Unfolds (e d : Expr) : Prop := ∃ s ∈ e.scalarLeaves, l.definitionOf s.indexedName = some d

/-- The definitions of the leaves of an expression. -/
def definitionsIn (e : Expr) : List Expr :=
  e.scalarLeaves.filterMap fun s => l.definitionOf s.indexedName

/-- The expressions met by following definitions from an expression, itself included. -/
def Within : Expr → Expr → Prop := ReflTransGen l.Unfolds

/-- The scalar leaves of an expression, through definitions too. -/
def Reached (e s : Expr) : Prop := ∃ d, l.Within e d ∧ s ∈ d.scalarLeaves

/-- The definition of one name mentions a symbol with the other. -/
def Mentions (a b : String) : Prop :=
  ∃ d, l.definitionOf a = some d ∧ ∃ s ∈ d.scalarLeaves, s.indexedName = b

/-- No definition comes back to its own name. -/
def Acyclic : Prop := ∀ name, ¬ TransGen l.Mentions name name

/-- Some leaf of the expression, through definitions too, comes back to its own name. -/
def CyclicFrom (e : Expr) : Prop :=
  ∃ s, l.Reached e s ∧ TransGen l.Mentions s.indexedName s.indexedName

/-- Every symbol of the expression, through definitions too, has plain integer indices. -/
def PlainThrough (e : Expr) : Prop := ∀ d, l.Within e d → d.HasPlainSymbols

/-- Every leaf of the expression, through definitions too, has plain integer indices and
exactly one role. -/
structure Resolves (e : Expr) : Prop where
  plain (d : Expr) : l.Within e d → d.HasPlainSymbols
  known (s : Expr) : l.Reached e s → ∃ role, l.rolesOf (.expr s) = [role]

/-- Every leaf of the expression has exactly one role. -/
def Knows (e : Expr) : Prop := ∀ s ∈ e.scalarLeaves, (l.rolesOf (.expr s)).length = 1

instance : DecidablePred l.Knows := fun e =>
  inferInstanceAs (Decidable (∀ s ∈ e.scalarLeaves, (l.rolesOf (.expr s)).length = 1))

/-- An expression has a property, and so has all that is met by following definitions from it, which
ends on every path. -/
inductive Unrolls (P : Expr → Prop) : Expr → Prop
  | intro {e : Expr} (holds : P e) (rest : ∀ d ∈ l.definitionsIn e, Unrolls P d) : Unrolls P e

/-- What a scalar symbol of one role stands for. -/
def meaningOf (s : Expr) : Option Meaning :=
  match l.rolesOf (.expr s) with
  | [.state] => (l.place? .state (.expr s)).map fun (n : Nat) => .source (.state (.int n))
  | [.parameter] => (l.place? .parameter (.expr s)).map fun (n : Nat) => .source (.parameter (.int n))
  | [.independent] => some (.source .time)
  | [.observed] => (l.definitionOf s.indexedName).map .definition
  | _ => none

end Graph

variable {l : Layout} {e d s t : Expr}

lemma not_cyclicFrom (hl : l.Acyclic) (e : Expr) : ¬ l.CyclicFrom e := by
  rintro ⟨s, _, hcycle⟩
  exact hl _ hcycle

lemma reached_of_mem (hs : s ∈ e.scalarLeaves) : l.Reached e s := ⟨e, .refl, hs⟩

lemma Reached.of_definition (hs : l.Reached e s) (hd : l.definitionOf s.indexedName = some d)
    (ht : t ∈ d.scalarLeaves) : l.Reached e t := by
  obtain ⟨d', hwithin, hmem⟩ := hs
  exact ⟨d, hwithin.tail ⟨s, hmem, hd⟩, ht⟩

lemma Reached.of_unfolds (hed : l.Unfolds e d) (hs : l.Reached d s) : l.Reached e s := by
  obtain ⟨d', hwithin, hmem⟩ := hs
  exact ⟨d', hwithin.head hed, hmem⟩

lemma mem_definitionsIn : d ∈ l.definitionsIn e ↔ l.Unfolds e d := List.mem_filterMap

lemma PlainThrough.isPlainSymbol (he : l.PlainThrough e) (hs : l.Reached e s) :
    s.IsPlainSymbol := by
  obtain ⟨d, hwithin, hmem⟩ := hs
  exact (he d hwithin).of_mem_scalarLeaves hmem

namespace Resolves

lemma isPlainSymbol (he : l.Resolves e) (hs : l.Reached e s) : s.IsPlainSymbol :=
  PlainThrough.isPlainSymbol he.plain hs

lemma plain_of_definition (he : l.Resolves e) (hs : l.Reached e s)
    (hd : l.definitionOf s.indexedName = some d) : d.HasPlainSymbols := by
  obtain ⟨d', hwithin, hmem⟩ := hs
  exact he.plain d (hwithin.tail ⟨s, hmem, hd⟩)

end Resolves

lemma mentions_of_definition (hd : l.definitionOf s.indexedName = some d)
    (ht : t ∈ d.scalarLeaves) : l.Mentions s.indexedName t.indexedName :=
  ⟨d, hd, t, ht, rfl⟩

lemma has_observed_of_plain (hs : s.IsPlainSymbol) :
    l.has .observed (.expr s) = (l.definitionOf s.indexedName).isSome := by
  rw [has_observed, hs.key?_eq]
  rfl

lemma definitionOf_eq_none (hs : s.IsPlainSymbol) {role : Role}
    (hrole : l.rolesOf (.expr s) = [role]) (hne : role ≠ .observed) :
    l.definitionOf s.indexedName = none := by
  have hhas := not_has_of_rolesOf hrole (by simp : Role.observed ∈ _) hne.symm
  rw [has_observed_of_plain hs] at hhas
  simpa using hhas

/-- A known symbol stands for a source or for a definition, and for the latter exactly if its
name is defined. -/
lemma meaningOf_cases (hs : s.IsPlainSymbol) (hknown : ∃ role, l.rolesOf (.expr s) = [role]) :
    (∃ src, l.meaningOf s = some (.source src) ∧ l.definitionOf s.indexedName = none) ∨
      ∃ d, l.meaningOf s = some (.definition d) ∧ l.definitionOf s.indexedName = some d := by
  obtain ⟨role, hrole⟩ := hknown
  have hhas := has_of_rolesOf hrole
  cases role with
  | state =>
    obtain ⟨n, hn⟩ := exists_place? rfl hhas
    refine .inl ⟨.state (.int n), ?_, definitionOf_eq_none hs hrole (by simp)⟩
    simp only [meaningOf, hrole, hn, Option.map_some]
  | parameter =>
    obtain ⟨n, hn⟩ := exists_place? rfl hhas
    refine .inl ⟨.parameter (.int n), ?_, definitionOf_eq_none hs hrole (by simp)⟩
    simp only [meaningOf, hrole, hn, Option.map_some]
  | independent =>
    refine .inl ⟨.time, ?_, definitionOf_eq_none hs hrole (by simp)⟩
    simp only [meaningOf, hrole]
  | observed =>
    rw [has_observed_of_plain hs] at hhas
    obtain ⟨d, hd⟩ := Option.isSome_iff_exists.1 hhas
    refine .inr ⟨d, ?_, hd⟩
    simp only [meaningOf, hrole, hd, Option.map_some]
  | unknown => cases hhas

lemma meaningOf_of_definitionOf (hs : s.IsPlainSymbol)
    (hknown : ∃ role, l.rolesOf (.expr s) = [role]) (hd : l.definitionOf s.indexedName = some d) :
    l.meaningOf s = some (.definition d) := by
  rcases meaningOf_cases hs hknown with ⟨src, _, hnone⟩ | ⟨d', hmeaning, hsome⟩
  · rw [hd] at hnone
    cases hnone
  · rw [hd] at hsome
    cases hsome
    exact hmeaning

/-- What comes from a source has a place among the states or the parameters, or is the time. -/
lemma cases_of_source {src : Source} (h : l.meaningOf s = some (.source src)) :
    (∃ n : Nat, src = .state (.int n) ∧ l.rolesOf (.expr s) = [.state] ∧
        l.place? .state (.expr s) = some n) ∨
      (∃ n : Nat, src = .parameter (.int n) ∧ l.rolesOf (.expr s) = [.parameter] ∧
        l.place? .parameter (.expr s) = some n) ∨
      src = .time ∧ l.rolesOf (.expr s) = [.independent] := by
  unfold meaningOf at h
  split at h
  · rename_i hrole
    obtain ⟨n, hn, heq⟩ := Option.map_eq_some_iff.1 h
    cases heq
    exact .inl ⟨n, rfl, hrole, hn⟩
  · rename_i hrole
    obtain ⟨n, hn, heq⟩ := Option.map_eq_some_iff.1 h
    cases heq
    exact .inr (.inl ⟨n, rfl, hrole, hn⟩)
  · rename_i hrole
    cases h
    exact .inr (.inr ⟨rfl, hrole⟩)
  · obtain ⟨d, _, heq⟩ := Option.map_eq_some_iff.1 h
    cases heq
  · cases h

lemma cases_of_state {i : Index} (h : l.meaningOf s = some (.source (.state i))) :
    ∃ n : Nat, i = .int n ∧ l.rolesOf (.expr s) = [.state] ∧
      l.place? .state (.expr s) = some n := by
  rcases cases_of_source h with ⟨n, heq, hrole, hn⟩ | ⟨n, heq, _⟩ | ⟨heq, _⟩
  · cases heq
    exact ⟨n, rfl, hrole, hn⟩
  · cases heq
  · cases heq

/-- A layout has no providers: what comes from a source is not observed. -/
lemma role_of_meaningOf {src : Source} (h : l.meaningOf s = some (.source src)) :
    src.role ≠ .observed := by
  rcases cases_of_source h with ⟨n, rfl, _⟩ | ⟨n, rfl, _⟩ | ⟨rfl, _⟩ <;> simp [Source.role]

lemma exists_role_of_meaningOf {m : Meaning} (h : l.meaningOf s = some m) :
    ∃ role, l.rolesOf (.expr s) = [role] := by
  unfold meaningOf at h
  split at h
  · exact ⟨_, by assumption⟩
  · exact ⟨_, by assumption⟩
  · exact ⟨_, by assumption⟩
  · exact ⟨_, by assumption⟩
  · cases h

lemma rolesOf_of_definition (hd : l.meaningOf s = some (.definition d)) :
    l.rolesOf (.expr s) = [.observed] ∧ l.definitionOf s.indexedName = some d := by
  unfold meaningOf at hd
  split at hd
  · simp at hd
  · simp at hd
  · cases hd
  · rename_i hrole
    obtain ⟨d', hd', heq⟩ := Option.map_eq_some_iff.1 hd
    cases heq
    exact ⟨hrole, hd'⟩
  · cases hd

/-! ### What a symbol reaches -/

lemma reached_self (hs : s.IsPlainSymbol) : l.Reached s s := by
  refine reached_of_mem ?_
  rw [hs.scalarLeaves_eq]
  exact List.mem_singleton_self s

/-- A symbol without a definition reaches itself only. -/
lemma reached_iff_of_undefined (hs : s.IsPlainSymbol) (hd : l.definitionOf s.indexedName = none) :
    l.Reached s t ↔ t = s := by
  constructor
  · rintro ⟨d, hwithin, ht⟩
    rcases hwithin.cases_head with rfl | ⟨d', ⟨x, hx, hdef⟩, _⟩
    · rw [hs.scalarLeaves_eq] at ht
      exact List.mem_singleton.1 ht
    · rw [hs.scalarLeaves_eq, List.mem_singleton] at hx
      rw [hx, hd] at hdef
      cases hdef
  · rintro rfl
    exact reached_self hs

/-- A defined symbol reaches itself and what its definition reaches. -/
lemma reached_iff_of_defined (hs : s.IsPlainSymbol) (hd : l.definitionOf s.indexedName = some d) :
    l.Reached s t ↔ t = s ∨ l.Reached d t := by
  have hmem : s ∈ s.scalarLeaves := by
    rw [hs.scalarLeaves_eq]
    exact List.mem_singleton_self s
  constructor
  · rintro ⟨d', hwithin, ht⟩
    rcases hwithin.cases_head with rfl | ⟨d'', ⟨x, hx, hdef⟩, hwithin⟩
    · rw [hs.scalarLeaves_eq] at ht
      exact .inl (List.mem_singleton.1 ht)
    · rw [hs.scalarLeaves_eq, List.mem_singleton] at hx
      rw [hx, hd] at hdef
      cases hdef
      exact .inr ⟨d', hwithin, ht⟩
  · rintro (rfl | ht)
    · exact reached_of_mem hmem
    · exact ht.of_unfolds ⟨s, hmem, hd⟩

/-- An expression reaches what its leaves reach. -/
lemma reached_iff_of_leaves (he : ∀ s ∈ e.scalarLeaves, s.IsPlainSymbol) :
    l.Reached e t ↔ ∃ s ∈ e.scalarLeaves, l.Reached s t := by
  constructor
  · rintro ⟨d, hwithin, ht⟩
    rcases hwithin.cases_head with rfl | ⟨d', ⟨s, hs, hdef⟩, hwithin⟩
    · exact ⟨t, ht, reached_self (he t ht)⟩
    · exact ⟨s, hs, (reached_iff_of_defined (he s hs) hdef).2 (.inr ⟨d, hwithin, ht⟩)⟩
  · rintro ⟨s, hs, ht⟩
    cases hd : l.definitionOf s.indexedName with
    | none =>
      rw [(reached_iff_of_undefined (he s hs) hd).1 ht]
      exact reached_of_mem hs
    | some d =>
      rcases (reached_iff_of_defined (he s hs) hd).1 ht with rfl | ht
      · exact reached_of_mem hs
      · exact ht.of_unfolds ⟨s, hs, hd⟩

/-! ### Names founded on one another -/

/-- Following definitions from the name comes to an end. -/
def IsFounded (l : Layout) (name : String) : Prop := Acc (fun a b => l.Mentions b a) name

lemma IsFounded.not_mentions_self {name : String} (h : l.IsFounded name) :
    ¬ TransGen l.Mentions name name := by
  have hirrefl : ∀ name, Acc (TransGen fun a b => l.Mentions b a) name →
      ¬ TransGen (fun a b => l.Mentions b a) name name := by
    intro name hname
    induction hname with
    | intro name _ ih => exact fun hself => ih name hself hself
  exact fun hcycle => hirrefl name h.transGen (transGen_swap.2 hcycle)

lemma isFounded_of_undefined {name : String} (h : l.definitionOf name = none) :
    l.IsFounded name := by
  constructor
  rintro b ⟨d, hd, _⟩
  rw [h] at hd
  cases hd

lemma isFounded_of_definition {name : String} (hd : l.definitionOf name = some d)
    (h : ∀ t ∈ d.scalarLeaves, l.IsFounded t.indexedName) : l.IsFounded name := by
  constructor
  rintro b ⟨d', hd', t, ht, rfl⟩
  rw [hd] at hd'
  cases hd'
  exact h t ht

lemma isFounded_of_reached (he : ∀ t ∈ e.scalarLeaves, l.IsFounded t.indexedName)
    (hs : l.Reached e s) : l.IsFounded s.indexedName := by
  obtain ⟨d, hwithin, hs⟩ := hs
  induction hwithin generalizing s with
  | refl => exact he s hs
  | tail _ hunfolds ih =>
    obtain ⟨t, ht, hdef⟩ := hunfolds
    exact (ih ht).inv (mentions_of_definition hdef hs)

/-- Definitions that mention undefined symbols only have no cycle. -/
lemma acyclic_of_undefined (h : ∀ entry ∈ l.observed.definitions, ∀ t ∈ entry.2.scalarLeaves,
    l.definitionOf t.indexedName = none) : l.Acyclic := by
  intro name hcycle
  obtain ⟨_, ⟨d, hd, _⟩, _⟩ := TransGen.head'_iff.1 hcycle
  obtain ⟨_, hmem, _⟩ := Assoc.mem_of_find? hd
  have hfounded : l.IsFounded name :=
    isFounded_of_definition hd fun t ht => isFounded_of_undefined (h _ hmem t ht)
  exact hfounded.not_mentions_self hcycle

lemma not_cyclicFrom_of_isFounded (he : ∀ t ∈ e.scalarLeaves, l.IsFounded t.indexedName) :
    ¬ l.CyclicFrom e := by
  rintro ⟨s, hs, hcycle⟩
  exact (isFounded_of_reached he hs).not_mentions_self hcycle

/-! ### Following definitions to their ends -/

namespace Unrolls

variable {P : Expr → Prop}

lemma within (h : l.Unrolls P e) (hd : l.Within e d) : l.Unrolls P d := by
  induction hd with
  | refl => exact h
  | tail _ hunfolds ih =>
    cases ih with
    | intro _ rest => exact rest _ (mem_definitionsIn.2 hunfolds)

lemma of_within (h : l.Unrolls P e) (hd : l.Within e d) : P d := by
  cases h.within hd
  assumption

lemma mono {Q : Expr → Prop} (h : l.Unrolls P e) (hPQ : ∀ d, P d → Q d) : l.Unrolls Q e := by
  induction h with
  | intro holds _ ih => exact .intro (hPQ _ holds) ih

lemma known (h : l.Unrolls l.Knows e) (hs : l.Reached e s) : ∃ role, l.rolesOf (.expr s) = [role] := by
  obtain ⟨d, hd, hs⟩ := hs
  exact List.length_eq_one_iff.1 (h.of_within hd s hs)

lemma resolves (h : l.Unrolls (fun d => d.HasPlainSymbols ∧ l.Knows d) e) : l.Resolves e where
  plain _ hd := (h.of_within hd).1
  known _ := (h.mono fun _ => And.right).known

lemma isFounded (h : l.Unrolls P e) : ∀ t ∈ e.scalarLeaves, l.IsFounded t.indexedName := by
  induction h with
  | intro _ _ ih =>
    intro t ht
    cases hd : l.definitionOf t.indexedName with
    | none => exact isFounded_of_undefined hd
    | some d => exact isFounded_of_definition hd (ih d (mem_definitionsIn.2 ⟨t, ht, hd⟩))

lemma not_cyclicFrom (h : l.Unrolls P e) : ¬ l.CyclicFrom e := not_cyclicFrom_of_isFounded h.isFounded

end Unrolls

end NamedSlots.Layout
