import NamedSlots.Proofs.BindingRun
import NamedSlots.Proofs.SettledTable

/-!
# Binding is closed and ends

Binding walks the definitions depth first. While a symbol is under definition it may not be
entered again; as long as every such symbol leads to the leaves that are to be bound next, the
walk stops at one of them only on a cycle. Otherwise it extends a settled table to a settled
table that has the leaves.
-/

namespace NamedSlots

open Relation Traced

/-- Every reached symbol that may not be entered any more leads to the leaf. -/
def Guarded (l : Layout) (e : Expr) (unvisited : List Expr) (leaf : Expr) : Prop :=
  ∀ s, l.Reached e s → Unvisited.mayEnter unvisited s = false →
    TransGen l.Mentions s.indexedName leaf.indexedName

/-- A settled table that extends another one, has some leaves, and got its new definitions from
symbols that could still be entered. -/
structure Extends (l : Layout) (e : Expr) (unvisited : List Expr) (table : LeafTable)
    (leaves : List Expr) (t : LeafTable) : Prop where
  settled : Settled l e t.entries
  kept (entry : Expr × Meaning) : entry ∈ table.entries → entry ∈ t.entries
  bound (s : Expr) : s ∈ leaves → s ∈ Assoc.keys t.entries
  entered (s d : Expr) : (s, .definition d) ∈ t.entries →
    (s, .definition d) ∈ table.entries ∨ Unvisited.mayEnter unvisited s = true

/-- Binding leaves either extends the table or finds a cycle. -/
def Binds (l : Layout) (e : Expr) (unvisited : List Expr) (table : LeafTable)
    (leaves : List Expr) (x : Traced LeafTable) : Prop :=
  (∃ t, Yields x (.ok t) ∧ Extends l e unvisited table leaves t) ∨
    ∃ name, Yields x (.error (.cyclicDefinition (some name))) ∧ l.CyclicFrom e

/-- A symbol that may still be entered after another one has been is neither that one nor one
that might not be entered before. -/
lemma mayEnter_of_mayEnter_enter {unvisited : List Expr} {leaf s : Expr}
    (hleaf : leaf.IsPlainSymbol)
    (h : Unvisited.mayEnter (Unvisited.enter unvisited leaf) s = true) :
    Unvisited.mayEnter unvisited s = true ∧ s ≠ leaf := by
  obtain ⟨c, hc, hsc⟩ := List.any_eq_true.1 h
  obtain ⟨hmem, hne⟩ := List.mem_filter.1 hc
  refine ⟨List.any_eq_true.2 ⟨c, hmem, hsc⟩, ?_⟩
  rintro rfl
  simp [hsc] at hne

lemma mayEnter_enter {unvisited : List Expr} {leaf s : Expr} (hleaf : leaf.IsPlainSymbol)
    (hs : s.IsPlainSymbol) (hne : s ≠ leaf) (h : Unvisited.mayEnter unvisited s = true) :
    Unvisited.mayEnter (Unvisited.enter unvisited leaf) s = true := by
  obtain ⟨c, hmem, hsc⟩ := List.any_eq_true.1 h
  refine List.any_eq_true.2 ⟨c, List.mem_filter.2 ⟨hmem, ?_⟩, hsc⟩
  rw [Bool.not_eq_true']
  rw [Bool.eq_false_iff]
  intro hlc
  exact hne (hs.eq_of_beq_of_beq hleaf hsc hlc)

namespace Extends

variable {l : Layout} {e : Expr} {unvisited leaves : List Expr} {table t : LeafTable}
  {leaf : Expr}

lemma mem_keys (h : Extends l e unvisited table leaves t) {s : Expr}
    (hs : s ∈ Assoc.keys table.entries) : s ∈ Assoc.keys t.entries := by
  obtain ⟨m, hm⟩ := Assoc.exists_mem_of_mem_keys hs
  exact Assoc.mem_keys_of_mem (h.kept _ hm)

lemma refl (h : Settled l e table.entries) (hleaves : ∀ s ∈ leaves, s ∈ Assoc.keys table.entries) :
    Extends l e unvisited table leaves table where
  settled := h
  kept _ := id
  bound := hleaves
  entered _ _ := .inl

lemma trans {rest : List Expr} {t' : LeafTable} (h : Extends l e unvisited table [leaf] t)
    (h' : Extends l e unvisited t rest t') : Extends l e unvisited table (leaf :: rest) t' where
  settled := h'.settled
  kept entry hentry := h'.kept entry (h.kept entry hentry)
  bound s hs := by
    rcases List.mem_cons.1 hs with rfl | hs
    · exact h'.mem_keys (h.bound s (List.mem_singleton_self s))
    · exact h'.bound s hs
  entered s d hs := by
    rcases h'.entered s d hs with hs | hs
    · exact h.entered s d hs
    · exact .inr hs

lemma insert_source (h : Settled l e table.entries) (hreached : l.Reached e leaf)
    (hnew : leaf ∉ Assoc.keys table.entries) {src : Source}
    (hsrc : l.meaningOf leaf = some (.source src)) :
    Extends l e unvisited table [leaf] (table.insert leaf (.source src)) where
  settled := by
    refine h.cons hreached hnew hsrc ?_
    intro d hd
    cases hd
  kept _ := List.mem_cons_of_mem _
  bound s hs := by
    rw [List.mem_singleton.1 hs]
    exact List.mem_cons_self
  entered s d hs := by
    rcases List.mem_cons.1 hs with heq | hs
    · cases heq
    · exact .inl hs

/-- Once the leaves of its definition are bound, a symbol is entered; it cannot have been bound
on the way, since it could not be entered again. -/
lemma insert_definition {d : Expr}
    (h : Extends l e (Unvisited.enter unvisited leaf) table d.scalarLeaves t)
    (hplain : leaf.IsPlainSymbol) (hreached : l.Reached e leaf)
    (hnew : leaf ∉ Assoc.keys table.entries) (hd : l.meaningOf leaf = some (.definition d))
    (hmay : Unvisited.mayEnter unvisited leaf = true) :
    Extends l e unvisited table [leaf] (t.insert leaf (.definition d)) where
  settled := by
    refine h.settled.cons hreached ?_ hd ?_
    · intro hmem
      obtain ⟨m, hm⟩ := Assoc.exists_mem_of_mem_keys hmem
      have hmeaning := h.settled.meaningOf_of_mem hm
      rw [hd] at hmeaning
      cases hmeaning
      rcases h.entered leaf d hm with hold | hentered
      · exact hnew (Assoc.mem_keys_of_mem hold)
      · exact (mayEnter_of_mayEnter_enter hplain hentered).2 rfl
    · intro d' hd' s hs
      cases hd'
      exact h.bound s hs
  kept entry hentry := List.mem_cons_of_mem _ (h.kept entry hentry)
  bound s hs := by
    rw [List.mem_singleton.1 hs]
    exact List.mem_cons_self
  entered s d' hs := by
    rcases List.mem_cons.1 hs with heq | hs
    · cases heq
      exact .inr hmay
    · rcases h.entered s d' hs with hold | hentered
      · exact .inl hold
      · exact .inr (mayEnter_of_mayEnter_enter hplain hentered).1

end Extends

section Walk

variable {b : Bound} {l : Layout} {e : Expr} {isTimeDependent : Bool}

lemma bindAll_binds {unvisited : List Expr}
    (hleaf : ∀ (table : LeafTable) (leaf : Expr), Settled l e table.entries → l.Reached e leaf →
      Guarded l e unvisited leaf →
      Binds l e unvisited table [leaf] (b.bindLeaf isTimeDependent unvisited table leaf))
    (leaves : List Expr) (table : LeafTable) (hsettled : Settled l e table.entries)
    (hreached : ∀ s ∈ leaves, l.Reached e s) (hguarded : ∀ s ∈ leaves, Guarded l e unvisited s) :
    Binds l e unvisited table leaves (b.bindAll isTimeDependent unvisited table leaves) := by
  induction leaves generalizing table with
  | nil =>
    refine .inl ⟨table, Bound.bindAll_nil, .refl hsettled ?_⟩
    intro s hs
    cases hs
  | cons leaf rest ih =>
    rcases hleaf table leaf hsettled (hreached _ List.mem_cons_self) (hguarded _ List.mem_cons_self)
      with ⟨t, ht, hext⟩ | ⟨name, herror, hcycle⟩
    · have hrest := ih t hext.settled (fun s hs => hreached s (List.mem_cons_of_mem _ hs))
        fun s hs => hguarded s (List.mem_cons_of_mem _ hs)
      rcases hrest with ⟨t', ht', hext'⟩ | ⟨name, herror, hcycle⟩
      · exact .inl ⟨t', Bound.bindAll_cons ht ht', hext.trans hext'⟩
      · exact .inr ⟨name, Bound.bindAll_cons ht herror, hcycle⟩
    · exact .inr ⟨name, Bound.bindAll_cons_error herror, hcycle⟩

lemma guarded_enter (he : l.Resolves e) {unvisited : List Expr} {leaf d t : Expr}
    (hleaf : l.Reached e leaf) (hd : l.definitionOf leaf.indexedName = some d)
    (ht : t ∈ d.scalarLeaves) (hguarded : Guarded l e unvisited leaf) :
    Guarded l e (Unvisited.enter unvisited leaf) t := by
  intro s hs hno
  have hmentions := Layout.mentions_of_definition hd ht
  by_cases hsl : s = leaf
  · rw [hsl]
    exact .single hmentions
  · cases hmay : Unvisited.mayEnter unvisited s with
    | false => exact (hguarded s hs hmay).tail hmentions
    | true =>
      rw [mayEnter_enter (he.isPlainSymbol hleaf) (he.isPlainSymbol hs) hsl hmay] at hno
      cases hno

/-- A leaf can be bound, by induction on what is left to be entered. -/
lemma bindLeaf_binds (h : b.AnsweredBy l) (he : l.Resolves e)
    (htime : ∀ v, l.has .independent v = true → isTimeDependent = true) (n : Nat)
    {unvisited : List Expr} (hn : unvisited.length = n) (table : LeafTable) (leaf : Expr)
    (hsettled : Settled l e table.entries) (hreached : l.Reached e leaf)
    (hguarded : Guarded l e unvisited leaf) :
    Binds l e unvisited table [leaf] (b.bindLeaf isTimeDependent unvisited table leaf) := by
  induction n using Nat.strongRecOn generalizing unvisited table leaf with
  | ind n ih =>
    have hplain := he.isPlainSymbol hreached
    by_cases hbound : table.contains leaf = true
    · refine .inl ⟨table, Bound.bindLeaf_of_contains hbound, .refl hsettled ?_⟩
      intro s hs
      rw [List.mem_singleton.1 hs]
      exact (hsettled.contains_iff he hplain).1 hbound
    have hnew : leaf ∉ Assoc.keys table.entries := fun hmem =>
      hbound ((hsettled.contains_iff he hplain).2 hmem)
    rcases Layout.meaningOf_cases hplain (he.known leaf hreached) with
      ⟨src, hsrc, _⟩ | ⟨d, hd, hdef⟩
    · exact .inl ⟨_, Bound.bindLeaf_of_source h htime hplain hbound hsrc,
        .insert_source hsettled hreached hnew hsrc⟩
    cases hmay : Unvisited.mayEnter unvisited leaf with
    | false =>
      refine .inr ⟨leaf.indexedName, ?_, leaf, hreached, hguarded leaf hreached hmay⟩
      exact Bound.bindLeaf_of_cycle h hplain hbound hd (by rw [hmay]; simp)
    | true =>
      have hlength : (Unvisited.enter unvisited leaf).length < n :=
        hn ▸ Unvisited.length_enter_lt hmay
      have hall : Binds l e (Unvisited.enter unvisited leaf) table d.scalarLeaves
          (b.bindAll isTimeDependent (Unvisited.enter unvisited leaf) table d.scalarLeaves) :=
        bindAll_binds (fun table leaf => ih _ hlength rfl table leaf) _ _ hsettled
          (fun t ht => hreached.of_definition hdef ht)
          fun t ht => guarded_enter he hreached hdef ht hguarded
      rcases hall with ⟨t, ht, hext⟩ | ⟨name, herror, hcycle⟩
      · exact .inl ⟨_, Bound.bindLeaf_of_definition h hplain hbound hd hmay ht,
          hext.insert_definition hplain hreached hnew hd hmay⟩
      · exact .inr ⟨name, Bound.bindLeaf_of_definition h hplain hbound hd hmay herror, hcycle⟩

/-- Before anything is under definition, every reached leaf may be entered. -/
lemma mayEnter_of_reached (h : b.AnsweredBy l) (he : l.Resolves e) {s : Expr}
    (hs : l.Reached e s) :
    Unvisited.mayEnter (e.scalarLeaves ++ b.system.definitionLeaves b.version) s = true := by
  refine List.any_eq_true.2 ⟨s, ?_, (he.isPlainSymbol hs).beq_self⟩
  obtain ⟨d, hwithin, hmem⟩ := hs
  rcases hwithin.cases_tail with rfl | ⟨d', _, t, _, hdef⟩
  · exact List.mem_append_left _ hmem
  · obtain ⟨name, hentry, _⟩ := Assoc.mem_of_find? hdef
    rw [h.definitionLeaves_eq]
    apply List.mem_append_right
    exact List.mem_flatMap.2 ⟨(name, d), hentry, hmem⟩

/-- Binding an expression gives a settled table with its leaves, or finds a cycle. -/
lemma bind_binds (h : b.AnsweredBy l) (he : l.Resolves e)
    (htime : ∀ v, l.has .independent v = true → isTimeDependent = true) :
    Binds l e (e.scalarLeaves ++ b.system.definitionLeaves b.version) {} e.scalarLeaves
      (b.bind isTimeDependent e) := by
  refine bindAll_binds (fun table leaf => bindLeaf_binds h he htime _ rfl table leaf) _ _ .nil
    (fun s hs => Layout.reached_of_mem hs) fun s hs t ht hno => ?_
  rw [mayEnter_of_reached h he ht] at hno
  cases hno

/-- On a settled table with the leaves of the expression there is no cycle to be found. -/
lemma not_cyclicFrom_of_extends (he : l.Resolves e) {unvisited : List Expr} {t : LeafTable}
    (ht : Extends l e unvisited {} e.scalarLeaves t) : ¬ l.CyclicFrom e :=
  Layout.not_cyclicFrom_of_isFounded fun _ hs => ht.settled.isFounded_of_mem_keys he (ht.bound _ hs)

end Walk

end NamedSlots
