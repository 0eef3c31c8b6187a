import NamedSlots.Proofs.LeafEntries
import NamedSlots.Proofs.SettledTable

/-!
# Leaves that expressions share

A leaf has the same value on every settled table that has it. An array symbol leads to what its
elements lead to, so that binding the array is binding its elements.
-/

namespace NamedSlots

namespace Settled

variable {l : Layout} {e e' : Expr} {entries entries' : List (Expr × Meaning)} {s : Expr}
  {V : Type} (sem : Semantics V) (read : Source → Except Failure V) (he : l.Resolves e)
include he

/-- A new entry does not change the value of an earlier leaf. -/
lemma valueIn_cons_of_mem {leaf : Expr} {m : Meaning} (h : Settled l e ((leaf, m) :: entries))
    (hs : s ∈ Assoc.keys entries) :
    LeafTable.valueIn sem read ((leaf, m) :: entries) s = LeafTable.valueIn sem read entries s := by
  cases h with
  | cons earlier reached new _ _ =>
    rw [LeafTable.valueIn_cons, if_neg]
    intro heq
    rw [(he.isPlainSymbol reached).eq_of_beq (earlier.isPlainSymbol_of_mem_keys he hs) heq] at new
    exact new hs

lemma valueIn_of_source (h : Settled l e entries) {src : Source}
    (hs : (s, .source src) ∈ entries) : LeafTable.valueIn sem read entries s = read src := by
  have hplain := h.isPlainSymbol_of_mem_keys he (Assoc.mem_keys_of_mem hs)
  exact LeafTable.valueIn_of_find? sem read ((h.find?_eq_some_iff he hplain).2 hs)

/-- The value of a defined leaf is that of its definition on the whole table. -/
lemma valueIn_of_definition (h : Settled l e entries) {d : Expr}
    (hs : (s, .definition d) ∈ entries) :
    LeafTable.valueIn sem read entries s = d.eval sem (LeafTable.valueIn sem read entries) := by
  induction h with
  | nil => cases hs
  | @cons entries leaf m earlier reached new meaning closed ih =>
    have hsettled := earlier.cons reached new meaning closed
    have hplain := hsettled.plain_of_mem he hs
    have heval (hclosed : ∀ t ∈ d.scalarLeaves, t ∈ Assoc.keys entries) :
        d.eval sem (LeafTable.valueIn sem read ((leaf, m) :: entries)) =
          d.eval sem (LeafTable.valueIn sem read entries) :=
      Expr.eval_congr sem fun t ht => hsettled.valueIn_cons_of_mem sem read he
        (hclosed t ((Expr.mem_scalarLeaves hplain).2 ht))
    rcases List.mem_cons.1 hs with heq | hs
    · cases heq
      rw [heval (closed d rfl)]
      exact LeafTable.valueIn_cons_definition sem read (he.isPlainSymbol reached).beq_self
        (hsettled.not_contains he)
    · rw [heval fun t => earlier.closed_of_mem hs, ← ih hs]
      exact hsettled.valueIn_cons_of_mem sem read he (Assoc.mem_keys_of_mem hs)

/-- Two tables give a leaf that both of them have the same value. -/
lemma valueIn_eq_valueIn (he' : l.Resolves e') (h : Settled l e entries)
    (h' : Settled l e' entries') (hs : s ∈ Assoc.keys entries) (hs' : s ∈ Assoc.keys entries') :
    LeafTable.valueIn sem read entries s = LeafTable.valueIn sem read entries' s := by
  induction h generalizing s with
  | nil => cases hs
  | @cons entries leaf m earlier reached new meaning closed ih =>
    have hsettled := earlier.cons reached new meaning closed
    rcases List.mem_cons.1 hs with rfl | hs
    · obtain ⟨m', hm'⟩ := Assoc.exists_mem_of_mem_keys hs'
      have hmeaning := h'.meaningOf_of_mem hm'
      rw [meaning] at hmeaning
      cases hmeaning
      have hself := (he.isPlainSymbol reached).beq_self
      cases m with
      | source src =>
        rw [LeafTable.valueIn_cons, if_pos hself]
        exact (h'.valueIn_of_source sem read he' hm').symm
      | definition d =>
        have hplain := hsettled.plain_of_mem he List.mem_cons_self
        rw [LeafTable.valueIn_cons_definition sem read hself (hsettled.not_contains he),
          h'.valueIn_of_definition sem read he' hm']
        refine Expr.eval_congr sem fun t ht => ?_
        have hleaf := (Expr.mem_scalarLeaves hplain).2 ht
        exact ih (closed d rfl t hleaf) (h'.closed_of_mem hm' hleaf)
    · rw [hsettled.valueIn_cons_of_mem sem read he hs]
      exact ih hs hs'

end Settled

namespace Expr

variable {x a s : Expr}

lemma IsPlainSymbol.hasPlainSymbols (hx : x.IsPlainSymbol) : x.HasPlainSymbols := by
  intro s hs _
  obtain ⟨name, indices, rfl⟩ := hx
  rw [List.mem_singleton.1 hs]
  exact ⟨name, indices, rfl⟩

lemma hasPlainSymbols_of_array (ha : a.kind = .array) : a.HasPlainSymbols := by
  obtain ⟨kind, cs, label⟩ := a
  cases ha
  intro s hs hkind
  rw [leaves, List.mem_singleton] at hs
  rw [hs] at hkind
  cases hkind

lemma mem_scalarLeaves_array (ha : a.kind = .array) : s ∈ a.scalarLeaves ↔ s ∈ a.elements := by
  rw [mem_scalarLeaves (hasPlainSymbols_of_array ha)]
  obtain ⟨kind, cs, label⟩ := a
  cases ha
  rw [occurrences_array]

end Expr

namespace Layout

variable {l : Layout} {a d s : Expr}

lemma within_of_element {x : Expr} (ha : a.kind = .array) (hx : x ∈ a.elements)
    (hd : l.Within x d) : d = x ∨ l.Within a d := by
  rcases hd.cases_head with rfl | ⟨d', ⟨t, ht, hdef⟩, hd⟩
  · exact .inl rfl
  · rw [(Expr.isPlainSymbol_of_mem_elements hx).scalarLeaves_eq, List.mem_singleton] at ht
    exact .inr (hd.head ⟨t, (Expr.mem_scalarLeaves_array ha).2 (ht ▸ hx), hdef⟩)

/-- An array reaches what its elements reach. -/
lemma reached_array_iff (ha : a.kind = .array) :
    l.Reached a s ↔ ∃ x ∈ a.elements, l.Reached x s := by
  have hplain : ∀ x ∈ a.scalarLeaves, x.IsPlainSymbol := fun x hx =>
    Expr.isPlainSymbol_of_mem_elements ((Expr.mem_scalarLeaves_array ha).1 hx)
  simp only [reached_iff_of_leaves hplain, Expr.mem_scalarLeaves_array ha]

lemma PlainThrough.of_element {x : Expr} (h : l.PlainThrough a) (ha : a.kind = .array)
    (hx : x ∈ a.elements) : l.PlainThrough x := by
  intro d hd
  rcases within_of_element ha hx hd with rfl | hd
  · exact (Expr.isPlainSymbol_of_mem_elements hx).hasPlainSymbols
  · exact h d hd

lemma resolves_array_iff (ha : a.kind = .array) :
    l.Resolves a ↔ l.PlainThrough a ∧ ∀ x ∈ a.elements, l.Resolves x := by
  constructor
  · intro h
    refine ⟨h.plain, fun x hx => ⟨PlainThrough.of_element h.plain ha hx, fun s hs => ?_⟩⟩
    exact h.known s ((reached_array_iff ha).2 ⟨x, hx, hs⟩)
  · rintro ⟨hplain, h⟩
    refine ⟨hplain, fun s hs => ?_⟩
    obtain ⟨x, hx, hs⟩ := (reached_array_iff ha).1 hs
    exact (h x hx).known s hs

lemma cyclicFrom_array_iff (ha : a.kind = .array) :
    l.CyclicFrom a ↔ ∃ x ∈ a.elements, l.CyclicFrom x := by
  constructor
  · rintro ⟨s, hs, hcycle⟩
    obtain ⟨x, hx, hs⟩ := (reached_array_iff ha).1 hs
    exact ⟨x, hx, s, hs, hcycle⟩
  · rintro ⟨x, hx, s, hs, hcycle⟩
    exact ⟨s, (reached_array_iff ha).2 ⟨x, hx, hs⟩, hcycle⟩

end Layout
end NamedSlots
