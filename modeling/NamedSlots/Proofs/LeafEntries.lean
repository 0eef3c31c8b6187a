import NamedSlots.Evaluation.Evaluator
import NamedSlots.Proofs.AssocLookup

/-!
# Entries of a table of leaves

The leaves that are read and the leaves that are replaced are the entries of one table. The value
of a leaf is determined by the values of the sources that stand in it.
-/

namespace NamedSlots

namespace LeafTable

lemma mem_bindings {t : LeafTable} {s : Expr} {src : Source} :
    (s, src) ∈ t.bindings ↔ (s, .source src) ∈ t.entries := by
  rw [bindings, List.mem_filterMap]
  constructor
  · rintro ⟨⟨leaf, m⟩, hmem, hm⟩
    cases m with
    | source src' =>
      cases hm
      exact List.mem_reverse.1 hmem
    | definition d => cases hm
  · intro h
    exact ⟨_, List.mem_reverse.2 h, rfl⟩

lemma mem_inlined {t : LeafTable} {s d : Expr} :
    (s, d) ∈ t.inlined ↔ (s, .definition d) ∈ t.entries := by
  rw [inlined, List.mem_filterMap]
  constructor
  · rintro ⟨⟨leaf, m⟩, hmem, hm⟩
    cases m with
    | source src => cases hm
    | definition d' =>
      cases hm
      exact List.mem_reverse.1 hmem
  · intro h
    exact ⟨_, List.mem_reverse.2 h, rfl⟩

lemma bindings_insert (t : LeafTable) (s : Expr) (m : Meaning) :
    (t.insert s m).bindings = t.bindings ++ match m with
      | .source src => [(s, src)]
      | .definition _ => [] := by
  unfold bindings insert
  rw [List.reverse_cons, List.filterMap_append]
  cases m <;> rfl

/-- A leaf that is found among the bindings is bound. -/
lemma contains_of_binding {t : LeafTable} {leaf : Expr} {src : Source}
    (h : Assoc.find? leaf t.bindings.reverse = some src) : t.contains leaf = true := by
  obtain ⟨key, hmem, hequal⟩ := Assoc.mem_of_find? h
  cases hfind : Assoc.find? leaf t.entries with
  | none =>
    have hne := Assoc.find?_eq_none_iff.1 hfind _ (mem_bindings.1 (List.mem_reverse.1 hmem))
    rw [hequal] at hne
    cases hne
  | some m =>
    rw [contains, Assoc.contains, hfind]
    rfl

section Value

variable {V : Type} (sem : Semantics V) (read : Source → Except Failure V)

lemma valueIn_cons (leaf s : Expr) (m : Meaning) (earlier : List (Expr × Meaning)) :
    valueIn sem read ((leaf, m) :: earlier) s =
      if leaf == s then
        match m with
        | .source src => read src
        | .definition d =>
          if Assoc.contains earlier s then valueIn sem read earlier s
          else d.eval sem (valueIn sem read earlier)
      else valueIn sem read earlier s := rfl

lemma valueIn_cons_definition {leaf d : Expr} {earlier : List (Expr × Meaning)}
    (hself : (leaf == leaf) = true) (hnew : ¬ Assoc.contains earlier leaf = true) :
    valueIn sem read ((leaf, .definition d) :: earlier) leaf = d.eval sem (valueIn sem read earlier) := by
  rw [valueIn_cons, if_pos hself]
  exact if_neg hnew

lemma valueIn_of_find? {entries : List (Expr × Meaning)} {leaf : Expr} {src : Source}
    (h : Assoc.find? leaf entries = some (.source src)) :
    valueIn sem read entries leaf = read src := by
  induction entries with
  | nil => cases h
  | cons entry entries ih =>
    obtain ⟨key, m⟩ := entry
    rw [Assoc.find?] at h
    rw [valueIn_cons]
    split at h
    · rename_i hkey
      rw [if_pos hkey]
      cases h
      rfl
    · rename_i hkey
      rw [if_neg hkey]
      exact ih h

/-- A leaf that is among the bindings is read, whatever definition an equal leaf has. -/
lemma valueIn_of_binding {entries : List (Expr × Meaning)} {leaf : Expr} {src : Source}
    (h : Assoc.find? leaf (LeafTable.mk entries).bindings.reverse = some src) :
    valueIn sem read entries leaf = read src := by
  induction entries with
  | nil => cases h
  | cons entry earlier ih =>
    obtain ⟨key, m⟩ := entry
    change Assoc.find? leaf ((LeafTable.mk earlier).insert key m).bindings.reverse = _ at h
    rw [bindings_insert, List.reverse_append] at h
    rw [valueIn_cons]
    cases m with
    | source src' =>
      change (if key == leaf then some src' else
        Assoc.find? leaf (LeafTable.mk earlier).bindings.reverse) = _ at h
      split at h
      · rename_i hkey
        rw [if_pos hkey]
        cases h
        rfl
      · rename_i hkey
        rw [if_neg hkey]
        exact ih h
    | definition d =>
      have hbound : Assoc.contains earlier leaf = true := contains_of_binding h
      dsimp only
      rw [if_pos hbound, ite_self]
      exact ih h

lemma valueIn_congr {read' : Source → Except Failure V} {entries : List (Expr × Meaning)}
    (h : ∀ x src, (x, Meaning.source src) ∈ entries → read src = read' src) :
    valueIn sem read entries = valueIn sem read' entries := by
  induction entries with
  | nil => rfl
  | cons entry earlier ih =>
    have hearlier := ih fun x src hmem => h x src (List.mem_cons_of_mem _ hmem)
    funext leaf
    obtain ⟨key, m⟩ := entry
    rw [valueIn_cons, valueIn_cons, hearlier]
    cases m with
    | source src => simp only [h key src List.mem_cons_self]
    | definition d => rfl

end Value

/-- If values of sources carry over to another semantics, and values of expressions do once those of
their leaves do, then values of leaves do. -/
lemma valueIn_transfer {V W : Type} {sem : Semantics (Option V)} {sem' : Semantics W} {g : V → W}
    {read : Source → Except Failure (Option V)} {read' : Source → Except Failure W}
    (heval : ∀ {leaf : Expr → Except Failure (Option V)} {leaf' : Expr → Except Failure W},
      (∀ {x v}, leaf x = .ok (some v) → leaf' x = .ok (g v)) →
      ∀ {e : Expr} {v}, e.eval sem leaf = .ok (some v) → e.eval sem' leaf' = .ok (g v))
    (hread : ∀ {src v}, read src = .ok (some v) → read' src = .ok (g v))
    {entries : List (Expr × Meaning)} {x : Expr} {v : V}
    (h : valueIn sem read entries x = .ok (some v)) :
    valueIn sem' read' entries x = .ok (g v) := by
  induction entries generalizing x v with
  | nil => cases h
  | cons entry earlier ih =>
    obtain ⟨key, m⟩ := entry
    rw [valueIn_cons] at h ⊢
    split at h
    · rename_i hkey
      rw [if_pos hkey]
      cases m with
      | source src => exact hread h
      | definition d =>
        dsimp only at h ⊢
        split at h
        · rename_i hbound
          rw [if_pos hbound]
          exact ih h
        · rename_i hnew
          rw [if_neg hnew]
          exact heval ih h
    · rename_i hkey
      rw [if_neg hkey]
      exact ih h

end LeafTable

namespace Evaluator

variable {f : Evaluator}

lemma find?_of_slot? {src : Source} (h : f.slot? = some src) :
    Assoc.find? f.expr f.table.bindings.reverse = some src := by
  unfold slot? at h
  split at h
  · rename_i heq
    cases h
    exact heq
  · rename_i heq
    cases h
    exact heq
  · cases h

section Uses

variable {x : Expr} {i : Index}

lemma usesStates_of_mem (h : (x, .state i) ∈ f.table.bindings) : f.usesStates = true :=
  Bool.or_eq_true_iff.2 (.inl (List.any_eq_true.2 ⟨_, h, rfl⟩))

lemma usesParameters_of_mem (h : (x, .parameter i) ∈ f.table.bindings) :
    f.usesParameters = true :=
  Bool.or_eq_true_iff.2 (.inl (List.any_eq_true.2 ⟨_, h, rfl⟩))

lemma usesTime_of_mem (h : (x, .time) ∈ f.table.bindings) : f.usesTime = true :=
  Bool.or_eq_true_iff.2 (.inl (List.any_eq_true.2 ⟨_, h, rfl⟩))

end Uses

/-- Reading a bare slot is what the walk through the expression does. -/
lemma call_eq {u p t : Value} (hlowered : f.lowered = none)
    (hsymbol : ∀ k ∈ Assoc.keys f.table.entries, k.kind = .symbol) :
    f.call u p t = (do f.checkTime t; f.interpret u p t) := by
  unfold call
  rw [hlowered]
  cases hslot : f.slot? with
  | none => rfl
  | some src =>
    have hfind := find?_of_slot? hslot
    obtain ⟨key, hkey, hequal⟩ := Assoc.mem_of_find? hfind
    have hkind : f.expr.kind = .symbol := by
      rw [← (Expr.beq_spec hequal).1]
      exact hsymbol key (Assoc.mem_keys_of_mem (LeafTable.mem_bindings.1 (List.mem_reverse.1 hkey)))
    have hinterpret : f.interpret u p t = src.read f.isTimeDependent u p t := by
      rw [← LeafTable.valueIn_of_binding .numeric (Source.read f.isTimeDependent u p t) hfind]
      unfold interpret
      generalize f.expr = e at hkind ⊢
      obtain ⟨k, cs, lb⟩ := e
      cases hkind
      rfl
    rw [hinterpret]

/-- The value of an evaluator is determined by the values of its sources and by whether the time
is accepted. -/
lemma call_congr {u p t u' p' t' : Value} (hcheck : f.checkTime t = f.checkTime t')
    (h : ∀ x src, (x, src) ∈ f.table.bindings →
      src.read f.isTimeDependent u p t = src.read f.isTimeDependent u' p' t') :
    f.call u p t = f.call u' p' t' := by
  have hentry (x : Expr) (src : Source) (hmem : (x, .source src) ∈ f.table.entries) :=
    h x src (LeafTable.mem_bindings.2 hmem)
  have hinterpret : f.interpret u p t = f.interpret u' p' t' := by
    unfold interpret LeafTable.value
    rw [LeafTable.valueIn_congr _ _ hentry]
  have hrun (graph : Graph.Sheet Float) : f.run graph u p t = f.run graph u' p' t' := by
    unfold run
    rw [mapM_congr]
    rintro ⟨x, src⟩ hmem
    simp only [h x src hmem]
  unfold call
  rw [hcheck]
  congr 1
  funext _
  cases f.lowered with
  | some graph => exact hrun graph
  | none =>
    cases hslot : f.slot? with
    | none => exact hinterpret
    | some src =>
      obtain ⟨x, hmem, _⟩ := Assoc.mem_of_find? (find?_of_slot? hslot)
      exact h x src (List.mem_reverse.1 hmem)

end Evaluator
end NamedSlots
