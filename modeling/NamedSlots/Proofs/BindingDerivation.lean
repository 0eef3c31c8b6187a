import NamedSlots.Proofs.TracedRun

/-!
# Bindings that succeed

A binding that succeeds has a derivation, with one rule for each thing that can happen to a leaf: it
is bound already, a source is found for its value, or its definition is entered once the leaves of
that are bound. The two are equivalent, so that what all bound tables have in common is shown by
induction on derivations.
-/

namespace NamedSlots.Bound

open Traced

section Rules

variable (b : Bound) (isTimeDependent : Bool)

/-- The source that is found for a leaf, between the trace before and the trace after. -/
inductive Finds (leaf : Expr) : Source → Trace → Trace → Prop
  | state {i : Index} {trace : Trace} (hrole : b.classify (.expr leaf) = .ok .state)
      (hplace : b.locate (.expr leaf) = .ok i) : Finds leaf (.state i) trace trace
  | parameter {i : Index} {trace : Trace} (hrole : b.classify (.expr leaf) = .ok .parameter)
      (hplace : b.locate (.expr leaf) = .ok i) : Finds leaf (.parameter i) trace trace
  | time {trace : Trace} (hrole : b.classify (.expr leaf) = .ok .independent)
      (htime : isTimeDependent = true) : Finds leaf .time trace trace
  | provider {p : Provider} {trace trace' : Trace}
      (hrole : b.classify (.expr leaf) = .ok .observed)
      (hundefined : b.definition (.expr leaf) = .ok none)
      (hprovider : (b.provider (.expr leaf)).run.run trace = (.ok (some p), trace')) :
      Finds leaf (.provider p) trace trace'

/-- From a table and a trace, binding the leaves in order ends with a table and a trace. A leaf is
under definition until the leaves of its definition are bound, and is not entered meanwhile. -/
inductive BindsTo : List Expr → LeafTable → Trace → List Expr → LeafTable → Trace → Prop
  | nil {unvisited : List Expr} {table : LeafTable} {trace : Trace} :
      BindsTo unvisited table trace [] table trace
  | skip {unvisited rest : List Expr} {leaf : Expr} {table t : LeafTable} {trace trace' : Trace}
      (hbound : table.contains leaf = true)
      (hrest : BindsTo unvisited table trace rest t trace') :
      BindsTo unvisited table trace (leaf :: rest) t trace'
  | source {unvisited rest : List Expr} {leaf : Expr} {src : Source} {table t : LeafTable}
      {trace trace₁ trace' : Trace} (hnew : table.contains leaf = false)
      (hsource : Finds b isTimeDependent leaf src trace trace₁)
      (hrest : BindsTo unvisited (table.insert leaf (.source src)) trace₁ rest t trace') :
      BindsTo unvisited table trace (leaf :: rest) t trace'
  | definition {unvisited rest : List Expr} {leaf d : Expr} {table inner t : LeafTable}
      {trace trace₁ trace' : Trace} (hnew : table.contains leaf = false)
      (hrole : b.classify (.expr leaf) = .ok .observed)
      (hdefinition : b.definition (.expr leaf) = .ok (some d))
      (hmay : Unvisited.mayEnter unvisited leaf = true)
      (hinner : BindsTo (Unvisited.enter unvisited leaf) table trace d.scalarLeaves inner trace₁)
      (hrest : BindsTo unvisited (inner.insert leaf (.definition d)) trace₁ rest t trace') :
      BindsTo unvisited table trace (leaf :: rest) t trace'

end Rules

variable {b : Bound} {isTimeDependent : Bool} {unvisited : List Expr} {table t : LeafTable}
  {leaf : Expr} {trace trace' : Trace}

/-! ### One leaf -/

lemma bindLeaf_run_of_contains (hbound : table.contains leaf = true) :
    (b.bindLeaf isTimeDependent unvisited table leaf).run.run trace = (.ok table, trace) := by
  rw [bindLeaf, if_pos hbound]
  rfl

lemma bindLeaf_run_of_finds (hnew : table.contains leaf = false) {src : Source}
    (h : b.Finds isTimeDependent leaf src trace trace') :
    (b.bindLeaf isTimeDependent unvisited table leaf).run.run trace =
      (.ok (table.insert leaf (.source src)), trace') := by
  rw [bindLeaf, if_neg (Bool.eq_false_iff.1 hnew)]
  cases h with
  | state hrole hplace =>
    rw [lift_bind_run _ hrole]
    exact lift_bind_run _ hplace trace
  | parameter hrole hplace =>
    rw [lift_bind_run _ hrole]
    exact lift_bind_run _ hplace trace
  | time hrole htime =>
    rw [lift_bind_run _ hrole, htime]
    rfl
  | provider hrole hundefined hprovider =>
    rw [lift_bind_run _ hrole]
    refine (lift_bind_run _ hundefined trace).trans ?_
    exact run_bind_ok hprovider

lemma bindLeaf_run_of_definition (hnew : table.contains leaf = false) {d : Expr}
    (hrole : b.classify (.expr leaf) = .ok .observed)
    (hdefinition : b.definition (.expr leaf) = .ok (some d))
    (hmay : Unvisited.mayEnter unvisited leaf = true)
    (hinner : (b.bindAll isTimeDependent (Unvisited.enter unvisited leaf) table
      d.scalarLeaves).run.run trace = (.ok t, trace')) :
    (b.bindLeaf isTimeDependent unvisited table leaf).run.run trace =
      (.ok (t.insert leaf (.definition d)), trace') := by
  rw [bindLeaf, if_neg (Bool.eq_false_iff.1 hnew), lift_bind_run _ hrole]
  refine (lift_bind_run _ hdefinition trace).trans ?_
  dsimp only
  rw [dif_pos hmay, run_bind_ok hinner]
  rfl

/-- There is no other way for a leaf to be bound. -/
lemma bindLeaf_run_cases
    (h : (b.bindLeaf isTimeDependent unvisited table leaf).run.run trace = (.ok t, trace')) :
    (table.contains leaf = true ∧ t = table ∧ trace' = trace) ∨
      table.contains leaf = false ∧
        ((∃ src, b.Finds isTimeDependent leaf src trace trace' ∧
            t = table.insert leaf (.source src)) ∨
          ∃ d inner, b.classify (.expr leaf) = .ok .observed ∧
            b.definition (.expr leaf) = .ok (some d) ∧
            Unvisited.mayEnter unvisited leaf = true ∧
            (b.bindAll isTimeDependent (Unvisited.enter unvisited leaf) table
              d.scalarLeaves).run.run trace = (.ok inner, trace') ∧
            t = inner.insert leaf (.definition d)) := by
  rw [bindLeaf] at h
  by_cases hbound : table.contains leaf = true
  · rw [if_pos hbound] at h
    cases h
    exact .inl ⟨hbound, rfl, rfl⟩
  rw [if_neg hbound] at h
  refine .inr ⟨eq_false_of_ne_true hbound, ?_⟩
  obtain ⟨role, _, hclassify, hrest⟩ := run_bind_eq_ok h
  obtain ⟨hrole, rfl⟩ := lift_run_eq_ok hclassify
  cases role with
  | unknown => cases hrest
  | state =>
    obtain ⟨i, _, hlocate, hend⟩ := run_bind_eq_ok hrest
    obtain ⟨hplace, rfl⟩ := lift_run_eq_ok hlocate
    cases hend
    exact .inl ⟨.state i, .state hrole hplace, rfl⟩
  | parameter =>
    obtain ⟨i, _, hlocate, hend⟩ := run_bind_eq_ok hrest
    obtain ⟨hplace, rfl⟩ := lift_run_eq_ok hlocate
    cases hend
    exact .inl ⟨.parameter i, .parameter hrole hplace, rfl⟩
  | independent =>
    cases isTimeDependent with
    | false => cases hrest
    | true =>
      cases hrest
      exact .inl ⟨.time, .time hrole rfl, rfl⟩
  | observed =>
    obtain ⟨definition, _, hanswer, hbound⟩ := run_bind_eq_ok hrest
    obtain ⟨hdefinition, rfl⟩ := lift_run_eq_ok hanswer
    cases definition with
    | none =>
      obtain ⟨provider, _, hprovider, hend⟩ := run_bind_eq_ok hbound
      cases provider with
      | none => cases hend
      | some p =>
        cases hend
        exact .inl ⟨.provider p, .provider hrole hdefinition hprovider, rfl⟩
    | some d =>
      dsimp only at hbound
      split at hbound
      · rename_i hmay
        obtain ⟨inner, _, hinner, hend⟩ := run_bind_eq_ok hbound
        cases hend
        exact .inr ⟨d, inner, hrole, hdefinition, hmay, hinner, rfl⟩
      · cases hbound

/-! ### All leaves -/

lemma bindAll_run_cons {rest : List Expr} {t₁ : LeafTable} {trace₁ : Trace}
    (h : (b.bindLeaf isTimeDependent unvisited table leaf).run.run trace = (.ok t₁, trace₁)) :
    (b.bindAll isTimeDependent unvisited table (leaf :: rest)).run.run trace =
      (b.bindAll isTimeDependent unvisited t₁ rest).run.run trace₁ := by
  rw [bindAll, run_bind_ok h]

lemma BindsTo.run {leaves : List Expr}
    (h : b.BindsTo isTimeDependent unvisited table trace leaves t trace') :
    (b.bindAll isTimeDependent unvisited table leaves).run.run trace = (.ok t, trace') := by
  induction h with
  | nil =>
    rw [bindAll]
    rfl
  | skip hbound _ ih => exact (bindAll_run_cons (bindLeaf_run_of_contains hbound)).trans ih
  | source hnew hsource _ ih =>
    exact (bindAll_run_cons (bindLeaf_run_of_finds hnew hsource)).trans ih
  | definition hnew hrole hdefinition hmay _ _ ihInner ih =>
    exact (bindAll_run_cons
      (bindLeaf_run_of_definition hnew hrole hdefinition hmay ihInner)).trans ih

-- the induction is that of binding: on the leaves that are not under definition, then on the list
lemma bindsTo_of_run (unvisited : List Expr) (table : LeafTable) (leaves : List Expr)
    (t : LeafTable) (trace trace' : Trace)
    (h : (b.bindAll isTimeDependent unvisited table leaves).run.run trace = (.ok t, trace')) :
    b.BindsTo isTimeDependent unvisited table trace leaves t trace' := by
  match leaves with
  | [] =>
    rw [bindAll] at h
    cases h
    exact .nil
  | leaf :: rest =>
    rw [bindAll] at h
    obtain ⟨t₁, trace₁, hleaf, hrun⟩ := run_bind_eq_ok h
    have hrest := bindsTo_of_run unvisited t₁ rest t trace₁ trace' hrun
    rcases bindLeaf_run_cases hleaf with ⟨hbound, rfl, rfl⟩ |
      ⟨hnew, ⟨src, hsource, rfl⟩ | ⟨d, inner, hrole, hdefinition, hmay, hinner, rfl⟩⟩
    · exact .skip hbound hrest
    · exact .source hnew hsource hrest
    · have hall := bindsTo_of_run (Unvisited.enter unvisited leaf) table d.scalarLeaves inner trace
        trace₁ hinner
      exact .definition hnew hrole hdefinition hmay hall hrest
termination_by (unvisited.length, leaves.length)
decreasing_by
  · exact Prod.Lex.right _ (by simp)
  · exact Prod.Lex.left _ _ (Unvisited.length_enter_lt hmay)

/-- Binding succeeds exactly if there is a derivation. -/
theorem bindAll_run_iff {leaves : List Expr} :
    (b.bindAll isTimeDependent unvisited table leaves).run.run trace = (.ok t, trace') ↔
      b.BindsTo isTimeDependent unvisited table trace leaves t trace' :=
  ⟨bindsTo_of_run unvisited table leaves t trace trace', BindsTo.run⟩

lemma exists_bindsTo_of_returns {leaves : List Expr}
    (h : Returns (b.bindAll isTimeDependent unvisited table leaves) t) :
    ∃ trace trace', b.BindsTo isTimeDependent unvisited table trace leaves t trace' := by
  obtain ⟨trace, trace', h⟩ := h
  exact ⟨trace, trace', bindAll_run_iff.1 h⟩

end NamedSlots.Bound
