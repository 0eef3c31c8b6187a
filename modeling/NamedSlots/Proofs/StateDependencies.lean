import NamedSlots.Proofs.Binding
import NamedSlots.Proofs.GetterEvaluator
import NamedSlots.System.Question

/-!
# State dependencies

The states that a symbol depends on are collected by a walk through definitions. The walk joins
symbols by name and forgets what it has passed, while binding goes by leaf and keeps a table. Both
come to the same states, and both stop at a cycle.
-/

namespace NamedSlots

open Relation

namespace Layout

variable {l : Layout} {d e s t : Expr} {n : Nat}

/-! ### The states among what is reached -/

/-- The state at a place is reached. -/
def DependsOn (l : Layout) (e : Expr) (n : Nat) : Prop :=
  ∃ s, l.Reached e s ∧ l.meaningOf s = some (.source (.state (.int n)))

lemma dependsOn_iff_of_source (hs : s.IsPlainSymbol) {src : Source}
    (hundefined : l.definitionOf s.indexedName = none)
    (hsrc : l.meaningOf s = some (.source src)) : l.DependsOn s n ↔ src = .state (.int n) := by
  unfold DependsOn
  simp only [reached_iff_of_undefined hs hundefined, exists_eq_left, hsrc, Option.some.injEq,
    Meaning.source.injEq]

lemma dependsOn_iff_of_leaves (he : ∀ s ∈ e.scalarLeaves, s.IsPlainSymbol) :
    l.DependsOn e n ↔ ∃ s ∈ e.scalarLeaves, l.DependsOn s n := by
  constructor
  · rintro ⟨t, ht, hmeaning⟩
    obtain ⟨s, hs, ht⟩ := (reached_iff_of_leaves he).1 ht
    exact ⟨s, hs, t, ht, hmeaning⟩
  · rintro ⟨s, hs, t, ht, hmeaning⟩
    exact ⟨t, (reached_iff_of_leaves he).2 ⟨s, hs, ht⟩, hmeaning⟩

lemma dependsOn_iff_of_definition (hs : s.IsPlainSymbol) (hd : l.meaningOf s = some (.definition d))
    (hplain : d.HasPlainSymbols) :
    l.DependsOn s n ↔ ∃ t ∈ d.scalarLeaves, l.DependsOn t n := by
  rw [← dependsOn_iff_of_leaves fun t ht => hplain.of_mem_scalarLeaves ht]
  constructor
  · rintro ⟨t, ht, hmeaning⟩
    rcases (reached_iff_of_defined hs (rolesOf_of_definition hd).2).1 ht with rfl | ht
    · rw [hd] at hmeaning
      cases hmeaning
    · exact ⟨t, ht, hmeaning⟩
  · rintro ⟨t, ht, hmeaning⟩
    exact ⟨t, (reached_iff_of_defined hs (rolesOf_of_definition hd).2).2 (.inr ht), hmeaning⟩

end Layout

/-! ### The walk -/

namespace System

/-- The states that are collected, by their places. -/
def collected (ps : List (Nat × Expr)) : Dependencies :=
  ps.map (Prod.map (fun (n : Nat) => .int n) .expr)

lemma put_collected (n : Nat) (s : Expr) (ps : List (Nat × Expr)) :
    Assoc.put (.int n) (.expr s) (collected ps) = collected (Assoc.put n s ps) := by
  have hkeys (a b : Nat) : (Index.int a == Index.int b) = (a == b) := by
    change ((a : Int) == (b : Int)) = (a == b)
    rw [Bool.eq_iff_iff, beq_iff_eq, beq_iff_eq]
    exact Int.ofNat_inj
  exact Assoc.put_map _ hkeys n s ps

lemma visit_of_defined {s : System} {extra : Extra} {unvisited : List (Option String)}
    {found : Dependencies} {symbol : Value} {d : Expr}
    (hclassify : s.classify extra symbol = .ok .observed)
    (hdefinition : s.definition extra symbol = .ok (some d)) :
    s.visit extra unvisited found symbol =
      if Unvisited.mayEnter unvisited symbol.key? then
        s.visitAll extra (Unvisited.enter unvisited symbol.key?) found (d.scalarLeaves.map .expr)
      else .error (.cyclicDefinition (some (symbol.key?.getD "None"))) := by
  rw [visit, hclassify, Except.ok_bind, hdefinition]
  rfl

lemma visitAll_singleton {s : System} {extra : Extra} {unvisited : List (Option String)}
    {found : Dependencies} {symbol : Value} :
    s.visitAll extra unvisited found [symbol] = s.visit extra unvisited found symbol := by
  simp only [visitAll, bind_pure]

section Visit

variable {b : Bound} {l : Layout} (h : b.AnsweredBy l) {s : Expr} (hs : s.IsPlainSymbol)
include h hs

lemma locate_of_state {n : Nat} (hn : l.meaningOf s = some (.source (.state (.int n)))) :
    b.system.locate b.version (.expr s) = .ok (.int n) := by
  obtain ⟨m, hm, hrole, hplace⟩ := Layout.cases_of_state hn
  cases hm
  exact h.locate_of_rolesOf hs.form_eq hrole rfl hplace

lemma visit_of_source {unvisited : List (Option String)} {found : Dependencies} {src : Source}
    (hsrc : l.meaningOf s = some (.source src)) :
    b.system.visit b.version unvisited found (.expr s) =
      match src with
      | .state i => .ok (Assoc.put i (.expr s) found)
      | _ => .ok found := by
  have hclassify {role : Role} (hrole : l.rolesOf (.expr s) = [role]) :
      b.system.classify b.version (.expr s) = .ok role :=
    h.classify_of_rolesOf hs.form_eq hrole
  rw [visit]
  rcases Layout.cases_of_source hsrc with ⟨n, rfl, hrole, _⟩ | ⟨n, rfl, hrole, _⟩ | ⟨rfl, hrole⟩
  · rw [hclassify hrole, Except.ok_bind, locate_of_state h hs hsrc]
    rfl
  · rw [hclassify hrole]
    rfl
  · rw [hclassify hrole]
    rfl

lemma visit_of_definition {unvisited : List (Option String)} {found : Dependencies} {d : Expr}
    (hd : l.meaningOf s = some (.definition d)) :
    b.system.visit b.version unvisited found (.expr s) =
      if Unvisited.mayEnter unvisited (some s.indexedName) then
        b.system.visitAll b.version (Unvisited.enter unvisited (some s.indexedName)) found
          (d.scalarLeaves.map .expr)
      else .error (.cyclicDefinition (some s.indexedName)) := by
  obtain ⟨hrole, hdef⟩ := Layout.rolesOf_of_definition hd
  have hclassify : b.system.classify b.version (.expr s) = .ok .observed :=
    h.classify_of_rolesOf hs.form_eq hrole
  have hdefinition : b.system.definition b.version (.expr s) = .ok (some d) :=
    Bound.definition_of_meaningOf h hs hd
  rw [visit_of_defined hclassify hdefinition, hs.key?_eq]
  rfl

end Visit

/-- States collected on the way through some leaves, on top of others: all of those that the leaves
depend on, each once and at its place. No leaf leads to a cycle. -/
structure Collects (l : Layout) (leaves : List Expr) (ps qs : List (Nat × Expr)) : Prop where
  nodup : (Assoc.keys ps).Nodup → (Assoc.keys qs).Nodup
  state (n : Nat) (s : Expr) : (n, s) ∈ qs →
    (n, s) ∈ ps ∨ s.IsPlainSymbol ∧ l.meaningOf s = some (.source (.state (.int n)))
  places (n : Nat) : n ∈ Assoc.keys qs ↔ n ∈ Assoc.keys ps ∨ ∃ s ∈ leaves, l.DependsOn s n
  founded (s : Expr) : s ∈ leaves → l.IsFounded s.indexedName

/-- A walk from some leaves of an expression collects states or finds a cycle. -/
def Walks (l : Layout) (e : Expr) (leaves : List Expr) (ps : List (Nat × Expr))
    (r : Except Failure Dependencies) : Prop :=
  (∃ qs, r = .ok (collected qs) ∧ Collects l leaves ps qs) ∨
    ∃ name, r = .error (.cyclicDefinition (some name)) ∧ l.CyclicFrom e

/-- Every reached name that may not be entered any more leads to the leaf. -/
def NameGuarded (l : Layout) (e : Expr) (unvisited : List (Option String)) (leaf : Expr) : Prop :=
  ∀ s, l.Reached e s → Unvisited.mayEnter unvisited (some s.indexedName) = false →
    TransGen l.Mentions s.indexedName leaf.indexedName

namespace Collects

variable {l : Layout} {leaf : Expr} {rest : List Expr} {ps qs qs' : List (Nat × Expr)}

lemma nil : Collects l [] ps ps where
  nodup := id
  state _ _ := .inl
  places n := by simp
  founded s hs := by cases hs

lemma cons (h : Collects l [leaf] ps qs) (h' : Collects l rest qs qs') :
    Collects l (leaf :: rest) ps qs' where
  nodup := h'.nodup ∘ h.nodup
  state n s hs := by
    rcases h'.state n s hs with hs | hs
    · exact h.state n s hs
    · exact .inr hs
  places n := by
    rw [h'.places, h.places]
    simp only [List.mem_singleton, exists_eq_left, List.exists_mem_cons_iff, or_assoc]
  founded s hs := by
    rcases List.mem_cons.1 hs with rfl | hs
    · exact h.founded s (List.mem_singleton_self s)
    · exact h'.founded s hs

section Leaf

variable (hplain : leaf.IsPlainSymbol)
include hplain

lemma put_state {n : Nat} (hundefined : l.definitionOf leaf.indexedName = none)
    (hn : l.meaningOf leaf = some (.source (.state (.int n)))) :
    Collects l [leaf] ps (Assoc.put n leaf ps) where
  nodup := Assoc.nodup_keys_put leaf
  state m s hs := by
    rcases Assoc.mem_put hs with hs | hs
    · exact .inl hs
    · cases hs
      exact .inr ⟨hplain, hn⟩
  places m := by
    have hm : Source.state (.int n) = .state (.int m) ↔ m = n := by
      simp only [Source.state.injEq, Index.int.injEq, Int.ofNat_inj]
      exact eq_comm
    simp only [List.mem_singleton, exists_eq_left,
      Layout.dependsOn_iff_of_source hplain hundefined hn, hm, Assoc.mem_keys_put]
    exact or_comm
  founded s hs := by
    rw [List.mem_singleton.1 hs]
    exact Layout.isFounded_of_undefined hundefined

lemma skip {src : Source} (hundefined : l.definitionOf leaf.indexedName = none)
    (hsrc : l.meaningOf leaf = some (.source src)) (hne : ∀ i, src ≠ .state i) :
    Collects l [leaf] ps ps where
  nodup := id
  state _ _ := .inl
  places n := by
    simp only [List.mem_singleton, exists_eq_left,
      Layout.dependsOn_iff_of_source hplain hundefined hsrc, hne, or_false]
  founded s hs := by
    rw [List.mem_singleton.1 hs]
    exact Layout.isFounded_of_undefined hundefined

lemma of_definition {d : Expr} (hd : l.meaningOf leaf = some (.definition d))
    (hd' : d.HasPlainSymbols) (h : Collects l d.scalarLeaves ps qs) : Collects l [leaf] ps qs where
  nodup := h.nodup
  state := h.state
  places n := by
    simp only [List.mem_singleton, exists_eq_left,
      Layout.dependsOn_iff_of_definition hplain hd hd', h.places]
  founded s hs := by
    rw [List.mem_singleton.1 hs]
    exact Layout.isFounded_of_definition (Layout.rolesOf_of_definition hd).2 h.founded

end Leaf
end Collects

section Walk

variable {b : Bound} {l : Layout} {e s : Expr}

lemma nameGuarded_enter {unvisited : List (Option String)} {leaf d t : Expr}
    (hd : l.definitionOf leaf.indexedName = some d) (ht : t ∈ d.scalarLeaves)
    (hguarded : NameGuarded l e unvisited leaf) :
    NameGuarded l e (Unvisited.enter unvisited (some leaf.indexedName)) t := by
  intro s hs hno
  have hmentions := Layout.mentions_of_definition hd ht
  by_cases hsl : s.indexedName = leaf.indexedName
  · rw [hsl]
    exact .single hmentions
  · cases hmay : Unvisited.mayEnter unvisited (some s.indexedName) with
    | false => exact (hguarded s hs hmay).tail hmentions
    | true =>
      have hstill : Unvisited.mayEnter (Unvisited.enter unvisited (some leaf.indexedName))
          (some s.indexedName) = true := by
        obtain ⟨name, hmem, hname⟩ := List.any_eq_true.1 hmay
        rw [← eq_of_beq hname] at hmem
        refine List.any_eq_true.2 ⟨_, List.mem_filter.2 ⟨hmem, ?_⟩, beq_self_eq_true _⟩
        simpa using Ne.symm hsl
      rw [hstill] at hno
      cases hno

lemma visitAll_walks {unvisited : List (Option String)}
    (hleaf : ∀ (ps : List (Nat × Expr)) (leaf : Expr), l.Reached e leaf →
      NameGuarded l e unvisited leaf →
      Walks l e [leaf] ps (b.system.visit b.version unvisited (collected ps) (.expr leaf)))
    (leaves : List Expr) (ps : List (Nat × Expr)) (hreached : ∀ s ∈ leaves, l.Reached e s)
    (hguarded : ∀ s ∈ leaves, NameGuarded l e unvisited s) :
    Walks l e leaves ps
      (b.system.visitAll b.version unvisited (collected ps) (leaves.map .expr)) := by
  induction leaves generalizing ps with
  | nil =>
    refine .inl ⟨ps, ?_, .nil⟩
    rw [List.map_nil, visitAll]
    rfl
  | cons leaf rest ih =>
    rw [List.map_cons, visitAll]
    rcases hleaf ps leaf (hreached _ List.mem_cons_self) (hguarded _ List.mem_cons_self) with
      ⟨qs, hqs, hcollects⟩ | ⟨name, herror, hcycle⟩
    · rw [hqs, Except.ok_bind]
      rcases ih qs (fun s hs => hreached s (List.mem_cons_of_mem _ hs))
        fun s hs => hguarded s (List.mem_cons_of_mem _ hs) with
        ⟨qs', hqs', hrest⟩ | ⟨name, herror, hcycle⟩
      · exact .inl ⟨qs', hqs', hcollects.cons hrest⟩
      · exact .inr ⟨name, herror, hcycle⟩
    · rw [herror]
      exact .inr ⟨name, rfl, hcycle⟩

/-- A walk from one leaf, by induction on what is left to be entered. -/
lemma visit_walks (h : b.AnsweredBy l) (he : l.Resolves e) (k : Nat)
    {unvisited : List (Option String)} (hk : unvisited.length = k) (ps : List (Nat × Expr))
    (leaf : Expr) (hreached : l.Reached e leaf) (hguarded : NameGuarded l e unvisited leaf) :
    Walks l e [leaf] ps (b.system.visit b.version unvisited (collected ps) (.expr leaf)) := by
  induction k using Nat.strongRecOn generalizing unvisited ps leaf with
  | ind k ih =>
    have hplain := he.isPlainSymbol hreached
    rcases Layout.meaningOf_cases hplain (he.known leaf hreached) with
      ⟨src, hsrc, hundefined⟩ | ⟨d, hd, hdef⟩
    · rw [visit_of_source h hplain hsrc]
      cases src with
      | state i =>
        obtain ⟨n, rfl, _⟩ := Layout.cases_of_state hsrc
        refine .inl ⟨_, congrArg _ (put_collected n leaf ps), ?_⟩
        exact .put_state hplain hundefined hsrc
      | parameter i => exact .inl ⟨ps, rfl, .skip hplain hundefined hsrc nofun⟩
      | time => exact .inl ⟨ps, rfl, .skip hplain hundefined hsrc nofun⟩
      | provider p => exact .inl ⟨ps, rfl, .skip hplain hundefined hsrc nofun⟩
    rw [visit_of_definition h hplain hd]
    cases hmay : Unvisited.mayEnter unvisited (some leaf.indexedName) with
    | false => exact .inr ⟨leaf.indexedName, rfl, leaf, hreached, hguarded leaf hreached hmay⟩
    | true =>
      have hlength : (Unvisited.enter unvisited (some leaf.indexedName)).length < k :=
        hk ▸ Unvisited.length_enter_lt hmay
      have hall := visitAll_walks (b := b) (fun ps leaf => ih _ hlength rfl ps leaf)
        d.scalarLeaves ps (fun t ht => hreached.of_definition hdef ht) fun t ht => nameGuarded_enter hdef ht hguarded
      rcases hall with ⟨qs, hqs, hcollects⟩ | ⟨name, herror, hcycle⟩
      · refine .inl ⟨qs, hqs, .of_definition hplain hd ?_ hcollects⟩
        exact he.plain_of_definition hreached hdef
      · exact .inr ⟨name, herror, hcycle⟩

/-- Before anything is entered, every reached name may be. -/
lemma mayEnter_name_of_reached (h : b.AnsweredBy l) (hs : l.Reached e s)
    {names : List (Option String)} (hroots : ∀ s ∈ e.scalarLeaves, some s.indexedName ∈ names) (he : l.Resolves e) :
    Unvisited.mayEnter (names ++ (b.system.definitionLeaves b.version).map fun d =>
      (Value.expr d).key?) (some s.indexedName) = true := by
  refine List.any_eq_true.2 ⟨some s.indexedName, ?_, beq_self_eq_true _⟩
  have hkey := (he.isPlainSymbol hs).key?_eq
  obtain ⟨d, hwithin, hmem⟩ := hs
  rcases hwithin.cases_tail with rfl | ⟨d', _, t, _, hdef⟩
  · exact List.mem_append_left _ (hroots s hmem)
  · obtain ⟨name, hentry, _⟩ := Assoc.mem_of_find? hdef
    rw [h.definitionLeaves_eq]
    refine List.mem_append_right _ (List.mem_map.2 ⟨s, ?_, hkey⟩)
    exact List.mem_flatMap.2 ⟨(name, d), hentry, hmem⟩

end Walk

/-! ### In storage order -/

/-- Collected states by their places, lowest first. -/
def sorted (ps : List (Nat × Expr)) : List (Nat × Expr) := ps.mergeSort fun p q => p.1 ≤ q.1

lemma mergeSort_collected (ps : List (Nat × Expr)) :
    (collected ps).mergeSort (fun p q => p.1.toInt ≤ q.1.toInt) = collected (sorted ps) := by
  refine (List.map_mergeSort fun p _ q _ => ?_).symm
  rw [decide_eq_decide]
  exact Int.ofNat_le.symm

lemma mem_sorted {p : Nat × Expr} {ps : List (Nat × Expr)} : p ∈ sorted ps ↔ p ∈ ps :=
  List.mem_mergeSort

lemma mem_keys_sorted {n : Nat} {ps : List (Nat × Expr)} :
    n ∈ Assoc.keys (sorted ps) ↔ n ∈ Assoc.keys ps := by
  rw [Assoc.keys, Assoc.keys, List.mem_map, List.mem_map]
  simp only [mem_sorted]

/-- States that are collected once each have strictly increasing places. -/
lemma pairwise_sorted {ps : List (Nat × Expr)} (h : (Assoc.keys ps).Nodup) :
    (Assoc.keys (sorted ps)).Pairwise (· < ·) := by
  have hle : (Assoc.keys (sorted ps)).Pairwise (· ≤ ·) := by
    refine List.pairwise_map.2 ((List.pairwise_mergeSort ?_ ?_ ps).imp of_decide_eq_true)
    · intro p q r hpq hqr
      exact decide_eq_true ((of_decide_eq_true hpq).trans (of_decide_eq_true hqr))
    · intro p q
      rw [Bool.or_eq_true, decide_eq_true_eq, decide_eq_true_eq]
      exact Nat.le_total _ _
  have hnodup : (Assoc.keys (sorted ps)).Nodup :=
    (((List.mergeSort_perm ps _).map _).nodup_iff).2 h
  exact (hle.and hnodup).imp fun ⟨hle, hne⟩ => Nat.lt_of_le_of_ne hle hne

lemma mapM_locate {b : Bound} {l : Layout} (h : b.AnsweredBy l) {ps : List (Nat × Expr)}
    (hps : ∀ n s, (n, s) ∈ ps →
      s.IsPlainSymbol ∧ l.meaningOf s = some (.source (.state (.int n)))) :
    ((collected ps).map (·.2)).mapM (b.system.locate b.version) =
      .ok ((Assoc.keys ps).map fun n => .int n) := by
  induction ps with
  | nil => rfl
  | cons p rest ih =>
    obtain ⟨n, s⟩ := p
    obtain ⟨hs, hn⟩ := hps n s List.mem_cons_self
    have hlocate : b.system.locate b.version (.expr s) = .ok (.int n) :=
      locate_of_state h hs hn
    have hrest := ih fun n s hmem => hps n s (List.mem_cons_of_mem _ hmem)
    change List.mapM _ (.expr s :: (collected rest).map (·.2)) = _
    rw [List.mapM_cons, hlocate, Except.ok_bind, hrest]
    rfl

/-- A symbol is expanded to its scalar leaves. -/
lemma expand_symbol {e : Expr} (hkind : e.kind = .symbol ∨ e.kind = .array) :
    Classifier.standard.expand (.expr e) = .ok (e.scalars.map .expr) := by
  obtain ⟨kind, cs, label⟩ := e
  rcases hkind with hkind | hkind
  · cases hkind
    rfl
  · cases hkind
    rfl

lemma mem_scalars_symbol {e s : Expr} (hkind : e.kind = .symbol ∨ e.kind = .array)
    (he : e.HasPlainSymbols) : s ∈ e.scalars ↔ s ∈ e.scalarLeaves := by
  rw [Expr.mem_scalarLeaves he]
  obtain ⟨kind, cs, label⟩ := e
  rcases hkind with hkind | hkind
  · cases hkind
    rfl
  · cases hkind
    rw [Expr.occurrences_array]
    rfl

/-- The names that the walk from a symbol may enter before it enters any. -/
def dependencyNames (s : System) (extra : Extra) (e : Expr) : List (Option String) :=
  (e.scalars.map Value.expr).map Value.key? ++
    (s.definitionLeaves extra).map fun d => (Value.expr d).key?

lemma stateDependencies_symbol (s : System) (extra : Extra) {e : Expr}
    (hkind : e.kind = .symbol ∨ e.kind = .array) :
    s.stateDependencies extra (.expr e) =
      s.visitAll extra (s.dependencyNames extra e) (collected []) (e.scalars.map .expr) >>= fun found =>
        .ok ((found.mergeSort fun p q => p.1.toInt ≤ q.1.toInt).map (·.2)) := by
  unfold stateDependencies
  rw [expand_symbol hkind]
  rfl

/-- The states that a symbol depends on come in the order of their strictly increasing places, or a
cycle is found. -/
lemma stateDependencies_walks {b : Bound} {l : Layout} {e : Expr} (h : b.AnsweredBy l)
    (he : l.Resolves e) (hkind : e.kind = .symbol ∨ e.kind = .array) :
    (∃ symbols, ∃ places : List Nat,
        b.system.stateDependencies b.version (.expr e) = .ok symbols ∧ ¬ l.CyclicFrom e ∧
        symbols.mapM (b.system.locate b.version) = .ok (places.map fun n => .int n) ∧
        places.Pairwise (· < ·) ∧ ∀ n, n ∈ places ↔ l.DependsOn e n) ∨
      ∃ name, b.system.stateDependencies b.version (.expr e) =
        .error (.cyclicDefinition (some name)) ∧ l.CyclicFrom e := by
  have hplain := he.plain e .refl
  have hmem (s : Expr) := mem_scalars_symbol (s := s) hkind hplain
  have hreached : ∀ s ∈ e.scalars, l.Reached e s := fun s hs =>
    Layout.reached_of_mem ((hmem s).1 hs)
  have hguarded : ∀ s ∈ e.scalars,
      NameGuarded l e (b.system.dependencyNames b.version e) s := by
    intro s _ t ht hno
    rw [dependencyNames, mayEnter_name_of_reached h ht (fun s hs => ?_) he] at hno
    · cases hno
    · have hs' := (hmem s).2 hs
      have hkey := (he.isPlainSymbol (hreached s hs')).key?_eq
      exact List.mem_map.2 ⟨.expr s, List.mem_map_of_mem hs', hkey⟩
  rw [stateDependencies_symbol b.system b.version hkind]
  rcases visitAll_walks (fun ps leaf => visit_walks h he _ rfl ps leaf) e.scalars [] hreached
    hguarded with ⟨qs, hqs, hcollects⟩ | ⟨name, herror, hcycle⟩
  · rw [hqs, Except.ok_bind, mergeSort_collected]
    refine .inl ⟨_, Assoc.keys (sorted qs), rfl, ?_, mapM_locate h ?_, ?_, fun n => ?_⟩
    · exact Layout.not_cyclicFrom_of_isFounded fun s hs => hcollects.founded s ((hmem s).2 hs)
    · intro n s hs
      exact (hcollects.state n s (mem_sorted.1 hs)).resolve_left nofun
    · exact pairwise_sorted (hcollects.nodup List.nodup_nil)
    · rw [mem_keys_sorted, hcollects.places,
        Layout.dependsOn_iff_of_leaves fun s hs => hplain.of_mem_scalarLeaves hs]
      simp only [hmem, Assoc.keys, List.map_nil, List.not_mem_nil, false_or]
  · rw [herror]
    exact .inr ⟨name, rfl, hcycle⟩

/-- An expression that a layout resolves is compiled to an evaluator whose state bindings are the
states that it depends on, or a cycle is found. -/
lemma evaluator_binds {states parameters independent observed : Value} {l : Layout}
    (hl : Layout.build states parameters independent observed = .ok l) (identity : Option Nat)
    {e : Expr} (he : l.Resolves e) :
    (∃ f, (l.system identity).evaluator (.expr e) .none = .ok f ∧ ¬ l.CyclicFrom e ∧
        ∀ i, (∃ leaf, (leaf, .state i) ∈ f.table.bindings) ↔ ∃ n, l.DependsOn e n ∧ i = .int n) ∨
      ∃ name, (l.system identity).evaluator (.expr e) .none =
        .error (.cyclicDefinition (some name)) ∧ l.CyclicFrom e := by
  have hanswered := l.answeredBy identity
  have hsize := Layout.independent_size hl
  rcases bind_binds hanswered he fun v => Layout.size_of_has_independent hl with
    ⟨t, ht, hext⟩ | ⟨name, herror, hcycle⟩
  · have hf := evaluator_of_compile (l.bound_of_system identity)
      (Evaluator.compile_of_bind hanswered hsize ht)
    refine .inl ⟨_, hf, not_cyclicFrom_of_extends he hext, fun i => ⟨?_, ?_⟩⟩
    · rintro ⟨leaf, hleaf⟩
      have hentry := LeafTable.mem_bindings.1 hleaf
      have hmeaning := hext.settled.meaningOf_of_mem hentry
      obtain ⟨n, rfl, _⟩ := Layout.cases_of_state hmeaning
      exact ⟨n, ⟨leaf, hext.settled.reached_of_mem_keys (Assoc.mem_keys_of_mem hentry), hmeaning⟩,
        rfl⟩
    · rintro ⟨n, ⟨s, hs, hmeaning⟩, rfl⟩
      obtain ⟨m, hm⟩ :=
        Assoc.exists_mem_of_mem_keys (hext.settled.mem_keys_of_reached he hext.bound hs)
      have hentry := hext.settled.meaningOf_of_mem hm
      rw [hmeaning] at hentry
      cases hentry
      exact ⟨s, LeafTable.mem_bindings.2 hm⟩
  · refine .inr ⟨name, ?_, hcycle⟩
    refine evaluator_of_compile (l.bound_of_system identity) ?_
    exact Traced.yields_lift_bind (Evaluator.isTimeDependent_bound hanswered hsize)
      (herror.bind_error _)

/-- For a scalar or an array symbol whose leaves a layout knows, the walk through definitions by
name reports a cyclic definition exactly if compiling the symbol does, which is when the symbol
leads to a cycle. Otherwise the symbols that it returns stand at strictly increasing places, and
these are the places of the states that the compiler binds. -/
theorem stateDependencies_eq_bound_states {states parameters independent observed : Value}
    {l : Layout} (hl : Layout.build states parameters independent observed = .ok l)
    (identity : Option Nat) {e : Expr} (hkind : e.kind = .symbol ∨ e.kind = .array)
    (he : l.Resolves e) :
    let s := l.system identity
    let question := Question.stateDependencies (.expr e)
    ((∃ name, Route.direct.ask s none question = .error (.cyclicDefinition (some name))) ↔
        ∃ name, s.evaluator (.expr e) .none = .error (.cyclicDefinition (some name))) ∧
      ((∃ name, s.evaluator (.expr e) .none = .error (.cyclicDefinition (some name))) ↔
        l.CyclicFrom e) ∧
      (¬ l.CyclicFrom e → ∃ symbols f, ∃ places : List Nat,
        Route.direct.ask s none question = .ok (.symbols symbols) ∧
        s.evaluator (.expr e) .none = .ok f ∧
        symbols.mapM (s.locate none) = .ok (places.map fun n => .int n) ∧
        places.Pairwise (· < ·) ∧
        ∀ i, (∃ leaf, (leaf, .state i) ∈ f.table.bindings) ↔ ∃ n ∈ places, i = .int n) := by
  intro s question
  have hask : Route.direct.ask s none question =
      s.stateDependencies none (.expr e) >>= fun symbols => .ok (.symbols symbols) := rfl
  have hbinds := evaluator_binds hl identity he
  rw [hask]
  rcases stateDependencies_walks (l.answeredBy identity) he hkind with
    ⟨symbols, places, hsymbols, hacyclic, hlocate, hincreasing, hplaces⟩ | ⟨name, herror, hcycle⟩
  · obtain ⟨f, hf, _, hbindings⟩ := hbinds.resolve_right fun ⟨_, _, hcycle⟩ => hacyclic hcycle
    have hsymbols' : s.stateDependencies none (.expr e) = .ok symbols := hsymbols
    rw [hsymbols', hf]
    refine ⟨⟨nofun, nofun⟩, ⟨nofun, fun hcycle => absurd hcycle hacyclic⟩, fun _ => ?_⟩
    refine ⟨symbols, f, places, rfl, rfl, hlocate, hincreasing, fun i => ?_⟩
    simp only [hbindings, hplaces]
  · obtain ⟨name', herror', _⟩ := hbinds.resolve_left fun ⟨_, _, hacyclic, _⟩ => hacyclic hcycle
    have hwalk : s.stateDependencies none (.expr e) =
        .error (.cyclicDefinition (some name)) := herror
    rw [hwalk, herror']
    exact ⟨⟨fun _ => ⟨name', rfl⟩, fun _ => ⟨name, rfl⟩⟩, ⟨fun _ => hcycle, fun _ => ⟨name', rfl⟩⟩,
      fun hacyclic => absurd hcycle hacyclic⟩

namespace Scaled

def position : Expr := .symbol (some "x")

def speed : Expr := .symbol (some "v")

def momentum : Expr := .symbol (some "p")

def definition : Expr := .binary .mul speed position

/-- Two states, and an observed symbol that mentions the later one first. -/
def layout : Layout where
  states := ⟨[("x", .expr position), ("v", .expr speed)]⟩
  observed := ⟨[("p", .expr momentum, definition)]⟩

lemma build_layout :
    Layout.build (.list [.expr position, .expr speed]) .none .none
      (.dict [(.expr momentum, .expr definition)]) = .ok layout := rfl

lemma unrolls_momentum :
    layout.Unrolls (fun d => d.HasPlainSymbols ∧ layout.Knows d) momentum :=
  .intro ⟨by decide, by decide⟩
    (List.forall_mem_singleton.2 (.intro ⟨by decide, by decide⟩ (List.forall_mem_nil _)))

end Scaled

/-- A product of two states depends on the states that its evaluator binds, in storage order. -/
theorem stateDependencies_eq_bound_states_scaled :
    ∃ symbols f, ∃ places : List Nat,
      Route.direct.ask (Scaled.layout.system none) none (.stateDependencies (.expr Scaled.momentum)) =
        .ok (.symbols symbols) ∧
      (Scaled.layout.system none).evaluator (.expr Scaled.momentum) .none = .ok f ∧
      symbols.mapM ((Scaled.layout.system none).locate none) = .ok (places.map fun n => .int n) ∧
      places.Pairwise (· < ·) ∧
      ∀ i, (∃ leaf, (leaf, .state i) ∈ f.table.bindings) ↔ ∃ n ∈ places, i = .int n :=
  (stateDependencies_eq_bound_states Scaled.build_layout none (.inl rfl)
    Scaled.unrolls_momentum.resolves).2.2 Scaled.unrolls_momentum.not_cyclicFrom

/-- The names of an element and its twin differ, so the walk may enter both. -/
lemma visit_twins {unvisited : List (Option String)} (found : Dependencies)
    (helement : Unvisited.mayEnter unvisited (some "A[1]") = true)
    (hflag : Unvisited.mayEnter (Unvisited.enter unvisited (some "A[1]")) (some "A[True]") = true) :
    (Twins.layout.system none).visit none unvisited found (.expr (Twins.element (.int 1))) =
      .ok (Assoc.put (.int 0) (.expr Twins.single) found) := by
  rw [visit_of_defined (d := Twins.element (.flag true)) rfl rfl]
  refine (if_pos helement).trans ?_
  change visitAll _ _ _ _ [.expr (Twins.element (.flag true))] = _
  rw [visitAll_singleton, visit_of_defined (d := Twins.single) rfl rfl]
  refine (if_pos hflag).trans ?_
  change visitAll _ _ _ _ [.expr Twins.single] = _
  rw [visitAll_singleton, visit]
  rfl

lemma stateDependencies_twins : (Twins.layout.system none).stateDependencies none
    (.expr (Twins.element (.int 1))) = .ok [.expr Twins.single] := by
  rw [stateDependencies_symbol _ _ (.inl rfl)]
  change visitAll _ _ _ _ [.expr (Twins.element (.int 1))] >>= _ = _
  rw [visitAll_singleton, visit_twins (collected []) (by decide) (by decide),
    Except.ok_bind]
  change Except.ok (([(Index.int 0, Value.expr Twins.single)].mergeSort _).map (·.2)) = _
  rw [List.mergeSort_singleton]
  rfl

/-- The walk by name passes an element and its twin on the way to the state. Compiling the element
takes the twin for the element itself, and reports a cycle. -/
theorem stateDependencies_of_twin_reported_as_cycle :
    Layout.build (.list [.expr Twins.single]) .none .none Twins.definitions = .ok Twins.layout ∧
      (Twins.element (.int 1)).HasPlainSymbols ∧
      (∀ s, Twins.layout.Reached (Twins.element (.int 1)) s →
        ∃ role, Twins.layout.rolesOf (.expr s) = [role]) ∧
      Route.direct.ask (Twins.layout.system none) none
          (.stateDependencies (.expr (Twins.element (.int 1)))) =
        .ok (.symbols [.expr Twins.single]) ∧
      (Twins.layout.system none).evaluator (.expr (Twins.element (.int 1))) .none =
        .error (.cyclicDefinition (some "A[True]")) := by
  refine ⟨Twins.build_layout, Twins.hasPlainSymbols_element, fun _ => Twins.unrolls_element.known, ?_, ?_⟩
  · change System.stateDependencies _ _ _ >>= _ = _
    rw [stateDependencies_twins]
    rfl
  · refine evaluator_of_compile (Twins.layout.bound_of_system none) ?_
    exact Traced.yields_lift_bind (rfl : (Twins.layout.bound none).isTimeDependent = .ok false)
      (Twins.bind_element.bind_error _)

end System
end NamedSlots
