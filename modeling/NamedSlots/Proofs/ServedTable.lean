import NamedSlots.Proofs.BindingDerivation
import NamedSlots.Proofs.BindingRun
import NamedSlots.Proofs.Planning

/-!
# What a bound table follows

A system may answer from a layout or fail to find one. If binding succeeds, there is a layout, and
every entry of the table is a leaf that the expression reaches with what the layout says about it.
Nothing is assumed about the leaves: an expression whose leaves are unknown is not bound.
-/

namespace NamedSlots

open Traced

lemma filterM_cons_error {α : Type} {f : α → Except Failure Bool} {a : α} {as : List α}
    {e : Failure} (h : f a = .error e) : (a :: as).filterM f = .error e := by
  unfold List.filterM
  rw [List.filterAuxM, h]
  rfl

/-- The slot that the layout that is found assigns to a symbol of one role. -/
def Assigns (tables : Except Failure Layout) (role : Role) (symbol : Value) (i : Index) : Prop :=
  ∃ l n, tables = .ok l ∧ l.rolesOf symbol = [role] ∧ l.place? role symbol = some n ∧ i = .int n

/-- Every entry of a table is a leaf reached from an expression, with what the layout that is found
says about it. -/
def LeafTable.Follows (tables : Except Failure Layout) (e : Expr) (t : LeafTable) : Prop :=
  ∀ leaf m, (leaf, m) ∈ t.entries →
    ∃ l, tables = .ok l ∧ l.Reached e leaf ∧ l.meaningOf leaf = some m

namespace Bound

section Answer

variable {b : Bound} {layoutAt : Extra → Except Failure Layout}
  (hb : b.system.AnsweredBy layoutAt)
include hb

/-- A symbol that has a role has it from the layout of the version. -/
lemma rolesOf_of_classify {v : Value} {role : Role} (h : b.classify v = .ok role)
    (hne : role ≠ .unknown) :
    ∃ l, layoutAt b.version = .ok l ∧ b.AnsweredBy l ∧ Classifier.standard.form v = .scalar ∧
      l.rolesOf v = [role] := by
  have hform : Classifier.standard.form v = .scalar := by
    unfold Bound.classify System.classify at h
    cases hv : Classifier.standard.form v with
    | scalar => rfl
    | array =>
      rw [hv] at h
      cases h
    | notSymbolic =>
      rw [hv] at h
      cases h
      exact absurd rfl hne
  cases hl : layoutAt b.version with
  | error e =>
    have hclaims : b.system.claims b.version v = .error e := by
      refine filterM_cons_error ?_
      rw [hb.predicate]
      change (layoutAt b.version >>= fun l => pure (l.has .state v)) = _
      rw [hl]
      rfl
    unfold Bound.classify System.classify at h
    rw [hform] at h
    simp only [hclaims] at h
    cases h
  | ok l =>
    have hanswered : b.AnsweredBy l := .of_layoutAt hb hl
    refine ⟨l, rfl, hanswered, hform, ?_⟩
    rw [hanswered.classify_eq hform] at h
    split at h
    · cases h
      exact absurd rfl hne
    · rename_i hroles
      cases h
      exact hroles
    · cases h

lemma assigns_of_locate {v : Value} {role : Role} (h : b.classify v = .ok role)
    (hstored : Interface.isStored role = true) {i : Index} (hi : b.locate v = .ok i) :
    Assigns (layoutAt b.version) role v i := by
  have hne : role ≠ .unknown := by
    rintro rfl
    cases hstored
  obtain ⟨l, hl, hanswered, hform, hroles⟩ := rolesOf_of_classify hb h hne
  obtain ⟨n, hn⟩ := Layout.exists_place? hstored (Layout.has_of_rolesOf hroles)
  have hlocate := hanswered.locate_of_rolesOf hform hroles hstored hn
  exact ⟨l, n, hl, hroles, hn, Except.ok.inj (hi.symm.trans hlocate)⟩

/-- The source that is found for a leaf is what the layout says about it. -/
lemma exists_meaningOf_of_finds {isTimeDependent : Bool} {leaf : Expr} {src : Source}
    {trace trace' : Trace} (h : b.Finds isTimeDependent leaf src trace trace') :
    ∃ l, layoutAt b.version = .ok l ∧ l.meaningOf leaf = some (.source src) := by
  cases h with
  | state hrole hplace =>
    obtain ⟨l, n, hl, hroles, hn, rfl⟩ := assigns_of_locate hb hrole rfl hplace
    exact ⟨l, hl, by simp only [Layout.meaningOf, hroles, hn, Option.map_some]⟩
  | parameter hrole hplace =>
    obtain ⟨l, n, hl, hroles, hn, rfl⟩ := assigns_of_locate hb hrole rfl hplace
    exact ⟨l, hl, by simp only [Layout.meaningOf, hroles, hn, Option.map_some]⟩
  | time hrole _ =>
    obtain ⟨l, hl, _, _, hroles⟩ := rolesOf_of_classify hb hrole (by simp)
    exact ⟨l, hl, by simp only [Layout.meaningOf, hroles]⟩
  | provider _ _ hprovider =>
    -- no provider is offered, so that an undefined observed symbol is not bound
    rw [provider_eq hb.ownProvider hb.provider] at hprovider
    cases hprovider

/-- The definition that is found for a leaf is what the layout says about it. -/
lemma exists_meaningOf_of_definition {leaf d : Expr} (hkind : leaf.kind = .symbol)
    (hrole : b.classify (.expr leaf) = .ok .observed)
    (hdefinition : b.definition (.expr leaf) = .ok (some d)) :
    ∃ l, layoutAt b.version = .ok l ∧ l.meaningOf leaf = some (.definition d) := by
  obtain ⟨l, hl, hanswered, _, hroles⟩ := rolesOf_of_classify hb hrole (by simp)
  rw [hanswered.definition_eq, Expr.key?_of_kind hkind, Option.bind_some] at hdefinition
  refine ⟨l, hl, ?_⟩
  simp only [Layout.meaningOf, hroles, Except.ok.inj hdefinition, Option.map_some]

end Answer

section Follow

variable {b : Bound} {layoutAt : Extra → Except Failure Layout} {e : Expr}

lemma follows_insert {table : LeafTable} {leaf : Expr} {m : Meaning} {l : Layout}
    {tables : Except Failure Layout} (htable : table.Follows tables e) (hl : tables = .ok l)
    (hreached : l.Reached e leaf) (hm : l.meaningOf leaf = some m) :
    (table.insert leaf m).Follows tables e := by
  intro leaf' m' hmem
  rcases List.mem_cons.1 hmem with heq | hmem
  · cases heq
    exact ⟨l, hl, hreached, hm⟩
  · exact htable leaf' m' hmem

lemma follows_of_bindsTo (hb : b.system.AnsweredBy layoutAt) {isTimeDependent : Bool}
    {unvisited leaves : List Expr} {table t : LeafTable} {trace trace' : Trace}
    (h : b.BindsTo isTimeDependent unvisited table trace leaves t trace')
    (htable : table.Follows (layoutAt b.version) e)
    (hleaves : ∀ s ∈ leaves, s.kind = .symbol ∧
      ∀ l, layoutAt b.version = .ok l → l.Reached e s) :
    t.Follows (layoutAt b.version) e := by
  induction h with
  | nil => exact htable
  | skip _ _ ih => exact ih htable (List.forall_mem_cons.1 hleaves).2
  | source _ hsource _ ih =>
    obtain ⟨⟨_, hreached⟩, hrest⟩ := List.forall_mem_cons.1 hleaves
    obtain ⟨l, hl, hm⟩ := exists_meaningOf_of_finds hb hsource
    exact ih (follows_insert htable hl (hreached l hl) hm) hrest
  | definition _ hrole hdefinition _ _ _ ihInner ih =>
    obtain ⟨⟨hkind, hreached⟩, hrest⟩ := List.forall_mem_cons.1 hleaves
    obtain ⟨l, hl, hm⟩ := exists_meaningOf_of_definition hb hkind hrole hdefinition
    refine ih (follows_insert (ihInner htable ?_) hl (hreached l hl) hm) hrest
    intro s hs
    refine ⟨Expr.kind_of_mem_scalarLeaves hs, fun l' hl' => ?_⟩
    cases hl.symm.trans hl'
    exact (hreached l hl).of_definition (Layout.rolesOf_of_definition hm).2 hs

lemma bind_follows (hb : b.system.AnsweredBy layoutAt) {isTimeDependent : Bool} {t : LeafTable}
    (h : Returns (b.bind isTimeDependent e) t) : t.Follows (layoutAt b.version) e := by
  obtain ⟨_, _, hbinds⟩ := exists_bindsTo_of_returns h
  refine follows_of_bindsTo hb hbinds nofun ?_
  exact fun s hs => ⟨Expr.kind_of_mem_scalarLeaves hs, fun l _ => Layout.reached_of_mem hs⟩

end Follow

end Bound
end NamedSlots
