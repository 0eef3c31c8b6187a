import NamedSlots.Proofs.BindingClosure
import NamedSlots.Proofs.ServedTable

/-!
# When binding succeeds

A system that answers from a layout offers no provider, so that binding leaves no trace. Whatever
table it returns is settled, and has every leaf that is reached. An expression is bound exactly if
each of its leaves, through definitions, has one role and none comes back to its own name.
-/

namespace NamedSlots

open Traced

namespace Bound

-- the induction is that of binding: on the leaves that are not under definition, then on the list
mutual

/-- Binding a leaf has what composition keeps, if asking for a provider has it. -/
lemma bindLeaf_of_composes {C : (α : Type) → Traced α → Prop} (hC : Composes C) {b : Bound}
    (hprovider : ∀ v, C _ (b.provider v)) (isTimeDependent : Bool) (unvisited : List Expr)
    (table : LeafTable) (leaf : Expr) : C _ (b.bindLeaf isTimeDependent unvisited table leaf) := by
  rw [bindLeaf]
  split
  · exact hC.pure _
  refine hC.bind (hC.lift _) fun role => ?_
  cases role with
  | unknown => exact hC.throw _
  | state => exact hC.bind (hC.lift _) fun _ => hC.pure _
  | parameter => exact hC.bind (hC.lift _) fun _ => hC.pure _
  | independent =>
    cases isTimeDependent with
    | true => exact hC.pure _
    | false => exact hC.throw _
  | observed =>
    refine hC.bind (hC.lift _) fun definition => ?_
    cases definition with
    | none =>
      refine hC.bind (hprovider _) fun provider => ?_
      cases provider with
      | none => exact hC.throw _
      | some p => exact hC.pure _
    | some d =>
      dsimp only
      split
      · exact hC.bind (bindAll_of_composes hC hprovider isTimeDependent _ table d.scalarLeaves)
          fun _ => hC.pure _
      · exact hC.throw _
termination_by (unvisited.length, 0)
decreasing_by exact Prod.Lex.left _ _ (Unvisited.length_enter_lt (by assumption))

lemma bindAll_of_composes {C : (α : Type) → Traced α → Prop} (hC : Composes C) {b : Bound}
    (hprovider : ∀ v, C _ (b.provider v)) (isTimeDependent : Bool) (unvisited : List Expr)
    (table : LeafTable) (leaves : List Expr) :
    C _ (b.bindAll isTimeDependent unvisited table leaves) := by
  match leaves with
  | [] =>
    rw [bindAll]
    exact hC.pure _
  | leaf :: rest =>
    rw [bindAll]
    exact hC.bind (bindLeaf_of_composes hC hprovider isTimeDependent unvisited table leaf) fun t =>
      bindAll_of_composes hC hprovider isTimeDependent unvisited t rest
termination_by (unvisited.length, 1 + leaves.length)
decreasing_by
  · exact Prod.Lex.right _ (by simp only [List.length_cons]; omega)
  · exact Prod.Lex.right _ (by simp)

end

/-- Binding an expression has what composition keeps, if asking for a provider has it. -/
lemma bind_of_composes {C : (α : Type) → Traced α → Prop} (hC : Composes C) {b : Bound}
    (hprovider : ∀ v, C _ (b.provider v)) (isTimeDependent : Bool) (e : Expr) :
    C _ (b.bind isTimeDependent e) :=
  bindAll_of_composes hC hprovider isTimeDependent _ {} e.scalarLeaves

variable {layoutAt : Extra → Except Failure Layout} {b : Bound} {l : Layout} {e : Expr}

lemma bind_quiet (hb : b.system.AnsweredBy layoutAt) (isTimeDependent : Bool) (e : Expr) :
    Quiet (b.bind isTimeDependent e) := by
  refine bind_of_composes composes_quiet (fun v => ?_) isTimeDependent e
  rw [provider_eq hb.ownProvider hb.provider]
  exact quiet_pure _

lemma extends_of_bindsTo (hb : b.system.AnsweredBy layoutAt) (hl : layoutAt b.version = .ok l)
    (he : l.PlainThrough e) {isTimeDependent : Bool} {unvisited leaves : List Expr}
    {table t : LeafTable} {trace trace' : Trace}
    (h : b.BindsTo isTimeDependent unvisited table trace leaves t trace')
    (hsettled : Settled l e table.entries) (hreached : ∀ s ∈ leaves, l.Reached e s) :
    Extends l e unvisited table leaves t := by
  have hcontains {table : LeafTable} {leaf : Expr} (hsettled : Settled l e table.entries)
      (hleaf : l.Reached e leaf) : table.contains leaf = true ↔ leaf ∈ Assoc.keys table.entries :=
    Assoc.contains_iff (fun k hk => he.isPlainSymbol (hsettled.reached_of_mem_keys hk))
      (he.isPlainSymbol hleaf)
  induction h with
  | nil => exact .refl hsettled nofun
  | @skip unvisited _ leaf table _ _ _ hbound _ ih =>
    obtain ⟨hleaf, hrest⟩ := List.forall_mem_cons.1 hreached
    have hkept : Extends l e unvisited table [leaf] table :=
      .refl hsettled (List.forall_mem_singleton.2 ((hcontains hsettled hleaf).1 hbound))
    exact hkept.trans (ih hsettled hrest)
  | @source unvisited _ leaf src table _ _ _ _ hnew hsource _ ih =>
    obtain ⟨hleaf, hrest⟩ := List.forall_mem_cons.1 hreached
    obtain ⟨l', hl', hm⟩ := exists_meaningOf_of_finds hb hsource
    cases hl.symm.trans hl'
    have hnew : leaf ∉ Assoc.keys table.entries := fun hmem =>
      Bool.eq_false_iff.1 hnew ((hcontains hsettled hleaf).2 hmem)
    have hentered : Extends l e unvisited table [leaf] (table.insert leaf (.source src)) :=
      .insert_source hsettled hleaf hnew hm
    exact hentered.trans (ih hentered.settled hrest)
  | @definition _ _ leaf _ table _ _ _ _ _ hnew hrole hdefinition hmay _ _ ihInner ih =>
    obtain ⟨hleaf, hrest⟩ := List.forall_mem_cons.1 hreached
    have hplain := he.isPlainSymbol hleaf
    obtain ⟨l', hl', hm⟩ := exists_meaningOf_of_definition hb hplain.kind_eq hrole hdefinition
    cases hl.symm.trans hl'
    have hnew : leaf ∉ Assoc.keys table.entries := fun hmem =>
      Bool.eq_false_iff.1 hnew ((hcontains hsettled hleaf).2 hmem)
    have hinner := ihInner hsettled fun s hs =>
      hleaf.of_definition (Layout.rolesOf_of_definition hm).2 hs
    have hentered := hinner.insert_definition hplain hleaf hnew hm hmay
    exact hentered.trans (ih hentered.settled hrest)

/-- The table that is returned is settled and has the leaves of the expression. -/
lemma bind_extends (hb : b.system.AnsweredBy layoutAt) (hl : layoutAt b.version = .ok l)
    (he : l.PlainThrough e) {isTimeDependent : Bool} {t : LeafTable}
    (h : Returns (b.bind isTimeDependent e) t) :
    Extends l e (e.scalarLeaves ++ b.system.definitionLeaves b.version) {} e.scalarLeaves t := by
  obtain ⟨_, _, hbinds⟩ := exists_bindsTo_of_returns h
  exact extends_of_bindsTo hb hl he hbinds .nil fun _ hs => Layout.reached_of_mem hs

end Bound

/-- An expression is bound exactly if each of its leaves, through definitions too, has one role
and no definition that it leads to comes back to its own name. -/
theorem bind_ok_iff {b : Bound} {layoutAt : Extra → Except Failure Layout} {l : Layout} {e : Expr}
    (hb : b.system.AnsweredBy layoutAt) (hl : layoutAt b.version = .ok l) (he : l.PlainThrough e)
    {isTimeDependent : Bool}
    (htime : ∀ v, l.has .independent v = true → isTimeDependent = true) :
    (∃ t, Yields (b.bind isTimeDependent e) (.ok t)) ↔ l.Resolves e ∧ ¬ l.CyclicFrom e := by
  constructor
  · rintro ⟨t, ht⟩
    have hext := Bound.bind_extends hb hl he ht.returns
    have hresolves := hext.settled.resolves he hext.bound
    exact ⟨hresolves, not_cyclicFrom_of_extends hresolves hext⟩
  · rintro ⟨hresolves, hacyclic⟩
    rcases bind_binds (.of_layoutAt hb hl) hresolves htime with ⟨t, ht, _⟩ | ⟨_, _, hcycle⟩
    · exact ⟨t, ht⟩
    · exact absurd hcycle hacyclic

end NamedSlots
