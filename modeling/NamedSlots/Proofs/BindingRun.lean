import NamedSlots.Proofs.BindingDerivation
import NamedSlots.Proofs.DefinitionGraph

/-!
# What binding a leaf does

A leaf that is bound already is skipped. A new leaf is entered into the table with what the
layout says about it; the leaves of a definition are bound first, unless the definition is being
bound already.
-/

namespace NamedSlots.Bound

open Traced

section Leaf

variable {b : Bound} {l : Layout} {isTimeDependent : Bool} {unvisited : List Expr}
  {table : LeafTable} {leaf : Expr}

lemma bindLeaf_of_contains (hbound : table.contains leaf = true) :
    Yields (b.bindLeaf isTimeDependent unvisited table leaf) (.ok table) :=
  fun _ => bindLeaf_run_of_contains hbound

/-- The source that the layout says is found without asking a provider. -/
lemma finds_of_meaningOf (h : b.AnsweredBy l)
    (htime : ∀ v, l.has .independent v = true → isTimeDependent = true)
    (hplain : leaf.IsPlainSymbol) {src : Source} (hsrc : l.meaningOf leaf = some (.source src))
    (trace : Trace) : b.Finds isTimeDependent leaf src trace trace := by
  unfold Layout.meaningOf at hsrc
  split at hsrc
  · rename_i hrole
    obtain ⟨n, hn, hsrc⟩ := Option.map_eq_some_iff.1 hsrc
    cases hsrc
    exact .state (h.classify_of_rolesOf hplain.form_eq hrole)
      (h.locate_of_rolesOf hplain.form_eq hrole rfl hn)
  · rename_i hrole
    obtain ⟨n, hn, hsrc⟩ := Option.map_eq_some_iff.1 hsrc
    cases hsrc
    exact .parameter (h.classify_of_rolesOf hplain.form_eq hrole)
      (h.locate_of_rolesOf hplain.form_eq hrole rfl hn)
  · rename_i hrole
    cases hsrc
    exact .time (h.classify_of_rolesOf hplain.form_eq hrole) (htime _ (Layout.has_of_rolesOf hrole))
  · obtain ⟨d, _, hsrc⟩ := Option.map_eq_some_iff.1 hsrc
    cases hsrc
  · cases hsrc

lemma bindLeaf_of_source (h : b.AnsweredBy l)
    (htime : ∀ v, l.has .independent v = true → isTimeDependent = true)
    (hplain : leaf.IsPlainSymbol) (hnew : ¬ table.contains leaf = true) {src : Source}
    (hsrc : l.meaningOf leaf = some (.source src)) :
    Yields (b.bindLeaf isTimeDependent unvisited table leaf)
      (.ok (table.insert leaf (.source src))) :=
  fun trace => bindLeaf_run_of_finds (eq_false_of_ne_true hnew)
    (finds_of_meaningOf h htime hplain hsrc trace)

lemma definition_of_meaningOf (h : b.AnsweredBy l) (hplain : leaf.IsPlainSymbol) {d : Expr}
    (hd : l.meaningOf leaf = some (.definition d)) : b.definition (.expr leaf) = .ok (some d) := by
  rw [h.definition_eq, hplain.key?_eq, Option.bind_some, (Layout.rolesOf_of_definition hd).2]

/-- A defined leaf is replaced by its definition once the leaves of that are bound. -/
lemma bindLeaf_of_defined (hnew : ¬ table.contains leaf = true) {d : Expr}
    (hrole : b.classify (.expr leaf) = .ok .observed)
    (hdefinition : b.definition (.expr leaf) = .ok (some d))
    (hmay : Unvisited.mayEnter unvisited leaf = true) {r : Except Failure LeafTable}
    (hr : Yields (b.bindAll isTimeDependent (Unvisited.enter unvisited leaf) table d.scalarLeaves) r) :
    Yields (b.bindLeaf isTimeDependent unvisited table leaf)
      (r.map fun t => t.insert leaf (.definition d)) := by
  rw [bindLeaf, if_neg hnew]
  refine yields_lift_bind hrole (yields_lift_bind hdefinition ?_)
  simp only [hmay, dite_true]
  cases r with
  | error f => exact hr.bind_error _
  | ok t => exact hr.bind_ok (yields_pure _)

/-- A defined leaf that may not be entered ends the binding. -/
lemma bindLeaf_of_visited (hnew : ¬ table.contains leaf = true) {d : Expr}
    (hrole : b.classify (.expr leaf) = .ok .observed)
    (hdefinition : b.definition (.expr leaf) = .ok (some d))
    (hmay : ¬ Unvisited.mayEnter unvisited leaf = true) :
    Yields (b.bindLeaf isTimeDependent unvisited table leaf)
      (.error (.cyclicDefinition leaf.text?)) := by
  rw [bindLeaf, if_neg hnew]
  refine yields_lift_bind hrole (yields_lift_bind hdefinition ?_)
  dsimp only
  rw [dif_neg hmay]
  exact yields_throw _

lemma bindLeaf_of_definition (h : b.AnsweredBy l) (hplain : leaf.IsPlainSymbol)
    (hnew : ¬ table.contains leaf = true) {d : Expr}
    (hd : l.meaningOf leaf = some (.definition d))
    (hmay : Unvisited.mayEnter unvisited leaf = true) {r : Except Failure LeafTable}
    (hr : Yields (b.bindAll isTimeDependent (Unvisited.enter unvisited leaf) table d.scalarLeaves) r) :
    Yields (b.bindLeaf isTimeDependent unvisited table leaf)
      (r.map fun t => t.insert leaf (.definition d)) :=
  bindLeaf_of_defined hnew
    (h.classify_of_rolesOf hplain.form_eq (Layout.rolesOf_of_definition hd).1)
    (definition_of_meaningOf h hplain hd) hmay hr

/-- An observed leaf whose definition is being bound already ends the binding. -/
lemma bindLeaf_of_cycle (h : b.AnsweredBy l) (hplain : leaf.IsPlainSymbol)
    (hnew : ¬ table.contains leaf = true) {d : Expr}
    (hd : l.meaningOf leaf = some (.definition d))
    (hmay : ¬ Unvisited.mayEnter unvisited leaf = true) :
    Yields (b.bindLeaf isTimeDependent unvisited table leaf)
      (.error (.cyclicDefinition (some leaf.indexedName))) := by
  rw [← hplain.text?_eq]
  exact bindLeaf_of_visited hnew
    (h.classify_of_rolesOf hplain.form_eq (Layout.rolesOf_of_definition hd).1)
    (definition_of_meaningOf h hplain hd) hmay

end Leaf

section All

variable {b : Bound} {isTimeDependent : Bool} {unvisited : List Expr} {table : LeafTable}

lemma bindAll_nil : Yields (b.bindAll isTimeDependent unvisited table []) (.ok table) := by
  rw [bindAll]
  exact yields_pure table

lemma bindAll_cons {leaf : Expr} {rest : List Expr} {t : LeafTable} {r : Except Failure LeafTable}
    (hleaf : Yields (b.bindLeaf isTimeDependent unvisited table leaf) (.ok t))
    (hrest : Yields (b.bindAll isTimeDependent unvisited t rest) r) :
    Yields (b.bindAll isTimeDependent unvisited table (leaf :: rest)) r := by
  rw [bindAll]
  exact hleaf.bind_ok hrest

lemma bindAll_cons_error {leaf : Expr} {rest : List Expr} {f : Failure}
    (hleaf : Yields (b.bindLeaf isTimeDependent unvisited table leaf) (.error f)) :
    Yields (b.bindAll isTimeDependent unvisited table (leaf :: rest)) (.error f) := by
  rw [bindAll]
  exact hleaf.bind_error _

end All

end NamedSlots.Bound
