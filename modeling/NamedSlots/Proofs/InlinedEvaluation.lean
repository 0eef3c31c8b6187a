import NamedSlots.Proofs.Binding
import NamedSlots.Proofs.Inlining
import NamedSlots.Proofs.SharedLeaves

/-!
# Evaluation of inlined expressions

An expression and its inlined form are compiled to different tables of leaves. On either table
an expression has the value of its inlined form over the sources that the layout names, so that
the two evaluators agree on every storage, and fail alike.
-/

namespace NamedSlots

open Traced

namespace Layout

variable {V : Type} (l : Layout) (read : Source → Except Failure V)

/-- What a symbol without a definition stands for. -/
def readLeaf (s : Expr) : Except Failure V :=
  match l.meaningOf s with
  | some (.source src) => read src
  | _ => failWith .missingKey

end Layout

namespace Settled

variable {l : Layout} {e : Expr} {V : Type} (sem : Semantics V)
  (read : Source → Except Failure V) (hl : l.Acyclic)
include hl

/-- Definitions may be evaluated or inlined. -/
lemma eval_inline {d : Expr} (hd : l.Inlinable d) (leaf : Expr → Except Failure V)
    (hleaf : ∀ s ∈ d.scalarLeaves, leaf s = (l.expand s).eval sem (l.readLeaf read)) :
    d.eval sem leaf = (l.inline d).eval sem (l.readLeaf read) := by
  have harrays : ∀ a ∈ d.leaves, a.kind = .array → ∀ s ∈ a.elements, l.expand s = s := by
    intro a ha hkind s hs
    exact Layout.expand_of_none (hd.definitionOf_element ha hkind hs)
  rw [Layout.inline_eq hl hd, Expr.eval_mapSymbols sem _ harrays]
  apply Expr.eval_congr sem
  intro s hs
  have hmem := (Expr.mem_scalarLeaves hd.hasPlainSymbols).2 hs
  exact hleaf s hmem

lemma valueIn_eq (he : l.Inlinable e) {entries : List (Expr × Meaning)} (h : Settled l e entries) {s : Expr}
    (hs : s ∈ Assoc.keys entries) :
    LeafTable.valueIn sem read entries s = (l.expand s).eval sem (l.readLeaf read) := by
  induction h generalizing s with
  | nil => cases hs
  | @cons entries leaf m earlier reached new meaning closed ih =>
    have hleaf := he.resolves.isPlainSymbol reached
    rcases List.mem_cons.1 hs with rfl | hs
    · have hsettled := earlier.cons reached new meaning closed
      rcases Layout.meaningOf_cases hleaf (he.known _ reached) with
        ⟨src, hsrc, hnone⟩ | ⟨d, hd, hdef⟩
      · rw [meaning] at hsrc
        cases hsrc
        rw [LeafTable.valueIn_cons, if_pos hleaf.beq_self, Layout.expand_of_none hnone]
        obtain ⟨name, indices, rfl⟩ := hleaf
        change read src = l.readLeaf read (.symbol name (indices.map Index.int))
        rw [Layout.readLeaf, meaning]
      · rw [meaning] at hd
        cases hd
        rw [LeafTable.valueIn_cons_definition sem read hleaf.beq_self
          (hsettled.not_contains he.resolves), Layout.expand_of_definition hdef]
        exact eval_inline sem read hl (he.of_definition reached hdef) _ fun t ht =>
          ih (closed d rfl t ht)
    · have hsettled := earlier.cons reached new meaning closed
      rw [hsettled.valueIn_cons_of_mem sem read he.resolves hs]
      exact ih hs

end Settled

namespace Evaluator

/-- What is seen of a result from outside: the value, or the kind of failure that is reported. -/
def outcome (r : Except Failure Value) : Except Fault Value := r.mapError fun f => f.report.1

variable {l : Layout}

lemma ofValue_yields {states parameters independent observed : Value}
    (hl : Layout.build states parameters independent observed = .ok l) (hacyclic : l.Acyclic)
    (identity : Option Nat) {e : Expr} (he : l.Resolves e) :
    ∃ table, Yields (ofValue (l.system identity) (.expr e) .none .interpreter)
        (.ok ⟨e, table, l.independent.size == 1, none, none⟩) ∧
      Settled l e table.entries ∧ ∀ s ∈ e.scalarLeaves, s ∈ Assoc.keys table.entries := by
  have hbinds := bind_binds (l.answeredBy identity) he fun v => Layout.size_of_has_independent hl
  rcases hbinds with ⟨table, htable, hext⟩ | ⟨_, _, hcycle⟩
  · refine ⟨table, ?_, hext.settled, hext.bound⟩
    refine yields_lift_bind (l.bound_of_system identity) ?_
    refine yields_lift_bind (rfl : Value.toExpr (.expr e) = .ok e) ?_
    have hsize := Layout.independent_size hl
    refine yields_lift_bind ((l.answeredBy identity).isTimeDependent_of_size hsize) ?_
    exact htable.bind_ok (yields_pure _)
  · exact absurd hcycle (Layout.not_cyclicFrom hacyclic e)

/-- The time is used exactly if it is reached. -/
lemma usesTime_iff {f : Evaluator} (he : l.Resolves f.expr) (h : Settled l f.expr f.table.entries)
    (hroot : ∀ s ∈ f.expr.scalarLeaves, s ∈ Assoc.keys f.table.entries) :
    f.usesTime = true ↔ ∃ s, l.Reached f.expr s ∧ l.meaningOf s = some (.source .time) := by
  have hprovider : (f.table.bindings.any fun entry => entry.2.role == .observed) = false := by
    rw [List.any_eq_false]
    rintro ⟨s, src⟩ hmem hrole
    have hmeaning := h.meaningOf_of_mem (LeafTable.mem_bindings.1 hmem)
    exact Layout.role_of_meaningOf hmeaning (eq_of_beq hrole)
  have huses : f.usesTime = f.table.bindings.any fun entry => entry.2.role == .independent := by
    change (_ || ((f.table.bindings.any fun entry => entry.2.role == .observed) && _)) = _
    rw [hprovider, Bool.false_and, Bool.or_false]
    rfl
  rw [huses, List.any_eq_true]
  constructor
  · rintro ⟨⟨s, src⟩, hmem, hrole⟩
    have hentry := LeafTable.mem_bindings.1 hmem
    refine ⟨s, h.reached_of_mem_keys (Assoc.mem_keys_of_mem hentry), ?_⟩
    rw [h.meaningOf_of_mem hentry]
    cases src with
    | time => rfl
    | _ => cases hrole
  · rintro ⟨s, hreached, hmeaning⟩
    obtain ⟨m, hm⟩ := Assoc.exists_mem_of_mem_keys (h.mem_keys_of_reached he hroot hreached)
    rw [h.meaningOf_of_mem hm] at hmeaning
    cases hmeaning
    exact ⟨(s, .time), LeafTable.mem_bindings.2 hm, rfl⟩

lemma checkTime_outcome (f g : Evaluator) (htime : f.isTimeDependent = g.isTimeDependent)
    (huses : f.usesTime = g.usesTime) (hf : f.expr.WellFormed) (hg : g.expr.WellFormed)
    {x y : Except Failure Value} (hxy : x = y) (t : Value) :
    outcome (do f.checkTime t; x) = outcome (do g.checkTime t; y) := by
  obtain ⟨_, htf⟩ := hf.exists_text
  obtain ⟨_, htg⟩ := hg.exists_text
  subst hxy
  unfold checkTime
  rw [htime, huses]
  cases isTime t <;> cases g.isTimeDependent <;> cases g.usesTime <;>
    simp [outcome, bind, Except.bind, pure, Except.pure, throw, throwThe, MonadExceptOf.throw,
      Except.mapError, Failure.report, Failure.text?, Failure.kind, htf, htg]

lemma usesTime_inline (hacyclic : l.Acyclic) {f g : Evaluator} {e : Expr} (he : l.Inlinable e)
    (hfe : f.expr = e) (hge : g.expr = l.inline e) (hf : Settled l f.expr f.table.entries)
    (hg : Settled l g.expr g.table.entries)
    (hfroot : ∀ s ∈ f.expr.scalarLeaves, s ∈ Assoc.keys f.table.entries)
    (hgroot : ∀ s ∈ g.expr.scalarLeaves, s ∈ Assoc.keys g.table.entries) :
    f.usesTime = g.usesTime := by
  have hinline := Layout.inlinable_inline hacyclic he
  rw [Bool.eq_iff_iff, usesTime_iff (hfe ▸ he.resolves) hf hfroot,
    usesTime_iff (hge ▸ hinline.resolves) hg hgroot, hfe, hge]
  constructor
  · rintro ⟨s, hs, hmeaning⟩
    refine ⟨s, (Layout.reached_inline_iff hacyclic he).2 ⟨hs, ?_⟩, hmeaning⟩
    rcases Layout.meaningOf_cases (he.resolves.isPlainSymbol hs) (he.known s hs) with
      ⟨_, _, hnone⟩ | ⟨d, hd, _⟩
    · exact hnone
    · rw [hmeaning] at hd
      cases hd
  · rintro ⟨s, hs, hmeaning⟩
    exact ⟨s, ((Layout.reached_inline_iff hacyclic he).1 hs).1, hmeaning⟩

lemma interpret_eq (hacyclic : l.Acyclic) {f : Evaluator} (he : l.Inlinable f.expr)
    (hf : Settled l f.expr f.table.entries)
    (hroot : ∀ s ∈ f.expr.scalarLeaves, s ∈ Assoc.keys f.table.entries) (u p t : Value) :
    f.interpret u p t = (l.inline f.expr).eval .numeric
      (l.readLeaf (Source.read f.isTimeDependent u p t)) :=
  Settled.eval_inline .numeric _ hacyclic he _ fun s hs =>
    Settled.valueIn_eq .numeric _ hacyclic he hf (hroot s hs)

end Evaluator

/-- An expression and its inlined form compile to evaluators that return the same value, or fail
in the same kind of way, on every state and parameter storage at every time. -/
theorem compile_inline {states parameters independent observed : Value} {l : Layout}
    (hl : Layout.build states parameters independent observed = .ok l) (hacyclic : l.Acyclic)
    (identity : Option Nat) {e : Expr} (he : l.Inlinable e) :
    ∃ f g, Yields (Evaluator.ofValue (l.system identity) (.expr e) .none .interpreter) (.ok f) ∧
      Yields (Evaluator.ofValue (l.system identity) (.expr (l.inline e)) .none .interpreter)
        (.ok g) ∧
      ∀ u p t, Evaluator.outcome (f.call u p t) = Evaluator.outcome (g.call u p t) := by
  have hinline := Layout.inlinable_inline hacyclic he
  obtain ⟨table, hf, hsettled, hroot⟩ := Evaluator.ofValue_yields hl hacyclic identity he.resolves
  obtain ⟨table', hg, hsettled', hroot'⟩ :=
    Evaluator.ofValue_yields hl hacyclic identity hinline.resolves
  refine ⟨_, _, hf, hg, fun u p t => ?_⟩
  rw [Evaluator.call_eq rfl fun k hk => (hsettled.isPlainSymbol_of_mem_keys he.resolves hk).kind_eq]
  rw [Evaluator.call_eq rfl fun k hk =>
    (hsettled'.isPlainSymbol_of_mem_keys hinline.resolves hk).kind_eq]
  refine Evaluator.checkTime_outcome ⟨e, table, _, none, none⟩ ⟨l.inline e, table', _, none, none⟩
    rfl ?_ (he.wellFormed e .refl) (hinline.wellFormed _ .refl) ?_ t
  · exact Evaluator.usesTime_inline hacyclic he rfl rfl hsettled hsettled' hroot hroot'
  · rw [Evaluator.interpret_eq hacyclic he hsettled hroot]
    rw [Evaluator.interpret_eq hacyclic hinline hsettled' hroot']
    rw [Layout.inline_inline hacyclic he]

namespace Doubling

lemma wellFormed_binary (op : BinaryOp) {c d : Expr} (hc : c.WellFormed) (hd : d.WellFormed) :
    (Expr.binary op c d).WellFormed := by
  refine .node (.binary op) [c, d] {} rfl ?_ fun h => by cases h
  intro x hx
  rcases List.mem_cons.1 hx with rfl | hx
  · exact hc
  · rw [List.mem_singleton.1 hx]
    exact hd

lemma wellFormed_symbol (name : String) : (Expr.symbol (some name)).WellFormed :=
  .of_isPlainSymbol ⟨some name, [], rfl⟩

lemma inlinable_product : layout.Inlinable product where
  wellFormed _ := (unrolls_product
    (wellFormed_binary .mul (wellFormed_symbol "a") (wellFormed_symbol "x"))
    (wellFormed_binary .add (wellFormed_symbol "x") (wellFormed_symbol "x"))).of_within
  known _ := (unrolls_product (by decide) (by decide)).known
  arrays d hd a ha hkind := by
    have hscalar : layout.Unrolls (fun d => ∀ a ∈ d.leaves, a.kind ≠ .array) product :=
      unrolls_product (by decide) (by decide)
    exact absurd hkind (hscalar.of_within hd a ha)

lemma inline_product : layout.inline product = .binary .mul definition single := rfl

end Doubling

/-- The product of the doubled state and the state is compiled like the product of the sum of the
state with itself and the state. -/
theorem compile_inline_product :
    ∃ f g, Yields (Evaluator.ofValue (Doubling.layout.system none) (.expr Doubling.product)
        .none .interpreter) (.ok f) ∧
      Yields (Evaluator.ofValue (Doubling.layout.system none)
        (.expr (.binary .mul Doubling.definition Doubling.single)) .none .interpreter) (.ok g) ∧
      ∀ u p t, Evaluator.outcome (f.call u p t) = Evaluator.outcome (g.call u p t) := by
  rw [← Doubling.inline_product]
  exact compile_inline Doubling.build_layout Doubling.acyclic_layout none Doubling.inlinable_product

namespace Twins

def stored : Value := .list [.expr single, .expr (element (.flag true))]

def observed : Value :=
  .dict [(.expr (element (.int 0)), .expr (element (.flag true))),
    (.expr (element (.int 1)), .expr single)]

/-- An element that is defined by a stored one, whose twin is defined by another state. -/
def crossed : Layout where
  states := ⟨[("x", .expr single), ("A[True]", .expr (element (.flag true)))]⟩
  observed := ⟨[("A[0]", .expr (element (.int 0)), element (.flag true)),
    ("A[1]", .expr (element (.int 1)), single)]⟩

lemma build_crossed : Layout.build stored .none .none observed = .ok crossed := rfl

lemma acyclic_crossed : crossed.Acyclic := Layout.acyclic_of_undefined (by decide)

/-- Both elements, the twin of the stored one first. -/
def sum : Expr := .binary .add (element (.int 1)) (element (.int 0))

lemma isPlainSymbol_element (n : Int) : (element (.int n)).IsPlainSymbol := ⟨some "A", [n], rfl⟩

lemma wellFormed_sum : sum.WellFormed :=
  Doubling.wellFormed_binary .add (.of_isPlainSymbol (isPlainSymbol_element 1))
    (.of_isPlainSymbol (isPlainSymbol_element 0))

/-- The elements of the sum are defined by the stored element and by the state. -/
lemma unrolls_sum {P : Expr → Prop} (hsum : P sum) (hflag : P (element (.flag true)))
    (hsingle : P single) : crossed.Unrolls P sum := by
  refine .intro hsum (List.forall_mem_cons.2 ⟨?_, List.forall_mem_singleton.2 ?_⟩)
  · exact .intro hsingle (List.forall_mem_nil _)
  · exact .intro hflag (List.forall_mem_nil _)

lemma known_sum : crossed.Unrolls crossed.Knows sum :=
  unrolls_sum (by decide) (by decide) (by decide)

lemma scalar_sum : crossed.Unrolls (fun d => ∀ a ∈ d.leaves, a.kind ≠ .array) sum :=
  unrolls_sum (by decide) (by decide) (by decide)

/-- The stored element is not bound: its twin is defined already. -/
def summed : Evaluator where
  expr := sum
  table := ⟨[(element (.int 0), .definition (element (.flag true))),
    (element (.int 1), .definition single), (single, .source (.state (.int 0)))]⟩
  isTimeDependent := false
  version := none

def inlinedSum : Evaluator where
  expr := .binary .add single (element (.flag true))
  table := ⟨[(element (.flag true), .source (.state (.int 1))),
    (single, .source (.state (.int 0)))]⟩
  isTimeDependent := false
  version := none

lemma inline_sum : crossed.inline sum = inlinedSum.expr := rfl

lemma ofValue_summed : Yields (Evaluator.ofValue (crossed.system none) (.expr sum) .none .interpreter)
    (.ok summed) := by
  intro trace
  have hbind : ((crossed.bound none).bind false sum).run.run trace = (.ok summed.table, trace) :=
    Bound.bindAll_run_iff.2 (.definition rfl rfl rfl (by decide)
      (.source rfl (.state rfl rfl) .nil) (.definition (by decide) rfl rfl (by decide)
        (.skip (by decide) .nil) .nil))
  exact run_bind_ok hbind

lemma ofValue_inlinedSum : Yields (Evaluator.ofValue (crossed.system none)
    (.expr (crossed.inline sum)) .none .interpreter) (.ok inlinedSum) := by
  intro trace
  have hbind : ((crossed.bound none).bind false inlinedSum.expr).run.run trace =
      (.ok inlinedSum.table, trace) :=
    Bound.bindAll_run_iff.2 (.source rfl (.state rfl rfl) (.source (by decide) (.state rfl rfl) .nil))
  rw [inline_sum]
  exact run_bind_ok hbind

/-- The state and the stored element. -/
def states : Value := .list [.int 1, .int 10]

end Twins

/-- An element is read as what its twin is defined by, and not as its own definition says, so that
the sum of both elements is not the sum of what they are inlined to. -/
theorem inlining_tells_twins_apart :
    Layout.build Twins.stored .none .none Twins.observed = .ok Twins.crossed ∧
      Twins.crossed.Acyclic ∧ Twins.sum.WellFormed ∧
      (∀ s, Twins.crossed.Reached Twins.sum s → ∃ role, Twins.crossed.rolesOf (.expr s) = [role]) ∧
      (∀ d, Twins.crossed.Within Twins.sum d → ∀ a ∈ d.leaves, a.kind ≠ .array) ∧
      Yields (Evaluator.ofValue (Twins.crossed.system none) (.expr Twins.sum) .none .interpreter)
        (.ok Twins.summed) ∧
      Yields (Evaluator.ofValue (Twins.crossed.system none)
        (.expr (Twins.crossed.inline Twins.sum)) .none .interpreter) (.ok Twins.inlinedSum) ∧
      Twins.summed.call Twins.states (.list []) .none = .ok (.int 2) ∧
      Twins.inlinedSum.call Twins.states (.list []) .none = .ok (.int 11) :=
  ⟨Twins.build_crossed, Twins.acyclic_crossed, Twins.wellFormed_sum,
    fun _ => Twins.known_sum.known, fun _ => Twins.scalar_sum.of_within, Twins.ofValue_summed,
    Twins.ofValue_inlinedSum, rfl, rfl⟩

end NamedSlots
