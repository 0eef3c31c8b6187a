import NamedSlots.Proofs.ArrayLowering
import NamedSlots.Proofs.ExactSimplification
import NamedSlots.Proofs.SequenceGetter
import NamedSlots.Proofs.StoredNumbers

/-!
# Agreement of the backends on arrays

Both backends compile the sums, differences, products and negations of arrays of one shape. Over the
real numbers the graph returns the items that the interpreter finds, in row-major order, in the same
rows and columns.
-/

namespace NamedSlots

open NamedSlots.Graph Traced

/-! ### Graphs of numbers -/

/-- Graphs over the real numbers keep what they compute. -/
lemma tracks_has (inputs : Nat → Option ℝ) : Tracks .exact .exact (Node.Has inputs) where
  constant hfinite := by
    obtain ⟨r, hr⟩ := Option.isSome_iff_exists.1 hfinite
    exact ⟨r, hr, Node.has_constant.2 hr⟩
  neg _ _ _ hn := Node.has_applyUnary hn rfl nofun
  add _ _ _ _ _ hn hm := Node.has_applyBinary nofun hn hm rfl
  sub _ _ _ _ _ hn hm := Node.has_applyBinary nofun hn hm rfl
  mul _ _ _ _ _ hn hm := Node.has_applyBinary nofun hn hm rfl

/-- Over floating numbers, it matters only that there are graphs and numbers. -/
lemma tracks_float : Tracks .float .float fun _ _ => True where
  constant _ := ⟨_, rfl, trivial⟩
  neg _ _ _ _ := trivial
  add _ _ _ _ _ _ _ := trivial
  sub _ _ _ _ _ _ _ := trivial
  mul _ _ _ _ _ _ _ := trivial

namespace Numbers

variable {R : Type} {l : Layout} {s : Expr} {src : Source}

/-- Storage of a layout that holds a given number for each source. -/
def tabulate (l : Layout) (g : Source → R) : Numbers R where
  states := (List.range l.states.size).map fun (i : Nat) => g (.state (.int i))
  parameters := (List.range l.parameters.size).map fun (i : Nat) => g (.parameter (.int i))
  time := g .time

variable (g : Source → R)

lemma covers_tabulate : (tabulate l g).Covers l := by
  unfold Covers tabulate
  simp

lemma read_tabulate (hsrc : l.meaningOf s = some (.source src)) :
    (tabulate l g).read src = .ok (g src) := by
  have hpick (h : Nat → R) {size i : Nat} (hi : i < size) :
      Value.pick ((List.range size).map h) i = .ok (h i) :=
    pick_of_getElem? (by simp [hi])
  rcases Layout.cases_of_source hsrc with ⟨i, rfl, _, hi⟩ | ⟨i, rfl, _, hi⟩ | ⟨rfl, _⟩
  · exact hpick _ (Layout.find?_table hi).2
  · exact hpick _ (Layout.find?_table hi).2
  · rfl

end Numbers

/-! ### What a graph returns -/

section Returned

variable {R : Type}

/-- The items of a shape, if there are as many as the shape has. -/
def ArrayValue.ofShape? (s : List Nat) (xs : List R) : Option (ArrayValue R) :=
  if h : xs.length = Shape.size s then some (.array s xs h) else none

/-- The value of the numbers of a sheet: a number, a column or an array of rank two. -/
def Graph.Rectangle.value? (m : Rectangle R) : Option (ArrayValue R) :=
  match m.single?, m.columns with
  | some x, _ => some (.plain x)
  | none, 1 => ArrayValue.ofShape? [m.rows] m.items
  | none, columns => ArrayValue.ofShape? [m.rows, columns] m.items

/-- Axes that are left out do not change the order of the items. -/
lemma Graph.Rectangle.exists_value {m : Rectangle R} (hm : m.IsFull) :
    ∃ a, m.value? = some a ∧ Shape.sides a.shape = (m.rows, m.columns) ∧ a.items = m.items := by
  unfold value?
  split
  · rename_i hsingle
    cases single?_eq_some_iff.1 hsingle
    exact ⟨_, rfl, rfl, rfl⟩
  · rename_i hcolumns
    have hcount : m.items.length = Shape.size [m.rows] := by
      rw [hm, hcolumns]
      rfl
    refine ⟨.array [m.rows] m.items hcount, dif_pos hcount, ?_, rfl⟩
    rw [hcolumns]
    exact congrArg (·, 1) (Nat.mul_one m.rows)
  · have hcount : m.items.length = Shape.size [m.rows, m.columns] :=
      hm.trans (congrArg (m.rows * ·) (Nat.mul_one _).symm)
    exact ⟨.array [m.rows, m.columns] m.items hcount, dif_pos hcount, rfl, rfl⟩

/-- Over floating numbers, this is the value that is returned. -/
lemma Graph.Rectangle.value_of_value? {m : Rectangle Float} {a : ArrayValue Float}
    (h : m.value? = some a) : Evaluator.sheetValue m = a.value := by
  have hshape {s : List Nat} (h : ArrayValue.ofShape? s m.items = some a) :
      Value.numbers .float64 s (m.items.map .real) = a.value := by
    obtain ⟨_, ha⟩ := Option.dite_none_right_eq_some.1 h
    cases ha
    rfl
  unfold value? at h
  unfold Evaluator.sheetValue
  split at h
  · rename_i hsingle
    cases h
    rw [hsingle]
    rfl
  · rename_i hsingle hcolumns
    rw [hsingle, hcolumns]
    exact hshape h
  · rename_i hsingle hcolumns
    rw [hsingle]
    split
    · rename_i h'
      cases h'
    · rename_i h'
      exact absurd h' hcolumns
    · exact hshape h

/-- What an evaluator returns for the numbers of its graph. -/
def Evaluator.graphValue (arith : Arithmetic R) (f : Evaluator) (n : Numbers R) :
    Except Failure (Option (ArrayValue R)) := do
  return (← f.graphValues arith n).value?

lemma Evaluator.graphValue_eq {arith : Arithmetic R} {f : Evaluator} {n : Numbers R}
    {m : Rectangle R} (h : f.graphValues arith n = .ok m) :
    f.graphValue arith n = .ok m.value? := by
  unfold graphValue
  rw [h]
  rfl

end Returned

/-- The numbers that a graph has as inputs. -/
noncomputable def realsOf (xs : List ℝ) (i : Nat) : Option ℝ :=
  (xs.map some)[i]?.getD (realOf? 0.0)

namespace Evaluator

variable {l : Layout} {e : Expr} {f : Evaluator}

section Bound

variable {R : Type} (hf : f.BoundFor l e) {n : Numbers R} (hn : n.Covers l)
include hf hn

lemma BoundFor.exists_inputs :
    ∃ xs, (f.table.bindings.mapM fun (_, src) => n.read src) = .ok xs := by
  refine exists_mapM_ok_iff.2 ?_
  rintro ⟨s, src⟩ hmem
  exact Numbers.exists_read hn (hf.settled.meaningOf_of_mem (LeafTable.mem_bindings.1 hmem))

/-- The leaves of an expression have single graphs and the numbers in storage. -/
lemma BoundFor.leafMatches [Nonempty R] {K : Type} {arith : Arithmetic K}
    {numbers : ArrayArithmetic R} {P : Node K → R → Prop} (hP : Tracks arith numbers P)
    (hresolves : l.Resolves e) (hdefinitions : l.DefinesArithmetic e)
    (hinput : ∀ {key src earlier r}, (key, Meaning.source src) :: earlier <:+ f.table.entries →
      n.read src = .ok r → P (.input (LeafTable.mk earlier).bindings.length) r)
    {s : Expr} (hs : s ∈ e.occurrences) :
    LeafMatches P (lowerLeaf arith f.table.entries)
      (f.table.value (.array numbers) fun src => do return some (.plain (← n.read src))) s := by
  refine leafMatches_of_settled hP hresolves hdefinitions hf.settled (fun {key src _} hsuffix => ?_)
    (hf.bound s ((Expr.mem_scalarLeaves (hresolves.plain e .refl)).2 hs))
  have hmem : (key, Meaning.source src) ∈ f.table.entries :=
    hsuffix.subset List.mem_cons_self
  obtain ⟨r, hr⟩ := Numbers.exists_read hn (hf.settled.meaningOf_of_mem hmem)
  refine ⟨r, ?_, hinput hsuffix hr⟩
  rw [hr]
  rfl

end Bound

section Exact

variable {n : Numbers ℝ} {xs : List ℝ}

lemma BoundFor.leafMatches_exact (hf : f.BoundFor l e) (hn : n.Covers l) (hresolves : l.Resolves e)
    (hdefinitions : l.DefinesArithmetic e)
    (hxs : (f.table.bindings.mapM fun (_, src) => n.read src) = .ok xs) {s : Expr}
    (hs : s ∈ e.occurrences) :
    LeafMatches (Node.Has (realsOf xs)) (lowerLeaf .exact f.table.entries)
      (f.table.value (.array .exact) fun src => do return some (.plain (← n.read src))) s := by
  refine hf.leafMatches hn (tracks_has _) hresolves hdefinitions ?_ hs
  intro key src earlier r hsuffix hr
  obtain ⟨x, hx, hread⟩ := mapM_getElem? hxs (LeafTable.bindings_getElem? hsuffix)
  cases hr.symm.trans hread
  change realsOf xs _ = _
  rw [realsOf, List.getElem?_map, hx]
  rfl

/-- Over the real numbers, an evaluator has the value of its expression and the numbers of its
graphs. -/
lemma BoundFor.values_exact (hf : f.BoundFor l e) {m : Sheet (Option ℝ)} {a : ArrayValue ℝ}
    {rs : List ℝ} (hxs : (f.table.bindings.mapM fun (_, src) => n.read src) = .ok xs)
    (hm : lower .exact (lowerLeaf .exact f.table.entries) [0] e = .ok m)
    (ha : e.eval (.array .exact) (f.table.value (.array .exact) fun src => do
      return some (.plain (← n.read src))) = .ok (some a))
    (h : List.Forall₂ (Node.Has (realsOf xs)) m.items rs) :
    f.arrayValue .exact n = .ok (some a) ∧
      f.graphValues .exact (n.map some) = .ok ⟨m.rows, m.columns, rs.map some⟩ := by
  have hinputs : (f.table.bindings.mapM fun (_, src) => (n.map some).read src) =
      .ok (xs.map some) := by
    refine mapM_eq_ok_iff.2 (List.forall₂_map_right_iff.2 ?_)
    refine (mapM_eq_ok_iff.1 hxs).imp fun p x hx => ?_
    have hread : n.read p.2 = .ok x := hx
    exact (Numbers.read_map some n p.2).trans (by rw [hread]; rfl)
  have hvalues : m.items.map (fun k => k.value .exact (realsOf xs)) = rs.map some := by
    rw [← List.forall₂_eq_eq_eq, List.forall₂_map_left_iff, List.forall₂_map_right_iff]
    exact h
  have hofExpr : Graph.ofExpr .exact f.table e = .ok m := hm
  unfold arrayValue graphValues
  rw [hf.expr_eq, hofExpr, hinputs, Except.ok_bind, Except.ok_bind, ← hvalues]
  exact ⟨ha, rfl⟩

end Exact

/-- Over floating numbers, two evaluators return what an expression is among numbers and arrays, and
what its graph has. -/
def RunOn (f g : Evaluator) (l : Layout) : Prop :=
  ∀ n : Numbers Float, n.Covers l →
    (∃ a, f.arrayValue .float n = .ok (some a) ∧ f.callOn n = .ok a.value) ∧
      ∃ b, g.graphValue .float n = .ok (some b) ∧ g.callOn n = .ok b.value

/-- An expression is compiled for both backends, and both run, if it is lowered and evaluated
wherever its leaves are. -/
lemma exists_backends {states parameters independent observed : Value}
    (hl : Layout.build states parameters independent observed = .ok l) (identity : Option Nat)
    (hresolves : l.Resolves e) (hacyclic : ¬ l.CyclicFrom e) (hdefinitions : l.DefinesArithmetic e)
    (hexpr : ∀ leaf leaf', (∀ s ∈ e.occurrences, LeafMatches (fun _ _ => True) leaf leaf' s) →
      ∃ sheet a, lower .float leaf [0] e = .ok sheet ∧ sheet.IsFull ∧
        e.eval (.array .float) leaf' = .ok (some a)) :
    ∃ f sheet, f.BoundFor l e ∧
      Returns (ofValue (l.system identity) (.expr e) .none .interpreter) f ∧
      Returns (ofValue (l.system identity) (.expr e) .none .graph)
        { f with lowered := some sheet } ∧
      RunOn f { f with lowered := some sheet } l := by
  obtain ⟨f, hf, hlowered, hinterpreter, hgraph⟩ :=
    exists_boundFor hl identity hresolves hacyclic
  have hsize := Layout.independent_size hl
  have hleaves (n : Numbers Float) (hn : n.Covers l) := hexpr _ _ fun s =>
    hf.leafMatches hn tracks_float hresolves hdefinitions fun _ _ => trivial
  obtain ⟨sheet, -, hsheet, hfull, -⟩ := hleaves _ (Numbers.covers_tabulate fun _ => 0)
  refine ⟨f, sheet, hf, hinterpreter, hgraph sheet hsheet, fun n hn => ⟨?_, ?_⟩⟩
  · obtain ⟨-, a, -, -, ha⟩ := hleaves n hn
    have hvalue : f.arrayValue .float n = .ok (some a) := by
      unfold arrayValue
      rw [hf.expr_eq]
      exact ha
    exact ⟨a, hvalue, hf.callOn_interpreter hsize hlowered hvalue⟩
  · obtain ⟨xs, hxs⟩ := hf.exists_inputs hn
    have hg : BoundFor l e { f with lowered := some sheet } :=
      ⟨hf.expr_eq, hf.isTimeDependent_eq, hf.settled, hf.bound⟩
    have hofExpr : Graph.ofExpr .float f.table f.expr = .ok sheet := by
      rw [hf.expr_eq]
      exact hsheet
    have hgraphs : graphValues .float { f with lowered := some sheet } n =
        .ok (sheet.values .float xs 0.0) := by
      unfold graphValues
      rw [hofExpr, hxs]
      rfl
    have hvalues : (sheet.values .float xs 0.0).IsFull := (List.length_map _).trans hfull
    obtain ⟨b, hb, -⟩ := Rectangle.exists_value hvalues
    refine ⟨b, (graphValue_eq hgraphs).trans (congrArg Except.ok hb), ?_⟩
    rw [hg.callOn_graph hsize (n := n) rfl hofExpr, hgraphs]
    exact congrArg Except.ok (Rectangle.value_of_value? hb)

/-- An expression of arrays of one shape, numbers, negations, sums, differences and products is
compiled for both backends. Over the real numbers the graph returns the items that the interpreter
finds, in row-major order, in the same rows and columns; both run in the same way over floating
numbers. -/
theorem elementwise_backends_agree {states parameters independent observed : Value}
    (hl : Layout.build states parameters independent observed = .ok l) (identity : Option Nat)
    {S : List Nat} (hpos : ∀ d ∈ S, 0 < d) (he : e.IsElementwise S) (hresolves : l.Resolves e)
    (hacyclic : ¬ l.CyclicFrom e) (hdefinitions : l.DefinesArithmetic e) :
    ∃ f g, Returns (ofValue (l.system identity) (.expr e) .none .interpreter) f ∧
      Returns (ofValue (l.system identity) (.expr e) .none .graph) g ∧ RunOn f g l ∧
      ∀ n : Numbers ℝ, n.Covers l → ∃ a b, f.arrayValue .exact n = .ok (some a) ∧
        g.graphValue .exact (n.map some) = .ok (some b) ∧
        Shape.sides b.shape = Shape.sides a.shape ∧ b.items = a.items.map some := by
  obtain ⟨f, sheet, hf, hinterpreter, hgraph, hrun⟩ :=
    exists_backends hl identity hresolves hacyclic hdefinitions fun leaf leaf' hleaf => by
      obtain ⟨m, a, hm, ha, hmatches, -⟩ := he.exists_matches tracks_float hpos hleaf [0]
      exact ⟨m, a, hm, hmatches.isFull, ha⟩
  refine ⟨f, { f with lowered := some sheet }, hinterpreter, hgraph, hrun, fun n hn => ?_⟩
  obtain ⟨xs, hxs⟩ := hf.exists_inputs hn
  obtain ⟨m, a, hm, ha, hmatches, -⟩ := he.exists_matches (tracks_has (realsOf xs)) hpos
    (fun s => hf.leafMatches_exact hn hresolves hdefinitions hxs) [0]
  obtain ⟨hvalue, hgraphs⟩ := hf.values_exact hxs hm ha hmatches.items
  have hfull : (Rectangle.mk m.rows m.columns (a.items.map some)).IsFull :=
    (List.length_map _).trans (hmatches.items.length_eq.symm.trans hmatches.isFull)
  obtain ⟨b, hb, hsides, hitems⟩ := Rectangle.exists_value hfull
  refine ⟨a, b, hvalue, (graphValue_eq hgraphs).trans (congrArg Except.ok hb), ?_, hitems⟩
  rw [hsides, hmatches.rows_eq, hmatches.columns_eq]

namespace Damped

def grid : Expr := .array (some "A") [.int 2, .int 2]

def element (i j : Int) : Expr := .symbol (some "A") [.int i, .int j]

def gain : Expr := .symbol (some "k")

def loss : Expr := .symbol (some "w")

def definition : Expr := .unary .neg gain

def damped : Expr := .binary .add (.binary .mul grid gain) loss

/-- A square array of states, a parameter, and an observed symbol that negates it. -/
def layout : Layout where
  states := ⟨[("A[0,0]", .expr (element 0 0)), ("A[0,1]", .expr (element 0 1)),
    ("A[1,0]", .expr (element 1 0)), ("A[1,1]", .expr (element 1 1))]⟩
  parameters := ⟨[("k", .expr gain)]⟩
  observed := ⟨[("w", .expr loss, definition)]⟩

lemma build_layout :
    Layout.build (.list [.expr grid]) (.list [.expr gain]) .none
      (.dict [(.expr loss, .expr definition)]) = .ok layout := rfl

/-- The array and the parameter are stored, and the observed symbol leads to the parameter. -/
lemma unrolls_damped {P : Expr → Prop} (hdamped : P damped) (hdefinition : P definition) :
    layout.Unrolls P damped :=
  .intro hdamped (List.forall_mem_singleton.2 (.intro hdefinition (List.forall_mem_nil _)))

lemma known_damped : layout.Unrolls (fun d => d.HasPlainSymbols ∧ layout.Knows d) damped :=
  unrolls_damped ⟨by decide, by decide⟩ ⟨by decide, by decide⟩

lemma definesArithmetic_damped : layout.DefinesArithmetic damped := by
  have hdefined : layout.Unrolls (fun d => ∀ d' ∈ layout.definitionsIn d, d'.IsElementwise []) damped :=
    unrolls_damped (List.forall_mem_singleton.2 (.neg .symbol)) (List.forall_mem_nil _)
  rintro s d ⟨d', hd', hs⟩ hd
  exact hdefined.of_within hd' d (Layout.mem_definitionsIn.2 ⟨s, hs, hd⟩)

lemma isElementwise_damped : damped.IsElementwise [2, 2] :=
  .binary (.inl rfl) (.binary (.inr (.inr rfl)) (.array (List.cons_ne_nil _ _) ⟨rfl, rfl⟩) .symbol)
    .symbol

def numbers : Numbers ℝ := ⟨[1, -1, 0, 1], [-1], 0⟩

end Damped

/-- A square array times a parameter less that parameter is the same for both backends. -/
theorem elementwise_backends_agree_damped :
    ∃ f g a b,
      Returns (ofValue (Damped.layout.system none) (.expr Damped.damped) .none .interpreter) f ∧
      Returns (ofValue (Damped.layout.system none) (.expr Damped.damped) .none .graph) g ∧
      f.arrayValue .exact Damped.numbers = .ok (some a) ∧
      g.graphValue .exact (Damped.numbers.map some) = .ok (some b) ∧
      Shape.sides b.shape = Shape.sides a.shape ∧ b.items = a.items.map some := by
  obtain ⟨f, g, hf, hg, -, h⟩ := elementwise_backends_agree Damped.build_layout none
    (by decide : ∀ d ∈ [2, 2], 0 < d) Damped.isElementwise_damped Damped.known_damped.resolves
    Damped.known_damped.not_cyclicFrom Damped.definesArithmetic_damped
  obtain ⟨a, b, ha, hb, hsides, hitems⟩ := h Damped.numbers ⟨Nat.le_refl 4, Nat.le_refl 1⟩
  exact ⟨f, g, a, b, hf, hg, ha, hb, hsides, hitems⟩

namespace Shifted

def vector : Expr := .array (some "A") [.int 2]

def element (n : Int) : Expr := .symbol (some "A") [.int n]

def shift : Expr := .symbol (some "w")

def shifted : Expr := .binary .add vector shift

/-- Two elements, a dividend and a divisor, and an observed symbol that is the remainder. -/
def layout : Layout where
  states := ⟨[("A[0]", .expr (element 0)), ("A[1]", .expr (element 1)),
    ("x", .expr Remainder.dividend), ("y", .expr Remainder.divisor)]⟩
  observed := ⟨[("w", .expr shift, Remainder.remainder)]⟩

lemma build_layout :
    Layout.build (.list [.expr vector, .expr Remainder.dividend, .expr Remainder.divisor]) .none
      .none (.dict [(.expr shift, .expr Remainder.remainder)]) = .ok layout := rfl

lemma unrolls_shifted : layout.Unrolls (fun d => d.HasPlainSymbols ∧ layout.Knows d) shifted :=
  .intro ⟨by decide, by decide⟩
    (List.forall_mem_singleton.2 (.intro ⟨by decide, by decide⟩ (List.forall_mem_nil _)))

lemma isElementwise_shifted : shifted.IsElementwise [2] :=
  .binary (.inl rfl) (.array (List.cons_ne_nil _ _) ⟨rfl, rfl⟩) .symbol

def table : LeafTable :=
  ⟨[(shift, .definition Remainder.remainder), (Remainder.divisor, .source (.state (.int 3))),
    (Remainder.dividend, .source (.state (.int 2))), (element 1, .source (.state (.int 1))),
    (element 0, .source (.state (.int 0)))]⟩

def interpreter : Evaluator := ⟨shifted, table, false, none, none⟩

/-- An element plus the remainder, as it is lowered. -/
def entry {K : Type} (n : Nat) : Node K :=
  .binary [n, 1, 0] .add (.input n) (.binary [0, 1, 4, 1] .mod (.input 2) (.input 3))

def sheet {K : Type} : Sheet K := ⟨2, 1, [entry 0, entry 1]⟩

def graph : Evaluator := { interpreter with lowered := some sheet }

lemma bind_shifted : Yields ((layout.bound none).bind false shifted) (.ok table) := by
  refine fun trace => Bound.bindAll_run_iff.2 (.source rfl (.state rfl rfl) (.source rfl (.state rfl rfl) ?_))
  exact .definition rfl rfl rfl (by decide) (.source rfl (.state rfl rfl)
    (.source rfl (.state rfl rfl) .nil)) .nil

lemma isTimeDependent_layout : (layout.bound none).isTimeDependent = .ok false := rfl

lemma ofValue_interpreter :
    Returns (ofValue (layout.system none) (.expr shifted) .none .interpreter) interpreter :=
  ofValue_of_compile
    (yields_lift_bind isTimeDependent_layout (bind_shifted.bind_ok (yields_pure interpreter)))

lemma ofExpr_shifted : Graph.ofExpr .float table shifted = .ok sheet := rfl

lemma ofValue_graph :
    Returns (ofValue (layout.system none) (.expr shifted) .none .graph) graph :=
  ofValue_of_compile (yields_lift_bind isTimeDependent_layout
    (bind_shifted.bind_ok (yields_lift_bind ofExpr_shifted (yields_pure graph))))

def storage : Value := .list [.real 1.0, .real 2.0, .real (-1.0), .real 3.0]

def numbers : Numbers ℝ := ⟨[1, (2 : ℕ), -1, (3 : ℕ)], [], 0⟩

lemma value_shift : table.value (.scalar .exact) (interpreter.readExact storage (.list []) .none)
    shift = .ok (some (.element .float64 (.real 2))) := by
  change Remainder.remainder.eval _ _ = _
  exact Remainder.eval_exact
    (congrArg Except.ok (Remainder.ofStored_real Remainder.realOf_negative_one))
    (congrArg Except.ok (Remainder.ofStored_real Remainder.realOf_three))
    Remainder.flooredRemainder_negative

/-- The remainder that the graph adds is that of a division that truncates. -/
lemma has_entry {inputs : Nat → Option ℝ} {n : Nat} {r : ℝ} (hn : inputs n = some r)
    (hx : inputs 2 = some (-1)) (hy : inputs 3 = some 3) : Node.Has inputs (entry n) (r + -1) := by
  have hmod : BinaryNode.mod ≠ .ifElseZero := nofun
  have hadd : BinaryNode.add ≠ .ifElseZero := nofun
  have hremainder : Node.Has inputs (.binary [0, 1, 4, 1] .mod (.input 2) (.input 3)) (-1) :=
    (Node.has_binary hmod).2 ⟨-1, 3, hx, hy, Remainder.truncatedRemainder_negative⟩
  exact (Node.has_binary hadd).2 ⟨r, -1, hn, hremainder, rfl⟩

lemma graphValues_shifted : graph.graphValues .exact (numbers.map some) =
    .ok ⟨2, 1, [some 0, some 1]⟩ := by
  have hdivisor : realsOf numbers.states 3 = some 3 := congrArg some Nat.cast_ofNat
  have hfirst : Node.Has (realsOf numbers.states) (entry 0) (1 + -1) := has_entry rfl rfl hdivisor
  have hsecond : Node.Has (realsOf numbers.states) (entry 1) ((2 : ℕ) + -1) :=
    has_entry rfl rfl hdivisor
  change Except.ok (Rectangle.mk 2 1 [(entry 0).value .exact (realsOf numbers.states),
    (entry 1).value .exact (realsOf numbers.states)]) = _
  rw [hfirst, hsecond]
  norm_num

lemma graphValue_shifted : graph.graphValue .exact (numbers.map some) =
    .ok (some (.array [2] [some 0, some 1] rfl)) :=
  (graphValue_eq graphValues_shifted).trans rfl

end Shifted

/-- An array plus an observed symbol that is a remainder: over the real numbers the symbol is 2 for
the interpreter, and the graph adds -1. The numbers that both backends return show the same. -/
theorem elementwise_backends_differ_remainder :
    Layout.build (.list [.expr Shifted.vector, .expr Remainder.dividend, .expr Remainder.divisor])
        .none .none (.dict [(.expr Shifted.shift, .expr Remainder.remainder)]) =
        .ok Shifted.layout ∧
      Shifted.shifted.IsElementwise [2] ∧ Shifted.layout.Resolves Shifted.shifted ∧
      ¬ Shifted.layout.CyclicFrom Shifted.shifted ∧
      Returns (ofValue (Shifted.layout.system none) (.expr Shifted.shifted) .none .interpreter)
        Shifted.interpreter ∧
      Returns (ofValue (Shifted.layout.system none) (.expr Shifted.shifted) .none .graph)
        Shifted.graph ∧
      Shifted.table.value (.scalar .exact)
          (Shifted.interpreter.readExact Shifted.storage (.list []) .none) Shifted.shift =
        .ok (some (.element .float64 (.real 2))) ∧
      Shifted.graph.graphValue .exact (Shifted.numbers.map some) =
        .ok (some (.array [2] [some 0, some 1] rfl)) ∧
      Shifted.interpreter.call Shifted.storage (.list []) .none =
        .ok (.numbers .float64 [2] [.real 3.0, .real 4.0]) ∧
      Shifted.graph.call Shifted.storage (.list []) .none =
        .ok (.numbers .float64 [2] [.real 0.0, .real 1.0]) :=
  ⟨Shifted.build_layout, Shifted.isElementwise_shifted, Shifted.unrolls_shifted.resolves,
    Shifted.unrolls_shifted.not_cyclicFrom, Shifted.ofValue_interpreter, Shifted.ofValue_graph,
    Shifted.value_shift, Shifted.graphValue_shifted, rfl, rfl⟩

end Evaluator
end NamedSlots
