import NamedSlots.Proofs.AggregateGraphs
import NamedSlots.Proofs.ElementwiseAgreement
import NamedSlots.Proofs.TermReading

/-!
# Aggregates of array symbols

Both backends compile the sum, the product and the norm of an array symbol and the inner product
of two, and they agree on the first three. The interpreter pairs the items of two arrays row by
row, the graph column by column, so that they agree on an inner product only if the arrays have one
shape or neither of them is a matrix with several rows and several columns.
-/

namespace NamedSlots

open NamedSlots.Graph Traced

/-! ### Expressions over operands -/

namespace Expr

variable {k : Kind} {cs : List Expr} {lb : Label} {s : Expr}

lemma exists_child_of_mem_occurrences (hsymbol : k ≠ .symbol) (harray : k ≠ .array)
    (hs : s ∈ (node k cs lb).occurrences) : ∃ c ∈ cs, s ∈ c.occurrences := by
  obtain ⟨leaf, hleaf, hmem⟩ := List.mem_flatMap.1 hs
  rw [leaves_node, if_neg (by simp [hsymbol, harray])] at hleaf
  obtain ⟨c, hc, hleaf⟩ := List.mem_flatMap.1 hleaf
  exact ⟨c, hc, List.mem_flatMap.2 ⟨leaf, hleaf, hmem⟩⟩

end Expr

/-- An array symbol whose dimensions are positive and whose elements are in a layout, or are defined
by sums, differences and products of what is in it. -/
structure Layout.HoldsArray (l : Layout) (S : List Nat) (a : Expr) : Prop where
  isArray : a.IsArray S
  pos (d : Nat) : d ∈ S → 0 < d
  resolves : l.Resolves a
  acyclic : ¬ l.CyclicFrom a
  arithmetic : l.DefinesArithmetic a

namespace Layout

variable {l : Layout} {k : Kind} {cs : List Expr} {lb : Label} {s d : Expr}

section Operands

variable (hsymbol : k ≠ .symbol) (harray : k ≠ .array) (hcs : ∀ c ∈ cs, ∃ S, l.HoldsArray S c)
include hsymbol harray hcs

lemma mem_scalarLeaves_of_operands (hs : s ∈ (Expr.node k cs lb).scalarLeaves) :
    ∃ c ∈ cs, s ∈ c.scalarLeaves := by
  have hplain (c : Expr) (hc : c ∈ cs) : c.HasPlainSymbols := by
    obtain ⟨S, hS⟩ := hcs c hc
    exact hS.resolves.plain c .refl
  rw [Expr.mem_scalarLeaves (Expr.hasPlainSymbols_node hsymbol harray hplain)] at hs
  obtain ⟨c, hc, hs⟩ := Expr.exists_child_of_mem_occurrences hsymbol harray hs
  exact ⟨c, hc, (Expr.mem_scalarLeaves (hplain c hc)).2 hs⟩

lemma within_operands (hd : l.Within (.node k cs lb) d) :
    d = .node k cs lb ∨ ∃ c ∈ cs, l.Within c d := by
  rcases hd.cases_head with rfl | ⟨d', ⟨t, ht, hdef⟩, hd⟩
  · exact .inl rfl
  · obtain ⟨c, hc, ht⟩ := mem_scalarLeaves_of_operands hsymbol harray hcs ht
    exact .inr ⟨c, hc, hd.head ⟨t, ht, hdef⟩⟩

/-- An operator leads to what its operands lead to. -/
lemma reached_operands (hs : l.Reached (.node k cs lb) s) : ∃ c ∈ cs, l.Reached c s := by
  obtain ⟨d, hd, hs⟩ := hs
  rcases within_operands hsymbol harray hcs hd with rfl | ⟨c, hc, hd⟩
  · obtain ⟨c, hc, hs⟩ := mem_scalarLeaves_of_operands hsymbol harray hcs hs
    exact ⟨c, hc, reached_of_mem hs⟩
  · exact ⟨c, hc, d, hd, hs⟩

lemma resolves_operator : l.Resolves (.node k cs lb) where
  plain d hd := by
    rcases within_operands hsymbol harray hcs hd with rfl | ⟨c, hc, hd⟩
    · refine Expr.hasPlainSymbols_node hsymbol harray fun c hc => ?_
      obtain ⟨S, hS⟩ := hcs c hc
      exact hS.resolves.plain c .refl
    · obtain ⟨S, hS⟩ := hcs c hc
      exact hS.resolves.plain d hd
  known s hs := by
    obtain ⟨c, hc, hs⟩ := reached_operands hsymbol harray hcs hs
    obtain ⟨S, hS⟩ := hcs c hc
    exact hS.resolves.known s hs

lemma not_cyclicFrom_operator : ¬ l.CyclicFrom (.node k cs lb) := by
  rintro ⟨s, hs, hcycle⟩
  obtain ⟨c, hc, hs⟩ := reached_operands hsymbol harray hcs hs
  obtain ⟨S, hS⟩ := hcs c hc
  exact hS.acyclic ⟨s, hs, hcycle⟩

lemma definesArithmetic_operator : l.DefinesArithmetic (.node k cs lb) := by
  intro s d hs hd
  obtain ⟨c, hc, hs⟩ := reached_operands hsymbol harray hcs hs
  obtain ⟨S, hS⟩ := hcs c hc
  exact hS.arithmetic s d hs hd

end Operands

/-- An array is held by a layout if its elements are stored. -/
lemma holdsArray_of_stored {S : List Nat} {a : Expr} (ha : a.IsArray S) (hpos : ∀ d ∈ S, 0 < d)
    (hstored : ∀ x ∈ a.elements, l.Stores (.expr x)) : l.HoldsArray S a := by
  have hplain := Expr.hasPlainSymbols_of_array ha.kind_eq
  have hleaves (s : Expr) (hs : s ∈ a.scalarLeaves) : l.Stores (.expr s) :=
    hstored s ((Expr.mem_scalarLeaves_array ha.kind_eq).1 hs)
  have hunrolls := unrolls_of_stored hplain hleaves
  refine ⟨ha, hpos, hunrolls.resolves, hunrolls.not_cyclicFrom, fun s d hs hd => ?_⟩
  rw [definitionOf_of_stored hplain hleaves (mem_of_reached hplain hleaves hs)] at hd
  cases hd

/-- The elements of two arrays are at different places of storage. -/
def HeldApart (l : Layout) (a b : Expr) : Prop :=
  ∃ srcs srcs' : List Source,
    a.elements.map l.meaningOf = (srcs.map fun src => some (.source src)) ∧
    b.elements.map l.meaningOf = (srcs'.map fun src => some (.source src)) ∧
    (srcs ++ srcs').Nodup

end Layout

/-! ### Graphs of the items of a value -/

namespace Matches

variable {inputs : Nat → Option ℝ} {place : Place} {m k : Sheet (Option ℝ)} {a b : ArrayValue ℝ}

/-- The graph of an inner product pairs items column by column. -/
lemma has_dot (hm : Matches (Node.Has inputs) m a) (hk : Matches (Node.Has inputs) k b)
    {n : Node (Option ℝ)} (hn : Sheet.dot .exact place m k = .ok n) :
    n.Has inputs (List.zipWith (· * ·) (Shape.byColumns a.shape a.items)
      (Shape.byColumns b.shape b.items)).sum := by
  have hhas := Sheet.has_dot hn hm.items hk.items
  rwa [hm.rows_eq, hm.columns_eq, hk.rows_eq, hk.columns_eq] at hhas

/-- The graph of a sum, a product or a norm has the number that the interpreter finds. -/
lemma has_aggregate (hm : Matches (Node.Has inputs) m a) {op : UnaryOp}
    (hop : op.isAggregate = true) {n : Node (Option ℝ)}
    (hn : Sheet.unary .exact place op m = .ok (.single n)) :
    ∃ r, a.unary .exact op = some (.element r) ∧ n.Has inputs r := by
  cases op <;> first | exact absurd hop Bool.false_ne_true | skip
  · cases hn
    refine ⟨_, rfl, ?_⟩
    rw [ArrayArithmetic.total_exact]
    exact Sheet.has_sum hm.isFull hm.items
  · cases hn
    refine ⟨_, rfl, ?_⟩
    rw [ArrayArithmetic.product_exact]
    exact Sheet.has_prod hm.isFull hm.items
  · obtain ⟨square, hsquare, hn⟩ := Except.eq_ok_of_bind hn
    cases hn
    have hhas := hm.has_dot hm hsquare
    rw [Shape.sum_byColumns_eq a.length_items a.length_items (.inl rfl)] at hhas
    refine ⟨_, rfl, Node.has_applyUnary hhas ?_ nofun⟩
    have hnonneg : 0 ≤ (List.zipWith (· * ·) a.items a.items).sum := by
      rw [List.zipWith_self]
      refine List.sum_nonneg fun x hx => ?_
      obtain ⟨y, _, rfl⟩ := List.mem_map.1 hx
      exact mul_self_nonneg y
    exact RealFunction.given_eq_some.2
      ⟨hnonneg, (congrArg Real.sqrt (ArrayArithmetic.inner_exact _ _)).symm⟩

end Matches

/-! ### Lowering of aggregates -/

namespace Expr.IsArray

variable {K R : Type} [Nonempty R] {P : Node K → R → Prop} {S T : List Nat} {a b : Expr}
  {leaf : Expr → Except Failure (Sheet K)} {leaf' : Expr → Except Failure (Option (ArrayValue R))}
  (arith : Arithmetic K) (numbers : ArrayArithmetic R)

/-- An operator on an array symbol is applied to graphs of the items, and to the items. -/
lemma lower_unary (ha : a.IsArray S) (hpos : ∀ d ∈ S, 0 < d)
    (hleaf : ∀ s ∈ a.elements, LeafMatches P leaf leaf' s) (op : UnaryOp) (place : Place) :
    ∃ m xs count, Matches P m (.array S xs count) ∧
      lower arith leaf place (.unary op a) = Sheet.unary arith place op m ∧
      (Expr.unary op a).eval (.array numbers) leaf' =
        .ok ((ArrayValue.array S xs count).unary numbers op) := by
  obtain ⟨m, xs, count, hm, heval, hmatches⟩ :=
    ha.exists_matches arith numbers hpos hleaf (Sheet.operandPlace place 0)
  refine ⟨m, xs, count, hmatches, ?_, ?_⟩
  · rw [Expr.unary, lower, hm, Except.ok_bind]
  · rw [Expr.unary, Expr.eval, heval, Except.ok_bind]
    rfl

/-- The inner product of two array symbols is that of graphs of their items, and of the items. -/
lemma lower_dot (ha : a.IsArray S) (hb : b.IsArray T) (hpos : ∀ d ∈ S, 0 < d)
    (hpos' : ∀ d ∈ T, 0 < d) (hsize : Shape.size S = Shape.size T)
    (hleaf : ∀ s ∈ a.elements, LeafMatches P leaf leaf' s)
    (hleaf' : ∀ s ∈ b.elements, LeafMatches P leaf leaf' s) (place : Place) :
    ∃ m k n xs ys count count', Matches P m (.array S xs count) ∧ Matches P k (.array T ys count') ∧
      a.eval (.array numbers) leaf' = .ok (some (.array S xs count)) ∧
      b.eval (.array numbers) leaf' = .ok (some (.array T ys count')) ∧
      Sheet.dot arith place m k = .ok n ∧
      lower arith leaf place (.binary .dot a b) = .ok (.single n) ∧
      (Expr.binary .dot a b).eval (.array numbers) leaf' =
        .ok (some (.element (numbers.inner xs ys))) := by
  obtain ⟨m, xs, count, hm, heval, hmatches⟩ :=
    ha.exists_matches arith numbers hpos hleaf (Sheet.operandPlace place 0)
  obtain ⟨k, ys, count', hk, heval', hmatches'⟩ :=
    hb.exists_matches arith numbers hpos' hleaf' (Sheet.operandPlace place 1)
  have hlength : xs.length = ys.length := count.trans (hsize.trans count'.symm)
  obtain ⟨n, hn⟩ : ∃ n, Sheet.dot arith place m k = .ok n :=
    Sheet.exists_dot arith hmatches.isFull hmatches'.isFull
      (hmatches.items.length_eq.trans (hlength.trans hmatches'.items.length_eq.symm))
  refine ⟨m, k, n, xs, ys, count, count', hmatches, hmatches', heval, heval', hn, ?_, ?_⟩
  · rw [Expr.binary, lower, hm, Except.ok_bind, hk, Except.ok_bind, Sheet.binary, hn]
    rfl
  · rw [Expr.binary, Expr.eval, heval, Except.ok_bind, heval', Except.ok_bind]
    exact congrArg Except.ok (if_pos hlength)

end Expr.IsArray

/-! ### Items in storage -/

/-- The numbers in storage for the elements of an array, wherever all of them are in storage. -/
def Layout.HasItems (l : Layout) (n : Numbers ℝ) (a : Expr) (xs : List ℝ) : Prop :=
  ∀ srcs : List Source, a.elements.map l.meaningOf = (srcs.map fun src => some (.source src)) →
    srcs.mapM n.read = .ok xs

namespace Evaluator

variable {l : Layout} {e a b : Expr} {f g : Evaluator} {n : Numbers ℝ} {S T : List Nat}

/-- The items of an array are what storage holds for its elements. -/
lemma BoundFor.hasItems (hf : f.BoundFor l e) (hn : n.Covers l) (hresolves : l.Resolves e)
    (ha : a.IsArray S) (hmem : ∀ x ∈ a.elements, x ∈ e.scalarLeaves) {xs : List ℝ}
    {count : xs.length = Shape.size S}
    (heval : a.eval (.array .exact) (f.table.value (.array .exact) fun src => do
      return some (.plain (← n.read src))) = .ok (some (.array S xs count))) :
    l.HasItems n a xs := by
  intro srcs hsrcs
  have hpairs : List.Forall₂ (fun x src => l.meaningOf x = some (.source src)) a.elements srcs := by
    rw [← List.forall₂_eq_eq_eq, List.forall₂_map_left_iff, List.forall₂_map_right_iff] at hsrcs
    exact hsrcs
  have hread : ∀ x ∈ a.elements, ∃ r, f.table.value (.array .exact) (fun src => do
        return some (.plain (← n.read src))) x = .ok (some (.plain r)) ∧
      ∀ src, l.meaningOf x = some (.source src) → n.read src = .ok r := by
    intro x hx
    obtain ⟨src, hsrc⟩ : ∃ src, l.meaningOf x = some (.source src) := by
      have hmeaning := List.mem_map_of_mem (f := l.meaningOf) hx
      rw [hsrcs] at hmeaning
      obtain ⟨src, _, hsrc⟩ := List.mem_map.1 hmeaning
      exact ⟨src, hsrc.symm⟩
    obtain ⟨m, hentry⟩ := Assoc.exists_mem_of_mem_keys (hf.bound x (hmem x hx))
    cases hsrc.symm.trans (hf.settled.meaningOf_of_mem hentry)
    obtain ⟨r, hr⟩ := Numbers.exists_read hn hsrc
    refine ⟨r, ?_, fun src' hsrc' => ?_⟩
    · rw [LeafTable.value, hf.settled.valueIn_of_source _ _ hresolves hentry, hr]
      rfl
    · cases hsrc.symm.trans hsrc'
      exact hr
  choose! number hvalue hnumber using hread
  have hitems := heval.symm.trans (ha.eval hvalue fun _ _ => rfl)
  have hxs : xs = a.elements.map number := by
    simpa using hitems
  rw [hxs, mapM_eq_ok_iff, List.forall₂_map_right_iff]
  exact ((List.forall₂_and_left _ _).2 ⟨fun x hx => hnumber x hx, hpairs⟩).flip.imp
    fun src x hx => hx.1 src hx.2

/-- Two evaluators return the same real number. -/
def SameNumber (f g : Evaluator) (n : Numbers ℝ) : Prop :=
  ∃ r, f.arrayValue .exact n = .ok (some (.element r)) ∧
    g.graphValue .exact (n.map some) = .ok (some (.plain (some r)))

section Backends

variable {states parameters independent observed : Value}

/-- The sum, the product and the norm of an array are the same for both backends. -/
lemma exists_aggregate (hl : Layout.build states parameters independent observed = .ok l)
    (identity : Option Nat) (ha : l.HoldsArray S a) {op : UnaryOp} (hop : op.isAggregate = true) :
    ∃ f g, Returns (ofValue (l.system identity) (.expr (.unary op a)) .none .interpreter) f ∧
      Returns (ofValue (l.system identity) (.expr (.unary op a)) .none .graph) g ∧ RunOn f g l ∧
      ∀ n : Numbers ℝ, n.Covers l → SameNumber f g n := by
  have hcs : ∀ c ∈ [a], ∃ S, l.HoldsArray S c := fun c hc => ⟨S, List.mem_singleton.1 hc ▸ ha⟩
  have hresolves : l.Resolves (.unary op a) := Layout.resolves_operator nofun nofun hcs
  have hdefinitions : l.DefinesArithmetic (.unary op a) :=
    Layout.definesArithmetic_operator nofun nofun hcs
  have helements (s : Expr) (hs : s ∈ a.elements) : s ∈ (Expr.unary op a).occurrences :=
    Expr.mem_occurrences_unary (ha.isArray.occurrences_eq ▸ hs)
  obtain ⟨f, sheet, hf, hinterpreter, hgraph, hrun⟩ := exists_backends hl identity hresolves
    (Layout.not_cyclicFrom_operator nofun nofun hcs) hdefinitions fun leaf leaf' hleaf => by
      obtain ⟨m, xs, count, hmatches, hlower, heval⟩ := ha.isArray.lower_unary .float .float ha.pos
        (fun s hs => hleaf s (helements s hs)) op [0]
      obtain ⟨k, hk⟩ : ∃ k, Sheet.unary .float [0] op m = .ok (.single k) :=
        Sheet.exists_aggregate .float hop hmatches.isFull
      obtain ⟨v, hv⟩ : ∃ v, (ArrayValue.array S xs count).unary .float op = some v := by
        cases op <;> first | exact ⟨_, rfl⟩ | exact absurd hop Bool.false_ne_true
      exact ⟨_, v, hlower.trans hk, rfl, heval.trans (congrArg Except.ok hv)⟩
  refine ⟨f, { f with lowered := some sheet }, hinterpreter, hgraph, hrun, fun n hn => ?_⟩
  obtain ⟨inputs, hinputs⟩ := hf.exists_inputs hn
  obtain ⟨m, xs, count, hmatches, hlower, heval⟩ := ha.isArray.lower_unary .exact .exact ha.pos
    (fun s hs => hf.leafMatches_exact hn hresolves hdefinitions hinputs (helements s hs)) op [0]
  obtain ⟨k, hk⟩ : ∃ k, Sheet.unary .exact [0] op m = .ok (.single k) :=
    Sheet.exists_aggregate .exact hop hmatches.isFull
  obtain ⟨r, hr, hhas⟩ := hmatches.has_aggregate hop hk
  obtain ⟨hvalue, hgraphs⟩ := hf.values_exact hinputs (hlower.trans hk)
    (heval.trans (congrArg Except.ok hr)) (.cons hhas .nil)
  exact ⟨r, hvalue, graphValue_eq hgraphs⟩

/-- Both backends have an inner product of two arrays of equally many items: the interpreter pairs
the items in storage row by row, the graph column by column. -/
lemma exists_dot (hl : Layout.build states parameters independent observed = .ok l)
    (identity : Option Nat) (ha : l.HoldsArray S a) (hb : l.HoldsArray T b)
    (hsize : Shape.size S = Shape.size T) :
    ∃ f g, Returns (ofValue (l.system identity) (.expr (.binary .dot a b)) .none .interpreter) f ∧
      Returns (ofValue (l.system identity) (.expr (.binary .dot a b)) .none .graph) g ∧
      RunOn f g l ∧
      ∀ n : Numbers ℝ, n.Covers l → ∃ xs ys : List ℝ, xs.length = Shape.size S ∧
        ys.length = Shape.size T ∧ l.HasItems n a xs ∧ l.HasItems n b ys ∧
        f.arrayValue .exact n = .ok (some (.element (List.zipWith (· * ·) xs ys).sum)) ∧
        g.graphValue .exact (n.map some) = .ok (some (.plain (some
          (List.zipWith (· * ·) (Shape.byColumns S xs) (Shape.byColumns T ys)).sum))) := by
  have hcs : ∀ c ∈ [a, b], ∃ S, l.HoldsArray S c := by
    intro c hc
    rcases List.mem_cons.1 hc with rfl | hc
    · exact ⟨S, ha⟩
    · exact ⟨T, List.mem_singleton.1 hc ▸ hb⟩
  have hresolves : l.Resolves (.binary .dot a b) := Layout.resolves_operator nofun nofun hcs
  have hdefinitions : l.DefinesArithmetic (.binary .dot a b) :=
    Layout.definesArithmetic_operator nofun nofun hcs
  have helements (s : Expr) (hs : s ∈ a.elements) : s ∈ (Expr.binary .dot a b).occurrences :=
    Expr.mem_occurrences_binary (.inl (ha.isArray.occurrences_eq ▸ hs))
  have helements' (s : Expr) (hs : s ∈ b.elements) : s ∈ (Expr.binary .dot a b).occurrences :=
    Expr.mem_occurrences_binary (.inr (hb.isArray.occurrences_eq ▸ hs))
  obtain ⟨f, sheet, hf, hinterpreter, hgraph, hrun⟩ := exists_backends hl identity hresolves
    (Layout.not_cyclicFrom_operator nofun nofun hcs) hdefinitions fun leaf leaf' hleaf => by
      obtain ⟨_, _, n, xs, ys, _, _, -, -, -, -, -, hlower, heval⟩ :=
        ha.isArray.lower_dot .float .float hb.isArray ha.pos hb.pos hsize
          (fun s hs => hleaf s (helements s hs)) (fun s hs => hleaf s (helements' s hs)) [0]
      exact ⟨_, _, hlower, rfl, heval⟩
  refine ⟨f, { f with lowered := some sheet }, hinterpreter, hgraph, hrun, fun n hn => ?_⟩
  obtain ⟨inputs, hinputs⟩ := hf.exists_inputs hn
  have hleaves (s : Expr) (hs : s ∈ (Expr.binary .dot a b).occurrences) :=
    hf.leafMatches_exact hn hresolves hdefinitions hinputs hs
  obtain ⟨m, k, j, xs, ys, count, count', hm, hk, hxs, hys, hj, hlower, heval⟩ :=
    ha.isArray.lower_dot .exact .exact hb.isArray ha.pos hb.pos hsize
      (fun s hs => hleaves s (helements s hs)) (fun s hs => hleaves s (helements' s hs)) [0]
  have hscalar {x : Expr} (hx : x ∈ (Expr.binary .dot a b).occurrences) :
      x ∈ (Expr.binary .dot a b).scalarLeaves :=
    (Expr.mem_scalarLeaves (hresolves.plain _ .refl)).2 hx
  rw [ArrayArithmetic.inner_exact] at heval
  obtain ⟨hvalue, hgraphs⟩ :=
    hf.values_exact hinputs hlower heval (.cons (hm.has_dot hk hj) .nil)
  exact ⟨xs, ys, count, count',
    hf.hasItems hn hresolves ha.isArray (fun x hx => hscalar (helements x hx)) hxs,
    hf.hasItems hn hresolves hb.isArray (fun x hx => hscalar (helements' x hx)) hys,
    hvalue, graphValue_eq hgraphs⟩

end Backends

/-! ### Arrays of different shapes -/

lemma items_eq {srcs : List Source} {g : Source → ℝ} {xs : List ℝ}
    (hsrcs : a.elements.map l.meaningOf = srcs.map fun src => some (.source src))
    (h : l.HasItems (.tabulate l g) a xs) : xs = srcs.map g := by
  have hread : ∀ src ∈ srcs, (Numbers.tabulate l g).read src = .ok (g src) := by
    intro src hsrc
    have hmem := List.mem_map_of_mem (f := fun src => some (Meaning.source src)) hsrc
    rw [← hsrcs] at hmem
    obtain ⟨x, _, hx⟩ := List.mem_map.1 hmem
    exact Numbers.read_tabulate g hx
  exact Except.ok.inj ((h srcs hsrcs).symm.trans (mapM_ok hread))

/-- An array has one item that is 1, and only 0 else, if this is what storage holds. -/
lemma isUnit_map {i j : Nat} {srcs srcs' : List Source} (hnodup : (srcs ++ srcs').Nodup)
    {src src' : Source} (hsrc : srcs[i]? = some src) (hsrc' : srcs'[j]? = some src')
    {g : Source → ℝ} (hone : g src = 1) (hzero : ∀ x, x ≠ src → x ≠ src' → g x = 0) :
    Shape.IsUnit i (srcs.map g) := by
  obtain ⟨hnodup, -, hdisjoint⟩ := List.nodup_append.1 hnodup
  have hi : i < srcs.length := (List.getElem?_eq_some_iff.1 hsrc).1
  refine ⟨by rw [List.getElem?_map, hsrc, Option.map_some, hone], fun k x hki hx => ?_⟩
  rw [List.getElem?_map] at hx
  obtain ⟨y, hy, rfl⟩ := Option.map_eq_some_iff.1 hx
  refine hzero y ?_ ?_
  · rintro rfl
    exact hki ((List.getElem?_inj hi hnodup).1 (hsrc.trans hy.symm)).symm
  · exact hdisjoint _ (List.mem_of_getElem? hy) _ (List.mem_of_getElem? hsrc')

/-- Two arrays of equally many items that are held apart are told apart by some storage, unless
their shapes are equal or both are flat. -/
lemma exists_separating (ha : l.HoldsArray S a) (hb : l.HoldsArray T b)
    (hsize : Shape.size S = Shape.size T) (happart : l.HeldApart a b)
    (hshape : ¬ (S = T ∨ Shape.IsFlat S ∧ Shape.IsFlat T)) :
    ∃ n : Numbers ℝ, n.Covers l ∧ ∀ xs ys, l.HasItems n a xs → l.HasItems n b ys →
      (List.zipWith (· * ·) (Shape.byColumns S xs) (Shape.byColumns T ys)).sum ≠
        (List.zipWith (· * ·) xs ys).sum := by
  classical
  obtain ⟨srcs, srcs', hsrcs, hsrcs', hnodup⟩ := happart
  have hone : 1 < Shape.size S := by
    by_contra hle
    have hle : Shape.size S ≤ 1 := Nat.le_of_not_lt hle
    exact hshape (.inr ⟨Shape.isFlat_of_size_le_one ha.pos hle,
      Shape.isFlat_of_size_le_one hb.pos (hsize ▸ hle)⟩)
  have hcount : srcs.length = Shape.size S := by
    rw [← ha.isArray.length_elements, ← List.length_map (f := l.meaningOf), hsrcs, List.length_map]
  have hcount' : srcs'.length = Shape.size T := by
    rw [← hb.isArray.length_elements, ← List.length_map (f := l.meaningOf), hsrcs', List.length_map]
  obtain ⟨src, hsrc⟩ := Shape.exists_second hcount hone
  obtain ⟨src', hsrc'⟩ := Shape.exists_second hcount' (hsize ▸ hone)
  let g (x : Source) : ℝ := if x = src ∨ x = src' then 1 else 0
  refine ⟨.tabulate l g, Numbers.covers_tabulate g, fun xs ys hxs hys => ?_⟩
  cases items_eq hsrcs hxs
  cases items_eq hsrcs' hys
  have hzero (x : Source) (h : x ≠ src) (h' : x ≠ src') : g x = 0 := if_neg (not_or.2 ⟨h, h'⟩)
  exact Shape.sum_byColumns_ne (fun h => hshape (Shape.eq_or_isFlat_of_second ha.pos hsize h)) hsize
    hone ((List.length_map _).trans hcount) ((List.length_map _).trans hcount')
    (isUnit_map hnodup hsrc hsrc' (if_pos (.inl rfl)) hzero)
    (isUnit_map (List.nodup_append_comm.1 hnodup) hsrc' hsrc (if_pos (.inr rfl))
      fun x h h' => hzero x h' h)

/-- The sum, the product and the norm of an array symbol are the same for both backends over the
real numbers, and both run over floating numbers. The inner product of two array symbols of equally
many items is the same if their shapes are equal or neither is a matrix of several rows and columns.
If the two are held apart, it is the same on all storage only then. -/
theorem array_aggregates_agree {states parameters independent observed : Value}
    (hl : Layout.build states parameters independent observed = .ok l) (identity : Option Nat)
    (ha : l.HoldsArray S a) (hb : l.HoldsArray T b) (hsize : Shape.size S = Shape.size T) :
    (∀ op : UnaryOp, op.isAggregate = true → ∃ f g,
        Returns (ofValue (l.system identity) (.expr (.unary op a)) .none .interpreter) f ∧
        Returns (ofValue (l.system identity) (.expr (.unary op a)) .none .graph) g ∧ RunOn f g l ∧
        ∀ n : Numbers ℝ, n.Covers l → SameNumber f g n) ∧
      ∃ f g, Returns (ofValue (l.system identity) (.expr (.binary .dot a b)) .none .interpreter) f ∧
        Returns (ofValue (l.system identity) (.expr (.binary .dot a b)) .none .graph) g ∧
        RunOn f g l ∧
        ((S = T ∨ Shape.IsFlat S ∧ Shape.IsFlat T) →
          ∀ n : Numbers ℝ, n.Covers l → SameNumber f g n) ∧
        (l.HeldApart a b → (∀ n : Numbers ℝ, n.Covers l → SameNumber f g n) →
          S = T ∨ Shape.IsFlat S ∧ Shape.IsFlat T) := by
  refine ⟨fun op hop => exists_aggregate hl identity ha hop, ?_⟩
  obtain ⟨f, g, hf, hg, hrun, hdot⟩ := exists_dot hl identity ha hb hsize
  refine ⟨f, g, hf, hg, hrun, fun hshape n hn => ?_,
    fun happart hsame => by_contra fun hshape => ?_⟩
  · obtain ⟨xs, ys, hxs, hys, -, -, hvalue, hgraph⟩ := hdot n hn
    rw [Shape.sum_byColumns_eq hxs hys hshape] at hgraph
    exact ⟨_, hvalue, hgraph⟩
  · obtain ⟨n, hn, hne⟩ := exists_separating ha hb hsize happart hshape
    obtain ⟨xs, ys, -, -, hxs, hys, hvalue, hgraph⟩ := hdot n hn
    obtain ⟨r, hr, hr'⟩ := hsame n hn
    cases hr.symm.trans hvalue
    have hsame := Except.ok.inj (hr'.symm.trans hgraph)
    simp only [Option.some.injEq, ArrayValue.plain.injEq] at hsame
    exact hne xs ys hxs hys hsame.symm

namespace Blocks

def square : Expr := .array (some "A") [.int 2, .int 2]

def block : Expr := .array (some "B") [.int 1, .int 2, .int 2]

def squareElement (i j : Int) : Value := .expr (.symbol (some "A") [.int i, .int j])

def blockElement (i j : Int) : Value := .expr (.symbol (some "B") [.int 0, .int i, .int j])

/-- A matrix and an array of three dimensions, of four states each. -/
def layout : Layout where
  states := ⟨[("A[0,0]", squareElement 0 0), ("A[0,1]", squareElement 0 1),
    ("A[1,0]", squareElement 1 0), ("A[1,1]", squareElement 1 1),
    ("B[0,0,0]", blockElement 0 0), ("B[0,0,1]", blockElement 0 1),
    ("B[0,1,0]", blockElement 1 0), ("B[0,1,1]", blockElement 1 1)]⟩

lemma build_layout :
    Layout.build (.list [.expr square, .expr block]) .none .none .none = .ok layout := rfl

lemma elements_square : square.elements.map Value.expr =
    [squareElement 0 0, squareElement 0 1, squareElement 1 0, squareElement 1 1] := rfl

lemma elements_block : block.elements.map Value.expr =
    [blockElement 0 0, blockElement 0 1, blockElement 1 0, blockElement 1 1] := rfl

lemma holdsArray_square : layout.HoldsArray [2, 2] square := by
  refine Layout.holdsArray_of_stored ⟨rfl, rfl⟩ (by decide) fun x hx => ?_
  have hmem := List.mem_map_of_mem (f := Value.expr) hx
  rw [elements_square] at hmem
  simp only [List.mem_cons, List.not_mem_nil, or_false] at hmem
  rcases hmem with h | h | h | h <;> rw [h] <;> exact ⟨rfl, .inl rfl⟩

lemma holdsArray_block : layout.HoldsArray [1, 2, 2] block := by
  refine Layout.holdsArray_of_stored ⟨rfl, rfl⟩ (by decide) fun x hx => ?_
  have hmem := List.mem_map_of_mem (f := Value.expr) hx
  rw [elements_block] at hmem
  simp only [List.mem_cons, List.not_mem_nil, or_false] at hmem
  rcases hmem with h | h | h | h <;> rw [h] <;> exact ⟨rfl, .inl rfl⟩

def places (first : Nat) : List Source :=
  (List.range 4).map fun (i : Nat) => .state (.int (first + i : Nat))

lemma meaningOf_square :
    square.elements.map layout.meaningOf = (places 0).map fun src => some (.source src) := rfl

lemma meaningOf_block :
    block.elements.map layout.meaningOf = (places 4).map fun src => some (.source src) := rfl

lemma heldApart : layout.HeldApart square block := by
  refine ⟨places 0, places 4, meaningOf_square, meaningOf_block, ?_⟩
  have hall : places 0 ++ places 4 = (List.range 8).map fun (i : Nat) => Source.state (.int i) :=
    rfl
  rw [hall]
  refine List.nodup_range.map fun i j hij => ?_
  exact Int.ofNat_inj.1 (Index.int.inj (Source.state.inj hij))

/-- The matrix and the block hold 1 at one and the same place row by row, in the second column. -/
def numbers : Numbers ℝ := ⟨[0, 1, 0, 0, 0, 1, 0, 0], [], 0⟩

lemma covers_numbers : numbers.Covers layout := ⟨Nat.le_refl 8, Nat.le_refl 0⟩

lemma not_isFlat_square : ¬ Shape.IsFlat [2, 2] := by decide

end Blocks

/-- A matrix has one norm in both backends, but with an array of three dimensions it has not always
the same inner product. -/
theorem array_aggregates_agree_blocks :
    (∃ f g,
      Returns (ofValue (Blocks.layout.system none) (.expr (.unary .norm Blocks.square)) .none
        .interpreter) f ∧
      Returns (ofValue (Blocks.layout.system none) (.expr (.unary .norm Blocks.square)) .none
        .graph) g ∧ SameNumber f g Blocks.numbers) ∧
    ∃ f g,
      Returns (ofValue (Blocks.layout.system none)
        (.expr (.binary .dot Blocks.square Blocks.block)) .none .interpreter) f ∧
      Returns (ofValue (Blocks.layout.system none)
        (.expr (.binary .dot Blocks.square Blocks.block)) .none .graph) g ∧
      ¬ ∀ n : Numbers ℝ, n.Covers Blocks.layout → SameNumber f g n := by
  obtain ⟨hunary, f, g, hf, hg, -, -, hdot⟩ := array_aggregates_agree Blocks.build_layout none
    Blocks.holdsArray_square Blocks.holdsArray_block rfl
  obtain ⟨f', g', hf', hg', -, hsame⟩ := hunary .norm rfl
  refine ⟨⟨f', g', hf', hg', hsame _ Blocks.covers_numbers⟩, f, g, hf, hg, fun hall => ?_⟩
  rcases hdot Blocks.heldApart hall with heq | ⟨hflat, -⟩
  · exact absurd heq (by decide)
  · exact Blocks.not_isFlat_square hflat

/-- An inner product of a matrix and an array of three dimensions for which the interpreter finds 1
and the graph 0. -/
theorem dot_backends_differ :
    Blocks.layout.HoldsArray [2, 2] Blocks.square ∧
      Blocks.layout.HoldsArray [1, 2, 2] Blocks.block ∧
      Shape.size [2, 2] = Shape.size [1, 2, 2] ∧ Blocks.numbers.Covers Blocks.layout ∧
      ∃ f g,
        Returns (ofValue (Blocks.layout.system none)
          (.expr (.binary .dot Blocks.square Blocks.block)) .none .interpreter) f ∧
        Returns (ofValue (Blocks.layout.system none)
          (.expr (.binary .dot Blocks.square Blocks.block)) .none .graph) g ∧
        f.arrayValue .exact Blocks.numbers = .ok (some (.element 1)) ∧
        g.graphValue .exact (Blocks.numbers.map some) = .ok (some (.plain (some 0))) := by
  refine ⟨Blocks.holdsArray_square, Blocks.holdsArray_block, rfl, Blocks.covers_numbers, ?_⟩
  obtain ⟨f, g, hf, hg, -, hdot⟩ := exists_dot Blocks.build_layout none Blocks.holdsArray_square
    Blocks.holdsArray_block rfl
  obtain ⟨xs, ys, -, -, hxs, hys, hvalue, hgraph⟩ := hdot _ Blocks.covers_numbers
  have hsquare : xs = [0, 1, 0, 0] :=
    Except.ok.inj ((hxs _ Blocks.meaningOf_square).symm.trans rfl)
  have hblock : ys = [0, 1, 0, 0] :=
    Except.ok.inj ((hys _ Blocks.meaningOf_block).symm.trans rfl)
  subst hsquare hblock
  have hcolumns : Shape.byColumns [2, 2] [(0 : ℝ), 1, 0, 0] = [0, 0, 1, 0] := rfl
  have hcolumn : Shape.byColumns [1, 2, 2] [(0 : ℝ), 1, 0, 0] = [0, 1, 0, 0] := rfl
  rw [hcolumns, hcolumn] at hgraph
  norm_num at hvalue hgraph
  exact ⟨f, g, hf, hg, hvalue, hgraph⟩

end Evaluator
end NamedSlots
