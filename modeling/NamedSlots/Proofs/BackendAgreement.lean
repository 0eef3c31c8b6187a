import NamedSlots.Proofs.ExactLowering
import NamedSlots.Proofs.SlotDependence
import NamedSlots.Proofs.ScalarRun

/-!
# Agreement of the interpreter and the graph

An expression that is compiled for both backends is bound once and in the same way. Over the real
numbers the graph then has the number that the interpreter finds, wherever the operators of the
two are the same.
-/

namespace NamedSlots

open NamedSlots.Graph Traced

/-! ### Inputs -/

lemma LeafTable.bindings_getElem? {t : LeafTable} {earlier : List (Expr × Meaning)} {key : Expr}
    {src : Source} (h : (key, .source src) :: earlier <:+ t.entries) :
    t.bindings[(LeafTable.mk earlier).bindings.length]? = some (key, src) := by
  obtain ⟨later, hlater⟩ := h
  unfold bindings
  rw [← hlater]
  simp

namespace Evaluator

/-- The floating numbers of the bound leaves, in the order of binding. -/
def inputs (f : Evaluator) (u p t : Value) : Except Failure (List Float) :=
  f.table.bindings.mapM fun (_, s) => do (← s.read f.isTimeDependent u p t).toFloat

/-- The numbers of an evaluator's graph over any arithmetic. -/
def runWith {K : Type} (arith : Arithmetic K) (f : Evaluator) (u p t : Value) :
    Except Failure (Rectangle K) := do
  let sheet ← Graph.ofExpr arith f.table f.expr
  let xs ← f.inputs u p t
  return sheet.values arith (xs.map arith.ofFloat) (arith.ofFloat 0.0)

/-- Over the arithmetic that runs, these numbers are the ones that the graph gives. -/
theorem run_eq_runWith {f : Evaluator} {graph : Sheet Float} (h : f.lowered = some graph)
    (hlowered : f.IsLowered .graph) (u p t : Value) :
    f.run graph u p t = (f.runWith .float u p t).map sheetValue := by
  obtain ⟨graph', hgraph, hlowered⟩ := hlowered
  rw [h] at hlowered
  cases hlowered
  unfold run runWith
  rw [hgraph, Except.ok_bind]
  change (f.inputs u p t >>= fun xs => _) = _
  cases f.inputs u p t with
  | error e => rfl
  | ok xs =>
    change Except.ok (sheetValue (graph.values .float xs 0.0)) =
      Except.ok (sheetValue (graph.values .float (xs.map id) 0.0))
    rw [List.map_id]

/-- An expression of scalars whose definitions are scalar. -/
def IsScalar (f : Evaluator) : Prop := f.expr.IsScalar ∧ AreScalar f.table.entries

end Evaluator

/-- The real numbers of the inputs of a graph. -/
noncomputable def realInputs (xs : List Float) (i : Nat) : Option ℝ :=
  (xs.map realOf?)[i]?.getD (realOf? 0.0)

/-- Wherever the definition of a leaf is evaluated, its operators are the same in both ways of
evaluation. -/
def LeafTable.AgreesIn (read : Source → Except Failure (Option (Scalar ℝ)))
    (inputs : Nat → Option ℝ) : List (Expr × Meaning) → Expr → Prop
  | [], _ => True
  | (key, m) :: earlier, leaf =>
    if key == leaf then
      match m with
      | .source _ => True
      | .definition e =>
        if Assoc.contains earlier leaf then AgreesIn read inputs earlier leaf
        else
          e.AgreesAt (valueIn (.scalar .exact) read earlier) (lowerLeaf .exact earlier) inputs
            (AgreesIn read inputs earlier) [earlier.length, 1]
    else AgreesIn read inputs earlier leaf

namespace Evaluator

/-- How the interpreter reads a source as a real scalar. -/
noncomputable def readExact (f : Evaluator) (u p t : Value) (s : Source) :
    Except Failure (Option (Scalar ℝ)) := do
  return Scalar.ofStored .exact (← s.read f.isTimeDependent u p t)

/-- Wherever an evaluator evaluates, the operators of the interpreter and the graph are the same. -/
def Agrees (f : Evaluator) (u p t : Value) : Prop :=
  ∀ xs, f.inputs u p t = .ok xs →
    f.expr.AgreesAt (f.table.value (.scalar .exact) (f.readExact u p t))
      (lowerLeaf .exact f.table.entries) (realInputs xs)
      (LeafTable.AgreesIn (f.readExact u p t) (realInputs xs) f.table.entries) [0]

section Table

variable {f : Evaluator} {u p t : Value} {xs : List Float}

lemma isComputedBy_input (hxs : f.inputs u p t = .ok xs) {earlier : List (Expr × Meaning)}
    {key : Expr} {src : Source} (hsuffix : (key, .source src) :: earlier <:+ f.table.entries)
    {s : Scalar ℝ} (h : f.readExact u p t src = .ok (some s)) :
    s.IsComputedBy (realInputs xs) (.input (LeafTable.mk earlier).bindings.length) := by
  obtain ⟨v, hv, h⟩ := Except.eq_ok_of_bind h
  obtain ⟨htyped, x, rfl, hx⟩ := Scalar.ofStored_exact (Except.ok.inj h)
  obtain ⟨y, hy, hread⟩ := mapM_getElem? hxs (LeafTable.bindings_getElem? hsuffix)
  have hxy : Value.toFloat (.number (.real x)) = .ok y := by
    rw [← hread]
    simp only [hv, Except.ok_bind]
  cases hxy
  refine ⟨htyped, ?_⟩
  change realInputs xs _ = _
  rw [realInputs, List.getElem?_map, hy, Option.map_some, Option.getD_some, hx]

/-- The graph of a leaf computes the scalar that the leaf has. -/
lemma isComputedBy_leaf (hxs : f.inputs u p t = .ok xs) {entries : List (Expr × Meaning)}
    (hsuffix : entries <:+ f.table.entries) (hscalar : AreScalar entries) (x : Expr)
    (s : Scalar ℝ) (n : Node (Option ℝ))
    (hs : LeafTable.valueIn (.scalar .exact) (f.readExact u p t) entries x = .ok (some s))
    (hn : lowerLeaf .exact entries x = .ok (.single n))
    (hagrees : LeafTable.AgreesIn (f.readExact u p t) (realInputs xs) entries x) :
    s.IsComputedBy (realInputs xs) n := by
  induction entries generalizing x s n with
  | nil => cases hs
  | cons entry earlier ih =>
    have hearlier := (List.suffix_cons entry earlier).trans hsuffix
    have hscalar' : AreScalar earlier := fun x e hmem => hscalar x e (List.mem_cons_of_mem _ hmem)
    obtain ⟨key, m⟩ := entry
    rw [LeafTable.valueIn_cons] at hs
    rw [lowerLeaf_cons] at hn
    unfold LeafTable.AgreesIn at hagrees
    split at hs
    · rename_i hkey
      rw [if_pos hkey] at hn hagrees
      cases m with
      | source src =>
        cases hn
        exact isComputedBy_input hxs hsuffix hs
      | definition e =>
        by_cases hbound : Assoc.contains earlier x = true
        · simp only [if_pos hbound] at hs hn hagrees
          exact ih hearlier hscalar' x s n hs hn hagrees
        · simp only [if_neg hbound] at hs hn hagrees
          exact (Expr.eval_eq_ok.1 hs).isComputedBy (singlesIn_lowerLeaf hscalar')
            (ih hearlier hscalar') (hscalar key e List.mem_cons_self) hn hagrees
    · rename_i hkey
      rw [if_neg hkey] at hn hagrees
      exact ih hearlier hscalar' x s n hs hn hagrees

/-- The graph of an evaluator has the number that the interpreter finds. -/
lemma runWith_exact (hf : f.IsScalar) {graph : Sheet Float}
    (hgraph : Graph.ofExpr .float f.table f.expr = .ok graph) (hxs : f.inputs u p t = .ok xs)
    {s : Scalar ℝ} (hs : f.interpretWith .exact u p t = .ok (some s)) (hagrees : f.Agrees u p t) :
    f.runWith .exact u p t = .ok (.single (some s.toReal)) := by
  obtain ⟨_, n, -, hn⟩ := lower_single (singlesIn_lowerLeaf hf.2) hf.1 hgraph
  have hcomputed := (Expr.eval_eq_ok.1 hs).isComputedBy (singlesIn_lowerLeaf hf.2)
    (isComputedBy_leaf hxs (List.suffix_refl _) hf.2) hf.1 hn (hagrees xs hxs)
  unfold runWith Graph.ofExpr
  rw [hn, hxs]
  have hvalue : n.value .exact (realInputs xs) = some s.toReal := hcomputed.2
  rw [← hvalue]
  rfl

end Table

/-- The leaves that an evaluator binds are symbols. -/
lemma Serves.kind_of_mem_keys {tables : Except Failure Layout} {e : Expr} {f : Evaluator}
    (hf : f.Serves tables e) {k : Expr} (hk : k ∈ Assoc.keys f.table.entries) :
    k.kind = .symbol := by
  obtain ⟨m, hm⟩ := Assoc.exists_mem_of_mem_keys hk
  obtain ⟨_, _, ⟨_, _, hleaf⟩, _⟩ := hf.2 k m hm
  exact Expr.kind_of_mem_scalarLeaves hleaf

/-- An expression is bound in one way for both backends. -/
lemma eq_without_graph {l : Layout} {identity : Option Nat} {e : Expr} {version : Value}
    {f g : Evaluator} (hf : Returns (ofValue (l.system identity) (.expr e) version .interpreter) f)
    (hg : Returns (ofValue (l.system identity) (.expr e) version .graph) g) :
    f = { g with lowered := none } ∧ g.IsLowered .graph ∧ f.Serves (.ok l) e := by
  obtain ⟨b, hb, hf⟩ := hf.bind
  obtain ⟨b', hb', hg⟩ := hg.bind
  cases hb.of_lift.symm.trans hb'.of_lift
  obtain ⟨_, he, hf⟩ := hf.bind
  obtain ⟨_, he', hg⟩ := hg.bind
  cases he.of_lift
  cases he'.of_lift
  rcases Bound.of_eq_ok hb.of_lift with ⟨_, rfl⟩ | ⟨hconstant, _⟩
  swap
  · rw [l.isConstant_system identity] at hconstant
    cases hconstant
  obtain ⟨hexpr, hversion, htime, htable, hlowered⟩ := of_compile hf
  obtain ⟨hexpr', hversion', htime', htable', hlowered'⟩ := of_compile hg
  have htimes : f.isTimeDependent = g.isTimeDependent :=
    Except.ok.inj (htime.symm.trans htime')
  have htables : f.table = g.table := by
    rw [htimes] at htable
    have hquiet : Quiet (Bound.bind ⟨l.system identity, none⟩ g.isTimeDependent e) :=
      Bound.bind_quiet (l.answeredBy_system identity) g.isTimeDependent e
    exact Except.ok.inj ((hquiet.yields htable).unique (hquiet.yields htable'))
  refine ⟨?_, hlowered', serves_of_compile (l.answeredBy_system identity) hf⟩
  obtain ⟨_, _, _, _, _⟩ := f
  cases hexpr
  cases hversion
  cases htables
  cases htimes
  cases hlowered
  rw [hexpr', hversion']

end Evaluator

/-- The two backends compile a scalar expression to evaluators that run as they do over floating
numbers. Over the real numbers, the graph has the number that the interpreter finds, wherever the
two have the same operators. -/
theorem Evaluator.backends_agree {l : Layout} {identity : Option Nat} {e : Expr} {version : Value}
    {f g : Evaluator}
    (hf : Returns (ofValue (l.system identity) (.expr e) version .interpreter) f)
    (hg : Returns (ofValue (l.system identity) (.expr e) version .graph) g)
    (hscalar : g.IsScalar) {u p t : Value} (htime : g.checkTime t = .ok ()) :
    (∀ s, f.interpretWith .float u p t = .ok (some s) → f.call u p t = .ok s.value) ∧
    g.call u p t = (g.runWith .float u p t).map sheetValue ∧
    ∀ xs s, g.inputs u p t = .ok xs → f.interpretWith .exact u p t = .ok (some s) →
      g.Agrees u p t → g.runWith .exact u p t = .ok (.single (some s.toReal)) := by
  obtain ⟨rfl, ⟨graph, hgraph, hlowered⟩, hserves⟩ := eq_without_graph hf hg
  refine ⟨fun s hs => ?_, ?_, fun xs s hxs hs hagrees => runWith_exact hscalar hgraph hxs hs hagrees⟩
  · rw [call_eq rfl fun k => hserves.kind_of_mem_keys]
    rw [show checkTime { g with lowered := none } t = .ok () from htime]
    exact interpret_of_interpretWith hs
  · unfold call
    rw [htime, hlowered, ← run_eq_runWith hlowered ⟨graph, hgraph, hlowered⟩]
    rfl

namespace Remainder

def dividend : Expr := .symbol (some "x")

def divisor : Expr := .symbol (some "y")

def remainder : Expr := .binary .mod dividend divisor

/-- Two states. -/
def layout : Layout := ⟨⟨[("x", .expr dividend), ("y", .expr divisor)]⟩, ⟨[]⟩, ⟨[]⟩, ⟨[]⟩⟩

def table : LeafTable :=
  ⟨[(divisor, .source (.state (.int 1))), (dividend, .source (.state (.int 0)))]⟩

def interpreter : Evaluator := ⟨remainder, table, false, none, none⟩

def graph : Evaluator :=
  { interpreter with
    lowered := some (.single (.binary (Sheet.itemPlace [0] 0) .mod (.input 0) (.input 1))) }

lemma bind_remainder : Yields ((layout.bound none).bind false remainder) (.ok table) := by
  have hsize : layout.independent.size ≤ 1 := Nat.zero_le 1
  have hsource {table : LeafTable} {leaf : Expr} {src : Source} (hplain : leaf.IsPlainSymbol)
      (hnew : ¬ table.contains leaf = true)
      (hsrc : layout.meaningOf leaf = some (.source src)) :
      Yields ((layout.bound none).bindLeaf false
          (remainder.scalarLeaves ++ (layout.system none).definitionLeaves none) table leaf)
        (.ok (table.insert leaf (.source src))) :=
    Bound.bindLeaf_of_source (layout.answeredBy none)
      (fun _ => Layout.isTimeDependent_of_has hsize) hplain hnew hsrc
  exact Bound.bindAll_cons (hsource ⟨some "x", [], rfl⟩ Bool.false_ne_true rfl)
    (Bound.bindAll_cons (hsource ⟨some "y", [], rfl⟩ Bool.false_ne_true rfl) Bound.bindAll_nil)

lemma isTimeDependent_layout : (layout.bound none).isTimeDependent = .ok false := rfl

lemma ofValue_interpreter :
    Returns (Evaluator.ofValue (layout.system none) (.expr remainder) .none .interpreter)
      interpreter :=
  Evaluator.ofValue_of_compile
    (yields_lift_bind isTimeDependent_layout (bind_remainder.bind_ok (yields_pure interpreter)))

lemma ofExpr_remainder : Graph.ofExpr .float table remainder =
    .ok (.single (.binary (Sheet.itemPlace [0] 0) .mod (.input 0) (.input 1))) := rfl

lemma ofValue_graph :
    Returns (Evaluator.ofValue (layout.system none) (.expr remainder) .none .graph) graph :=
  Evaluator.ofValue_of_compile (yields_lift_bind isTimeDependent_layout
    (bind_remainder.bind_ok (yields_lift_bind ofExpr_remainder (yields_pure graph))))

def storage (x y : Float) : Value := .list [.number (.real x), .number (.real y)]

lemma isScalar_graph : graph.IsScalar := by
  refine ⟨.binary nofun .symbol .symbol, fun x e hmem => ?_⟩
  rcases List.mem_cons.1 hmem with heq | hmem
  · cases heq
  · cases List.mem_singleton.1 hmem

section Reading

variable {x y : Float} {r s : ℝ}

/-- The interpreter finds the remainder of a division that rounds down. -/
lemma eval_exact {leaf : Expr → Except Failure (Option (Scalar ℝ))}
    (hx : leaf dividend = .ok (some (.plain (.real r))))
    (hy : leaf divisor = .ok (some (.plain (.real s)))) {m : ℝ}
    (hm : RealFunction.flooredRemainder r s = some m) :
    remainder.eval (.scalar .exact) leaf = .ok (some (.element .float64 (.real m))) := by
  refine Expr.eval_eq_ok.2 (.binary (.symbol hx) (.symbol hy) ?_)
  refine Scalar.combine_eq_some.2
    ⟨.float64, _, .real r, .real s, .real m, rfl, rfl, rfl, rfl, rfl, ?_, rfl⟩
  exact Option.map_eq_some_iff.2 ⟨m, hm, rfl⟩

lemma ofStored_real (hx : realOf? x = some r) :
    Scalar.ofStored .exact (.real x) = some (.plain (.real r)) := by
  change (realOf? x).map (fun r => Scalar.plain (.real r)) = _
  rw [hx]
  rfl

lemma value_dividend (hx : realOf? x = some r) : graph.table.value (.scalar .exact)
    (graph.readExact (storage x y) (.list []) .none) dividend = .ok (some (.plain (.real r))) :=
  congrArg Except.ok (ofStored_real hx)

lemma value_divisor (hy : realOf? y = some s) : graph.table.value (.scalar .exact)
    (graph.readExact (storage x y) (.list []) .none) divisor = .ok (some (.plain (.real s))) :=
  congrArg Except.ok (ofStored_real hy)

lemma interpretWith_exact (hx : realOf? x = some r) (hy : realOf? y = some s) {m : ℝ}
    (hm : RealFunction.flooredRemainder r s = some m) :
    interpreter.interpretWith .exact (storage x y) (.list []) .none =
      .ok (some (.element .float64 (.real m))) :=
  eval_exact (value_dividend hx) (value_divisor hy) hm

end Reading

lemma realOf_seven : realOf? 7.0 = some 7 := by
  have hview : FloatView.ofFloat 7.0 = .finite false (7 * 2 ^ 50) (-50) := by decide
  rw [realOf?, hview]
  norm_num [FloatView.toReal?]

lemma realOf_two : realOf? 2.0 = some 2 := by
  have hview : FloatView.ofFloat 2.0 = .finite false (2 ^ 52) (-51) := by decide
  rw [realOf?, hview]
  norm_num [FloatView.toReal?]

lemma flooredRemainder_seven : RealFunction.flooredRemainder 7 2 = some 1 := by
  have hfloor : ⌊(7 / 2 : ℝ)⌋ = 3 := by
    rw [Int.floor_eq_iff]
    norm_num
  exact RealFunction.given_eq_some.2 ⟨two_ne_zero, by rw [hfloor]; norm_num⟩

lemma truncatedRemainder_seven : RealFunction.truncatedRemainder 7 2 = some 1 := by
  have htruncate : RealFunction.truncate (7 / 2 : ℝ) = 3 := by
    rw [RealFunction.truncate, if_neg (by norm_num), Int.floor_eq_iff]
    norm_num
  exact RealFunction.given_eq_some.2 ⟨two_ne_zero, by rw [htruncate]; norm_num⟩

lemma agrees_graph : graph.Agrees (storage 7.0 2.0) (.list []) .none := by
  intro xs _
  refine ⟨True.intro, True.intro, fun a b c ha hb _ => ?_⟩
  cases ha with
  | symbol ha =>
    cases hb with
    | symbol hb =>
      cases ha.symm.trans (value_dividend realOf_seven)
      cases hb.symm.trans (value_divisor realOf_two)
      refine ⟨?_, fun _ => truncatedRemainder_seven.trans flooredRemainder_seven.symm⟩
      rintro (⟨hadd, _⟩ | ⟨_, hzero⟩)
      · cases hadd
      · exact two_ne_zero hzero

end Remainder

/-- With a dividend and a divisor of one sign, both backends find the remainder. -/
theorem Evaluator.backends_agree_remainder :
    Remainder.interpreter.call (Remainder.storage 7.0 2.0) (.list []) .none =
        .ok (.element .float64 (.real 1.0)) ∧
      Remainder.graph.runWith .exact (Remainder.storage 7.0 2.0) (.list []) .none =
        .ok (.single (some 1)) := by
  obtain ⟨hcall, _, hexact⟩ := backends_agree Remainder.ofValue_interpreter
    Remainder.ofValue_graph Remainder.isScalar_graph (u := Remainder.storage 7.0 2.0)
    (p := .list []) (t := .none) rfl
  exact ⟨hcall _ rfl, hexact [7.0, 2.0] _ rfl (Remainder.interpretWith_exact Remainder.realOf_seven
    Remainder.realOf_two Remainder.flooredRemainder_seven) Remainder.agrees_graph⟩

namespace Remainder

lemma realOf_negative_one : realOf? (-1.0) = some (-1) := by
  have hview : FloatView.ofFloat (-1.0) = .finite true (2 ^ 52) (-52) := by decide
  rw [realOf?, hview]
  norm_num [FloatView.toReal?]

lemma realOf_three : realOf? 3.0 = some 3 := by
  have hview : FloatView.ofFloat 3.0 = .finite false (3 * 2 ^ 51) (-51) := by decide
  rw [realOf?, hview]
  norm_num [FloatView.toReal?]

lemma flooredRemainder_negative : RealFunction.flooredRemainder (-1) 3 = some 2 := by
  have hfloor : ⌊(-1 / 3 : ℝ)⌋ = -1 := by
    rw [Int.floor_eq_iff]
    norm_num
  exact RealFunction.given_eq_some.2 ⟨three_ne_zero, by rw [hfloor]; norm_num⟩

lemma truncatedRemainder_negative : RealFunction.truncatedRemainder (-1) 3 = some (-1) := by
  have htruncate : RealFunction.truncate (-1 / 3 : ℝ) = 0 := by
    rw [RealFunction.truncate, if_pos (by norm_num), Int.ceil_eq_iff]
    norm_num
  exact RealFunction.given_eq_some.2 ⟨three_ne_zero, by rw [htruncate]; norm_num⟩

lemma runWith_negative : graph.runWith .exact (storage (-1.0) 3.0) (.list []) .none =
    .ok (.single (some (-1))) := by
  change Except.ok (Rectangle.single
    (Arithmetic.exact.binary .mod (realOf? (-1.0)) (realOf? 3.0))) = _
  rw [realOf_negative_one, realOf_three, Node.exact_binary]
  exact congrArg (fun r => Except.ok (Rectangle.single r)) truncatedRemainder_negative

end Remainder

/-- With a negative dividend and a positive divisor, the interpreter finds the remainder of a
division that rounds down and the graph that of a division that truncates, over the real numbers
and as they run. -/
theorem Evaluator.backends_differ_remainder :
    Returns (ofValue (Remainder.layout.system none) (.expr Remainder.remainder) .none .interpreter)
        Remainder.interpreter ∧
      Returns (ofValue (Remainder.layout.system none) (.expr Remainder.remainder) .none .graph)
        Remainder.graph ∧
      Remainder.graph.IsScalar ∧
      Remainder.interpreter.interpretWith .exact (Remainder.storage (-1.0) 3.0) (.list []) .none =
        .ok (some (.element .float64 (.real 2))) ∧
      Remainder.graph.runWith .exact (Remainder.storage (-1.0) 3.0) (.list []) .none =
        .ok (.single (some (-1))) ∧
      Remainder.interpreter.call (Remainder.storage (-1.0) 3.0) (.list []) .none =
        .ok (.element .float64 (.real 2.0)) ∧
      Remainder.graph.call (Remainder.storage (-1.0) 3.0) (.list []) .none =
        .ok (.real (-1.0)) :=
  ⟨Remainder.ofValue_interpreter, Remainder.ofValue_graph, Remainder.isScalar_graph,
    Remainder.interpretWith_exact Remainder.realOf_negative_one Remainder.realOf_three
      Remainder.flooredRemainder_negative,
    Remainder.runWith_negative, rfl, rfl⟩

end NamedSlots
