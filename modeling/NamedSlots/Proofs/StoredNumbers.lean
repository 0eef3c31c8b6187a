import NamedSlots.Proofs.ArrayRun
import NamedSlots.Proofs.BackendAgreement
import NamedSlots.Proofs.StateEvaluation

/-!
# Evaluation on stored numbers

Storage may hold numbers of any type: floating numbers, which run, or real numbers, which are never
rounded. An expression whose leaves resolve is bound in one way for both backends, and its leaves
are then read from storage by the interpreter and passed to the graph as inputs.
-/

namespace NamedSlots

open NamedSlots.Graph Traced

/-- State storage and parameter storage that are lists of numbers, and a time. -/
structure Numbers (R : Type) where
  states : List R
  parameters : List R
  time : R

namespace Numbers

variable {R K : Type}

/-- The number that is read from a source. Nothing is known about providers. -/
def read (n : Numbers R) : Source → Except Failure R
  | .state i => Value.pick n.states i.toInt
  | .parameter i => Value.pick n.parameters i.toInt
  | .time => return n.time
  | .provider _ => failWith .badResult

def map (f : R → K) (n : Numbers R) : Numbers K :=
  ⟨n.states.map f, n.parameters.map f, f n.time⟩

/-- There is a number for every place of the tables of a layout. -/
def Covers (n : Numbers R) (l : Layout) : Prop :=
  l.states.size ≤ n.states.length ∧ l.parameters.size ≤ n.parameters.length

lemma pick_map (f : R → K) (xs : List R) (i : Int) :
    Value.pick (xs.map f) i = (Value.pick xs i).map f := by
  unfold Value.pick
  rw [List.length_map]
  cases Value.place? xs.length i with
  | none => rfl
  | some k =>
    simp only [Option.bind_some, List.getElem?_map]
    cases xs[k]? <;> rfl

lemma read_map (f : R → K) (n : Numbers R) (src : Source) :
    (n.map f).read src = (n.read src).map f := by
  cases src with
  | state i => exact pick_map f n.states i.toInt
  | parameter i => exact pick_map f n.parameters i.toInt
  | time => rfl
  | provider p => rfl

lemma pick_of_getElem? {xs : List R} {i : Nat} {x : R} (h : xs[i]? = some x) :
    Value.pick xs i = .ok x := by
  obtain ⟨hlt, _⟩ := List.getElem?_eq_some_iff.1 h
  unfold Value.pick
  rw [Cells.place?_of_lt hlt]
  simp only [Option.bind_some, h]
  rfl

variable {l : Layout} {n : Numbers R} {s : Expr} {src : Source}

/-- Whatever a symbol stands for is in storage that covers the layout. -/
lemma exists_read (hn : n.Covers l) (hsrc : l.meaningOf s = some (.source src)) :
    ∃ x, n.read src = .ok x := by
  have hpick {xs : List R} {size : Nat} (hsize : size ≤ xs.length) {i : Nat} (hi : i < size) :
      ∃ x, Value.pick xs i = .ok x :=
    ⟨_, pick_of_getElem? (List.getElem?_eq_getElem (hi.trans_le hsize))⟩
  rcases Layout.cases_of_source hsrc with ⟨i, rfl, _, hi⟩ | ⟨i, rfl, _, hi⟩ | ⟨rfl, _⟩
  · exact hpick hn.1 (Layout.find?_table hi).2
  · exact hpick hn.2 (Layout.find?_table hi).2
  · exact ⟨n.time, rfl⟩

end Numbers

namespace Evaluator

variable {R K : Type}

/-- The value of an evaluator's expression among numbers and arrays. -/
def arrayValue (arith : ArrayArithmetic R) (f : Evaluator) (n : Numbers R) :
    Except Failure (Option (ArrayValue R)) :=
  f.expr.eval (.array arith) (f.table.value (.array arith) fun src => do
    return some (.plain (← n.read src)))

/-- The numbers of an evaluator's graph. -/
def graphValues (arith : Arithmetic K) (f : Evaluator) (n : Numbers K) :
    Except Failure (Rectangle K) := do
  let sheet ← Graph.ofExpr arith f.table f.expr
  let xs ← f.table.bindings.mapM fun (_, src) => n.read src
  return sheet.values arith xs (arith.ofFloat 0.0)

/-- Calls an evaluator on floating numbers, with the time if the system has one. -/
def callOn (f : Evaluator) (n : Numbers Float) : Except Failure Value :=
  f.call (.list (n.states.map .real)) (.list (n.parameters.map .real))
    (if f.isTimeDependent then .real n.time else .none)

/-- The leaves of an evaluator's expression are bound for a layout. -/
structure BoundFor (l : Layout) (e : Expr) (f : Evaluator) : Prop where
  expr_eq : f.expr = e
  isTimeDependent_eq : f.isTimeDependent = l.isTimeDependent
  settled : Settled l e f.table.entries
  bound (s : Expr) : s ∈ e.scalarLeaves → s ∈ Assoc.keys f.table.entries

variable {l : Layout} {e : Expr} {f : Evaluator}

lemma BoundFor.serves (hf : f.BoundFor l e) : f.Serves (.ok l) e :=
  ⟨hf.expr_eq, fun _ _ hmem => ⟨l, rfl,
    hf.settled.reached_of_mem_keys (Assoc.mem_keys_of_mem hmem), hf.settled.meaningOf_of_mem hmem⟩⟩

/-- An expression that resolves without a cycle is bound, and once it is lowered it is bound in the
same way for both backends. -/
lemma exists_boundFor {states parameters independent observed : Value}
    (hl : Layout.build states parameters independent observed = .ok l) (identity : Option Nat)
    (hresolves : l.Resolves e) (hacyclic : ¬ l.CyclicFrom e) :
    ∃ f : Evaluator, f.BoundFor l e ∧ f.lowered = none ∧
      Returns (ofValue (l.system identity) (.expr e) .none .interpreter) f ∧
      ∀ sheet, Graph.ofExpr .float f.table e = .ok sheet →
        Returns (ofValue (l.system identity) (.expr e) .none .graph)
          { f with lowered := some sheet } := by
  have hanswered := l.answeredBy identity
  have hsize := Layout.independent_size hl
  obtain ⟨t, ht, hext⟩ := (bind_binds hanswered hresolves fun v =>
    Layout.isTimeDependent_of_has hsize).resolve_right fun ⟨_, _, hcycle⟩ => hacyclic hcycle
  let f : Evaluator := ⟨e, t, l.isTimeDependent, none, none⟩
  have hf : f.BoundFor l e := ⟨rfl, rfl, hext.settled, hext.bound⟩
  refine ⟨f, hf, rfl, ofValue_of_compile (compile_of_bind hanswered hsize ht),
    fun sheet hsheet => ofValue_of_compile ?_⟩
  refine yields_lift_bind (isTimeDependent_bound hanswered hsize) (ht.bind_ok ?_)
  have hprovider :
      usesProvider ⟨e, t, l.isTimeDependent, (l.bound identity).version, none⟩ = false :=
    hf.serves.usesProvider_eq
  dsimp only
  rw [if_neg (Bool.eq_false_iff.1 hprovider)]
  exact yields_lift_bind hsheet (yields_pure _)

/-! ### Floating numbers -/

section Call

variable (hf : f.BoundFor l e) (hsize : l.independent.size ≤ 1) {n : Numbers Float}
include hf hsize

lemma BoundFor.checkTime : f.checkTime (if f.isTimeDependent then .real n.time else .none) =
    .ok () := by
  let s : ProblemState := ⟨.none, .none, .none, .real n.time, .none⟩
  have huses (h : f.usesTime = true) : f.isTimeDependent = true := by
    obtain ⟨v, hv⟩ := hf.serves.has_of_usesTime h
    rw [hf.isTimeDependent_eq]
    exact Layout.isTimeDependent_of_has hsize hv
  exact s.checkTime_timeIf id huses fun _ => rfl

/-- Stored numbers are read as they are. -/
lemma BoundFor.read_values {s : Expr} {src : Source} (hmem : (s, .source src) ∈ f.table.entries) :
    src.read f.isTimeDependent (.list (n.states.map .real)) (.list (n.parameters.map .real))
      (if f.isTimeDependent then .real n.time else .none) = (n.read src).map .real := by
  have hmeaning := hf.settled.meaningOf_of_mem hmem
  cases src with
  | state i => exact Numbers.pick_map _ n.states i.toInt
  | parameter i => exact Numbers.pick_map _ n.parameters i.toInt
  | time =>
    have huses : f.usesTime = true := usesTime_of_mem (LeafTable.mem_bindings.2 hmem)
    obtain ⟨v, hv⟩ := hf.serves.has_of_usesTime huses
    rw [hf.isTimeDependent_eq, Layout.isTimeDependent_of_has hsize hv]
    rfl
  | provider p => exact absurd rfl (Layout.role_of_meaningOf hmeaning)

/-- The interpreter returns the value of an expression over floating numbers. -/
lemma BoundFor.callOn_interpreter (hlowered : f.lowered = none)
    {a : ArrayValue Float} (h : f.arrayValue .float n = .ok (some a)) :
    f.callOn n = .ok a.value := by
  unfold callOn
  rw [call_eq hlowered fun k => hf.serves.kind_of_mem_keys, hf.checkTime hsize]
  unfold interpret LeafTable.value
  rw [Except.ok_bind, LeafTable.valueIn_congr _ _ fun x src hmem => hf.read_values hsize hmem]
  refine Expr.eval_numeric_of_array (LeafTable.valueIn_transfer
    (fun hleaf _ _ => Expr.eval_numeric_of_array hleaf) fun {src b} hb => ?_) h
  obtain ⟨x, hx, hb⟩ := Except.eq_ok_of_bind hb
  cases hb
  rw [hx]
  rfl

/-- The graph gives its numbers over floating numbers. -/
lemma BoundFor.callOn_graph {sheet : Sheet Float} (hlowered : f.lowered = some sheet)
    (hsheet : Graph.ofExpr .float f.table f.expr = .ok sheet) :
    f.callOn n = (f.graphValues .float n).map sheetValue := by
  have hinputs : (f.table.bindings.mapM fun (_, src) => do
      (← src.read f.isTimeDependent (.list (n.states.map .real)) (.list (n.parameters.map .real))
        (if f.isTimeDependent then .real n.time else .none)).toFloat) =
      f.table.bindings.mapM fun (_, src) => n.read src := by
    refine mapM_congr ?_
    rintro ⟨x, src⟩ hmem
    dsimp only
    rw [hf.read_values hsize (LeafTable.mem_bindings.1 hmem)]
    cases n.read src <;> rfl
  unfold callOn call
  rw [hf.checkTime hsize, hlowered, Except.ok_bind]
  unfold run graphValues
  dsimp only
  rw [hsheet, hinputs, Except.ok_bind]
  cases f.table.bindings.mapM fun (_, src) => n.read src <;> rfl

end Call

end Evaluator
end NamedSlots
