import NamedSlots.Proofs.LeafEntries
import NamedSlots.Proofs.ValueFailure

/-!
# Failures of operators and expressions

Operators and functions of values never fail because an object lacks a method, so neither does an
expression, unless a leaf of it does. The leaves of an evaluator are slots of storage, the time and
values of providers: only a provider can report that something is missing.
-/

namespace NamedSlots

/-! ### Operators between two values -/

namespace Value

@[grind ←]
lemma avoids_combine (op : BinaryOp) (a b : Operand) :
    Avoids Failure.isAbsence (combine op a b) := by
  unfold combine
  refine (BinaryLoop.avoids_select op _).lift.bind_of_ok fun loop hloop => ?_
  have hitems (xs : List (Number × Number)) := avoids_mapM
    (fun x => (BinaryLoop.avoids_apply (eq_ok_of_lift hloop) x.1 x.2).lift) xs
  refine avoids_ite ((avoids_failWith rfl).bind fun _ => ?_) ?_
  all_goals grind

@[grind ←]
lemma avoids_plainOperator (op : BinaryOp) (a b : Number) :
    Avoids Fault.isAbsence (plainOperator op a b) := by
  unfold plainOperator
  grind

@[grind ←]
lemma avoids_unrelated (op : BinaryOp) (a b : Value) :
    Avoids Failure.isAbsence (unrelated op a b) := by
  unfold unrelated
  grind

@[grind ←]
lemma avoids_repeated {α : Type} (items : List α) (n : Int) :
    Avoids Failure.isAbsence (repeated items n) := by
  unfold repeated
  grind

@[grind ←]
lemma avoids_textOperator (op : BinaryOp) (a b : String) :
    Avoids Failure.isAbsence (textOperator op a b) := by
  unfold textOperator
  grind

lemma avoids_of_repeated? {v : Value} {n : Number} {r : Except Failure Value}
    (h : repeated? v n = some r) : Avoids Failure.isAbsence r := by
  obtain ⟨k, _, h⟩ := Option.bind_eq_some_iff.1 h
  grind

mutual

lemma avoids_ordered (test : Ordering → Bool) (a b : Value) :
    Avoids Failure.isAbsence (ordered test a b) := by
  cases a with
  | number x =>
    cases b with
    | number y => exact (Number.avoids_ordered test x y).lift
    | _ => exact avoids_failWith rfl
  | string s _ =>
    cases b with
    | string t _ => exact avoids_pure _
    | _ => exact avoids_failWith rfl
  | list as =>
    cases b with
    | list bs => exact avoids_sequenceOrdered test as bs
    | _ => exact avoids_failWith rfl
  | tuple as =>
    cases b with
    | tuple bs => exact avoids_sequenceOrdered test as bs
    | _ => exact avoids_failWith rfl
  | _ => exact avoids_failWith rfl

lemma avoids_sequenceOrdered (test : Ordering → Bool) (as bs : List Value) :
    Avoids Failure.isAbsence (sequenceOrdered test as bs) := by
  match as, bs with
  | [], [] => exact avoids_pure _
  | [], _ :: _ => exact avoids_pure _
  | _ :: _, [] => exact avoids_pure _
  | a :: as, b :: bs =>
    rw [sequenceOrdered]
    exact avoids_ite (avoids_sequenceOrdered test as bs) (avoids_ordered test a b)

end

attribute [grind ←] avoids_ordered avoids_sequenceOrdered

@[grind ←]
lemma avoids_sequenceOperator (op : BinaryOp) (wrap : List Value → Value) (as bs : List Value) :
    Avoids Failure.isAbsence (sequenceOperator op wrap as bs) := by
  unfold sequenceOperator
  grind

@[grind ←]
lemma avoids_objectOperand (v : Value) : Avoids Failure.isAbsence (objectOperand v) := by
  unfold objectOperand
  grind

lemma avoids_of_repetition? {a b : Value} {r : Except Failure Value}
    (h : repetition? a b = some r) : Avoids Failure.isAbsence r := by
  unfold repetition? at h
  grind [avoids_of_repeated?]

@[grind ←]
lemma avoids_assembled (v : Value) : Avoids Failure.isAbsence v.assembled := by
  unfold assembled
  grind

lemma avoids_objectwise {f : Value → Value → Except Failure Value}
    (hf : ∀ v w, Avoids Failure.isAbsence (f v w)) (op : BinaryOp) (a b : Value) :
    Avoids Failure.isAbsence (objectwise f op a b) := by
  refine (avoids_objectOperand a).bind fun x => (avoids_objectOperand b).bind fun y => ?_
  have hitems (xs : List (Value × Value)) := avoids_mapM (fun x => hf x.1 x.2) xs
  refine avoids_ite ((avoids_failWith rfl).bind fun _ => ?_) ?_
  all_goals grind

lemma avoids_operateWith {onObjects : BinaryOp → Value → Value → Except Failure Value}
    (h : ∀ op a b, Avoids Failure.isAbsence (onObjects op a b)) (op : BinaryOp) (a b : Value) :
    Avoids Failure.isAbsence (operateWith onObjects op a b) := by
  unfold operateWith
  split
  all_goals grind [avoids_of_repetition?]

lemma avoids_operate (depth : Nat) (op : BinaryOp) (a b : Value) :
    Avoids Failure.isAbsence (operate depth op a b) := by
  induction depth generalizing op a b with
  | zero => exact avoids_operateWith (fun _ _ _ => avoids_failWith rfl) op a b
  | succ depth ih =>
    exact avoids_operateWith (fun op a b => avoids_objectwise (ih op) op a b) op a b

@[grind ←]
lemma avoids_binaryOperator (op : BinaryOp) (a b : Value) :
    Avoids Failure.isAbsence (binaryOperator op a b) := avoids_operate _ op a b

/-! ### Functions of values -/

mutual

lemma avoids_negate (v : Value) : Avoids Failure.isAbsence v.negate := by
  cases v with
  | number n => exact avoids_pure _
  | element t n => exact (UnaryLoop.avoids_select .neg t).lift.bind fun loop => avoids_pure _
  | numbers t shape items =>
    exact (UnaryLoop.avoids_select .neg t).lift.bind fun loop => avoids_pure _
  | objects shape items => exact (avoids_negateAll items).bind fun vs => avoids_pure _
  | expr e => exact avoids_pure _
  | _ => exact avoids_failWith rfl

lemma avoids_negateAll (vs : List Value) : Avoids Failure.isAbsence (negate.negateAll vs) := by
  match vs with
  | [] => exact avoids_pure _
  | v :: vs =>
    exact (avoids_negate v).bind fun w => (avoids_negateAll vs).bind fun ws => avoids_pure _

end

attribute [grind ←] avoids_negate

@[grind ←]
lemma avoids_objectFunction (op : UnaryOp) (v : Value) :
    Avoids Failure.isAbsence (objectFunction op v) := by
  unfold objectFunction
  grind

@[grind ←]
lemma avoids_elementFunction (op : UnaryOp) (v : Value) :
    Avoids Failure.isAbsence (elementFunction op v) := by
  refine (avoids_assemble v).bind fun a => ?_
  have hitems (items : List Value) := avoids_mapM (avoids_objectFunction op) items
  grind

@[grind ←]
lemma avoids_foldObjects (op : BinaryOp) (neutral : Int) (vs : List Value) :
    Avoids Failure.isAbsence (foldObjects op neutral vs) := by
  cases vs with
  | nil => exact avoids_pure _
  | cons v vs => exact avoids_foldlM (fun a b => avoids_binaryOperator op a b) v vs

@[grind ←]
lemma avoids_dot (a b : Value) : Avoids Failure.isAbsence (dot a b) := by
  refine (avoids_assemble a).bind fun x => (avoids_assemble b).bind fun y => ?_
  grind

@[grind ←]
lemma avoids_norm (v : Value) : Avoids Failure.isAbsence v.norm := by
  refine (avoids_assemble v).bind fun a => ?_
  grind

@[grind ←]
lemma avoids_aggregate (op : BinaryOp) (neutral : Int)
    (ofNumbers : ElementType → List Number → Number) (v : Value) :
    Avoids Failure.isAbsence (v.aggregate op neutral ofNumbers) := by
  unfold aggregate
  grind

@[grind ←]
lemma avoids_applyUnary (op : UnaryOp) (v : Value) :
    Avoids Failure.isAbsence (applyUnary op v) := by
  unfold applyUnary
  grind

@[grind ←]
lemma avoids_objectPair (op : BinaryOp) (a b : Value) :
    Avoids Failure.isAbsence (objectPair op a b) := by
  unfold objectPair
  grind

@[grind ←]
lemma avoids_functionOperand (v : Value) : Avoids Failure.isAbsence (functionOperand v) := by
  unfold functionOperand
  grind

@[grind ←]
lemma avoids_pairFunction (op : BinaryOp) (a b : Value) :
    Avoids Failure.isAbsence (pairFunction op a b) := by
  unfold pairFunction
  refine (avoids_functionOperand _).bind fun x => (avoids_functionOperand _).bind fun y => ?_
  have hobjects := avoids_objectwise (avoids_objectPair op) op x y
  grind

@[grind ←]
lemma avoids_applyBinary (op : BinaryOp) (a b : Value) :
    Avoids Failure.isAbsence (applyBinary op a b) := by
  unfold applyBinary
  grind

end Value

/-! ### Expressions and evaluators -/

lemma Expr.avoids_eval {leaf : Expr → Except Failure Value}
    (h : ∀ s, Avoids Failure.isAbsence (leaf s)) (e : Expr) :
    Avoids Failure.isAbsence (e.eval .numeric leaf) := by
  fun_induction eval .numeric leaf e with
  | case1 cs l => exact h _
  | case2 cs l =>
    refine (avoids_mapM h _).bind fun items => ?_
    exact (Value.avoids_assemble _).bind fun v => Value.avoids_reshape v _
  | case3 => exact avoids_pure _
  | case4 op c cs l ih => exact ih.bind fun v => Value.avoids_applyUnary op v
  | case6 op c d cs l ihc ihd =>
    exact ihc.bind fun v => ihd.bind fun w => Value.avoids_applyBinary op v w
  | case7 op c l ih => exact ih.bind fun _ => avoids_failWith rfl
  | case9 c t f cs l ihc iht ihf =>
    exact ihc.bind fun v => (Value.avoids_truth v).bind fun _ => avoids_ite iht ihf
  | case10 c t l ihc iht =>
    exact ihc.bind fun v =>
      (Value.avoids_truth v).bind fun _ => avoids_ite iht (avoids_failWith rfl)
  | case11 c l ih =>
    exact ih.bind fun v => (Value.avoids_truth v).bind fun _ => avoids_failWith rfl
  | _ => exact avoids_failWith rfl

lemma LeafTable.avoids_valueIn {read : Source → Except Failure Value}
    {entries : List (Expr × Meaning)}
    (h : ∀ leaf src, (leaf, .source src) ∈ entries → Avoids Failure.isAbsence (read src))
    (leaf : Expr) : Avoids Failure.isAbsence (valueIn .numeric read entries leaf) := by
  induction entries generalizing leaf with
  | nil => exact avoids_failWith rfl
  | cons entry earlier ih =>
    obtain ⟨key, m⟩ := entry
    have hearlier := ih fun leaf src hmem => h leaf src (List.mem_cons_of_mem _ hmem)
    rw [valueIn_cons]
    refine avoids_ite ?_ (hearlier leaf)
    cases m with
    | source src => exact h key src List.mem_cons_self
    | definition d => exact avoids_ite (hearlier leaf) (Expr.avoids_eval hearlier d)

namespace Evaluator

variable {f : Evaluator}

/-- The providers that an evaluator has bound do not report that something is missing. -/
def HasSoundProviders (f : Evaluator) : Prop :=
  ∀ leaf g, (leaf, .provider g) ∈ f.table.bindings →
    ∀ u p t, Avoids Failure.isAbsence (g u p t)

lemma avoids_read (hf : f.HasSoundProviders) (u p t : Value) {leaf : Expr} {src : Source}
    (hsrc : (leaf, src) ∈ f.table.bindings) :
    Avoids Failure.isAbsence (src.read f.isTimeDependent u p t) := by
  cases src with
  | state i => exact Value.avoids_item u i
  | parameter i => exact Value.avoids_item p i
  | time => exact avoids_pure t
  | provider g => exact hf leaf g hsrc u p _

lemma avoids_call (hf : f.HasSoundProviders) (u p t : Value) :
    Avoids Failure.isAbsence (f.call u p t) := by
  have hread (leaf : Expr) (src : Source) (hmem : (leaf, .source src) ∈ f.table.entries) :=
    avoids_read hf u p t (LeafTable.mem_bindings.2 hmem)
  have hcheck : Avoids Failure.isAbsence (f.checkTime t) := by
    unfold checkTime
    grind
  refine hcheck.bind fun _ => ?_
  split
  · rename_i src _ hslot
    obtain ⟨leaf, hleaf, _⟩ := Assoc.mem_of_find? (find?_of_slot? hslot)
    exact hread leaf src (LeafTable.mem_bindings.1 (List.mem_reverse.1 hleaf))
  · exact Expr.avoids_eval (LeafTable.avoids_valueIn hread) f.expr
  · rename_i graph _ _
    refine (avoids_mapM_of_mem fun binding hmem => ?_).bind fun inputs => avoids_pure _
    exact (avoids_read hf u p t hmem).bind fun v => Value.avoids_toFloat v

end Evaluator
end NamedSlots
