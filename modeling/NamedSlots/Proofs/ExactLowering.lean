import NamedSlots.Proofs.ExactScalar
import NamedSlots.Proofs.ExactSimplification
import NamedSlots.Proofs.LeafEntries
import NamedSlots.Proofs.ScalarLowering

/-!
# Lowering over the real numbers

The graph of a scalar expression has the number that the expression evaluates to, as long as the
two ways of evaluation have the same operators where they are used. They differ in the remainder
by a divisor of the other sign or by zero, in the sum of two truth values that are both true, and
in a negation that the graph undoes.
-/

namespace NamedSlots

open NamedSlots.Graph RealFunction

/-- The interpreter and the graph have the same operator on two operands with a result. -/
def Scalar.Agrees (op : BinaryOp) (a b c : Scalar ℝ) : Prop :=
  ¬ IsIrregular op a b c ∧
    (op = .mod → truncatedRemainder a.toReal b.toReal = flooredRemainder a.toReal b.toReal)

namespace Graph

variable {inputs : Nat → Option ℝ} {place : Place} {n m x y : Node (Option ℝ)} {r s t : ℝ}

namespace Sheet

lemma has_log10 (hn : n.Has inputs s) (h : UnaryOp.onReals s .log10 = some r)
    (hm : log10 .exact place (.single n) = .single m) : m.Has inputs r := by
  obtain ⟨hpos, rfl⟩ := given_eq_some.1 h
  have hlog : UnaryNode.onReals s .log = some (Real.log s) := given_eq_some.2 ⟨hpos, rfl⟩
  have hlogten : Arithmetic.exact.unary .log (some ((10 : ℤ) : ℝ)) = some (Real.log 10) :=
    given_eq_some.2 ⟨by norm_num, by norm_num⟩
  have hfactor : Arithmetic.exact.binary .div (some ((1 : ℤ) : ℝ))
      (Arithmetic.exact.unary .log (some ((10 : ℤ) : ℝ))) = some (1 / Real.log 10) := by
    rw [hlogten, Node.exact_binary]
    exact given_eq_some.2 ⟨(Real.log_pos (by norm_num)).ne', by norm_num⟩
  cases hm
  refine Node.has_applyBinary nofun (Node.has_applyUnary hn hlog nofun)
    (Node.has_constant.2 hfactor) (congrArg some ?_)
  rw [Real.logb, mul_one_div]

/-- An operator of one operand has its value in the graph that is made. -/
lemma has_unary {op : UnaryOp} (hn : n.Has inputs s) (h : op.onReals s = some r)
    (hnot : op = .not → n.IsNegatable inputs) {m : Node (Option ℝ)}
    (hm : unary .exact place op (.single n) = .ok (.single m)) : m.Has inputs r := by
  cases op
  case sum | prod | norm => cases h
  case log10 =>
    exact has_log10 hn h (Except.ok.inj hm)
  case not =>
    cases hm
    exact Node.has_applyUnary hn h fun _ => hnot rfl
  all_goals
    cases hm
    exact Node.has_applyUnary hn h nofun

/-- An operator of two operands has its value in the graph that is made. -/
lemma has_binary {op : BinaryOp} (hx : x.Has inputs s) (hy : y.Has inputs t)
    (h : op.onReals s t = some r) (hmod : op = .mod → truncatedRemainder s t = flooredRemainder s t)
    {m : Node (Option ℝ)} (hm : binary .exact place op (.single x) (.single y) = .ok (.single m)) :
    m.Has inputs r := by
  cases op
  case dot => cases h
  case mod =>
    cases hm
    exact Node.has_applyBinary nofun hx hy ((hmod rfl).trans h)
  case gt | ge =>
    cases hm
    exact Node.has_applyBinary nofun hy hx h
  all_goals
    cases hm
    exact Node.has_applyBinary nofun hx hy h

/-- A conditional has the value of the branch that its condition selects; the other branch need
not have a value. -/
lemma has_conditional {c t f : Node (Option ℝ)} (hc : c.Has inputs s)
    (ht : s ≠ 0 → t.Has inputs r) (hf : s = 0 → f.Has inputs r)
    (hm : conditional .exact place (.single c) (.single t) (.single f) = .ok (.single m)) :
    m.Has inputs r := by
  obtain ⟨u, hu, huzero⟩ : ∃ u, Node.Has inputs
      (c.applyUnary .exact (itemPlace (operandPlace place 4) 0) .not) u ∧ (u = 0 ↔ s ≠ 0) :=
    Node.has_applyUnary_not hc
  cases hm
  refine Node.has_applyBinary nofun (Node.has_applyBinary_ifElseZero hc ht)
    (Node.has_applyBinary_ifElseZero hu fun hne => hf (not_not.1 (mt huzero.2 hne)))
    (congrArg some ?_)
  by_cases hs : s = 0
  · have hne : u ≠ 0 := fun h => huzero.1 h hs
    rw [if_pos hs, if_neg hne, zero_add]
  · rw [if_neg hs, if_pos (huzero.2 hs), add_zero]

end Sheet
end Graph

/-- Wherever an expression is evaluated, its operators are the same in both ways of evaluation. A
conditional evaluates one branch. -/
def Expr.AgreesAt (value : Expr → Except Failure (Option (Scalar ℝ)))
    (sheet : Expr → Except Failure (Sheet (Option ℝ))) (inputs : Nat → Option ℝ)
    (leaf : Expr → Prop) : Place → Expr → Prop
  | _, node .symbol cs l => leaf (node .symbol cs l)
  | place, node (.unary op) (c :: _) _ =>
    AgreesAt value sheet inputs leaf (Sheet.operandPlace place 0) c ∧
      (op = .not → ∀ n, lower .exact sheet (Sheet.operandPlace place 0) c = .ok (.single n) →
        n.IsNegatable inputs)
  | place, node (.binary op) (c :: d :: _) _ =>
    AgreesAt value sheet inputs leaf (Sheet.operandPlace place 0) c ∧
      AgreesAt value sheet inputs leaf (Sheet.operandPlace place 1) d ∧
      ∀ a b s, c.Evaluates .exact value a → d.Evaluates .exact value b →
        a.binary .exact op b = some s → Scalar.Agrees op a b s
  | place, node .ifThenElse (c :: t :: f :: _) _ =>
    AgreesAt value sheet inputs leaf (Sheet.operandPlace place 0) c ∧
      ∀ a, c.Evaluates .exact value a →
        (a.toReal ≠ 0 → AgreesAt value sheet inputs leaf (Sheet.operandPlace place 1) t) ∧
        (a.toReal = 0 → AgreesAt value sheet inputs leaf (Sheet.operandPlace place 2) f)
  | _, _ => True

/-- A graph has the number of a scalar. -/
def Scalar.IsComputedBy (inputs : Nat → Option ℝ) (a : Scalar ℝ) (n : Node (Option ℝ)) : Prop :=
  a.IsTyped ∧ n.Has inputs a.toReal

section Expression

variable {value : Expr → Except Failure (Option (Scalar ℝ))}
  {sheet : Expr → Except Failure (Sheet (Option ℝ))} {inputs : Nat → Option ℝ}
  {leaf : Expr → Prop} {place : Place}

lemma graphs_of_conditional (hsingle : SinglesIn sheet sheet) {c t f : Expr} {cs : List Expr}
    {l : Label} (hc : c.IsScalar) (ht : t.IsScalar) (hf : f.IsScalar) {m : Sheet (Option ℝ)}
    (h : lower .exact sheet place (.node .ifThenElse (c :: t :: f :: cs) l) = .ok m) :
    ∃ x y z, lower .exact sheet (Sheet.operandPlace place 0) c = .ok (.single x) ∧
      lower .exact sheet (Sheet.operandPlace place 1) t = .ok (.single y) ∧
      lower .exact sheet (Sheet.operandPlace place 2) f = .ok (.single z) ∧
      Sheet.conditional .exact place (.single x) (.single y) (.single z) = .ok m := by
  rw [lower] at h
  obtain ⟨a, ha, h⟩ := Except.eq_ok_of_bind h
  obtain ⟨b, hb, h⟩ := Except.eq_ok_of_bind h
  obtain ⟨d, hd, h⟩ := Except.eq_ok_of_bind h
  obtain ⟨x, rfl⟩ := exists_single_of_lower hsingle hc ha
  obtain ⟨y, rfl⟩ := exists_single_of_lower hsingle ht hb
  obtain ⟨z, rfl⟩ := exists_single_of_lower hsingle hf hd
  exact ⟨x, y, z, ha, hb, hd, h⟩

/-- The graph of a scalar expression computes the scalar that the expression evaluates to. -/
theorem Expr.Evaluates.isComputedBy {e : Expr} {s : Scalar ℝ} (hs : e.Evaluates .exact value s)
    (hsingle : SinglesIn sheet sheet)
    (hleaf : ∀ x s n, value x = .ok (some s) → sheet x = .ok (.single n) → leaf x →
      s.IsComputedBy inputs n)
    (he : e.IsScalar) {n : Node (Option ℝ)} (hn : lower .exact sheet place e = .ok (.single n))
    (hagrees : e.AgreesAt value sheet inputs leaf place) : s.IsComputedBy inputs n := by
  induction hs generalizing place n with
  | symbol h => exact hleaf _ _ _ h hn hagrees
  | constant hx hs =>
    rw [lower, hx] at hn
    cases hn
    exact Scalar.ofLiteral_exact hs
  | unary hc hs ihc =>
    cases he with
    | unary hop hscalar =>
      rw [lower] at hn
      obtain ⟨m, hm, hn⟩ := Except.eq_ok_of_bind hn
      obtain ⟨k, rfl⟩ := exists_single_of_lower hsingle hscalar hm
      obtain ⟨hagreesc, hnot⟩ := hagrees
      obtain ⟨htyped, hk⟩ := ihc hscalar hm hagreesc
      obtain ⟨htyped', hvalue⟩ := Scalar.unary_exact htyped hs
      exact ⟨htyped', Sheet.has_unary hk hvalue (fun hop => hnot hop k hm) hn⟩
  | binary hc hd hs ihc ihd =>
    cases he with
    | binary hop hscalarc hscalard =>
      rw [lower] at hn
      obtain ⟨m, hm, hn⟩ := Except.eq_ok_of_bind hn
      obtain ⟨m', hm', hn⟩ := Except.eq_ok_of_bind hn
      obtain ⟨k, rfl⟩ := exists_single_of_lower hsingle hscalarc hm
      obtain ⟨k', rfl⟩ := exists_single_of_lower hsingle hscalard hm'
      obtain ⟨hagreesc, hagreesd, hagrees⟩ := hagrees
      obtain ⟨htypedc, hk⟩ := ihc hscalarc hm hagreesc
      obtain ⟨htypedd, hk'⟩ := ihd hscalard hm' hagreesd
      obtain ⟨hregular, hmod⟩ := hagrees _ _ _ hc hd hs
      obtain ⟨htyped, hvalue⟩ := Scalar.binary_exact htypedc htypedd hs
      exact ⟨htyped, Sheet.has_binary hk hk' (hvalue hregular) hmod hn⟩
  | ifTrue hc ha _ ihc iht =>
    cases he with
    | ifThenElse hscalarc hscalart hscalarf =>
      obtain ⟨k, k', k'', hk, hk', hk'', hn⟩ :=
        graphs_of_conditional hsingle hscalarc hscalart hscalarf hn
      obtain ⟨hagreesc, hbranch⟩ := hagrees
      obtain ⟨_, hcondition⟩ := ihc hscalarc hk hagreesc
      have hne := of_decide_eq_true (Scalar.isTrue_eq.symm.trans ha)
      obtain ⟨htyped, hvalue⟩ := iht hscalart hk' ((hbranch _ hc).1 hne)
      exact ⟨htyped, Sheet.has_conditional hcondition (fun _ => hvalue)
        (fun hzero => absurd hzero hne) hn⟩
  | ifFalse hc ha _ ihc ihf =>
    cases he with
    | ifThenElse hscalarc hscalart hscalarf =>
      obtain ⟨k, k', k'', hk, hk', hk'', hn⟩ :=
        graphs_of_conditional hsingle hscalarc hscalart hscalarf hn
      obtain ⟨hagreesc, hbranch⟩ := hagrees
      obtain ⟨_, hcondition⟩ := ihc hscalarc hk hagreesc
      have hzero := not_not.1 (of_decide_eq_false (Scalar.isTrue_eq.symm.trans ha))
      obtain ⟨htyped, hvalue⟩ := ihf hscalarf hk'' ((hbranch _ hc).2 hzero)
      exact ⟨htyped, Sheet.has_conditional hcondition (fun hne => absurd hzero hne)
        (fun _ => hvalue) hn⟩

end Expression
end NamedSlots
