import NamedSlots.Graph.Simplification
import NamedSlots.Proofs.RealFunctions

/-!
# Simplification over the real numbers

Graphs are simplified as they are made. Where the operator that is applied has a value, the graph
that is made has the same value. The one exception is a negation that is undone: the number under
it is 0 or 1, or else only its truth is the same.
-/

namespace NamedSlots.Graph

open RealFunction

namespace Node

variable {inputs : Nat → Option ℝ} {a b x y : Node (Option ℝ)} {r s t : ℝ} {p place : Place}

/-- The value of a graph over the real numbers. -/
def Has (inputs : Nat → Option ℝ) (a : Node (Option ℝ)) (r : ℝ) : Prop :=
  a.value .exact inputs = some r

lemma Has.unique (h : Has inputs a r) (h' : Has inputs a s) : r = s :=
  Option.some.inj (h.symm.trans h')

lemma has_constant {x : Option ℝ} : Has inputs (constant x) r ↔ x = some r := Iff.rfl

@[simp] lemma has_ofInt {n : Int} : Has inputs (ofInt .exact n) r ↔ (n : ℝ) = r :=
  ⟨Option.some.inj, congrArg some⟩

lemma has_unary {op : UnaryNode} :
    Has inputs (unary p op a) r ↔ ∃ s, Has inputs a s ∧ op.onReals s = some r :=
  Option.bind_eq_some_iff

lemma exact_binary_of_ne {op : BinaryNode} (hop : op ≠ .ifElseZero) (c d : Option ℝ) :
    Arithmetic.exact.binary op c d = c.bind fun s => d.bind fun t => op.onReals s t := by
  cases op <;> first | rfl | exact absurd rfl hop

lemma has_binary {op : BinaryNode} (hop : op ≠ .ifElseZero) :
    Has inputs (binary p op a b) r ↔
      ∃ s t, Has inputs a s ∧ Has inputs b t ∧ op.onReals s t = some r := by
  unfold Has
  rw [value, exact_binary_of_ne hop]
  simp only [Option.bind_eq_some_iff]
  constructor
  · rintro ⟨s, hs, t, ht, h⟩
    exact ⟨s, t, hs, ht, h⟩
  · rintro ⟨s, t, hs, ht, h⟩
    exact ⟨s, hs, t, ht, h⟩

/-- Operands with values give the operator its value, also a conditional zero. -/
lemma exact_binary {op : BinaryNode} : Arithmetic.exact.binary op (some s) (some t) = op.onReals s t := by
  cases op <;> first | rfl | exact (apply_ite some _ _ _).symm

/-! ### Equal graphs -/

lemma value_eq_of_sameForm (h : sameForm .exact x y = true) :
    x.value .exact inputs = y.value .exact inputs := by
  induction x generalizing y with
  | input i =>
    cases y <;> first | cases h | exact congrArg inputs (beq_iff_eq.1 h)
  | constant c =>
    cases y <;> first | cases h | exact of_decide_eq_true h
  | unary p op a ih =>
    cases y with
    | unary q op' a' =>
      obtain ⟨hop, ha⟩ := Bool.and_eq_true_iff.1 h
      rw [value, value, of_decide_eq_true hop, ih ha]
    | _ => cases h
  | binary p op a b iha ihb =>
    cases y with
    | binary q op' a' b' =>
      obtain ⟨h, hb⟩ := Bool.and_eq_true_iff.1 h
      obtain ⟨hop, ha⟩ := Bool.and_eq_true_iff.1 h
      rw [value, value, of_decide_eq_true hop, iha ha, ihb hb]
    | _ => cases h

lemma value_eq_of_isOne (h : isOne .exact x y = true) :
    x.value .exact inputs = y.value .exact inputs :=
  value_eq_of_sameForm (Bool.and_eq_true_iff.1 h).2

lemma onReals_comm {op : BinaryNode} (hop : op.isCommutative = true) :
    op.onReals s t = op.onReals t s := by
  cases op
  case add => exact congrArg some (add_comm s t)
  case mul => exact congrArg some (mul_comm s t)
  case eq => simp only [BinaryNode.onReals, eq_comm]
  case ne => simp only [BinaryNode.onReals, ne_comm]
  case and => simp only [BinaryNode.onReals, and_comm]
  case or => simp only [BinaryNode.onReals, or_comm]
  case min => exact congrArg some (min_comm s t)
  case max => exact congrArg some (max_comm s t)
  all_goals cases hop

lemma exact_binary_comm {op : BinaryNode} (hop : op.isCommutative = true) (c d : Option ℝ) :
    Arithmetic.exact.binary op c d = Arithmetic.exact.binary op d c := by
  have hne : op ≠ .ifElseZero := by
    rintro rfl
    cases hop
  rw [exact_binary_of_ne hne, exact_binary_of_ne hne, Option.bind_comm]
  simp only [onReals_comm hop]

lemma value_eq_of_isEqual (h : isEqual .exact x y = true) :
    x.value .exact inputs = y.value .exact inputs := by
  unfold isEqual at h
  rcases Bool.or_eq_true_iff.1 h with h | h
  · exact value_eq_of_isOne h
  · split at h
    · obtain ⟨hop, ha⟩ := Bool.and_eq_true_iff.1 h
      rw [value, value, of_decide_eq_true hop, value_eq_of_isOne ha]
    · obtain ⟨hop, h⟩ := Bool.and_eq_true_iff.1 h
      rw [value, value, of_decide_eq_true hop]
      rcases Bool.or_eq_true_iff.1 h with h | h
      · obtain ⟨ha, hb⟩ := Bool.and_eq_true_iff.1 h
        rw [value_eq_of_isOne ha, value_eq_of_isOne hb]
      · obtain ⟨h, hb⟩ := Bool.and_eq_true_iff.1 h
        obtain ⟨hcomm, ha⟩ := Bool.and_eq_true_iff.1 h
        rw [value_eq_of_isOne ha, value_eq_of_isOne hb, exact_binary_comm]
        rw [← of_decide_eq_true hop]
        exact hcomm
    · cases h

lemma Has.eq_of_isEqual (hx : Has inputs x r) (hy : Has inputs y s)
    (h : isEqual .exact x y = true) : r = s := by
  rw [Has, value_eq_of_isEqual h] at hx
  exact Has.unique hx hy

lemma Has.eq_of_isInt {n : Int} (hx : Has inputs x r) (h : isInt .exact n x = true) : r = n := by
  cases x with
  | constant c =>
    have hc : c = some (n : ℝ) := of_decide_eq_true h
    exact Option.some.inj ((has_constant.1 hx).symm.trans hc)
  | _ => cases h

/-! ### One operand -/

lemma has_makeUnary {op : UnaryNode} (ha : Has inputs a s) (h : op.onReals s = some r) :
    Has inputs (makeUnary .exact place op a) r := by
  cases a with
  | constant c =>
    change Arithmetic.exact.unary op c = some r
    rw [has_constant.1 ha]
    exact h
  | _ => exact has_unary.2 ⟨s, ha, h⟩

lemma has_makeBinary {op : BinaryNode} (ha : Has inputs a s) (hb : Has inputs b t)
    (h : op.onReals s t = some r) : Has inputs (makeBinary .exact place op a b) r := by
  have hvalue : Arithmetic.exact.binary op (a.value .exact inputs) (b.value .exact inputs) =
      some r := by
    rw [ha, hb, exact_binary, h]
  cases a <;> cases b <;> exact hvalue

lemma has_square (ha : Has inputs a s) : Has inputs (square .exact place a) (s * s) := by
  induction a using square.induct generalizing s with
  | case1 p a =>
    obtain ⟨t, ht, h⟩ := has_unary.1 ha
    obtain ⟨hnonneg, rfl⟩ := given_eq_some.1 h
    rw [square, Real.mul_self_sqrt hnonneg]
    exact ht
  | case2 p a ih =>
    obtain ⟨t, ht, h⟩ := has_unary.1 ha
    cases h
    rw [square, neg_mul_neg]
    exact ih ht
  | case3 a hsqrt hneg =>
    rw [square]
    · exact has_makeUnary ha rfl
    · exact hsqrt
    · exact hneg

/-- A negation that meets a negation finds 0 or 1 under it. -/
def IsNegatable (inputs : Nat → Option ℝ) (a : Node (Option ℝ)) : Prop :=
  ∀ p b, a = unary p .not b → Has inputs b 0 ∨ Has inputs b 1

lemma has_applyUnary {op : UnaryNode} (ha : Has inputs a s) (h : op.onReals s = some r)
    (hnot : op = .not → a.IsNegatable inputs) : Has inputs (applyUnary .exact place op a) r := by
  unfold applyUnary
  split
  case h_1 =>
    obtain ⟨t, ht, hneg⟩ := has_unary.1 ha
    cases hneg
    cases h
    rwa [neg_neg]
  case h_2 p b =>
    obtain ⟨t, ht, hnegation⟩ := has_unary.1 ha
    cases hnegation
    cases h
    rcases hnot rfl p b rfl with hb | hb <;> cases ht.unique hb <;> simpa [indicator] using hb
  case h_3 =>
    obtain ⟨t, ht, hinv⟩ := has_unary.1 ha
    obtain ⟨hne, rfl⟩ := given_eq_some.1 hinv
    obtain ⟨_, rfl⟩ := given_eq_some.1 h
    rwa [inv_inv]
  case h_4 =>
    cases h
    exact has_square ha
  case h_5 =>
    obtain ⟨t, ht, hsq⟩ := has_unary.1 ha
    cases hsq
    obtain ⟨_, rfl⟩ := given_eq_some.1 h
    rw [Real.sqrt_mul_self_eq_abs]
    exact has_makeUnary ht rfl
  case h_6 =>
    obtain ⟨t, ht, habs⟩ := has_unary.1 ha
    cases habs
    cases h
    rwa [abs_abs]
  case h_7 =>
    obtain ⟨t, ht, hsq⟩ := has_unary.1 ha
    cases hsq
    cases h
    rwa [abs_mul_self]
  case h_8 => exact has_makeUnary ha h

/-! ### Two operands -/

/-- What becomes of an operator has the value of the operator. -/
def Step.Gives (inputs : Nat → Option ℝ) (r : ℝ) : Step (Option ℝ) → Prop
  | .keep => True
  | .done n => Has inputs n r
  | .unary op a => op ≠ .not ∧ ∃ s, Has inputs a s ∧ op.onReals s = some r
  | .retry op a b | .make op a b =>
    ∃ s t, Has inputs a s ∧ Has inputs b t ∧ op.onReals s t = some r
  | .negate op a b => ∃ s t, Has inputs a s ∧ Has inputs b t ∧ op.onReals s t = some (-r)

section Operands

lemma has_neg : Has inputs (unary p .neg a) r ↔ ∃ u, Has inputs a u ∧ -u = r := by
  simp only [has_unary, UnaryNode.onReals, Option.some.injEq]

lemma has_sq : Has inputs (unary p .sq a) r ↔ ∃ u, Has inputs a u ∧ u * u = r := by
  simp only [has_unary, UnaryNode.onReals, Option.some.injEq]

lemma has_inv : Has inputs (unary p .inv a) r ↔ ∃ u, Has inputs a u ∧ u ≠ 0 ∧ u⁻¹ = r := by
  simp only [has_unary, UnaryNode.onReals, given_eq_some]

lemma has_add :
    Has inputs (binary p .add a b) r ↔ ∃ u v, Has inputs a u ∧ Has inputs b v ∧ u + v = r := by
  simp only [has_binary (nofun : BinaryNode.add ≠ .ifElseZero), BinaryNode.onReals, Option.some.injEq]

lemma has_sub :
    Has inputs (binary p .sub a b) r ↔ ∃ u v, Has inputs a u ∧ Has inputs b v ∧ u - v = r := by
  simp only [has_binary (nofun : BinaryNode.sub ≠ .ifElseZero), BinaryNode.onReals, Option.some.injEq]

lemma has_mul :
    Has inputs (binary p .mul a b) r ↔ ∃ u v, Has inputs a u ∧ Has inputs b v ∧ u * v = r := by
  simp only [has_binary (nofun : BinaryNode.mul ≠ .ifElseZero), BinaryNode.onReals, Option.some.injEq]

lemma has_div :
    Has inputs (binary p .div a b) r ↔
      ∃ u v, Has inputs a u ∧ Has inputs b v ∧ v ≠ 0 ∧ u / v = r := by
  simp only [has_binary (nofun : BinaryNode.div ≠ .ifElseZero), BinaryNode.onReals, given_eq_some]

lemma eq_half_of_isScaledBy (ha : Has inputs a r)
    (h : isScaledBy Arithmetic.exact.isHalf a = true) : r = 1 / 2 := by
  cases a with
  | constant c =>
    have hc : c = some (1 / 2) := of_decide_eq_true h
    exact Option.some.inj ((has_constant.1 ha).symm.trans hc)
  | _ => cases h

lemma has_firstOperand (ha : Has inputs a r) (h : isDoubled .exact a = true) :
    ∃ u, Has inputs a.firstOperand u ∧ r = u + u := by
  unfold isDoubled at h
  split at h
  · obtain ⟨u, v, hu, hv, rfl⟩ := has_add.1 ha
    cases hu.eq_of_isEqual hv h
    exact ⟨u, hu, rfl⟩
  · cases h

lemma has_sin : Has inputs (unary p .sin a) r ↔ ∃ u, Has inputs a u ∧ Real.sin u = r := by
  simp only [has_unary, UnaryNode.onReals, Option.some.injEq]

lemma has_cos : Has inputs (unary p .cos a) r ↔ ∃ u, Has inputs a u ∧ Real.cos u = r := by
  simp only [has_unary, UnaryNode.onReals, Option.some.injEq]

/-- The squares of the sine and the cosine of graphs with one value add up to 1. -/
lemma add_eq_one {q p' q' : Place} (ha : Has inputs (unary p .sq (unary q .sin a)) r)
    (hb : Has inputs (unary p' .sq (unary q' .cos b)) s)
    (h : a.value .exact inputs = b.value .exact inputs) : r + s = 1 := by
  obtain ⟨_, hsin, rfl⟩ := has_sq.1 ha
  obtain ⟨_, hcos, rfl⟩ := has_sq.1 hb
  obtain ⟨u, hu, rfl⟩ := has_sin.1 hsin
  obtain ⟨v, hv, rfl⟩ := has_cos.1 hcos
  have huv : u = v := Option.some.inj (hu.symm.trans (h.trans hv))
  rw [huv, ← sq, ← sq, Real.sin_sq_add_cos_sq]

/-- Two halves of one graph add up to it. -/
lemma has_of_halves {q : Place} {c d : Node (Option ℝ)} (ha : Has inputs (binary p .mul c a) r)
    (hb : Has inputs (binary q .mul d b) s)
    (h : (isScaledBy Arithmetic.exact.isHalf c && isScaledBy Arithmetic.exact.isHalf d &&
      isEqual .exact b a) = true) : Has inputs a (r + s) := by
  obtain ⟨h, hequal⟩ := Bool.and_eq_true_iff.1 h
  obtain ⟨hc, hd⟩ := Bool.and_eq_true_iff.1 h
  obtain ⟨u, v, hu, hv, rfl⟩ := has_mul.1 ha
  obtain ⟨u', v', hu', hv', rfl⟩ := has_mul.1 hb
  cases eq_half_of_isScaledBy hu hc
  cases eq_half_of_isScaledBy hu' hd
  cases hv'.eq_of_isEqual hv hequal
  have hsum : 1 / 2 * v + 1 / 2 * v = v := by ring
  rwa [hsum]

lemma has_of_divided_halves {q : Place} {c d : Node (Option ℝ)}
    (ha : Has inputs (binary p .div a c) r) (hb : Has inputs (binary q .div b d) s)
    (h : (isInt .exact 2 c && isInt .exact 2 d && isEqual .exact b a) = true) :
    Has inputs a (r + s) := by
  obtain ⟨h, hequal⟩ := Bool.and_eq_true_iff.1 h
  obtain ⟨hc, hd⟩ := Bool.and_eq_true_iff.1 h
  obtain ⟨u, v, hu, hv, _, rfl⟩ := has_div.1 ha
  obtain ⟨u', v', hu', hv', _, rfl⟩ := has_div.1 hb
  cases hv.eq_of_isInt hc
  cases hv'.eq_of_isInt hd
  cases hu'.eq_of_isEqual hu hequal
  have hsum : u / (2 : ℤ) + u / (2 : ℤ) = u := by
    push_cast
    ring
  rwa [hsum]

/-- What is taken from a graph and added again leaves it. -/
lemma has_of_difference_add {c : Node (Option ℝ)} (ha : Has inputs (binary p .sub a c) r)
    (hb : Has inputs b s) (h : isEqual .exact c b = true) : Has inputs a (r + s) := by
  obtain ⟨u, v, hu, hv, rfl⟩ := has_sub.1 ha
  cases hv.eq_of_isEqual hb h
  rwa [sub_add_cancel]

lemma has_of_add_difference {c : Node (Option ℝ)} (ha : Has inputs a r)
    (hb : Has inputs (binary p .sub b c) s) (h : isEqual .exact a c = true) :
    Has inputs b (r + s) := by
  obtain ⟨u, v, hu, hv, rfl⟩ := has_sub.1 hb
  cases ha.eq_of_isEqual hv h
  rwa [add_sub_cancel]

end Operands

lemma gives_stepAdd (hx : Has inputs x s) (hy : Has inputs y t) :
    (stepAdd .exact x y).Gives inputs (s + t) := by
  unfold stepAdd
  split
  · rename_i h
    cases hx.eq_of_isInt h
    simpa [Step.Gives] using hy
  split
  · rename_i h
    cases hy.eq_of_isInt h
    simpa [Step.Gives] using hx
  split
  · obtain ⟨u, hu, rfl⟩ := has_neg.1 hy
    exact ⟨s, u, hx, hu, congrArg some (sub_eq_add_neg s u)⟩
  · obtain ⟨u, hu, rfl⟩ := has_neg.1 hx
    exact ⟨t, u, hy, hu, congrArg some (sub_eq_neg_add t u)⟩
  split
  · split
    · exact has_of_halves hx hy ‹_›
    · trivial
  · split
    · exact has_of_divided_halves hx hy ‹_›
    · trivial
  · split
    · rename_i h
      exact has_ofInt.2 (by rw [add_eq_one hx hy (value_eq_of_isEqual h), Int.cast_one])
    · trivial
  · split
    · rename_i h
      have hsum := add_eq_one hy hx (value_eq_of_isEqual h).symm
      exact has_ofInt.2 (by rw [add_comm, hsum, Int.cast_one])
    · trivial
  · split
    · exact has_of_difference_add hx hy ‹_›
    split
    · split
      · exact has_of_add_difference hx hy ‹_›
      · trivial
    · trivial
  · split
    · exact has_of_add_difference hx hy ‹_›
    · trivial
  · trivial

lemma gives_differenceUndone {next : Step (Option ℝ)}
    (h : differenceUndone? .exact x y = some next) (hx : Has inputs x s) (hy : Has inputs y t) :
    next.Gives inputs (s - t) := by
  unfold differenceUndone? at h
  split at h
  · obtain ⟨u, v, hu, hv, rfl⟩ := has_add.1 hx
    split at h
    · rename_i hequal
      cases h
      cases hv.eq_of_isEqual hy hequal
      simpa [Step.Gives] using hu
    split at h
    · rename_i hequal
      cases h
      cases hu.eq_of_isEqual hy hequal
      simpa [Step.Gives] using hv
    · cases h
  · cases h

lemma gives_differenceNegated {next : Step (Option ℝ)}
    (h : differenceNegated? .exact x y = some next) (hx : Has inputs x s) (hy : Has inputs y t) :
    next.Gives inputs (s - t) := by
  unfold differenceNegated? at h
  split at h
  · obtain ⟨u, v, hu, hv, rfl⟩ := has_add.1 hy
    split at h
    · rename_i hequal
      cases h
      cases hx.eq_of_isEqual hv hequal
      exact ⟨nofun, u, hu, by simp [UnaryNode.onReals]⟩
    split at h
    · rename_i hequal
      cases h
      cases hx.eq_of_isEqual hu hequal
      exact ⟨nofun, v, hv, by simp [UnaryNode.onReals]⟩
    · cases h
  · cases h

lemma gives_stepSub (hx : Has inputs x s) (hy : Has inputs y t) :
    (stepSub .exact x y).Gives inputs (s - t) := by
  unfold stepSub
  split
  · rename_i h
    cases hy.eq_of_isInt h
    simpa [Step.Gives] using hx
  split
  · rename_i h
    cases hx.eq_of_isInt h
    exact ⟨nofun, t, hy, by simp [UnaryNode.onReals]⟩
  split
  · rename_i h
    cases hx.eq_of_isEqual hy h
    exact has_ofInt.2 (by simp)
  split
  · obtain ⟨u, hu, rfl⟩ := has_neg.1 hy
    exact ⟨s, u, hx, hu, congrArg some (sub_neg_eq_add s u).symm⟩
  split
  · rename_i h
    rcases (Option.orElse_eq_some _ _ _).1 h with h | ⟨_, h⟩
    · exact gives_differenceUndone h hx hy
    · exact gives_differenceNegated h hx hy
  split
  · obtain ⟨u, hu, rfl⟩ := has_neg.1 hx
    refine ⟨u, t, hu, hy, congrArg some ?_⟩
    ring
  · trivial

lemma has_productUndone (h : productUndone? .exact x y = some a) (hx : Has inputs x s)
    (hy : Has inputs y t) : Has inputs a (s * t) := by
  have hquotient {p : Place} {c d : Node (Option ℝ)} (hy : Has inputs (binary p .div c d) t)
      (h : isEqual .exact d x = true) : Has inputs c (s * t) := by
    obtain ⟨u, v, hu, hv, hne, rfl⟩ := has_div.1 hy
    cases hv.eq_of_isEqual hx h
    rwa [mul_div_cancel₀ u hne]
  unfold productUndone? at h
  split at h
  · split at h
    · rename_i hone
      cases h
      obtain ⟨u, v, hu, hv, rfl⟩ := has_mul.1 hy
      have hproduct := of_decide_eq_true hone
      rw [has_constant.1 hx, has_constant.1 hu, exact_binary] at hproduct
      have hsu : s * u = 1 := by simpa [BinaryNode.onReals, Arithmetic.exact] using hproduct
      rwa [← mul_assoc, hsu, one_mul]
    · cases h
  · split at h
    · rename_i hsame
      cases h
      obtain ⟨u, v, hu, hv, hne, rfl⟩ := has_div.1 hy
      have hsv := of_decide_eq_true hsame
      rw [has_constant.1 hx, has_constant.1 hv] at hsv
      cases hsv
      rwa [mul_div_cancel₀ u hne]
    · cases h
  · split at h
    · rename_i hequal
      cases h
      obtain ⟨u, v, hu, hv, hne, rfl⟩ := has_div.1 hx
      cases hv.eq_of_isEqual hy hequal
      rwa [div_mul_cancel₀ u hne]
    · split at h
      · split at h
        · rename_i hequal
          cases h
          exact hquotient hy hequal
        · cases h
      · cases h
  · split at h
    · rename_i hequal
      cases h
      exact hquotient hy hequal
    · cases h
  · cases h

lemma gives_stepFactors (hx : Has inputs x s) (hy : Has inputs y t) :
    (stepFactors .exact x y).Gives inputs (s * t) := by
  unfold stepFactors
  split
  · rename_i h
    rcases Bool.or_eq_true_iff.1 h with h | h
    · cases hx.eq_of_isInt h
      exact has_ofInt.2 (by simp)
    · cases hy.eq_of_isInt h
      exact has_ofInt.2 (by simp)
  split
  · rename_i h
    cases hx.eq_of_isInt h
    simpa [Step.Gives] using hy
  split
  · rename_i h
    cases hy.eq_of_isInt h
    simpa [Step.Gives] using hx
  split
  · rename_i h
    cases hy.eq_of_isInt h
    exact ⟨nofun, s, hx, by simp [UnaryNode.onReals]⟩
  split
  · rename_i h
    cases hx.eq_of_isInt h
    exact ⟨nofun, t, hy, by simp [UnaryNode.onReals]⟩
  split
  · obtain ⟨u, hu, hne, rfl⟩ := has_inv.1 hy
    exact ⟨s, u, hx, hu, given_eq_some.2 ⟨hne, div_eq_mul_inv s u⟩⟩
  · obtain ⟨u, hu, hne, rfl⟩ := has_inv.1 hx
    exact ⟨t, u, hy, hu, given_eq_some.2 ⟨hne, div_eq_inv_mul t u⟩⟩
  split
  · rename_i h
    exact has_productUndone h hx hy
  split
  · obtain ⟨u, hu, rfl⟩ := has_neg.1 hx
    exact ⟨u, t, hu, hy, congrArg some (by ring)⟩
  · obtain ⟨u, hu, rfl⟩ := has_neg.1 hy
    exact ⟨s, u, hx, hu, congrArg some (by ring)⟩
  · exact ⟨s, t, hx, hy, rfl⟩

lemma constantsFirst_cases (x y : Node (Option ℝ)) :
    constantsFirst x y = (x, y) ∨ constantsFirst x y = (y, x) := by
  unfold constantsFirst
  split
  · exact .inr rfl
  · exact .inl rfl

lemma gives_stepMul (hx : Has inputs x s) (hy : Has inputs y t) :
    (stepMul .exact x y).Gives inputs (s * t) := by
  unfold stepMul
  split
  · rename_i h
    have hst := hy.eq_of_isEqual hx h
    exact ⟨nofun, s, hx, by rw [hst, UnaryNode.onReals]⟩
  · rcases constantsFirst_cases x y with h | h <;> rw [h]
    · exact gives_stepFactors hx hy
    · rw [mul_comm]
      exact gives_stepFactors hy hx

section Quotient

variable {next : Step (Option ℝ)} (hx : Has inputs x s) (hy : Has inputs y t) (ht : t ≠ 0)
include hx hy ht

lemma gives_quotientUndone (h : quotientUndone? .exact x y = some next) :
    next.Gives inputs (s / t) := by
  unfold quotientUndone? at h
  split at h
  · obtain ⟨u, v, hu, hv, rfl⟩ := has_mul.1 hx
    split at h
    · rename_i hequal
      cases h
      cases hy.eq_of_isEqual hu hequal
      rw [mul_div_cancel_left₀ v ht]
      exact hv
    split at h
    · rename_i hequal
      cases h
      cases hy.eq_of_isEqual hv hequal
      rw [mul_div_cancel_right₀ u ht]
      exact hu
    · cases h
  · cases h

omit ht in
lemma gives_quotientOfQuotient (h : quotientOfQuotient? .exact x y = some next) :
    next.Gives inputs (s / t) := by
  unfold quotientOfQuotient? at h
  split at h
  · obtain ⟨u, v, hu, hv, hne, rfl⟩ := has_div.1 hx
    split at h
    · rename_i hone
      cases h
      have hproduct := of_decide_eq_true hone
      rw [has_constant.1 hy, has_constant.1 hv, exact_binary] at hproduct
      have htv : t * v = 1 := by simpa [BinaryNode.onReals, Arithmetic.exact] using hproduct
      rw [div_div, mul_comm v t, htv, div_one]
      exact hu
    · cases h
  · cases h

lemma gives_quotientOfMultiple (h : quotientOfMultiple? .exact x y = some next) :
    next.Gives inputs (s / t) := by
  unfold quotientOfMultiple? at h
  split at h
  · obtain ⟨u, v, hu, hv, rfl⟩ := has_mul.1 hy
    split at h
    · rename_i hequal
      cases h
      cases hv.eq_of_isEqual hx hequal
      refine ⟨1, u, has_ofInt.2 Int.cast_one, hu, given_eq_some.2 ⟨left_ne_zero_of_mul ht, ?_⟩⟩
      rw [mul_comm, div_mul_cancel_left₀ (right_ne_zero_of_mul ht), one_div]
    · cases h
  · cases h

lemma gives_quotientOfSigns (h : quotientOfSigns? .exact x y = some next) :
    next.Gives inputs (s / t) := by
  have hopposite {u : ℝ} (hu : -u = t) : Has inputs (ofInt .exact (-1)) (u / t) := by
    refine has_ofInt.2 ?_
    rw [← hu, div_neg, div_self (neg_ne_zero.1 (hu ▸ ht)), Int.cast_neg, Int.cast_one]
  have hnegated {u : ℝ} (hu : u = t) : Has inputs (ofInt .exact (-1)) (-u / t) := by
    refine has_ofInt.2 ?_
    rw [hu, neg_div, div_self ht, Int.cast_neg, Int.cast_one]
  unfold quotientOfSigns? at h
  split at h
  · obtain ⟨u, hu, rfl⟩ := has_neg.1 hx
    obtain ⟨v, hv, rfl⟩ := has_neg.1 hy
    split at h
    · rename_i hequal
      cases h
      rcases Bool.or_eq_true_iff.1 hequal with hequal | hequal
      · exact hnegated (hu.eq_of_isEqual hy hequal)
      · rw [← hv.eq_of_isEqual hx hequal]
        exact hopposite rfl
    split at h
    · rename_i hequal
      cases h
      cases hu.eq_of_isEqual hv hequal
      exact has_ofInt.2 (by rw [div_self ht, Int.cast_one])
    · cases h
  · obtain ⟨u, hu, rfl⟩ := has_neg.1 hx
    split at h
    · rename_i hequal
      cases h
      exact hnegated (hu.eq_of_isEqual hy hequal)
    · cases h
  · obtain ⟨v, hv, rfl⟩ := has_neg.1 hy
    split at h
    · rename_i hequal
      cases h
      cases hv.eq_of_isEqual hx hequal
      exact hopposite rfl
    · cases h
  · cases h

end Quotient

lemma gives_stepDiv (hx : Has inputs x s) (hy : Has inputs y t) (ht : t ≠ 0) :
    (stepDiv .exact x y).Gives inputs (s / t) := by
  unfold stepDiv
  split
  · rename_i h
    cases hx.eq_of_isInt h
    exact has_ofInt.2 (by simp)
  split
  · rename_i h
    cases hy.eq_of_isInt h
    simpa [Step.Gives] using hx
  split
  · rename_i h
    cases hy.eq_of_isInt h
    exact ⟨nofun, s, hx, by simp [UnaryNode.onReals, div_neg]⟩
  split
  · rename_i h
    cases hx.eq_of_isEqual hy h
    exact has_ofInt.2 (by rw [div_self ht, Int.cast_one])
  split
  · rename_i h
    obtain ⟨hdoubled, htwo⟩ := Bool.and_eq_true_iff.1 h
    obtain ⟨u, hu, rfl⟩ := has_firstOperand hx hdoubled
    cases hy.eq_of_isInt htwo
    have hhalf : (u + u) / (2 : ℤ) = u := by
      push_cast
      ring
    rw [hhalf]
    exact hu
  split
  · rename_i h
    exact gives_quotientUndone hx hy ht h
  split
  · rename_i h
    cases hx.eq_of_isInt h
    exact ⟨nofun, t, hy, given_eq_some.2 ⟨ht, by simp⟩⟩
  split
  · obtain ⟨u, hu, hne, rfl⟩ := has_inv.1 hy
    exact ⟨s, u, hx, hu, congrArg some (by rw [div_inv_eq_mul])⟩
  split
  · rename_i h
    obtain ⟨hdx, hdy⟩ := Bool.and_eq_true_iff.1 h
    obtain ⟨u, hu, rfl⟩ := has_firstOperand hx hdx
    obtain ⟨v, hv, rfl⟩ := has_firstOperand hy hdy
    have hne : v ≠ 0 := by
      rintro rfl
      exact ht (add_zero 0)
    refine ⟨u, v, hu, hv, given_eq_some.2 ⟨hne, ?_⟩⟩
    rw [← two_mul, ← two_mul, mul_div_mul_left u v two_ne_zero]
  split
  · rename_i h
    rcases (Option.orElse_eq_some _ _ _).1 h with h | ⟨_, h⟩
    · exact gives_quotientOfQuotient hx hy h
    rcases (Option.orElse_eq_some _ _ _).1 h with h | ⟨_, h⟩
    · exact gives_quotientOfMultiple hx hy ht h
    · exact gives_quotientOfSigns hx hy ht h
  split
  · split
    · rename_i h
      obtain ⟨u, v, hu, hv, hne, rfl⟩ := has_div.1 hx
      cases hy.eq_of_isEqual hu h
      refine ⟨nofun, v, hv, given_eq_some.2 ⟨hne, ?_⟩⟩
      rw [div_div, div_mul_cancel_right₀ ht]
    split
    · obtain ⟨u, hu, rfl⟩ := has_neg.1 hy
      exact ⟨s, u, hx, hu, given_eq_some.2 ⟨neg_ne_zero.1 ht, by rw [div_neg, neg_neg]⟩⟩
    · trivial
  · obtain ⟨u, hu, rfl⟩ := has_neg.1 hx
    exact ⟨u, t, hu, hy, given_eq_some.2 ⟨ht, by rw [neg_div, neg_neg]⟩⟩
  · obtain ⟨u, hu, rfl⟩ := has_neg.1 hy
    exact ⟨s, u, hx, hu, given_eq_some.2 ⟨neg_ne_zero.1 ht, by rw [div_neg, neg_neg]⟩⟩
  · trivial

/-- One step of simplification keeps the value. -/
lemma gives_step {op : BinaryNode} (hx : Has inputs x s) (hy : Has inputs y t)
    (h : op.onReals s t = some r) : (step .exact op x y).Gives inputs r := by
  cases op
  case add =>
    cases h
    exact gives_stepAdd hx hy
  case sub =>
    cases h
    exact gives_stepSub hx hy
  case mul =>
    cases h
    exact gives_stepMul hx hy
  case div =>
    obtain ⟨ht, rfl⟩ := given_eq_some.1 h
    exact gives_stepDiv hx hy ht
  all_goals trivial

lemma has_simplify {op : BinaryNode} {fuel : Nat} (hx : Has inputs x s) (hy : Has inputs y t)
    (h : op.onReals s t = some r) : Has inputs (simplify .exact place fuel op x y) r := by
  induction fuel generalizing place op x y s t r with
  | zero => exact has_makeBinary hx hy h
  | succ fuel ih =>
    have hgives := gives_step hx hy h
    rw [simplify]
    generalize step .exact op x y = next at hgives
    cases next with
    | keep => exact has_makeBinary hx hy h
    | done n => exact hgives
    | unary op a =>
      obtain ⟨hne, u, hu, h⟩ := hgives
      exact has_applyUnary hu h fun hnot => absurd hnot hne
    | retry op a b =>
      obtain ⟨u, v, hu, hv, h⟩ := hgives
      exact ih hu hv h
    | negate op a b =>
      obtain ⟨u, v, hu, hv, h⟩ := hgives
      exact has_applyUnary (ih hu hv h) (congrArg some (neg_neg r)) nofun
    | make op a b =>
      obtain ⟨u, v, hu, hv, h⟩ := hgives
      exact has_makeBinary hu hv h

/-! ### Powers -/

lemma has_powNat {fuel n : Nat} (hx : Has inputs x s) (hn : n ≤ fuel) :
    Has inputs (powNat .exact place fuel x n) (s ^ n) := by
  have hmul {place : Place} {a b : Node (Option ℝ)} {u v : ℝ} (ha : Has inputs a u)
      (hb : Has inputs b v) : Has inputs (arithmetic .exact place .mul a b) (u * v) :=
    has_simplify ha hb rfl
  induction fuel generalizing place n with
  | zero =>
    cases Nat.le_zero.1 hn
    exact has_ofInt.2 (by simp)
  | succ fuel ih =>
    rw [powNat]
    split
    · rename_i h
      cases h
      exact has_ofInt.2 (by simp)
    split
    · rw [← Nat.sub_add_cancel (Nat.one_le_iff_ne_zero.2 ‹n ≠ 0›), pow_succ']
      exact hmul hx (ih (by omega))
    · have hhalf : n = n / 2 + n / 2 := by omega
      have hroot : Has inputs (powNat .exact (0 :: place) fuel x (n / 2)) (s ^ (n / 2)) :=
        ih (by omega)
      have hsquare : Has inputs (arithmetic .exact place .mul _ _) _ := hmul hroot hroot
      rwa [← pow_add, ← hhalf] at hsquare

lemma has_power (hx : Has inputs x s) (hy : Has inputs y t)
    (h : RealFunction.power s t = some r) : Has inputs (Node.power .exact place x y) r := by
  unfold Node.power
  split
  · rename_i c
    have hinteger : Arithmetic.exact.toInt? c = wholeNumber? t := by
      rw [has_constant.1 hy]
      rfl
    rw [hinteger]
    split
    · rename_i n hn
      split
      · exact has_makeBinary hx hy h
      have hpower : Has inputs (powNat .exact (0 :: place) (n.natAbs + 1) x n.natAbs) _ :=
        has_powNat hx (Nat.le_succ n.natAbs)
      unfold RealFunction.power at h
      rw [hn] at h
      obtain ⟨hdefined, rfl⟩ := given_eq_some.1 h
      split
      · -- a negative power is a quotient
        rename_i hneg
        have hs : s ≠ 0 := hdefined.resolve_left (not_le.2 hneg)
        refine has_simplify (has_ofInt.2 Int.cast_one) hpower
          (given_eq_some.2 ⟨pow_ne_zero _ hs, ?_⟩)
        rw [one_div, ← zpow_natCast, Int.ofNat_natAbs_of_nonpos hneg.le, zpow_neg, inv_inv]
      · rename_i hnonneg
        rwa [← zpow_natCast, Int.natAbs_of_nonneg (not_lt.1 hnonneg)] at hpower
    · rename_i hn
      split
      · rename_i hhalf
        unfold RealFunction.power at h
        rw [hn] at h
        obtain ⟨hdefined, rfl⟩ := given_eq_some.1 h
        have ht : t = 1 / 2 := by
          rw [has_constant.1 hy] at hhalf
          exact Option.some.inj (of_decide_eq_true hhalf)
        have hs : 0 ≤ s := hdefined.elim le_of_lt fun h => h.1.ge
        refine has_applyUnary hx (given_eq_some.2 ⟨hs, ?_⟩) nofun
        rw [ht, Real.sqrt_eq_rpow]
      · exact has_makeBinary hx hy h
  · exact has_makeBinary hx hy h

/-! ### Operators -/

lemma nonneg_of_isNonnegative (h : isNonnegative .exact a = true) (ha : Has inputs a r) :
    0 ≤ r := by
  unfold isNonnegative at h
  split at h
  · obtain ⟨s, hs, hnonneg⟩ := of_decide_eq_true h
    rw [has_constant.1 ha] at hs
    cases hs
    exact hnonneg
  · obtain ⟨s, _, rfl⟩ := has_sq.1 ha
    exact mul_self_nonneg s
  · obtain ⟨s, _, habs⟩ := has_unary.1 ha
    cases habs
    exact abs_nonneg s
  · cases h

/-- An operator of two operands keeps its value when the graph is made. -/
lemma has_applyBinary {op : BinaryNode} (hop : op ≠ .ifElseZero) (hx : Has inputs x s)
    (hy : Has inputs y t) (h : op.onReals s t = some r) :
    Has inputs (applyBinary .exact place op x y) r := by
  have hdifference {place : Place} {a b : Node (Option ℝ)} {u v : ℝ} (ha : Has inputs a u)
      (hb : Has inputs b v) : Has inputs (arithmetic .exact place .sub a b) (u - v) :=
    has_simplify ha hb rfl
  cases op
  case ifElseZero => exact absurd rfl hop
  case add | sub | mul | div => exact has_simplify hx hy h
  case pow => exact has_power hx hy h
  case le =>
    unfold applyBinary
    dsimp only
    split
    · rename_i hnonneg
      cases h
      have hle := sub_nonneg.1 (nonneg_of_isNonnegative hnonneg (hdifference hy hx))
      exact has_ofInt.2 (by simp [indicator, hle])
    · exact has_makeBinary hx hy h
  case lt =>
    unfold applyBinary
    dsimp only
    split
    · rename_i hnonneg
      cases h
      have hle := sub_nonneg.1 (nonneg_of_isNonnegative hnonneg (hdifference hx hy))
      exact has_ofInt.2 (by simp [indicator, hle])
    · exact has_makeBinary hx hy h
  case eq | ne =>
    unfold applyBinary
    dsimp only
    split
    · rename_i hequal
      cases h
      cases hx.eq_of_isEqual hy hequal
      exact has_ofInt.2 (by simp [indicator])
    · exact has_makeBinary hx hy h
  all_goals exact has_makeBinary hx hy h

/-- A conditional zero is the second operand where the condition holds. Where it does not hold,
the second operand need not have a value. -/
lemma has_applyBinary_ifElseZero (hx : Has inputs x s) (hy : s ≠ 0 → Has inputs y t) :
    Has inputs (applyBinary .exact place .ifElseZero x y) (if s = 0 then 0 else t) := by
  have hmake {c : Option ℝ} (hc : c = some s) :
      Arithmetic.exact.binary .ifElseZero c (y.value .exact inputs) =
        some (if s = 0 then 0 else t) := by
    rw [hc]
    change (if s = 0 then some 0 else y.value .exact inputs) = _
    split
    · rfl
    · rename_i hs
      exact hy hs
  unfold applyBinary
  dsimp only
  split
  · rename_i hzero
    cases y with
    | constant c =>
      have hc : c = some ((0 : ℤ) : ℝ) := of_decide_eq_true hzero
      split
      · rw [has_constant, hc, Int.cast_zero]
      · rename_i hs
        exact hy hs
    | _ => cases hzero
  · cases x with
    | constant c =>
      have hc := has_constant.1 hx
      dsimp only
      split
      · rename_i hzero
        have hs : c = some 0 := of_decide_eq_true hzero
        rw [hc] at hs
        cases hs
        exact has_ofInt.2 (by simp)
      · rename_i hzero
        have hs : s ≠ 0 := by
          rintro rfl
          exact hzero (decide_eq_true hc)
        rw [if_neg hs]
        exact hy hs
    | _ => cases y <;> exact hmake hx

/-- Whether a negation holds does not depend on what stands under it. -/
lemma has_applyUnary_not (hx : Has inputs x s) :
    ∃ r, Has inputs (applyUnary .exact place .not x) r ∧ (r = 0 ↔ s ≠ 0) := by
  by_cases hform : ∃ p a, x = unary p .not a
  · obtain ⟨p, a, rfl⟩ := hform
    obtain ⟨u, hu, hnot⟩ := has_unary.1 hx
    cases hnot
    exact ⟨u, hu, by simp [indicator]⟩
  · refine ⟨indicator (s = 0), has_applyUnary hx rfl fun _ p a h => absurd ⟨p, a, h⟩ hform, ?_⟩
    simp [indicator]

end Node
end NamedSlots.Graph
