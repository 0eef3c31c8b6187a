import NamedSlots.Proofs.RealFunctions
import NamedSlots.Proofs.ScalarSemantics

/-!
# Scalars over the real numbers

The interpreter over real numbers: nothing is rounded, and integers do not wrap around. Every
operator then has its documented value on the numbers that its operands stand for, with two
exceptions: the sum of two truth values that are single elements is their disjunction, and the
remainder of a division of integers by zero is zero.
-/

namespace NamedSlots

open RealFunction

/-- The interpreter's arithmetic over real numbers; element types hold all integers. An operator
gives none where it has no value. -/
noncomputable def ScalarArithmetic.exact : ScalarArithmetic ℝ where
  ofFloat := realOf?
  ofInt? n := some n
  ofInt n := n
  truncated := truncate
  fits _ _ _ := true
  wrap _ _ n := some n
  intPower _ _ m n := if 0 ≤ n then some (m ^ n.toNat) else none
  round _ x := x
  isTrue x := decide (x ≠ 0)
  isNaN _ := false
  same x y := decide (x = y)
  order? x y := some (compare x y)
  orderInt? n x := some (compare (n : ℝ) x)
  unary op x := op.onReals x
  binary op x y := op.onReals x y
  ratio m n := BinaryOp.onReals m n .div
  plain op x y := op.onReals x y

namespace RealNumber

variable {n m k : RealNumber ℝ} {x : ℝ} {i : Int} {t : ElementType}

/-- How wide a number is: a truth value, an integer or a real number. -/
def rank : RealNumber ℝ → Nat
  | bool _ => 0
  | int _ => 1
  | real _ => 2

@[simp] lemma toReal_bool {b : Bool} : (bool b).toReal .exact = if b then 1 else 0 := by
  cases b <;> simp [toReal, ScalarArithmetic.exact, Number.ofBool]

lemma toReal_decide {p : Prop} [Decidable p] :
    (bool (decide p)).toReal .exact = indicator p := by
  simp [indicator]

@[simp] lemma toReal_int : (int i).toReal .exact = i := rfl

@[simp] lemma toReal_real : (real x).toReal .exact = x := rfl

@[simp] lemma toReal?_exact : n.toReal? .exact = some (n.toReal .exact) := by
  cases n <;> rfl

lemma toReal_of_toInt? (h : n.toInt? = some i) : n.toReal .exact = i := by
  cases n <;> cases h <;> rfl

lemma toInt?_of_rank (h : n.rank ≤ 1) : ∃ i, n.toInt? = some i ∧ n.toReal .exact = i := by
  cases n with
  | bool b => exact ⟨_, rfl, rfl⟩
  | int i => exact ⟨_, rfl, rfl⟩
  | real x => exact absurd h (by simp [rank])

lemma eq_bool_of_rank (h : n.rank ≤ 0) : ∃ b, n = bool b := by
  cases n with
  | bool b => exact ⟨b, rfl⟩
  | _ => exact absurd h (by simp [rank])

lemma isTrue_exact : n.isTrue .exact = decide (n.toReal .exact ≠ 0) := by
  cases n with
  | bool b => cases b <;> simp [isTrue]
  | int i => simp [isTrue, bne, BEq.beq]
  | real x => rfl

lemma compare_cast (i j : Int) : compare (i : ℝ) (j : ℝ) = compare i j := by
  rw [← cmp_eq_compare, ← cmp_eq_compare, Int.cast_strictMono.cmp_map_eq]

lemma order?_exact : order? .exact n m = some (compare (n.toReal .exact) (m.toReal .exact)) := by
  have hreal (x : ℝ) (i : Int) :
      (ScalarArithmetic.exact.orderInt? i x).map Ordering.swap = some (compare x i) := by
    change some (compare (i : ℝ) x).swap = _
    rw [← cmp_eq_compare, cmp_swap, cmp_eq_compare]
  have hint (i j : Int) : some (compare i j) = some (compare (i : ℝ) (j : ℝ)) := by
    rw [compare_cast]
  cases n <;> cases m
  case real.real => rfl
  case real.bool x b => exact hreal x _
  case real.int x i => exact hreal x i
  case bool.real | int.real => rfl
  all_goals exact hint _ _

lemma ordered_exact {test : Ordering → Bool} {p : Prop} [Decidable p]
    (hp : test (compare (n.toReal .exact) (m.toReal .exact)) = true ↔ p) :
    ordered .exact test n m = decide p := by
  rw [ordered, order?_exact, Bool.eq_iff_iff, decide_eq_true_iff]
  exact hp

lemma ordered_lt :
    ordered .exact (· == .lt) n m = decide (n.toReal .exact < m.toReal .exact) :=
  ordered_exact (by rw [beq_iff_eq, compare_lt_iff_lt])

lemma ordered_le :
    ordered .exact (· != .gt) n m = decide (n.toReal .exact ≤ m.toReal .exact) :=
  ordered_exact (by rw [bne_iff_ne, compare_le_iff_le])

lemma ordered_gt :
    ordered .exact (· == .gt) n m = decide (m.toReal .exact < n.toReal .exact) :=
  ordered_exact (by rw [beq_iff_eq, compare_gt_iff_gt])

lemma ordered_ge :
    ordered .exact (· != .lt) n m = decide (m.toReal .exact ≤ n.toReal .exact) :=
  ordered_exact (by rw [bne_iff_ne, compare_ge_iff_ge])

lemma same_exact : same .exact n m = decide (n.toReal .exact = m.toReal .exact) := by
  have hreal (x : ℝ) (i : Int) :
      (ScalarArithmetic.exact.orderInt? i x == some .eq) = decide ((i : ℝ) = x) := by
    change (some (compare (i : ℝ) x) == some .eq) = _
    rw [Bool.eq_iff_iff, beq_iff_eq, decide_eq_true_iff, Option.some.injEq, compare_eq_iff_eq]
  have hint (i j : Int) : (some i == some j) = decide ((i : ℝ) = (j : ℝ)) := by
    rw [Bool.eq_iff_iff, beq_iff_eq, decide_eq_true_iff, Option.some.injEq, Int.cast_inj]
  cases n <;> cases m
  case real.real => rfl
  case real.bool x b =>
    rw [decide_eq_decide.2 eq_comm]
    exact hreal x _
  case real.int x i =>
    rw [decide_eq_decide.2 eq_comm]
    exact hreal x i
  case bool.real b x => exact hreal x _
  case int.real i x => exact hreal x i
  all_goals exact hint _ _

/-! ### Plain numbers -/

lemma neg_exact (h : n.neg .exact = some m) : -n.toReal .exact = m.toReal .exact := by
  cases n <;> cases h <;> simp [Number.ofBool]

lemma lift_exact {op : BinaryOp} {onInt : Int → Int → Option (RealNumber ℝ)}
    (hint : ∀ {i j r}, onInt i j = some r → op.onReals (i : ℝ) j = some (r.toReal .exact))
    (h : lift .exact onInt (ScalarArithmetic.exact.plain op) n m = some k) :
    op.onReals (n.toReal .exact) (m.toReal .exact) = some (k.toReal .exact) := by
  unfold lift at h
  split at h
  · rename_i i j hn hm
    rw [toReal_of_toInt? hn, toReal_of_toInt? hm]
    exact hint h
  · simp only [toReal?_exact, Option.bind_eq_bind, Option.bind_some, Option.pure_def,
      Option.bind_eq_some_iff, Option.some.injEq] at h
    obtain ⟨r, hr, rfl⟩ := h
    exact hr

lemma intPow_eq_ok {i r : Int} {e : Nat} (h : Number.intPow i e = .ok (.int r)) : r = i ^ e := by
  unfold Number.intPow at h
  split at h
  · -- the powers of 0, 1 and -1
    rename_i hsmall
    cases h
    have hi : i = 0 ∨ i = 1 ∨ i = -1 := by omega
    split
    · rename_i he
      rw [he, pow_zero]
    rename_i he
    split
    · rename_i heven
      have heven := Nat.even_iff.2 heven
      rcases hi with rfl | rfl | rfl
      · simp [he]
      · simp
      · simp [heven.neg_one_pow]
    · rename_i hodd
      have hodd := Nat.odd_iff.2 (Nat.mod_two_ne_zero.1 hodd)
      rcases hi with rfl | rfl | rfl
      · simp [he]
      · simp
      · simp [hodd.neg_one_pow]
  split at h
  · cases h
    have hsize : ((Nat.pow i.natAbs e : Nat) : Int) = |i| ^ e := by
      rw [Nat.pow_eq, Nat.cast_pow, Int.natCast_natAbs]
    rw [hsize]
    split
    · rename_i hneg
      rw [abs_of_neg hneg.1, (Nat.odd_iff.2 hneg.2).neg_pow, neg_neg]
    · rename_i hneg
      rcases le_or_gt 0 i with hi | hi
      · rw [abs_of_nonneg hi]
      · have heven : Even e := Nat.not_odd_iff_even.1 fun hodd => hneg ⟨hi, Nat.odd_iff.1 hodd⟩
        rw [abs_of_neg hi, heven.neg_pow]
  · cases h

lemma power_intCast {i j : Int} (hj : 0 ≤ j) : power (i : ℝ) j = some ((i ^ j.toNat : Int) : ℝ) := by
  unfold power
  rw [wholeNumber?_eq_some.2 rfl]
  refine given_eq_some.2 ⟨.inl hj, ?_⟩
  rw [Int.cast_pow, ← zpow_natCast, Int.toNat_of_nonneg hj]

lemma intPower_exact {i j : Int} (h : intPower .exact i j = some k) :
    power (i : ℝ) j = some (k.toReal .exact) := by
  unfold intPower at h
  split at h
  · rename_i hj
    split at h
    · rename_i r hr
      cases h
      rw [intPow_eq_ok hr]
      exact power_intCast hj
    · cases h
  · simp only [Option.bind_eq_bind, Option.pure_def, Option.bind_eq_some_iff,
      Option.some.injEq] at h
    obtain ⟨x, hx, y, hy, r, hr, rfl⟩ := h
    cases hx
    cases hy
    exact hr

/-- An operator between plain numbers has its documented value. -/
lemma plain_exact {op : BinaryOp} (h : plain .exact op n m = some k) :
    op.onReals (n.toReal .exact) (m.toReal .exact) = some (k.toReal .exact) := by
  cases op
  case add | sub | mul =>
    refine lift_exact (fun {i j r} h => ?_) h
    cases h
    simp [BinaryOp.onReals]
  case div =>
    refine lift_exact (fun {i j r} h => ?_) h
    obtain ⟨x, hx, rfl⟩ := Option.map_eq_some_iff.1 h
    exact hx
  case pow => exact lift_exact intPower_exact h
  case lt | le | gt | ge | eq | ne =>
    cases h
    simp only [ordered_lt, ordered_le, ordered_gt, ordered_ge, same_exact, ← decide_not,
      toReal_decide]
    rfl
  all_goals cases h

end RealNumber

/-! ### Elements -/

/-- How wide the numbers of an element type are. -/
def ElementType.rank : ElementType → Nat
  | bool => 0
  | int _ _ => 1
  | real _ => 2
  | complex _ => 3

lemma ElementType.rank_le_of_floating {t : ElementType} {p : Precision}
    (h : t.floating = .real p) : t.rank ≤ (ElementType.real p).rank := by
  cases t with
  | complex q => cases h
  | bool => exact Nat.zero_le 2
  | int s b => exact one_le_two
  | real q => exact le_rfl

namespace RealNumber

variable {n m : RealNumber ℝ} {t : ElementType}

/-- A conversion to a type that is wide enough keeps the number. -/
lemma cast_exact (h : n.cast .exact t = some m) (hn : n.rank ≤ t.rank) :
    m.toReal .exact = n.toReal .exact ∧ m.rank ≤ t.rank := by
  cases t with
  | bool =>
    obtain ⟨b, rfl⟩ := eq_bool_of_rank hn
    cases h
    exact ⟨rfl, le_rfl⟩
  | int s b =>
    obtain ⟨i, hi, hreal⟩ := toInt?_of_rank hn
    cases n with
    | real x => cases hi
    | _ =>
      cases hi
      cases h
      exact ⟨hreal.symm, le_rfl⟩
  | real p =>
    cases h
    exact ⟨rfl, le_rfl⟩
  | complex p => cases h

end RealNumber

namespace UnaryStep

variable {op : UnaryOp} {t : ElementType} {step : UnaryStep ℝ}

/-- An operation gives an operator its documented value. -/
def Computes (step : UnaryStep ℝ) (op : UnaryOp) : Prop :=
  ∀ n m : RealNumber ℝ, n.rank ≤ step.input.rank → step.apply n = some m →
    op.onReals (n.toReal .exact) = some (m.toReal .exact) ∧ m.rank ≤ step.output.rank

lemma computes_ints {s : Bool} {b : Nat} {f : Int → Int}
    (hf : ∀ i : Int, op.onReals (i : ℝ) = some (f i : ℝ)) :
    Computes ⟨.int s b, .int s b, ints .exact s b f⟩ op := by
  intro n m hn h
  obtain ⟨i, hi, hreal⟩ := RealNumber.toInt?_of_rank hn
  cases h
  rw [hreal, hf, hi]
  exact ⟨rfl, le_rfl⟩

lemma computes_reals {p q : Precision} {f : ℝ → Option ℝ} (hf : ∀ x, op.onReals x = f x) :
    Computes ⟨.real p, .real p, reals .exact q f⟩ op := by
  intro n m _ h
  obtain ⟨x, hx, rfl⟩ := Option.map_eq_some_iff.1 h
  rw [hf, hx]
  exact ⟨rfl, le_rfl⟩

lemma computes_some (hop : ∀ n : RealNumber ℝ, n.rank ≤ t.rank →
    op.onReals (n.toReal .exact) = some (n.toReal .exact)) : Computes ⟨t, t, some⟩ op := by
  intro n m hn h
  cases h
  exact ⟨hop n hn, hn⟩

lemma computes_not :
    Computes ⟨t, .bool, fun n => some (.bool (!n.isTrue .exact))⟩ .not := by
  intro n m _ h
  cases h
  simp only [RealNumber.isTrue_exact, ← decide_not, not_not, RealNumber.toReal_decide]
  exact ⟨rfl, le_rfl⟩

lemma sign_intCast (i : Int) : Real.sign (i : ℝ) = i.sign := by
  rcases lt_trichotomy i 0 with hi | rfl | hi
  · rw [Real.sign_of_neg (Int.cast_lt_zero.2 hi), Int.sign_eq_neg_one_of_neg hi, Int.cast_neg,
      Int.cast_one]
  · simp
  · rw [Real.sign_of_pos (Int.cast_pos.2 hi), Int.sign_eq_one_of_pos hi, Int.cast_one]

lemma computes_of_floating (h : floating .exact op t = some step) :
    t.rank ≤ step.input.rank ∧ step.Computes op := by
  unfold floating at h
  split at h
  · rename_i p hp
    cases h
    exact ⟨ElementType.rank_le_of_floating hp, computes_reals fun _ => rfl⟩
  · cases h

lemma computes_of_select (h : select .exact op t = some step) :
    t.rank ≤ step.input.rank ∧ step.Computes op := by
  cases op
  case sum | prod | norm => cases h
  case not => cases t <;> cases h <;> exact ⟨le_rfl, computes_not⟩
  case neg | sign =>
    cases t <;> cases h
    · exact ⟨le_rfl, computes_ints fun i => by simp [UnaryOp.onReals, sign_intCast]⟩
    · exact ⟨le_rfl, computes_reals fun _ => rfl⟩
  case abs =>
    cases t <;> cases h
    · refine ⟨le_rfl, computes_some fun n hn => ?_⟩
      obtain ⟨_ | _, rfl⟩ := RealNumber.eq_bool_of_rank hn <;> simp [UnaryOp.onReals]
    · exact ⟨le_rfl, computes_ints fun i => by simp [UnaryOp.onReals]⟩
    · exact ⟨le_rfl, computes_reals fun _ => rfl⟩
  case floor | ceil =>
    have hint (t : ElementType) (ht : t.rank ≤ 1) (n : RealNumber ℝ) (hn : n.rank ≤ t.rank) :
        (⌊n.toReal .exact⌋ : ℝ) = n.toReal .exact ∧ (⌈n.toReal .exact⌉ : ℝ) = n.toReal .exact := by
      obtain ⟨i, _, hi⟩ := RealNumber.toInt?_of_rank (hn.trans ht)
      simp [hi]
    cases t <;> cases h
    · exact ⟨le_rfl, computes_some fun n hn => by
        simp [UnaryOp.onReals, hint .bool (Nat.zero_le 1) n hn]⟩
    · exact ⟨le_rfl, computes_some fun n hn => by
        simp [UnaryOp.onReals, hint (.int _ _) le_rfl n hn]⟩
    · exact ⟨le_rfl, computes_reals fun _ => rfl⟩
  all_goals exact computes_of_floating h

end UnaryStep

namespace BinaryStep

variable {op : BinaryOp} {t u : ElementType} {step : BinaryStep ℝ}

/-- Where the operation on elements is not the documented operator. -/
def IsIrregular (op : BinaryOp) (output : ElementType) (x y : ℝ) : Prop :=
  op = .add ∧ output = .bool ∧ x ≠ 0 ∧ y ≠ 0 ∨ op = .mod ∧ y = 0

/-- An operation gives an operator its documented value, except where it is irregular. -/
def Computes (step : BinaryStep ℝ) (op : BinaryOp) : Prop :=
  ∀ n m k : RealNumber ℝ, n.rank ≤ step.input.rank → m.rank ≤ step.input.rank →
    step.apply n m = some k → k.rank ≤ step.output.rank ∧
      (¬ IsIrregular op step.output (n.toReal .exact) (m.toReal .exact) →
        op.onReals (n.toReal .exact) (m.toReal .exact) = some (k.toReal .exact))

lemma computes_ints {s : Bool} {b : Nat} {f : Int → Int → Int}
    (hf : ∀ i j : Int, ¬ IsIrregular op (.int s b) i j →
      op.onReals (i : ℝ) (j : ℝ) = some (f i j : ℝ)) :
    Computes ⟨.int s b, .int s b, ints .exact s b f⟩ op := by
  intro n m k hn hm h
  obtain ⟨i, hi, hni⟩ := RealNumber.toInt?_of_rank hn
  obtain ⟨j, hj, hmj⟩ := RealNumber.toInt?_of_rank hm
  cases h
  rw [hi, hj, hni, hmj]
  exact ⟨le_rfl, hf i j⟩

lemma computes_powers {s : Bool} {b : Nat} :
    Computes ⟨.int s b, .int s b, powers .exact s b⟩ .pow := by
  intro n m k hn hm h
  obtain ⟨i, hi, hni⟩ := RealNumber.toInt?_of_rank hn
  obtain ⟨j, hj, hmj⟩ := RealNumber.toInt?_of_rank hm
  obtain ⟨r, hr, rfl⟩ := Option.map_eq_some_iff.1 h
  rw [hi, hj] at hr
  obtain ⟨hnonneg, hpower⟩ := Option.ite_none_right_eq_some.1 hr
  cases hpower
  rw [hni, hmj]
  exact ⟨le_rfl, fun _ => RealNumber.power_intCast hnonneg⟩

lemma computes_reals {p q : Precision} {f : ℝ → ℝ → Option ℝ}
    (hf : ∀ x y, op.onReals x y = f x y) :
    Computes ⟨.real p, .real p, reals .exact q f⟩ op := by
  intro n m k _ _ h
  obtain ⟨x, hx, rfl⟩ := Option.map_eq_some_iff.1 h
  rw [hf, hx]
  exact ⟨le_rfl, fun _ => rfl⟩

lemma computes_test {f : RealNumber ℝ → RealNumber ℝ → Bool} {p : ℝ → ℝ → Prop}
    [∀ x y, Decidable (p x y)]
    (hop : ∀ x y, op.onReals x y = some (indicator (p x y)))
    (hf : ∀ n m, f n m = decide (p (n.toReal .exact) (m.toReal .exact))) :
    Computes ⟨t, .bool, test f⟩ op := by
  intro n m k _ _ h
  cases h
  rw [hf, RealNumber.toReal_decide, hop]
  exact ⟨le_rfl, fun _ => rfl⟩

lemma computes_of_testing {f : RealNumber ℝ → RealNumber ℝ → Bool} {p : ℝ → ℝ → Prop}
    [∀ x y, Decidable (p x y)] (h : testing f t = some step)
    (hop : ∀ x y, op.onReals x y = some (indicator (p x y)))
    (hf : ∀ n m, f n m = decide (p (n.toReal .exact) (m.toReal .exact))) :
    t.rank ≤ step.input.rank ∧ step.Computes op := by
  cases t <;> cases h <;> exact ⟨le_rfl, computes_test hop hf⟩

lemma fdiv_eq_floor (i j : Int) : Int.fdiv i j = ⌊(i : ℝ) / j⌋ := by
  have hnonneg (i : Int) (j : Nat) : Int.fdiv i j = ⌊(i : ℝ) / (j : ℝ)⌋ := by
    rw [Int.fdiv_eq_ediv_of_nonneg i (Int.natCast_nonneg j), Int.floor_div_natCast,
      Int.floor_intCast]
  obtain ⟨k, rfl | rfl⟩ := Int.eq_nat_or_neg j
  · exact hnonneg i k
  · have h := hnonneg (-i) k
    push_cast at h ⊢
    rw [div_neg, ← neg_div, ← h, ← Int.neg_fdiv_neg, neg_neg]

lemma intRemainder_exact {i j : Int} (hj : j ≠ 0) :
    flooredRemainder (i : ℝ) j = some (intRemainder i j : ℝ) := by
  refine given_eq_some.2 ⟨Int.cast_ne_zero.2 hj, ?_⟩
  rw [intRemainder, if_neg hj, Int.fmod_def, ← fdiv_eq_floor]
  push_cast
  rfl

lemma computes_disjunction :
    Computes ⟨.bool, .bool, test fun a b => a.isTrue .exact || b.isTrue .exact⟩ .add := by
  intro n m k hn hm h
  cases h
  refine ⟨le_rfl, fun hregular => ?_⟩
  obtain ⟨_ | _, rfl⟩ := RealNumber.eq_bool_of_rank hn <;>
    obtain ⟨_ | _, rfl⟩ := RealNumber.eq_bool_of_rank hm
  case true.true => exact absurd (.inl ⟨rfl, rfl, by simp, by simp⟩) hregular
  all_goals simp [BinaryOp.onReals, RealNumber.isTrue]

lemma computes_conjunction :
    Computes ⟨.bool, .bool, test fun a b => a.isTrue .exact && b.isTrue .exact⟩ .mul := by
  intro n m k hn hm h
  cases h
  refine ⟨le_rfl, fun _ => ?_⟩
  obtain ⟨_ | _, rfl⟩ := RealNumber.eq_bool_of_rank hn <;>
    obtain ⟨_ | _, rfl⟩ := RealNumber.eq_bool_of_rank hm <;>
    simp [BinaryOp.onReals, RealNumber.isTrue]

lemma extremum_eq {n m : RealNumber ℝ} {wanted : Ordering} :
    extremum .exact wanted n m =
      if compare (n.toReal .exact) (m.toReal .exact) = wanted then n else m := by
  have hnan : n.isNaN .exact = false := by cases n <;> rfl
  unfold extremum
  rw [hnan, RealNumber.order?_exact]
  simp

lemma computes_extremum {wanted : Ordering}
    (hop : ∀ x y : ℝ, op.onReals x y = some (if compare x y = wanted then x else y)) :
    Computes ⟨t, t, fun a b => some (extremum .exact wanted a b)⟩ op := by
  intro n m k hn hm h
  cases h
  rw [extremum_eq, hop]
  split
  · exact ⟨hn, fun _ => rfl⟩
  · exact ⟨hm, fun _ => rfl⟩

lemma min_eq_ite (x y : ℝ) : Min.min x y = if compare x y = .lt then x else y := by
  split
  · rename_i h
    exact min_eq_left (compare_lt_iff_lt.1 h).le
  · rename_i h
    exact min_eq_right (not_lt.1 (mt compare_lt_iff_lt.2 h))

lemma max_eq_ite (x y : ℝ) : Max.max x y = if compare x y = .gt then x else y := by
  split
  · rename_i h
    exact max_eq_left (compare_gt_iff_gt.1 h).le
  · rename_i h
    exact max_eq_right (not_lt.1 (mt compare_gt_iff_gt.2 h))

lemma computes_of_select (h : select .exact op t = some step) :
    t.rank ≤ step.input.rank ∧ step.Computes op := by
  cases op
  case dot => cases h
  case add | sub | mul =>
    cases t <;> simp only [select, arithmetic, Option.map_some, Option.map_none] at h <;> cases h
    all_goals first
      | exact ⟨le_rfl, computes_disjunction⟩
      | exact ⟨le_rfl, computes_conjunction⟩
      | exact ⟨le_rfl, computes_ints fun i j _ => by simp [BinaryOp.onReals]⟩
      | exact ⟨le_rfl, computes_reals fun _ _ => rfl⟩
  case div =>
    cases t <;> cases h
    · exact ⟨Nat.zero_le 2, computes_reals fun _ _ => rfl⟩
    · exact ⟨one_le_two, computes_reals fun _ _ => rfl⟩
    · exact ⟨le_rfl, computes_reals fun _ _ => rfl⟩
  case pow =>
    cases t <;> cases h
    · exact ⟨Nat.zero_le 1, computes_powers⟩
    · exact ⟨le_rfl, computes_powers⟩
    · exact ⟨le_rfl, computes_reals fun _ _ => rfl⟩
  case mod =>
    have hremainder (s : Bool) (b : Nat) :
        Computes ⟨.int s b, .int s b, ints .exact s b intRemainder⟩ .mod :=
      computes_ints fun i j hregular =>
        intRemainder_exact fun hj => hregular (.inr ⟨rfl, Int.cast_eq_zero.2 hj⟩)
    cases t <;> cases h
    · exact ⟨Nat.zero_le 1, hremainder true 8⟩
    · exact ⟨le_rfl, hremainder _ _⟩
    · exact ⟨le_rfl, computes_reals fun _ _ => rfl⟩
  case lt => exact computes_of_testing h (fun _ _ => rfl) fun _ _ => RealNumber.ordered_lt
  case le => exact computes_of_testing h (fun _ _ => rfl) fun _ _ => RealNumber.ordered_le
  case gt => exact computes_of_testing h (fun _ _ => rfl) fun _ _ => RealNumber.ordered_gt
  case ge => exact computes_of_testing h (fun _ _ => rfl) fun _ _ => RealNumber.ordered_ge
  case eq => exact computes_of_testing h (fun _ _ => rfl) fun _ _ => RealNumber.same_exact
  case ne =>
    exact computes_of_testing h (fun _ _ => rfl) fun n m => by
      rw [RealNumber.same_exact, ← decide_not]
  case and =>
    exact computes_of_testing h (fun _ _ => rfl) fun n m => by
      rw [RealNumber.isTrue_exact, RealNumber.isTrue_exact, ← Bool.decide_and]
  case or =>
    exact computes_of_testing h (fun _ _ => rfl) fun n m => by
      rw [RealNumber.isTrue_exact, RealNumber.isTrue_exact, ← Bool.decide_or]
  case min =>
    cases t <;> cases h <;>
      exact ⟨le_rfl, computes_extremum fun x y => congrArg some (min_eq_ite x y)⟩
  case max =>
    cases t <;> cases h <;>
      exact ⟨le_rfl, computes_extremum fun x y => congrArg some (max_eq_ite x y)⟩
  case atan2 =>
    simp only [select] at h
    split at h
    · rename_i p hp
      cases h
      exact ⟨ElementType.rank_le_of_floating hp, computes_reals fun _ _ => rfl⟩
    · cases h

end BinaryStep

/-! ### Operators on scalars -/

namespace ElementType

variable (s t : ElementType)

lemma rank_le_join : s.rank ≤ (s.join t).rank ∧ t.rank ≤ (s.join t).rank := by
  rcases s with _ | ⟨_ | _, a⟩ | p | p <;> rcases t with _ | ⟨_ | _, b⟩ | q | q <;>
    simp only [join] <;> (try split) <;> (try split) <;> simp [rank]

lemma rank_le_weakType :
    s.rank ≤ (Value.weakType s t).rank ∧ t.rank ≤ (Value.weakType s t).rank := by
  rcases s with _ | _ | (_ | _ | _) | _ <;> rcases t with _ | _ | _ | _ <;>
    simp [Value.weakType, rank]

end ElementType

namespace Scalar

variable {a b c : Scalar ℝ} {t : ElementType}

/-- The real number that a scalar stands for; truth values are 0 and 1. -/
noncomputable def toReal (a : Scalar ℝ) : ℝ := a.number.toReal .exact

/-- The number of a scalar is not wider than its type. -/
def IsTyped (a : Scalar ℝ) : Prop := ∀ t, a.type? .exact = some t → a.number.rank ≤ t.rank

lemma isTyped_plain (n : RealNumber ℝ) : (plain n).IsTyped := by
  intro t ht
  cases n with
  | bool b => exact Nat.zero_le _
  | int i =>
    cases ht
    exact le_rfl
  | real x =>
    cases ht
    exact le_rfl

lemma isTyped_element {n : RealNumber ℝ} : (element t n).IsTyped ↔ n.rank ≤ t.rank :=
  ⟨fun h => h t rfl, fun h _ ht => Option.some.inj ht ▸ h⟩

lemma rank_le_meet (ha : a.IsTyped) (hb : b.IsTyped) (h : a.meet .exact b = some t) :
    a.number.rank ≤ t.rank ∧ b.number.rank ≤ t.rank := by
  simp only [meet, Option.bind_eq_bind, Option.bind_eq_some_iff] at h
  obtain ⟨s, hs, u, hu, h⟩ := h
  have hsa := ha s hs
  have hub := hb u hu
  split at h <;> cases h
  · exact ⟨hsa.trans (s.rank_le_weakType u).1, hub.trans (s.rank_le_weakType u).2⟩
  · exact ⟨hsa.trans (u.rank_le_weakType s).2, hub.trans (u.rank_le_weakType s).1⟩
  · exact ⟨hsa.trans (s.rank_le_join u).1, hub.trans (s.rank_le_join u).2⟩

lemma operand_exact {isExact : Bool} {x : RealNumber ℝ} (h : a.operand .exact isExact t = some x)
    (ha : a.number.rank ≤ t.rank) : x.toReal .exact = a.toReal ∧ x.rank ≤ t.rank := by
  cases isExact with
  | true =>
    cases h
    exact ⟨rfl, ha⟩
  | false => exact RealNumber.cast_exact h ha

/-- Where an operator of the interpreter is not the documented one: the sum of two truth values
that are both true is a truth value, or the divisor of a remainder is zero. -/
def IsIrregular (op : BinaryOp) (a b c : Scalar ℝ) : Prop :=
  op = .add ∧ c.type? .exact = some .bool ∧ a.toReal ≠ 0 ∧ b.toReal ≠ 0 ∨ op = .mod ∧ b.toReal = 0

lemma combine_exact {op : BinaryOp} (ha : a.IsTyped) (hb : b.IsTyped)
    (h : combine .exact op a b = some c) :
    c.IsTyped ∧ (¬ IsIrregular op a b c → op.onReals a.toReal b.toReal = some c.toReal) := by
  obtain ⟨t, step, x, y, n, ht, hstep, _, hx, hy, hn, rfl⟩ := combine_eq_some.1 h
  obtain ⟨hinput, hcomputes⟩ := BinaryStep.computes_of_select hstep
  obtain ⟨hat, hbt⟩ := rank_le_meet ha hb ht
  obtain ⟨hxa, hxt⟩ := operand_exact hx (hat.trans hinput)
  obtain ⟨hyb, hyt⟩ := operand_exact hy (hbt.trans hinput)
  obtain ⟨hrank, hvalue⟩ := hcomputes x y n hxt hyt hn
  rw [hxa, hyb] at hvalue
  refine ⟨isTyped_element.2 hrank, fun hregular => hvalue fun hirregular => hregular ?_⟩
  rcases hirregular with ⟨hop, hbool, hne⟩ | hzero
  · exact .inl ⟨hop, congrArg some hbool, hne⟩
  · exact .inr hzero

/-- An operator of two operands has its documented value, except where it is irregular. -/
theorem binary_exact {op : BinaryOp} (ha : a.IsTyped) (hb : b.IsTyped)
    (h : binary .exact op a b = some c) :
    c.IsTyped ∧ (¬ IsIrregular op a b c → op.onReals a.toReal b.toReal = some c.toReal) := by
  have hoperator (h : operator .exact op a b = some c) :
      c.IsTyped ∧ (¬ IsIrregular op a b c → op.onReals a.toReal b.toReal = some c.toReal) := by
    unfold operator at h
    split at h
    · obtain ⟨n, hn, rfl⟩ := Option.map_eq_some_iff.1 h
      exact ⟨isTyped_plain n, fun _ => RealNumber.plain_exact hn⟩
    · exact combine_exact ha hb h
  cases op
  case dot => cases h
  case and | or | atan2 | min | max | mod => exact combine_exact ha hb h
  all_goals exact hoperator h

/-- An operator of one operand has its documented value. -/
theorem unary_exact {op : UnaryOp} (ha : a.IsTyped) (h : unary .exact op a = some b) :
    b.IsTyped ∧ op.onReals a.toReal = some b.toReal := by
  have hfunction (h : elementwise .exact op a = some b) :
      b.IsTyped ∧ op.onReals a.toReal = some b.toReal := by
    obtain ⟨t, step, x, y, n, ht, hstep, hx, hy, hn, rfl⟩ := elementwise_eq_some.1 h
    obtain ⟨hinput, hcomputes⟩ := UnaryStep.computes_of_select hstep
    obtain ⟨hxa, hxt⟩ := RealNumber.cast_exact hx (ha t ht)
    obtain ⟨hyx, hyt⟩ := RealNumber.cast_exact hy (hxt.trans hinput)
    obtain ⟨hvalue, hrank⟩ := hcomputes y n hyt hn
    rw [hyx, hxa] at hvalue
    exact ⟨isTyped_element.2 hrank, hvalue⟩
  cases op
  case neg =>
    cases a with
    | plain n =>
      obtain ⟨m, hm, rfl⟩ := Option.map_eq_some_iff.1 h
      exact ⟨isTyped_plain m, congrArg some (RealNumber.neg_exact hm)⟩
    | element t n =>
      simp only [unary, Option.bind_eq_bind, Option.pure_def, Option.bind_eq_some_iff,
        Option.some.injEq] at h
      obtain ⟨step, hstep, m, hm, rfl⟩ := h
      obtain ⟨hinput, hcomputes⟩ := UnaryStep.computes_of_select hstep
      obtain ⟨hvalue, hrank⟩ := hcomputes n m ((isTyped_element.1 ha).trans hinput) hm
      exact ⟨isTyped_element.2 hrank, hvalue⟩
  all_goals exact hfunction h

lemma isTrue_eq : a.number.isTrue .exact = decide (a.toReal ≠ 0) := RealNumber.isTrue_exact

lemma ofLiteral_exact {x : Literal} (h : ofLiteral .exact x = some a) :
    a.IsTyped ∧ realOf? x.number = some a.toReal := by
  obtain ⟨r, hr, rfl⟩ := Option.map_eq_some_iff.1 h
  split
  · exact ⟨isTyped_element.2 le_rfl, hr⟩
  · exact ⟨isTyped_plain _, hr⟩

lemma ofStored_exact {v : Value} (h : ofStored .exact v = some a) :
    a.IsTyped ∧ ∃ x, v = .number (.real x) ∧ realOf? x = some a.toReal := by
  unfold ofStored at h
  split at h
  · rename_i x
    obtain ⟨r, hr, rfl⟩ := Option.map_eq_some_iff.1 h
    exact ⟨isTyped_plain _, x, rfl, hr⟩
  · cases h

end Scalar
end NamedSlots
