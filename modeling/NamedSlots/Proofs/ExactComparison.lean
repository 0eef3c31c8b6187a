import Mathlib
import NamedSlots.Number.Element

/-!
# Exact comparison of numbers

An integer and a floating number are compared by their exact values. A floating number that is not
zero is determined by its value, so that equality of numbers is symmetric and transitive across
their types.
-/

namespace NamedSlots

namespace FloatView

/-- The parts of a finite number, read off its bits. -/
lemma finite_cases {x : Float} {s : Bool} {m : Nat} {q : Int} (h : ofFloat x = .finite s m q) :
    (s = true ↔ 2 ^ 63 ≤ x.toBits.toNat) ∧
      ((x.toBits.toNat / 2 ^ 52 % 2 ^ 11 = 0 ∧ m = x.toBits.toNat % 2 ^ 52 ∧ q = -1074) ∨
        (x.toBits.toNat / 2 ^ 52 % 2 ^ 11 ≠ 0 ∧ m = 2 ^ 52 + x.toBits.toNat % 2 ^ 52 ∧
          q = ((x.toBits.toNat / 2 ^ 52 % 2 ^ 11 : Nat) : Int) - 1075)) := by
  have hview : ofFloat x =
      if x.toBits.toNat / 2 ^ 52 % 2 ^ 11 = 2047 then
        if x.toBits.toNat % 2 ^ 52 = 0 then .infinite (decide (2 ^ 63 ≤ x.toBits.toNat)) else .nan
      else if x.toBits.toNat / 2 ^ 52 % 2 ^ 11 = 0 then
        .finite (decide (2 ^ 63 ≤ x.toBits.toNat)) (x.toBits.toNat % 2 ^ 52) (-1074)
      else .finite (decide (2 ^ 63 ≤ x.toBits.toNat)) (2 ^ 52 + x.toBits.toNat % 2 ^ 52)
        (((x.toBits.toNat / 2 ^ 52 % 2 ^ 11 : Nat) : Int) - 1075) := rfl
  rw [hview] at h
  split_ifs at h with _ _ hbiased
  · injection h with hs hm hq
    exact ⟨by rw [← hs, decide_eq_true_eq], .inl ⟨hbiased, hm.symm, hq.symm⟩⟩
  · injection h with hs hm hq
    exact ⟨by rw [← hs, decide_eq_true_eq], .inr ⟨hbiased, hm.symm, hq.symm⟩⟩

/-- A mantissa has its full length unless the exponent is the least. -/
lemma mantissa_bounds {x : Float} {s : Bool} {m : Nat} {q : Int} (h : ofFloat x = .finite s m q) :
    m < 2 ^ 53 ∧ -1074 ≤ q ∧ (-1074 < q → 2 ^ 52 ≤ m) := by
  obtain ⟨_, ⟨_, hm, hq⟩ | ⟨_, hm, hq⟩⟩ := finite_cases h
  · omega
  · omega

/-- A finite number is determined by its parts. -/
lemma eq_of_ofFloat_eq {x y : Float} {s : Bool} {m : Nat} {q : Int}
    (hx : ofFloat x = .finite s m q) (hy : ofFloat y = .finite s m q) : x = y := by
  have hbx := x.toBits.toNat_lt
  have hby := y.toBits.toNat_lt
  obtain ⟨hsx, hpx⟩ := finite_cases hx
  obtain ⟨hsy, hpy⟩ := finite_cases hy
  rw [← Float.toBits_inj]
  refine UInt64.toNat_inj.1 ?_
  by_cases hs : s = true
  · have hx63 := hsx.1 hs
    have hy63 := hsy.1 hs
    omega
  · have hx63 := mt hsx.2 hs
    have hy63 := mt hsy.2 hs
    omega

/-- Two mantissas of one value at two exponents are the same, and so are the exponents. -/
lemma parts_eq {x y : Float} {s s' : Bool} {m m' : Nat} {q q' : Int}
    (hx : ofFloat x = .finite s m q) (hy : ofFloat y = .finite s' m' q') (hq : q ≤ q')
    (h : m * 2 ^ q.toNat * 2 ^ (-q').toNat = m' * 2 ^ q'.toNat * 2 ^ (-q).toNat) :
    m = m' ∧ (m = 0 ∨ q = q') := by
  obtain ⟨hm, hleast, _⟩ := mantissa_bounds hx
  obtain ⟨_, _, hfull⟩ := mantissa_bounds hy
  obtain ⟨d, hd⟩ : ∃ d : Nat, q' = q + d := ⟨(q' - q).toNat, by omega⟩
  have hexponent : q'.toNat + (-q).toNat = q.toNat + (-q').toNat + d := by omega
  have hscaled : m = m' * 2 ^ d := by
    refine Nat.eq_of_mul_eq_mul_right (Nat.two_pow_pos (q.toNat + (-q').toNat)) ?_
    calc m * 2 ^ (q.toNat + (-q').toNat) = m * 2 ^ q.toNat * 2 ^ (-q').toNat := by ring
      _ = m' * 2 ^ q'.toNat * 2 ^ (-q).toNat := h
      _ = m' * 2 ^ (q'.toNat + (-q).toNat) := by ring
      _ = m' * 2 ^ d * 2 ^ (q.toNat + (-q').toNat) := by rw [hexponent]; ring
  rcases Nat.eq_zero_or_pos d with rfl | hpos
  · rw [pow_zero, mul_one] at hscaled
    exact ⟨hscaled, .inr (by omega)⟩
  · -- a longer mantissa at the smaller exponent would be too long
    have htwo : 2 ≤ 2 ^ d := Nat.le_self_pow (by omega) 2
    have hlong : 2 ^ 52 ≤ m' := hfull (by omega)
    have hproduct : 2 ^ 52 * 2 ≤ m' * 2 ^ d := Nat.mul_le_mul hlong htwo
    omega

end FloatView

namespace Number

/-! ### An integer and a floating number -/

variable {n n' : Int} {x y : Float}

lemma compareInt_eq_iff :
    compareInt n x = some .eq ↔ ∃ s m q, FloatView.ofFloat x = .finite s m q ∧
      n * (2 ^ (-q).toNat : Nat) = if s then -((m * 2 ^ q.toNat : Nat) : Int) else (m * 2 ^ q.toNat : Nat) := by
  unfold compareInt
  cases hview : FloatView.ofFloat x with
  | nan => simp
  | infinite s => cases s <;> simp
  | finite s m q =>
    have hcompare : compare (n * (twoTo (-q).toNat : Nat))
        (if s then -((m * twoTo q.toNat : Nat) : Int) else (m * twoTo q.toNat : Nat)) = .eq ↔
        n * (2 ^ (-q).toNat : Nat) =
          if s then -((m * 2 ^ q.toNat : Nat) : Int) else (m * 2 ^ q.toNat : Nat) :=
      compare_eq_iff_eq
    constructor
    · intro h
      exact ⟨s, m, q, rfl, hcompare.1 (Option.some.inj h)⟩
    · rintro ⟨s', m', q', heq, h⟩
      cases heq
      exact congrArg some (hcompare.2 h)

/-- A floating number equals one integer. -/
lemma int_eq_of_compareInt (h : compareInt n x = some .eq) (h' : compareInt n' x = some .eq) :
    n = n' := by
  obtain ⟨s, m, q, hview, hn⟩ := compareInt_eq_iff.1 h
  obtain ⟨s', m', q', hview', hn'⟩ := compareInt_eq_iff.1 h'
  cases hview.symm.trans hview'
  have hpos : ((2 ^ (-q).toNat : Nat) : Int) ≠ 0 := by positivity
  exact mul_right_cancel₀ hpos (hn.trans hn'.symm)

lemma ofFloat_zero : FloatView.ofFloat 0 = .finite false 0 (-1074) := by decide

lemma ofFloat_neg_zero : FloatView.ofFloat (-0) = .finite true 0 (-1074) := by decide

lemma ne_nan_of_finite {s : Bool} {m : Nat} {q : Int} (h : FloatView.ofFloat x = .finite s m q) :
    x ≠ Float.nan := by
  rintro rfl
  have hnan : FloatView.ofFloat Float.nan = .nan := by decide
  rw [hnan] at h
  cases h

/-- A finite number without mantissa is one of the two zeros. -/
lemma eq_zero_of_mantissa {s : Bool} {q : Int} (h : FloatView.ofFloat x = .finite s 0 q) :
    x = 0 ∨ x = -0 := by
  obtain ⟨_, hleast, hfull⟩ := FloatView.mantissa_bounds h
  have hq : q = -1074 := by
    by_contra hne
    have := hfull (by omega)
    omega
  rw [hq] at h
  cases s with
  | false => exact .inl (FloatView.eq_of_ofFloat_eq h ofFloat_zero)
  | true => exact .inr (FloatView.eq_of_ofFloat_eq h ofFloat_neg_zero)

lemma beq_of_zeros (hx : x = 0 ∨ x = -0) (hy : y = 0 ∨ y = -0) : (x == y) = true := by
  rcases hx with rfl | rfl <;> rcases hy with rfl | rfl <;> decide

/-- The mantissa of a number that equals an integer has the magnitude of the integer, and its sign
unless it is zero. -/
lemma magnitude_of_compareInt {s : Bool} {m : Nat} {q : Int}
    (hview : FloatView.ofFloat x = .finite s m q) (h : compareInt n x = some .eq) :
    n.natAbs * 2 ^ (-q).toNat = m * 2 ^ q.toNat ∧ (m ≠ 0 → (s = true ↔ n < 0)) := by
  obtain ⟨s', m', q', hview', hn⟩ := compareInt_eq_iff.1 h
  cases hview.symm.trans hview'
  have hpos : (0 : Int) < (2 ^ (-q).toNat : Nat) := by positivity
  cases s with
  | false =>
    simp only [Bool.false_eq_true, if_false] at hn
    constructor
    · have habs := congrArg Int.natAbs hn
      rwa [Int.natAbs_mul, Int.natAbs_natCast, Int.natAbs_natCast] at habs
    · intro _
      have hnonneg : 0 ≤ n := nonneg_of_mul_nonneg_left (hn ▸ Int.natCast_nonneg _) hpos
      simp only [Bool.false_eq_true, false_iff, not_lt, hnonneg]
  | true =>
    simp only [if_true] at hn
    constructor
    · have habs := congrArg Int.natAbs hn
      rwa [Int.natAbs_mul, Int.natAbs_natCast, Int.natAbs_neg, Int.natAbs_natCast] at habs
    · intro hm
      have hproduct : (0 : Int) < (m * 2 ^ q.toNat : Nat) := by positivity
      have hnegative : n < 0 := neg_of_mul_neg_left (by omega) hpos.le
      simp only [hnegative]

lemma beq_of_compareInt_of_le {s s' : Bool} {m m' : Nat} {q q' : Int}
    (hx : FloatView.ofFloat x = .finite s m q) (hy : FloatView.ofFloat y = .finite s' m' q')
    (hq : q ≤ q') (h : compareInt n x = some .eq) (h' : compareInt n y = some .eq) :
    (x == y) = true := by
  obtain ⟨hmagnitude, hsign⟩ := magnitude_of_compareInt hx h
  obtain ⟨hmagnitude', hsign'⟩ := magnitude_of_compareInt hy h'
  have hvalue : m * 2 ^ q.toNat * 2 ^ (-q').toNat = m' * 2 ^ q'.toNat * 2 ^ (-q).toNat := by
    rw [← hmagnitude, ← hmagnitude']
    ring
  obtain ⟨rfl, hparts⟩ := FloatView.parts_eq hx hy hq hvalue
  by_cases hm : m = 0
  · subst hm
    exact beq_of_zeros (eq_zero_of_mantissa hx) (eq_zero_of_mantissa hy)
  · obtain rfl := hparts.resolve_left hm
    have hs : s = s' := Bool.eq_iff_iff.2 ((hsign hm).trans (hsign' hm).symm)
    rw [hs] at hx
    rw [FloatView.eq_of_ofFloat_eq hx hy]
    exact Float.beq_self_iff.2 (ne_nan_of_finite hy)

/-- Floating numbers that equal one integer are equal. -/
lemma beq_of_compareInt (h : compareInt n x = some .eq) (h' : compareInt n y = some .eq) :
    (x == y) = true := by
  obtain ⟨s, m, q, hx, _⟩ := compareInt_eq_iff.1 h
  obtain ⟨s', m', q', hy, _⟩ := compareInt_eq_iff.1 h'
  rcases le_total q q' with hq | hq
  · exact beq_of_compareInt_of_le hx hy hq h h'
  · exact PartialEquivBEq.symm (beq_of_compareInt_of_le hy hx hq h' h)

/-- A number without mantissa equals zero. -/
lemma compareInt_of_mantissa {s : Bool} {q : Int} (h : FloatView.ofFloat x = .finite s 0 q) :
    compareInt 0 x = some .eq := by
  refine compareInt_eq_iff.2 ⟨s, 0, q, h, ?_⟩
  rw [zero_mul, zero_mul]
  cases s <;> rfl

lemma compareInt_zero : compareInt 0 0 = some .eq := compareInt_of_mantissa ofFloat_zero

lemma compareInt_neg_zero : compareInt 0 (-0) = some .eq := compareInt_of_mantissa ofFloat_neg_zero

/-- A floating number that is equal to one that equals an integer equals that integer. -/
lemma compareInt_of_beq (h : compareInt n x = some .eq) (hxy : (x == y) = true) :
    compareInt n y = some .eq := by
  obtain ⟨_, _, rfl | ⟨rfl, rfl⟩ | ⟨rfl, rfl⟩⟩ := Float.beq_iff_ne_nan_and_eq.1 hxy
  · exact h
  · rw [int_eq_of_compareInt h compareInt_zero]
    exact compareInt_neg_zero
  · rw [int_eq_of_compareInt h compareInt_neg_zero]
    exact compareInt_zero

/-! ### Numbers of any type -/

/-- A number that is not complex: a floating number, or an integer. -/
def exact : Number → Float ⊕ Option Int
  | real x => .inl x
  | n => .inr n.toInt?

/-- Equality of floating numbers and integers, by their exact values. -/
def sameExact : Float ⊕ Option Int → Float ⊕ Option Int → Bool
  | .inl x, .inl y => x == y
  | .inl x, .inr n => (n.bind fun n => compareInt n x) == some .eq
  | .inr n, .inl y => (n.bind fun n => compareInt n y) == some .eq
  | .inr m, .inr n => m == n

lemma sameReal_eq (a b : Number) : a.sameReal b = sameExact a.exact b.exact := by
  cases a <;> cases b <;> rfl

lemma sameExact_symm {v w : Float ⊕ Option Int} (h : sameExact v w = true) :
    sameExact w v = true := by
  rcases v with x | m <;> rcases w with y | n
  · exact PartialEquivBEq.symm h
  · exact h
  · exact h
  · exact PartialEquivBEq.symm h

lemma exists_int {n : Option Int} (h : ((n.bind fun n => compareInt n x) == some .eq) = true) :
    ∃ k, n = some k ∧ compareInt k x = some .eq := by
  obtain ⟨k, hk, hcompare⟩ := Option.bind_eq_some_iff.1 (eq_of_beq h)
  exact ⟨k, hk, hcompare⟩

lemma sameExact_trans {u v w : Float ⊕ Option Int} (h : sameExact u v = true)
    (h' : sameExact v w = true) : sameExact u w = true := by
  rcases v with x | n
  · rcases u with y | k <;> rcases w with z | l
    · exact PartialEquivBEq.trans h h'
    · obtain ⟨l, rfl, hl⟩ := exists_int h'
      exact beq_iff_eq.2 (compareInt_of_beq hl (PartialEquivBEq.symm h))
    · obtain ⟨k, rfl, hk⟩ := exists_int h
      exact beq_iff_eq.2 (compareInt_of_beq hk h')
    · obtain ⟨k, rfl, hk⟩ := exists_int h
      obtain ⟨l, rfl, hl⟩ := exists_int h'
      exact beq_iff_eq.2 (congrArg some (int_eq_of_compareInt hk hl))
  · rcases u with y | k <;> rcases w with z | l
    · obtain ⟨n, rfl, hy⟩ := exists_int h
      obtain ⟨_, heq, hz⟩ := exists_int h'
      cases heq
      exact beq_of_compareInt hy hz
    · have hnl : n = l := eq_of_beq h'
      exact hnl ▸ h
    · have hkn : k = n := eq_of_beq h
      exact hkn ▸ h'
    · exact PartialEquivBEq.trans h h'

lemma same_iff {a b : Number} : a.same b = true ↔
    a.realPart.sameReal b.realPart = true ∧ (a.imaginaryPart == b.imaginaryPart) = true :=
  Bool.and_eq_true_iff

lemma same_symm {a b : Number} (h : a.same b = true) : b.same a = true := by
  obtain ⟨hre, him⟩ := same_iff.1 h
  rw [sameReal_eq] at hre
  exact same_iff.2 ⟨sameReal_eq _ _ ▸ sameExact_symm hre, PartialEquivBEq.symm him⟩

lemma same_trans {a b c : Number} (h : a.same b = true) (h' : b.same c = true) :
    a.same c = true := by
  obtain ⟨hre, him⟩ := same_iff.1 h
  obtain ⟨hre', him'⟩ := same_iff.1 h'
  rw [sameReal_eq] at hre hre'
  exact same_iff.2 ⟨sameReal_eq _ _ ▸ sameExact_trans hre hre', PartialEquivBEq.trans him him'⟩

end Number
end NamedSlots
