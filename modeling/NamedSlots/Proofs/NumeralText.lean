import Mathlib.Algebra.Group.Nat.Defs
import Mathlib.Data.List.Induction
import Mathlib.Tactic.Lemma
import NamedSlots.Text.Numeral

/-!
# Texts of integers

The text of an integer is read back as that integer when its digits are not too many, and an
integer that was read has no more digits than a text may have.
-/

namespace NamedSlots.Text

lemma code_of_isDigit {c : Char} (h : c.isDigit = true) : 0x30 ≤ c.toNat ∧ c.toNat ≤ 0x39 :=
  Char.isDigit_iff_toNat.1 h

lemma digitValue?_of_isDigit {c : Char} (h : c.isDigit = true) :
    digitValue? c = some (c.toNat - 48) := by
  have hc := code_of_isDigit h
  have hz : digitZeros.find? (fun z => z ≤ c.toNat && c.toNat < z + 10) = some 0x30 := by
    refine List.find?_cons_of_pos ?_
    simp only [Bool.and_eq_true, decide_eq_true_eq]
    omega
  rw [digitValue?, hz, Option.map_some]

lemma digitValue?_lt {c : Char} {d : Nat} (h : digitValue? c = some d) : d < 10 := by
  obtain ⟨z, hz, rfl⟩ := Option.map_eq_some_iff.1 h
  have hc := List.find?_some hz
  simp only [Bool.and_eq_true, decide_eq_true_eq] at hc
  omega

/-- The sign and the digits of an integer are no blanks. -/
lemma isBlank_of_code {c : Char} (h : 0x2d ≤ c.toNat ∧ c.toNat ≤ 0x39) : isBlank c = false := by
  simp only [isBlank, blankRanges, List.any_cons, List.any_nil, Bool.or_false, Bool.or_eq_false_iff,
    Bool.and_eq_false_iff, decide_eq_false_iff_not]
  omega

lemma trimBlanks_of_forall {cs : List Char} (h : ∀ c ∈ cs, isBlank c = false) :
    trimBlanks cs = cs := by
  have hkeep : ∀ l : List Char, (∀ c ∈ l, isBlank c = false) → l.dropWhile isBlank = l := by
    intro l hl
    cases l with
    | nil => rfl
    | cons c l => exact List.dropWhile_cons_of_neg (by simp [hl c List.mem_cons_self])
  rw [trimBlanks, hkeep cs h, hkeep cs.reverse fun c hc => h c (List.mem_reverse.1 hc),
    List.reverse_reverse]

namespace Numeral

/-- Whether the text of an integer has no more digits than a text may have. -/
def IsShort (n : Int) : Prop :=
  (Nat.toDigits 10 n.natAbs).length ≤ maxDigits

instance (n : Int) : Decidable (IsShort n) :=
  inferInstanceAs (Decidable (_ ≤ _))

lemma isShort_iff (n : Int) : IsShort n ↔ n.natAbs < 10 ^ maxDigits :=
  Nat.length_toDigits_le_iff (by decide) (by decide)

lemma ofDigits_append (ds : List Nat) (d : Nat) : ofDigits (ds ++ [d]) = 10 * ofDigits ds + d := by
  rw [ofDigits, List.foldl_append]
  rfl

lemma ofDigits_lt {ds : List Nat} (h : ∀ d ∈ ds, d < 10) : ofDigits ds < 10 ^ ds.length := by
  induction ds using List.reverseRecOn with
  | nil => exact Nat.one_pos
  | append_singleton ds d ih =>
    have hds := ih fun x hx => h x (List.mem_append_left _ hx)
    have hd := h d (List.mem_append_right _ List.mem_cons_self)
    rw [ofDigits_append, List.length_append, List.length_singleton, Nat.pow_succ]
    omega

lemma mapM_digitValue? {cs : List Char} (h : ∀ c ∈ cs, c.isDigit = true) :
    cs.mapM digitValue? = some (cs.map fun c => c.toNat - 48) := by
  induction cs with
  | nil => rfl
  | cons c cs ih =>
    obtain ⟨hc, hcs⟩ := List.forall_mem_cons.1 h
    rw [List.mapM_cons, digitValue?_of_isDigit hc, ih hcs]
    rfl

lemma isDigit_of_mem_toDigits {n : Nat} {c : Char} (h : c ∈ Nat.toDigits 10 n) :
    c.isDigit = true :=
  Nat.isDigit_of_mem_toDigits (by decide) (by decide) h

lemma digits?_toDigits (n : Nat) :
    digits? (Nat.toDigits 10 n) = some ((Nat.toDigits 10 n).map fun c => c.toNat - 48) := by
  rw [digits?_eq_mapM Nat.toDigits_ne_nil, mapM_digitValue? fun c hc => isDigit_of_mem_toDigits hc]
  rintro c hc rfl
  exact absurd (isDigit_of_mem_toDigits hc) (by decide)

lemma ofDigits_toDigits (n : Nat) :
    ofDigits ((Nat.toDigits 10 n).map fun c => c.toNat - 48) = n := by
  calc ofDigits ((Nat.toDigits 10 n).map fun c => c.toNat - 48)
      = Nat.ofDigitChars 10 (Nat.toDigits 10 n) 0 := by rw [ofDigits, List.foldl_map]; rfl
    _ = n := Nat.ofDigitChars_ten_toDigits

/-- The text of an integer: a sign when it is negative, and its digits. -/
lemma toList_toString (n : Int) :
    (toString n).toList =
      (if n < 0 then ['-'] else []) ++ Nat.toDigits 10 n.natAbs := by
  cases n with
  | ofNat m =>
    change m.repr.toList = _
    rw [Nat.toList_repr]
    rfl
  | negSucc m =>
    change ("-" ++ (m + 1).repr).toList = _
    rw [String.toList_append, Nat.toList_repr, if_pos (Int.negSucc_lt_zero m)]
    rfl

lemma splitSign_of_isDigit {cs : List Char} (h : ∀ c ∈ cs, c.isDigit = true) :
    splitSign cs = (false, cs) := by
  unfold splitSign
  split
  · exact absurd (h _ List.mem_cons_self) (by decide)
  · exact absurd (h _ List.mem_cons_self) (by decide)
  · rfl

/-- Every character of an integer's text is a sign or a digit. -/
lemma code_of_mem_toString {n : Int} {c : Char} (h : c ∈ (toString n).toList) :
    c = '-' ∨ c.isDigit = true := by
  rw [toList_toString, List.mem_append] at h
  rcases h with h | h
  · split at h
    · exact .inl (List.mem_singleton.1 h)
    · cases h
  · exact .inr (isDigit_of_mem_toDigits h)

lemma splitSign_toString (n : Int) :
    splitSign (toString n).toList = (decide (n < 0), Nat.toDigits 10 n.natAbs) := by
  rw [toList_toString]
  by_cases hn : n < 0
  · rw [if_pos hn, decide_eq_true hn]
    rfl
  · rw [if_neg hn, decide_eq_false hn]
    exact splitSign_of_isDigit fun c hc => isDigit_of_mem_toDigits hc

lemma toString_injective {n m : Int} (h : toString n = toString m) : n = m := by
  have hsplit := splitSign_toString m
  rw [← h, splitSign_toString, Prod.mk.injEq, decide_eq_decide] at hsplit
  obtain ⟨hsign, hdigits⟩ := hsplit
  have habs : n.natAbs = m.natAbs := by rw [← ofDigits_toDigits n.natAbs, hdigits, ofDigits_toDigits]
  omega

lemma trimBlanks_toString (n : Int) :
    trimBlanks (toString n).toList = (toString n).toList := by
  refine trimBlanks_of_forall fun c hc => isBlank_of_code ?_
  rcases code_of_mem_toString hc with rfl | hc
  · decide
  · have hcode := code_of_isDigit hc
    omega

/-- A short integer is read back from its text. -/
lemma integer?_toString {n : Int} (h : IsShort n) : integer? (toString n) = some n := by
  have hvalue : (if decide (n < 0) = true then -(n.natAbs : Int) else n.natAbs) = n := by
    by_cases hn : n < 0
    · rw [if_pos (decide_eq_true hn)]
      omega
    · rw [if_neg (by simpa using hn)]
      omega
  rw [integer?, trimBlanks_toString, splitSign_toString]
  simp only [digits?_toDigits, List.length_map, ofDigits_toDigits, hvalue]
  exact if_pos h

lemma isShort_of_integer? {s : String} {n : Int} (h : integer? s = some n) : IsShort n := by
  rw [integer?] at h
  generalize splitSign (trimBlanks s.toList) = signed at h
  obtain ⟨negative, body⟩ := signed
  dsimp only at h
  split at h
  · cases h
  next ds hds =>
    split at h
    next hlen =>
      have hlt : ofDigits ds < 10 ^ ds.length := by
        refine ofDigits_lt fun d hd => ?_
        obtain ⟨c, hc⟩ := exists_digitValue?_of_digits? hds d hd
        exact digitValue?_lt hc
      have habs : n.natAbs = ofDigits ds := by
        cases h
        cases negative
        · exact Int.natAbs_natCast _
        · exact (Int.natAbs_neg _).trans (Int.natAbs_natCast _)
      rw [isShort_iff, habs]
      exact Nat.lt_of_lt_of_le hlt (Nat.pow_le_pow_right (by decide) hlen)
    · cases h

end Numeral
end NamedSlots.Text
