import NamedSlots.Proofs.LeafEntries
import NamedSlots.Proofs.ScalarSemantics

/-!
# The interpreter on scalars

Over the arithmetic that runs, the operations on scalars are those of the interpreter.
-/

namespace NamedSlots

namespace RealNumber

def toNumber : RealNumber Float → Number
  | bool b => .bool b
  | int n => .int n
  | real x => .real x

variable (n m : RealNumber Float)

@[simp] lemma toInt?_toNumber : n.toNumber.toInt? = n.toInt? := by cases n <;> rfl

@[simp] lemma isTrue_toNumber : n.toNumber.isTrue = n.isTrue .float := by cases n <;> rfl

@[simp] lemma rank_toNumber_ne : n.toNumber.rank ≠ 3 := by
  cases n <;> simp [toNumber, Number.rank]

lemma toFloat?_toNumber : n.toNumber.toFloat? = n.toReal? .float := by
  rcases n with ⟨_ | _⟩ | n | x <;> rfl

@[simp] lemma toFloat_toNumber : n.toNumber.toFloat = n.toReal .float := by
  rcases n with ⟨_ | _⟩ | n | x <;> rfl

lemma order?_toNumber : Number.order? n.toNumber m.toNumber = order? .float n m := by
  cases n <;> cases m <;> rfl

lemma same_toNumber : n.toNumber.same m.toNumber = same .float n m := by
  have hzero : ((0.0 : Float) == 0.0) = true := by decide
  cases n <;> cases m <;>
    simp [toNumber, Number.same, Number.realPart, Number.imaginaryPart, hzero, Number.sameReal, same,
      ScalarArithmetic.float, Number.toInt?, toInt?]

variable {n m}

lemma cast_toNumber {t : ElementType} (h : n.cast .float t = some m) :
    t.cast n.toNumber = m.toNumber := by
  cases t with
  | bool =>
    cases h
    exact congrArg Number.bool (isTrue_toNumber n)
  | int signed bits =>
    rcases n with b | k | x
    · cases h
      rfl
    · cases h
      rfl
    · cases h
      simp only [ElementType.cast, toNumber, Number.toInt?, Number.toFloat,
        ScalarArithmetic.float]
      cases Number.truncate? x <;> rfl
  | real p =>
    cases h
    exact congrArg (fun x => Number.real (p.round x)) (toFloat_toNumber n)
  | complex p => cases h

end RealNumber

/-! ### Elements -/

/-- An operation on one element is the one that runs. -/
structure UnaryStep.Runs (step : UnaryStep Float) (loop : UnaryLoop) : Prop where
  input : loop.input = step.input
  output : loop.output = step.output
  apply {n m : RealNumber Float} (h : step.apply n = some m) : loop.apply n.toNumber = m.toNumber

/-- An operation on two elements is the one that runs. -/
structure BinaryStep.Runs (step : BinaryStep Float) (loop : BinaryLoop) : Prop where
  input : loop.input = step.input
  output : loop.output = step.output
  apply {n n' m : RealNumber Float} (h : step.apply n n' = some m) :
    loop.apply n.toNumber n'.toNumber = .ok m.toNumber

namespace UnaryStep

variable {t u : ElementType}

lemma runs_some : Runs ⟨t, u, some⟩ ⟨t, u, id⟩ := by
  refine ⟨rfl, rfl, fun h => ?_⟩
  cases h
  rfl

lemma runs_not :
    Runs ⟨t, u, fun n => some (.bool (!n.isTrue .float))⟩ ⟨t, u, fun n => .bool (!n.isTrue)⟩ := by
  refine ⟨rfl, rfl, fun {n m} h => ?_⟩
  cases h
  exact congrArg (fun b => Number.bool !b) (RealNumber.isTrue_toNumber n)

lemma runs_ints {signed : Bool} {bits : Nat} {f : Int → Int} :
    Runs ⟨t, u, ints .float signed bits f⟩ ⟨t, u, UnaryLoop.ofInt signed bits f⟩ := by
  refine ⟨rfl, rfl, fun {n m} h => ?_⟩
  cases h
  simp only [UnaryLoop.ofInt, RealNumber.toInt?_toNumber]
  rfl

lemma runs_reals {p : Precision} {f : Float → Option Float} {g : Float → Float}
    (hf : ∀ x, f x = some (g x)) :
    Runs ⟨t, u, reals .float p f⟩ ⟨t, u, UnaryLoop.ofReal p g⟩ := by
  refine ⟨rfl, rfl, fun {n m} h => ?_⟩
  simp only [reals, hf, Option.map_some, Option.some.injEq] at h
  subst h
  simp only [UnaryLoop.ofReal, RealNumber.toFloat_toNumber]
  rfl

lemma runs_of_floating {op : UnaryOp} {g : Float → Float}
    (hg : Number.realFunction? op = some g)
    (hf : ∀ x, ScalarArithmetic.float.unary op x = some (g x)) {step : UnaryStep Float}
    (h : floating .float op t = some step) :
    ∃ loop, UnaryLoop.floating op t = .ok loop ∧ step.Runs loop := by
  unfold floating at h
  unfold UnaryLoop.floating
  cases hfloating : t.floating with
  | real p =>
    rw [hfloating] at h
    cases h
    rw [hg]
    exact ⟨_, rfl, runs_reals hf⟩
  | _ =>
    rw [hfloating] at h
    cases h

/-- The operation of an operator on elements of a type is the one that runs. -/
lemma runs_of_select {op : UnaryOp} {step : UnaryStep Float}
    (h : select .float op t = some step) :
    ∃ loop, UnaryLoop.select op t = .ok loop ∧ step.Runs loop := by
  cases op
  case sum | prod | norm => cases h
  case not => cases t <;> cases h <;> exact ⟨_, rfl, runs_not⟩
  case neg | sign =>
    cases t <;> cases h
    · exact ⟨_, rfl, runs_ints⟩
    · exact ⟨_, rfl, runs_reals fun _ => rfl⟩
  case abs =>
    cases t <;> cases h
    · exact ⟨_, rfl, runs_some⟩
    · exact ⟨_, rfl, runs_ints⟩
    · exact ⟨_, rfl, runs_reals fun _ => rfl⟩
  case floor | ceil =>
    cases t <;> cases h
    · exact ⟨_, rfl, runs_some⟩
    · exact ⟨_, rfl, runs_some⟩
    · exact ⟨_, rfl, runs_reals fun _ => rfl⟩
  all_goals exact runs_of_floating rfl (fun _ => rfl) h

end UnaryStep

namespace BinaryStep

variable {t u : ElementType}

lemma order?_toNumber (n m : RealNumber Float) :
    BinaryLoop.order? n.toNumber m.toNumber = RealNumber.order? .float n m := by
  unfold BinaryLoop.order?
  rw [if_neg (by simp only [RealNumber.rank_toNumber_ne, not_false_eq_true, or_self]),
    RealNumber.order?_toNumber]

lemma isNaN_toNumber (n : RealNumber Float) :
    BinaryLoop.isNaN n.toNumber = n.isNaN .float := by
  cases n <;> rfl

lemma runs_test {f : RealNumber Float → RealNumber Float → Bool} {g : Number → Number → Bool}
    (hf : ∀ n m : RealNumber Float, g n.toNumber m.toNumber = f n m) :
    Runs ⟨t, u, test f⟩ ⟨t, u, BinaryLoop.test g⟩ := by
  refine ⟨rfl, rfl, fun {n n' m} h => ?_⟩
  cases h
  exact congrArg (fun b => Except.ok (Number.bool b)) (hf n n')

lemma runs_ordered {wanted : Ordering → Bool} :
    Runs ⟨t, u, test (RealNumber.ordered .float wanted)⟩
      ⟨t, u, BinaryLoop.test (BinaryLoop.ordered wanted)⟩ :=
  runs_test fun n m => congrArg (fun o => (Option.map wanted o).getD false) (order?_toNumber n m)

lemma runs_ints {signed : Bool} {bits : Nat} {f : Int → Int → Int}
    {g : Int → Int → Except Fault Int} (hg : ∀ m n, g m n = .ok (f m n)) :
    Runs ⟨t, u, ints .float signed bits f⟩ ⟨t, u, BinaryLoop.ints signed bits g⟩ := by
  refine ⟨rfl, rfl, fun {n n' m} h => ?_⟩
  cases h
  simp only [BinaryLoop.ints, RealNumber.toInt?_toNumber, hg]
  rfl

lemma runs_powers {signed : Bool} {bits : Nat} :
    Runs ⟨t, u, powers .float signed bits⟩
      ⟨t, u, BinaryLoop.ints signed bits (BinaryLoop.intPow signed bits)⟩ := by
  refine ⟨rfl, rfl, fun {n n' m} h => ?_⟩
  simp only [powers, ScalarArithmetic.float, Option.map_map, Option.map_eq_some_iff] at h
  obtain ⟨k, hk, rfl⟩ := h
  simp only [BinaryLoop.ints, RealNumber.toInt?_toNumber]
  cases hpower : BinaryLoop.intPow signed bits (n.toInt?.getD 0) (n'.toInt?.getD 0) with
  | error e =>
    rw [hpower] at hk
    cases hk
  | ok j =>
    rw [hpower] at hk
    cases hk
    rfl

lemma runs_reals {p : Precision} {f : Float → Float → Option Float} {g : Float → Float → Float}
    (hf : ∀ x y, f x y = some (g x y)) :
    Runs ⟨t, u, reals .float p f⟩ ⟨t, u, BinaryLoop.reals p g⟩ := by
  refine ⟨rfl, rfl, fun {n n' m} h => ?_⟩
  simp only [reals, hf, Option.map_some, Option.some.injEq] at h
  subst h
  simp only [BinaryLoop.reals, RealNumber.toFloat_toNumber]
  rfl

lemma runs_extremum {wanted : Ordering} :
    Runs ⟨t, u, fun a b => some (extremum .float wanted a b)⟩
      ⟨t, u, fun a b => return BinaryLoop.extremum wanted a b⟩ := by
  refine ⟨rfl, rfl, fun {n n' m} h => ?_⟩
  cases h
  change Except.ok (BinaryLoop.extremum wanted n.toNumber n'.toNumber) = _
  unfold BinaryLoop.extremum extremum
  rw [isNaN_toNumber, order?_toNumber, apply_ite RealNumber.toNumber,
    apply_ite RealNumber.toNumber]

/-- The operation of an operator on elements of a type is the one that runs. -/
lemma runs_of_select {op : BinaryOp} {step : BinaryStep Float}
    (h : select .float op t = some step) :
    ∃ loop, BinaryLoop.select op t = .ok loop ∧ step.Runs loop := by
  have htrue := RealNumber.isTrue_toNumber
  cases op
  case dot => cases h
  case add | mul =>
    cases t <;> simp only [select, arithmetic, Option.map_some] at h <;> cases h
    · exact ⟨_, rfl, runs_test fun n m => by rw [htrue, htrue]⟩
    · exact ⟨_, rfl, runs_ints fun _ _ => rfl⟩
    · exact ⟨_, rfl, runs_reals fun _ _ => rfl⟩
  case sub =>
    cases t <;> simp only [select, arithmetic, Option.map_none] at h <;> cases h
    · exact ⟨_, rfl, runs_ints fun _ _ => rfl⟩
    · exact ⟨_, rfl, runs_reals fun _ _ => rfl⟩
  case div =>
    cases t <;> cases h <;> exact ⟨_, rfl, runs_reals fun _ _ => rfl⟩
  case pow =>
    cases t <;> cases h
    · exact ⟨_, rfl, runs_powers⟩
    · exact ⟨_, rfl, runs_powers⟩
    · exact ⟨_, rfl, runs_reals fun _ _ => rfl⟩
  case mod =>
    have hremainder (m n : Int) : (if n = 0 then 0 else Int.fmod m n) = intRemainder m n := rfl
    cases t <;> cases h
    · exact ⟨_, rfl, runs_ints fun m n => congrArg Except.ok (hremainder m n)⟩
    · exact ⟨_, rfl, runs_ints fun m n => congrArg Except.ok (hremainder m n)⟩
    · exact ⟨_, rfl, runs_reals fun _ _ => rfl⟩
  case lt | le | gt | ge => cases t <;> cases h <;> exact ⟨_, rfl, runs_ordered⟩
  case eq => cases t <;> cases h <;> exact ⟨_, rfl, runs_test RealNumber.same_toNumber⟩
  case ne =>
    cases t <;> cases h <;>
      exact ⟨_, rfl, runs_test fun n m => congrArg (!·) (RealNumber.same_toNumber n m)⟩
  case and | or =>
    cases t <;> cases h <;> exact ⟨_, rfl, runs_test fun n m => by rw [htrue, htrue]⟩
  case min | max => cases t <;> cases h <;> exact ⟨_, rfl, runs_extremum⟩
  case atan2 =>
    simp only [select] at h
    simp only [BinaryLoop.select]
    cases hfloating : t.floating with
    | real p =>
      rw [hfloating] at h
      cases h
      exact ⟨_, rfl, runs_reals fun _ _ => rfl⟩
    | _ =>
      rw [hfloating] at h
      cases h

end BinaryStep

/-! ### Scalars -/

namespace Scalar

def value : Scalar Float → Value
  | plain n => .number n.toNumber
  | element t n => .element t n.toNumber

variable {a b c : Scalar Float} {t : ElementType}

lemma ofNumber?_toNumber (n : RealNumber Float) :
    ElementType.ofNumber? n.toNumber = (plain n).type? .float := by
  cases n <;> rfl

lemma assemble_value (ht : a.type? .float = some t) :
    a.value.assemble = .ok (.numbers t [] [t.cast a.number.toNumber]) := by
  cases a with
  | element s n =>
    cases ht
    rfl
  | plain n =>
    have hitem : ItemType.ofValue (.number n.toNumber) = .number t := by
      simp only [ItemType.ofValue, ofNumber?_toNumber, ht]
    change Except.ok (Value.gridOf [] [.number n.toNumber]) = _
    unfold Value.gridOf
    simp only [List.foldl_nil, hitem]
    rfl

lemma operand?_value (ht : a.type? .float = some t) :
    a.value.operand? = some ⟨t, a.isWeak, false, [], [a.number.toNumber]⟩ := by
  cases a with
  | element s n =>
    cases ht
    rfl
  | plain n =>
    change (ElementType.ofNumber? n.toNumber).map _ = _
    rw [ofNumber?_toNumber, ht]
    cases n <;> rfl

lemma elementFunction_of_elementwise {op : UnaryOp} (h : elementwise .float op a = some b) :
    Value.elementFunction op a.value = .ok b.value := by
  obtain ⟨t, step, n, m, k, ht, hstep, hn, hm, hk, rfl⟩ := elementwise_eq_some.1 h
  obtain ⟨loop, hloop, hruns⟩ := UnaryStep.runs_of_select hstep
  unfold Value.elementFunction
  rw [assemble_value ht]
  change (liftM (UnaryLoop.select op t) >>= fun loop => pure (Value.ofItems loop.output []
    [loop.apply (loop.input.cast (t.cast a.number.toNumber))]) : Except Failure Value) = _
  rw [hloop]
  change Except.ok (Value.element loop.output _) = _
  rw [RealNumber.cast_toNumber hn, hruns.input, RealNumber.cast_toNumber hm, hruns.apply hk,
    hruns.output]
  rfl

lemma negate_of_unary (h : unary .float .neg a = some b) : a.value.negate = .ok b.value := by
  cases a with
  | plain n =>
    cases n <;> cases h <;> rfl
  | element t n =>
    simp only [unary, Option.bind_eq_bind, Option.bind_eq_some_iff, Option.pure_def,
      Option.some.injEq] at h
    obtain ⟨step, hstep, m, hm, rfl⟩ := h
    obtain ⟨loop, hloop, hruns⟩ := UnaryStep.runs_of_select hstep
    change (liftM (UnaryLoop.select .neg t) >>= fun loop =>
      pure (Value.element loop.output (loop.apply n.toNumber)) : Except Failure Value) = _
    rw [hloop]
    change Except.ok (Value.element loop.output _) = _
    rw [hruns.apply hm, hruns.output]
    rfl

/-- What an operator gives for a scalar is what the interpreter computes. -/
lemma applyUnary_of_unary {op : UnaryOp} (h : unary .float op a = some b) :
    Value.applyUnary op a.value = .ok b.value := by
  cases op
  case neg => exact negate_of_unary h
  case sum | prod | norm =>
    obtain ⟨t, -, h⟩ := Option.bind_eq_some_iff.1 h
    cases h
  all_goals exact elementFunction_of_elementwise h

/-! ### Operators of two scalars -/

lemma meet_eq {s t : ElementType} (hs : a.type? .float = some s) (ht : b.type? .float = some t) :
    a.meet .float b = some (Value.meetType ⟨s, a.isWeak, false, [], [a.number.toNumber]⟩
      ⟨t, b.isWeak, false, [], [b.number.toNumber]⟩) := by
  unfold meet Value.meetType
  rw [hs, ht]
  cases a.isWeak <;> cases b.isWeak <;> rfl

lemma fitsIn_operand {s u : ElementType} :
    Value.Operand.fitsIn ⟨s, a.isWeak, false, [], [a.number.toNumber]⟩ u = a.fitsIn .float u := by
  cases u <;> simp [Value.Operand.fitsIn, fitsIn, ScalarArithmetic.float]

lemma operand_value {isExact : Bool} {x : RealNumber Float}
    (h : a.operand .float isExact t = some x) :
    (if isExact then a.number.toNumber else t.cast a.number.toNumber) = x.toNumber := by
  cases isExact with
  | true =>
    cases h
    rfl
  | false => exact RealNumber.cast_toNumber h

lemma combine_value {op : BinaryOp} {s t : ElementType} (hs : a.type? .float = some s)
    (ht : b.type? .float = some t) (h : combine .float op a b = some c) :
    Value.combine op ⟨s, a.isWeak, false, [], [a.number.toNumber]⟩
      ⟨t, b.isWeak, false, [], [b.number.toNumber]⟩ = .ok c.value := by
  obtain ⟨u, step, x, y, n, hu, hstep, hfits, hx, hy, hn, rfl⟩ := combine_eq_some.1 h
  obtain ⟨loop, hloop, hruns⟩ := BinaryStep.runs_of_select hstep
  have hmeet := Option.some.inj ((meet_eq hs ht).symm.trans hu)
  unfold areExact at hx hy
  rw [hs, ht] at hx hy
  have hguard : (!(Value.isComparison op || decide (op = .and) || decide (op = .or)) &&
      !(a.fitsIn .float u && b.fitsIn .float u)) = false := by
    rw [← Bool.not_or]
    exact congrArg (!·) hfits
  have happly := hruns.apply hn
  rw [← operand_value hx, ← operand_value hy, ← hruns.input] at happly
  simp only [Option.map_some, Option.getD_some] at happly
  have hspread (m : Number) : Shape.spread [] [] [m] = [m] := rfl
  have hbroadcast : Shape.broadcast? [] [] = some [] := rfl
  have hlift {α : Type} (r : α) : (liftM (Except.ok (ε := Fault) r) : Except Failure α) = pure r :=
    rfl
  unfold Value.combine
  simp only [hmeet, hloop, fitsIn_operand, hguard, Bool.false_eq_true, if_false, hbroadcast,
    hspread, List.map_cons, List.map_nil, List.zip_cons_cons, List.zip_nil_right, List.mapM_cons,
    List.mapM_nil, hlift, pure_bind, happly, hruns.output]
  rfl

lemma pairFunction_of_combine {op : BinaryOp} (h : combine .float op a b = some c) :
    Value.pairFunction op a.value b.value = .ok c.value := by
  obtain ⟨u, step, x, y, n, hu, -⟩ := combine_eq_some.1 h
  obtain ⟨s, hs, hu⟩ := Option.bind_eq_some_iff.1 hu
  obtain ⟨t, ht, -⟩ := Option.bind_eq_some_iff.1 hu
  rw [← combine_value hs ht h]
  have hfunction (v : Scalar Float) : Value.functionOperand v.value = .ok v.value := by
    cases v <;> rfl
  have htext (v : Scalar Float) : Value.textTruth v.value = v.value := by
    cases v <;> rfl
  unfold Value.pairFunction
  simp only [htext, ite_self, hfunction, Except.ok_bind, operand?_value hs, operand?_value ht]

end Scalar

/-! ### Plain numbers -/

namespace RealNumber

variable {n m k : RealNumber Float}

lemma toFloatChecked_of_toReal? {x : Float} (h : n.toReal? .float = some x) :
    n.toNumber.toFloatChecked = .ok x := by
  unfold Number.toFloatChecked
  rw [toFloat?_toNumber, h]
  rfl

lemma lift_toNumber {onInt : Int → Int → Option (RealNumber Float)}
    {onReal : Float → Float → Option Float} {f : Int → Int → Except Fault Number}
    {g : Float → Float → Except Fault Number}
    {c : Float × Float → Float × Float → Except Fault Number}
    (hint : ∀ {i j r}, onInt i j = some r → f i j = .ok r.toNumber)
    (hreal : ∀ {x y r}, onReal x y = some r → g x y = .ok (.real r))
    (h : lift .float onInt onReal n m = some k) :
    Number.lift f g c n.toNumber m.toNumber = .ok k.toNumber := by
  have hwide (h : (do return real (← onReal (← n.toReal? .float) (← m.toReal? .float))) = some k) :
      (if n.toNumber.rank = 3 ∨ m.toNumber.rank = 3 then do
          c (← n.toNumber.complexOperand) (← m.toNumber.complexOperand)
        else do g (← n.toNumber.toFloatChecked) (← m.toNumber.toFloatChecked)) =
        .ok k.toNumber := by
    simp only [Option.bind_eq_bind, Option.pure_def, Option.bind_eq_some_iff,
      Option.some.injEq] at h
    obtain ⟨x, hx, y, hy, r, hr, rfl⟩ := h
    rw [if_neg (by simp only [rank_toNumber_ne, or_self, not_false_eq_true]),
      toFloatChecked_of_toReal? hx, toFloatChecked_of_toReal? hy]
    exact hreal hr
  unfold lift at h
  unfold Number.lift
  rw [toInt?_toNumber, toInt?_toNumber]
  cases hi : n.toInt? <;> cases hj : m.toInt? <;> rw [hi, hj] at h
  case some.some i j => exact hint h
  all_goals exact hwide h

lemma realPow_of_plain {x y r : Float} (h : ScalarArithmetic.float.plain .pow x y = some r) :
    Number.realPow x y = .ok (.real r) := by
  simp only [ScalarArithmetic.float] at h
  split at h
  · rename_i z hz
    cases h
    exact hz
  · cases h

lemma intQuotient_of_ratio {i j : Int}
    (h : (ScalarArithmetic.float.ratio i j).map real = some k) :
    Number.intQuotient i j = .ok k.toNumber := by
  obtain ⟨x, hx, rfl⟩ := Option.map_eq_some_iff.1 h
  simp only [ScalarArithmetic.float] at hx
  split at hx
  · rename_i y hy
    cases hx
    exact hy
  · cases hx

lemma quotient_of_plain {x y r : Float} (h : ScalarArithmetic.float.plain .div x y = some r) :
    (if y == 0.0 then throw .divisionByZero else pure (Number.real (x / y)) :
      Except Fault Number) = .ok (.real r) := by
  simp only [ScalarArithmetic.float] at h
  split at h
  · cases h
  · rename_i hy
    cases h
    exact if_neg hy

lemma intPower_toNumber {i j : Int} (h : intPower .float i j = some k) :
    (if 0 ≤ j then Number.intPow i j.toNat
      else do
        let x ← (Number.int i).toFloatChecked
        let y ← (Number.int j).toFloatChecked
        Number.realPow x y) = .ok k.toNumber := by
  unfold intPower at h
  by_cases hj : 0 ≤ j
  · rw [if_pos hj] at h ⊢
    split at h
    · rename_i r hr
      cases h
      exact hr
    · cases h
  · rw [if_neg hj] at h ⊢
    simp only [Option.bind_eq_bind, Option.pure_def, Option.bind_eq_some_iff,
      Option.some.injEq] at h
    obtain ⟨x, hx, y, hy, r, hr, rfl⟩ := h
    have hi : (Number.int i).toFloatChecked = .ok x := toFloatChecked_of_toReal? (n := .int i) hx
    have hj : (Number.int j).toFloatChecked = .ok y := toFloatChecked_of_toReal? (n := .int j) hy
    rw [hi, hj]
    exact realPow_of_plain hr

/-- What an operator gives for two plain numbers is what the interpreter computes. -/
lemma plainOperator_of_plain {op : BinaryOp} (h : plain .float op n m = some k) :
    Value.plainOperator op n.toNumber m.toNumber = .ok (.number k.toNumber) := by
  have hordered (test : Ordering → Bool) :
      Number.ordered test n.toNumber m.toNumber = .ok (ordered .float test n m) := by
    unfold Number.ordered
    rw [if_neg (by simp only [rank_toNumber_ne, or_self, not_false_eq_true]), order?_toNumber]
    rfl
  have hlift {r : Except Fault Number} (hr : r = .ok k.toNumber) :
      (do return Value.number (← r) : Except Fault Value) = .ok (.number k.toNumber) := by
    rw [hr]
    rfl
  cases op
  case add => exact hlift (lift_toNumber (fun h => by cases h; rfl) (fun h => by cases h; rfl) h)
  case sub => exact hlift (lift_toNumber (fun h => by cases h; rfl) (fun h => by cases h; rfl) h)
  case mul => exact hlift (lift_toNumber (fun h => by cases h; rfl) (fun h => by cases h; rfl) h)
  case div => exact hlift (lift_toNumber intQuotient_of_ratio quotient_of_plain h)
  case pow => exact hlift (lift_toNumber intPower_toNumber realPow_of_plain h)
  case lt | le | gt | ge =>
    cases h
    simp only [Value.plainOperator, hordered]
    rfl
  case eq | ne =>
    cases h
    simp only [Value.plainOperator, same_toNumber]
    rfl
  all_goals cases h

end RealNumber

namespace Scalar

variable {a b c : Scalar Float}

lemma repetition?_value : Value.repetition? a.value b.value = none := by
  have hnumber (m n : Number) : Value.repeated? (.number m) n = none := by
    unfold Value.repeated?
    cases n.toInt? <;> rfl
  have helement (t : ElementType) (m n : Number) : Value.repeated? (.element t m) n = none := by
    unfold Value.repeated?
    cases n.toInt? <;> rfl
  cases a with
  | plain n =>
    cases b with
    | plain m => exact hnumber n.toNumber m.toNumber
    | element t m => exact helement t m.toNumber n.toNumber
  | element s n =>
    cases b with
    | plain m => exact helement s n.toNumber m.toNumber
    | element t m =>
      have hmirrored : Value.repeated? (.element t m.toNumber) n.toNumber = none := helement ..
      cases t with
      | int signed bits => exact helement s n.toNumber m.toNumber
      | bool | real p | complex p =>
        cases s with
        | int signed bits => exact hmirrored
        | bool | real p | complex p => rfl

lemma besideComplex_value {op : BinaryOp} : Value.besideComplex op a.value b.value = b.value := by
  rcases a with (_ | _ | _) | _ <;> rfl

lemma operateWith_value {op : BinaryOp} {m n : Value.Operand}
    (onObjects : BinaryOp → Value → Value → Except Failure Value)
    (htyped : (a.value.isTyped || b.value.isTyped) = true) (ha : a.value.operand? = some m)
    (hb : b.value.operand? = some n) :
    Value.operateWith onObjects op a.value b.value = Value.combine op m n := by
  have hrepetition := repetition?_value (a := a) (b := b)
  have hroot : Value.rootPower? a.value b.value = none := by
    cases a <;> rfl
  unfold Value.operateWith
  rw [besideComplex_value]
  cases a <;> cases b
  case plain.plain => cases htyped
  all_goals
    simp only [value] at hrepetition hroot htyped ha hb ⊢
    cases op <;> simp [hrepetition, hroot, htyped, ha, hb, Value.assembled]

lemma operateWith_of_combine {op : BinaryOp}
    (onObjects : BinaryOp → Value → Value → Except Failure Value)
    (htyped : (a.value.isTyped || b.value.isTyped) = true)
    (h : combine .float op a b = some c) :
    Value.operateWith onObjects op a.value b.value = .ok c.value := by
  obtain ⟨u, step, x, y, n, hu, -⟩ := combine_eq_some.1 h
  obtain ⟨s, hs, hu⟩ := Option.bind_eq_some_iff.1 hu
  obtain ⟨t, ht, -⟩ := Option.bind_eq_some_iff.1 hu
  rw [operateWith_value onObjects htyped (operand?_value hs) (operand?_value ht)]
  exact combine_value hs ht h

/-- What an operator gives for two scalars is what the interpreter computes. -/
lemma applyBinary_of_binary {op : BinaryOp} (h : binary .float op a b = some c) :
    Value.applyBinary op a.value b.value = .ok c.value := by
  have hoperator (h : operator .float op a b = some c) :
      Value.binaryOperator op a.value b.value = .ok c.value := by
    unfold Value.binaryOperator
    rw [Nat.add_comm]
    unfold Value.operate
    cases a with
    | plain x =>
      cases b with
      | plain y =>
        obtain ⟨k, hk, rfl⟩ := Option.map_eq_some_iff.1 h
        unfold Value.operateWith
        rw [besideComplex_value]
        change (liftM (Value.plainOperator op x.toNumber y.toNumber) : Except Failure Value) = _
        rw [RealNumber.plainOperator_of_plain hk]
        rfl
      | element t y => exact operateWith_of_combine _ rfl h
    | element s x => exact operateWith_of_combine _ rfl h
  cases op
  case dot => cases h
  case and | or | atan2 | min | max | mod => exact pairFunction_of_combine h
  all_goals exact hoperator h

lemma eq_value_of_ofStored {v : Value} (h : ofStored .float v = some a) : v = a.value := by
  rcases v with _ | ⟨_ | _ | x | _⟩ | _ | _ | _ | _ | _ | _ | _ | _ | _ | _ | _ | _ <;> cases h
  rfl

end Scalar

/-! ### Expressions -/

/-- A literal has its value in any kind of values whose plain numbers and single elements have
theirs. -/
lemma Literal.value_eq {α : Type} (value : α → Value) {element plain : Float → α} {x : Literal} {a : α}
    (h : (some x.number).map (fun r => if x.isElement then element r else plain r) = some a)
    (helement : ∀ r, value (element r) = .element .float64 (.real r))
    (hplain : ∀ r, value (plain r) = .real r) : x.value = value a := by
  obtain ⟨number, isElement⟩ := x
  cases h
  cases isElement
  · exact (hplain number).symm
  · exact (helement number).symm

namespace Expr

/-- An expression that evaluates to a scalar has its value in the interpreter. -/
lemma eval_numeric {leaf : Expr → Except Failure (Option (Scalar Float))}
    {leaf' : Expr → Except Failure Value}
    (hleaf : ∀ {x s}, leaf x = .ok (some s) → leaf' x = .ok s.value) {e : Expr} {s : Scalar Float}
    (h : e.Evaluates .float leaf s) : e.eval .numeric leaf' = .ok s.value := by
  have htruth (a : Scalar Float) :
      Semantics.numeric.truth a.value = .ok (a.number.isTrue .float) := by
    cases a <;> exact congrArg Except.ok (RealNumber.isTrue_toNumber _)
  induction h with
  | symbol h => exact hleaf h
  | constant hx hs =>
    rw [eval, ← Literal.value_eq Scalar.value hs (fun _ => rfl) fun _ => rfl, hx]
    rfl
  | unary _ hs ihc =>
    rw [eval, ihc]
    exact Scalar.applyUnary_of_unary hs
  | binary _ _ hs ihc ihd =>
    rw [eval, ihc, ihd]
    exact Scalar.applyBinary_of_binary hs
  | @ifTrue c t cs l a s _ ha _ ihc iht =>
    rcases cs with _ | ⟨f, cs⟩ <;>
    · rw [eval, ihc, Except.ok_bind, htruth, ha]
      exact iht
  | @ifFalse c t f cs l a s _ ha _ ihc ihf =>
    rw [eval, ihc, Except.ok_bind, htruth, ha]
    exact ihf

end Expr

lemma LeafTable.valueIn_numeric {read : Source → Except Failure (Option (Scalar Float))}
    {read' : Source → Except Failure Value}
    (hread : ∀ {x s}, read x = .ok (some s) → read' x = .ok s.value)
    {entries : List (Expr × Meaning)} {x : Expr} {s : Scalar Float}
    (h : valueIn (.scalar .float) read entries x = .ok (some s)) :
    valueIn .numeric read' entries x = .ok s.value :=
  valueIn_transfer (fun hleaf _ _ he => Expr.eval_numeric hleaf (Expr.eval_eq_ok.1 he)) hread h

/-- Over the arithmetic that runs, the value over scalars is the one that is interpreted. -/
theorem Evaluator.interpret_of_interpretWith {f : Evaluator} {u p t : Value} {s : Scalar Float}
    (h : f.interpretWith .float u p t = .ok (some s)) : f.interpret u p t = .ok s.value := by
  refine Expr.eval_numeric (LeafTable.valueIn_numeric fun {x s} h => ?_) (Expr.eval_eq_ok.1 h)
  obtain ⟨v, hv, h⟩ := Except.eq_ok_of_bind h
  rw [hv, Scalar.eq_value_of_ofStored (Except.ok.inj h)]

end NamedSlots
