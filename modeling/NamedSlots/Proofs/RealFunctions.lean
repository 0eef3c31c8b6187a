import Mathlib.Analysis.SpecialFunctions.Complex.Arg
import Mathlib.Analysis.SpecialFunctions.Log.Base
import Mathlib.Analysis.SpecialFunctions.Pow.Real
import Mathlib.Analysis.SpecialFunctions.Trigonometric.Arctan
import Mathlib.Data.Real.Sign
import NamedSlots.Expr.Operator
import NamedSlots.Graph.Node
import NamedSlots.Number.Binary

/-!
# Operators on real numbers

What the operators of expressions and of graphs mean for real numbers, without rounding and
without bounds. An operator has no value where it has no real one. Truth values are 0 and 1, and
any number but 0 counts as true.
-/

namespace NamedSlots

/-- The real number that a finite floating number stands for. -/
noncomputable def FloatView.toReal? : FloatView → Option ℝ
  | finite negative mantissa exponent =>
    some ((if negative then -1 else 1) * mantissa * 2 ^ exponent)
  | _ => none

noncomputable def realOf? (x : Float) : Option ℝ := (FloatView.ofFloat x).toReal?

namespace RealFunction

/-- A number where a condition holds. -/
noncomputable def given (p : Prop) [Decidable p] (x : ℝ) : Option ℝ := if p then some x else none

@[simp] lemma given_eq_some {p : Prop} [Decidable p] {x y : ℝ} :
    given p x = some y ↔ p ∧ x = y := by
  unfold given
  split <;> simp [*]

/-- One where a condition holds and zero elsewhere. -/
noncomputable def indicator (p : Prop) [Decidable p] : ℝ := if p then 1 else 0

/-- The integer that a real number is. -/
noncomputable def wholeNumber? (x : ℝ) : Option ℤ := if (⌊x⌋ : ℝ) = x then some ⌊x⌋ else none

lemma wholeNumber?_eq_some {x : ℝ} {n : ℤ} : wholeNumber? x = some n ↔ x = n := by
  unfold wholeNumber?
  constructor
  · intro h
    split at h
    · rename_i hx
      cases h
      exact hx.symm
    · cases h
  · rintro rfl
    simp

/-- A power. A negative base has integral powers only, and zero has no negative power. -/
noncomputable def power (x y : ℝ) : Option ℝ :=
  match wholeNumber? y with
  | some n => given (0 ≤ n ∨ x ≠ 0) (x ^ n)
  | none => given (0 < x ∨ x = 0 ∧ 0 < y) (x ^ y)

/-- The integer part of a number, toward zero. -/
noncomputable def truncate (x : ℝ) : ℤ := if x < 0 then ⌈x⌉ else ⌊x⌋

/-- The remainder of a division that rounds down. -/
noncomputable def flooredRemainder (x y : ℝ) : Option ℝ := given (y ≠ 0) (x - y * ⌊x / y⌋)

/-- The remainder of a division that truncates. -/
noncomputable def truncatedRemainder (x y : ℝ) : Option ℝ :=
  given (y ≠ 0) (x - y * truncate (x / y))

/-- The angle of the point with the given height and width. -/
noncomputable def angle (height width : ℝ) : ℝ := Complex.arg ⟨width, height⟩

end RealFunction

open RealFunction

/-- An operator of expressions, as documented for the interpreter. -/
noncomputable def UnaryOp.onReals (x : ℝ) : UnaryOp → Option ℝ
  | neg => some (-x)
  | not => some (indicator (x = 0))
  | sin => some (Real.sin x)
  | cos => some (Real.cos x)
  | tan => given (Real.cos x ≠ 0) (Real.tan x)
  | asin => given (-1 ≤ x ∧ x ≤ 1) (Real.arcsin x)
  | acos => given (-1 ≤ x ∧ x ≤ 1) (Real.arccos x)
  | atan => some (Real.arctan x)
  | sqrt => given (0 ≤ x) (Real.sqrt x)
  | exp => some (Real.exp x)
  | log => given (0 < x) (Real.log x)
  | log10 => given (0 < x) (Real.logb 10 x)
  | abs => some |x|
  | sign => some (Real.sign x)
  | floor => some ⌊x⌋
  | ceil => some ⌈x⌉
  | sinh => some (Real.sinh x)
  | cosh => some (Real.cosh x)
  | tanh => some (Real.tanh x)
  | sum | prod | norm => none

/-- An operator of expressions, as documented for the interpreter. -/
noncomputable def BinaryOp.onReals (x y : ℝ) : BinaryOp → Option ℝ
  | add => some (x + y)
  | sub => some (x - y)
  | mul => some (x * y)
  | div => given (y ≠ 0) (x / y)
  | pow => power x y
  | lt => some (indicator (x < y))
  | le => some (indicator (x ≤ y))
  | gt => some (indicator (y < x))
  | ge => some (indicator (y ≤ x))
  | eq => some (indicator (x = y))
  | ne => some (indicator (x ≠ y))
  | and => some (indicator (x ≠ 0 ∧ y ≠ 0))
  | or => some (indicator (x ≠ 0 ∨ y ≠ 0))
  | atan2 => some (angle x y)
  | min => some (Min.min x y)
  | max => some (Max.max x y)
  | mod => flooredRemainder x y
  | dot => none

namespace Graph

/-- An operator of graphs, as documented for them. -/
noncomputable def UnaryNode.onReals (x : ℝ) : UnaryNode → Option ℝ
  | neg => some (-x)
  | not => some (indicator (x = 0))
  | sq => some (x * x)
  | inv => given (x ≠ 0) x⁻¹
  | sin => some (Real.sin x)
  | cos => some (Real.cos x)
  | tan => given (Real.cos x ≠ 0) (Real.tan x)
  | asin => given (-1 ≤ x ∧ x ≤ 1) (Real.arcsin x)
  | acos => given (-1 ≤ x ∧ x ≤ 1) (Real.arccos x)
  | atan => some (Real.arctan x)
  | sqrt => given (0 ≤ x) (Real.sqrt x)
  | exp => some (Real.exp x)
  | log => given (0 < x) (Real.log x)
  | abs => some |x|
  | sign => some (Real.sign x)
  | floor => some ⌊x⌋
  | ceil => some ⌈x⌉
  | sinh => some (Real.sinh x)
  | cosh => some (Real.cosh x)
  | tanh => some (Real.tanh x)

/-- An operator of graphs, as documented for them. -/
noncomputable def BinaryNode.onReals (x y : ℝ) : BinaryNode → Option ℝ
  | add => some (x + y)
  | sub => some (x - y)
  | mul => some (x * y)
  | div => given (y ≠ 0) (x / y)
  | pow | constantPow => power x y
  | lt => some (indicator (x < y))
  | le => some (indicator (x ≤ y))
  | eq => some (indicator (x = y))
  | ne => some (indicator (x ≠ y))
  | and => some (indicator (x ≠ 0 ∧ y ≠ 0))
  | or => some (indicator (x ≠ 0 ∨ y ≠ 0))
  | atan2 => some (angle x y)
  | min => some (Min.min x y)
  | max => some (Max.max x y)
  | mod => truncatedRemainder x y
  | ifElseZero => some (if x = 0 then 0 else y)

/-- Graphs over the real numbers. A number is none where an operator has no value; the second
operand of a conditional zero is not looked at where the first one is zero. -/
noncomputable def Arithmetic.exact : Arithmetic (Option ℝ) where
  ofInt n := some n
  ofFloat := realOf?
  kept x := x
  same x y := decide (x = y)
  toInt? x := x.bind wholeNumber?
  isHalf x := decide (x = some (1 / 2))
  isNonnegative x := decide (∃ r ∈ x, 0 ≤ r)
  isZero x := decide (x = some 0)
  unary op x := x.bind fun x => op.onReals x
  binary op x y :=
    match op with
    | .ifElseZero => x.bind fun c => if c = 0 then some 0 else y
    | op => do op.onReals (← x) (← y)

end Graph
end NamedSlots
