import NamedSlots.Number.Binary

/-!
# Decimal text of floating numbers

Two ways to choose the digits of a positive number `m * 2 ^ q`: the fewest digits that read
back as the same number, and a fixed count of digits. A `FloatStyle` says how the chosen digits
are laid out. Reading rounds the exact decimal value to the nearest number.
-/

namespace NamedSlots

/-- A positive decimal `digits * 10 ^ exponent`. -/
structure DecimalDigits where
  digits : Nat
  exponent : Int
deriving Repr, DecidableEq

namespace DecimalDigits

/-- The fraction `num / den` measured in units of `10 ^ k`. -/
private def inUnits (num den : Nat) (k : Int) : Nat × Nat :=
  (num * tenTo (-k).toNat, den * tenTo k.toNat)

/-- The exponent of the leading digit of `num / den`. -/
def leadingExponent (num den : Nat) : Int :=
  let guess : Int := (((num.log2 : Int) - den.log2) * 30103) / 100000
  let atLeast (k : Int) : Bool :=
    let (n, d) := inUnits num den k
    decide (d ≤ n)
  if atLeast (guess + 1) then guess + 1
  else if atLeast guess then guess
  else if atLeast (guess - 1) then guess - 1
  else guess - 2

/-- The decimal of `count` digits nearest to `num / den`, ties to the even digit. -/
def rounded (num den : Nat) (count : Nat) : DecimalDigits :=
  let k := leadingExponent num den - count + 1
  let (n, d) := inUnits num den k
  let m := n / d
  let rest := n % d
  let up := decide (d < 2 * rest) || (decide (2 * rest = d) && m % 2 == 1)
  ⟨if up then m + 1 else m, k⟩

/-- The neighbour of `m * 2 ^ q` on the grid of `count` digits that reads back, the nearer of two. -/
private def onGrid? (m : Nat) (q : Int) (count : Nat) : Option DecimalDigits :=
  let unit : Nat := twoTo (q - 2).toNat
  let den : Nat := twoTo (2 - q).toNat
  let below := if m = twoTo 52 ∧ -1074 < q then 4 * m - 1 else 4 * m - 2
  let (low, mid, high) := (below * unit, 4 * m * unit, (4 * m + 2) * unit)
  let k := leadingExponent mid den - count + 1
  let (n, d) := inUnits mid den k
  let inside (c : Nat) : Bool :=
    let x := c * tenTo k.toNat * den
    let lo := low * tenTo (-k).toNat
    let hi := high * tenTo (-k).toNat
    if m % 2 = 0 then decide (lo ≤ x) && decide (x ≤ hi) else decide (lo < x) && decide (x < hi)
  let c := n / d
  let rest := n % d
  match inside c, inside (c + 1) with
  | true, true =>
    let up := decide (d < 2 * rest) || (decide (2 * rest = d) && c % 2 == 1)
    some ⟨if up then c + 1 else c, k⟩
  | true, false => some ⟨c, k⟩
  | false, true => some ⟨c + 1, k⟩
  | false, false => none

/-- The decimal with the fewest digits that reads back as `m * 2 ^ q`. -/
def shortest (m : Nat) (q : Int) : DecimalDigits :=
  ((List.range 17).findSome? fun i => onGrid? m q (i + 1)).getD
    (rounded (m * twoTo q.toNat) (twoTo (-q).toNat) 17)

/-- The digits as characters without trailing zeros, and the exponent of the leading digit. -/
def significant (d : DecimalDigits) : List Char × Int :=
  let cs := Nat.toDigits 10 d.digits
  let kept := (cs.reverse.dropWhile (· == '0')).reverse
  (kept, d.exponent + cs.length - 1)

end DecimalDigits

/-- How chosen digits are laid out. -/
structure FloatStyle where
  /-- The count of digits; none for the fewest that read back. -/
  digits : Option Nat
  /-- Leading exponents from this on are written with an exponent. -/
  fixedBelow : Int
  /-- Whether a whole number keeps a point and a zero. -/
  keepPoint : Bool

namespace FloatStyle

/-- The text inside an expression: reads back exactly, always shows a point or an exponent. -/
def exact : FloatStyle := ⟨none, 16, true⟩

/-- At most `n` significant digits. -/
def significant (n : Nat) : FloatStyle := ⟨some n, n, false⟩

/-- An exponent has a sign and at least two digits. -/
private def exponentText (e : Int) : String :=
  let digits := toString e.natAbs
  (if e < 0 then "e-" else "e+") ++ (if e.natAbs < 10 then "0" ++ digits else digits)

private def layout (style : FloatStyle) (digits : List Char) (e : Int) : String :=
  if e < -4 ∨ style.fixedBelow ≤ e then
    let tail := digits.drop 1
    String.ofList (digits.take 1) ++ (if tail.isEmpty then "" else "." ++ String.ofList tail)
      ++ exponentText e
  else if e < 0 then
    "0." ++ String.ofList (List.replicate (-e - 1).toNat '0' ++ digits)
  else
    let whole := digits.take (e.toNat + 1)
    let zeros := List.replicate (e.toNat + 1 - whole.length) '0'
    let tail := digits.drop (e.toNat + 1)
    String.ofList (whole ++ zeros) ++
      (if tail.isEmpty then (if style.keepPoint then ".0" else "")
       else "." ++ String.ofList tail)

/-- The text of a number; a NaN has no sign, a zero keeps its own. -/
def text (style : FloatStyle) (x : Float) : String :=
  match FloatView.ofFloat x with
  | .nan => "nan"
  | .infinite s => if s then "-inf" else "inf"
  | .finite s m q =>
    let body :=
      if m = 0 then (if style.keepPoint then "0.0" else "0")
      else
        let d := match style.digits with
          | none => DecimalDigits.shortest m q
          | some n => DecimalDigits.rounded (m * twoTo q.toNat) (twoTo (-q).toNat) n
        let (digits, e) := d.significant
        style.layout digits e
    if s then "-" ++ body else body

end FloatStyle

namespace Number

/-- The double nearest to `± digits * 10 ^ exponent`; out of range it is zero or infinite. -/
def doubleOfDecimal (negative : Bool) (digits : Nat) (exponent : Int) : Float :=
  if digits = 0 then (if negative then -0.0 else 0.0)
  else
    let top : Int := (Nat.toDigits 10 digits).length + exponent
    if 400 < top then infinity negative
    else if top < -400 then (if negative then -0.0 else 0.0)
    else doubleOfRatio negative (digits * tenTo exponent.toNat) (tenTo (-exponent).toNat)

end Number
end NamedSlots
