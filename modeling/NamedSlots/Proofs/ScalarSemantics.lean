import NamedSlots.Evaluation.Evaluator
import NamedSlots.Proofs.TracedRun

/-!
# Scalars over any real arithmetic

What the interpreter does with plain numbers and single elements, for any type of real numbers and
any arithmetic on them. Which operation is chosen depends on the kinds of the operands alone. An
operation gives nothing when it fails or when its result is complex.
-/

namespace NamedSlots

/-- A number that is not complex. -/
inductive RealNumber (R : Type)
  | bool (b : Bool)
  | int (n : Int)
  | real (x : R)

/-- What the interpreter does with real numbers and with the integers of an element type. -/
structure ScalarArithmetic (R : Type) where
  /-- The number that a stored number or a constant stands for. -/
  ofFloat : Float → Option R
  /-- A plain integer as a real number, unless it is too large. -/
  ofInt? : Int → Option R
  /-- An integer as a real element. -/
  ofInt : Int → R
  /-- The integer part of a real number, toward zero. -/
  truncated : R → Int
  /-- Whether an element type holds an integer. -/
  fits : Bool → Nat → Int → Bool
  /-- The result of an integer operation in an element type. -/
  wrap : Bool → Nat → Int → Option Int
  /-- The power of two integers in an element type. -/
  intPower : Bool → Nat → Int → Int → Option Int
  round : Precision → R → R
  isTrue : R → Bool
  isNaN : R → Bool
  same : R → R → Bool
  order? : R → R → Option Ordering
  orderInt? : Int → R → Option Ordering
  unary : UnaryOp → R → Option R
  binary : BinaryOp → R → R → Option R
  /-- The quotient of two plain integers. -/
  ratio : Int → Int → Option R
  /-- The operators between plain numbers that can fail. -/
  plain : BinaryOp → R → R → Option R

namespace RealNumber

variable {R : Type} (arith : ScalarArithmetic R)

def toInt? : RealNumber R → Option Int
  | bool b => some (Number.ofBool b)
  | int n => some n
  | real _ => none

def isTrue : RealNumber R → Bool
  | bool b => b
  | int n => n != 0
  | real x => arith.isTrue x

def toReal? : RealNumber R → Option R
  | bool b => arith.ofInt? (Number.ofBool b)
  | int n => arith.ofInt? n
  | real x => some x

def toReal : RealNumber R → R
  | bool b => arith.ofInt (Number.ofBool b)
  | int n => arith.ofInt n
  | real x => x

def order? : RealNumber R → RealNumber R → Option Ordering
  | real a, real b => arith.order? a b
  | real a, y => (y.toInt?.bind fun n => arith.orderInt? n a).map Ordering.swap
  | x, real b => x.toInt?.bind fun n => arith.orderInt? n b
  | x, y => do return compare (← x.toInt?) (← y.toInt?)

def ordered (test : Ordering → Bool) (a b : RealNumber R) : Bool :=
  ((order? arith a b).map test).getD false

def same : RealNumber R → RealNumber R → Bool
  | real a, real b => arith.same a b
  | real a, y => (y.toInt?.bind fun n => arith.orderInt? n a) == some .eq
  | x, real b => (x.toInt?.bind fun n => arith.orderInt? n b) == some .eq
  | x, y => x.toInt? == y.toInt?

def isNaN : RealNumber R → Bool
  | real x => arith.isNaN x
  | _ => false

def neg : RealNumber R → Option (RealNumber R)
  | bool b => some (int (-Number.ofBool b))
  | int n => some (int (-n))
  | real x => (arith.unary .neg x).map real

/-! ### Plain numbers -/

/-- Applies the operation of the wider kind of the two operands. -/
def lift (onInt : Int → Int → Option (RealNumber R)) (onReal : R → R → Option R)
    (a b : RealNumber R) : Option (RealNumber R) :=
  match a.toInt?, b.toInt? with
  | some m, some n => onInt m n
  | _, _ => do return real (← onReal (← a.toReal? arith) (← b.toReal? arith))

/-- A power of plain integers. -/
def intPower (m n : Int) : Option (RealNumber R) :=
  if 0 ≤ n then
    match Number.intPow m n.toNat with
    | .ok (.int k) => some (int k)
    | _ => none
  else do return real (← arith.plain .pow (← arith.ofInt? m) (← arith.ofInt? n))

/-- An operator between two plain numbers. -/
def plain (op : BinaryOp) (a b : RealNumber R) : Option (RealNumber R) :=
  match op with
  | .add => lift arith (fun m n => some (int (m + n))) (arith.plain .add) a b
  | .sub => lift arith (fun m n => some (int (m - n))) (arith.plain .sub) a b
  | .mul => lift arith (fun m n => some (int (m * n))) (arith.plain .mul) a b
  | .div => lift arith (fun m n => (arith.ratio m n).map real) (arith.plain .div) a b
  | .pow => lift arith (intPower arith) (arith.plain .pow) a b
  | .lt => some (bool (ordered arith (· == .lt) a b))
  | .le => some (bool (ordered arith (· != .gt) a b))
  | .gt => some (bool (ordered arith (· == .gt) a b))
  | .ge => some (bool (ordered arith (· != .lt) a b))
  | .eq => some (bool (same arith a b))
  | .ne => some (bool (!same arith a b))
  | _ => none

/-! ### Elements -/

/-- A number converted to an element type. -/
def cast (t : ElementType) (n : RealNumber R) : Option (RealNumber R) :=
  match t with
  | .bool => some (bool (n.isTrue arith))
  | .int signed bits =>
    match n with
    | real x => (arith.wrap signed bits (arith.truncated x)).map int
    | n => (n.toInt?.bind (arith.wrap signed bits)).map int
  | .real p => some (real (arith.round p (n.toReal arith)))
  | .complex _ => none

end RealNumber

/-- An operation on one element, in the types of its argument and its result. -/
structure UnaryStep (R : Type) where
  input : ElementType
  output : ElementType
  apply : RealNumber R → Option (RealNumber R)

/-- An operation on two elements, in the types of its arguments and its result. -/
structure BinaryStep (R : Type) where
  input : ElementType
  output : ElementType
  apply : RealNumber R → RealNumber R → Option (RealNumber R)

namespace UnaryStep

variable {R : Type} (arith : ScalarArithmetic R)

def ints (signed : Bool) (bits : Nat) (f : Int → Int) (n : RealNumber R) :
    Option (RealNumber R) :=
  (arith.wrap signed bits (f (n.toInt?.getD 0))).map .int

def reals (p : Precision) (f : R → Option R) (n : RealNumber R) : Option (RealNumber R) :=
  (f (n.toReal arith)).map fun x => .real (arith.round p x)

def floating (op : UnaryOp) (t : ElementType) : Option (UnaryStep R) :=
  match t.floating with
  | .real p => some ⟨.real p, .real p, reals arith p (arith.unary op)⟩
  | _ => none

/-- The operation of an elementwise operator on elements of a type. -/
def select (op : UnaryOp) (t : ElementType) : Option (UnaryStep R) :=
  match op with
  | .neg | .sign =>
    match t with
    | .int s b => some ⟨t, t, ints arith s b (if op = .neg then (- ·) else Int.sign)⟩
    | .real p => some ⟨t, t, reals arith p (arith.unary op)⟩
    | _ => none
  | .not =>
    match t with
    | .complex _ => none
    | t => some ⟨t, .bool, fun n => some (.bool (!n.isTrue arith))⟩
  | .abs =>
    match t with
    | .bool => some ⟨t, t, some⟩
    | .int s b => some ⟨t, t, ints arith s b fun n => (n.natAbs : Int)⟩
    | .real p => some ⟨t, t, reals arith p (arith.unary .abs)⟩
    | .complex _ => none
  | .floor | .ceil =>
    match t with
    | .bool | .int _ _ => some ⟨t, t, some⟩
    | .real p => some ⟨t, t, reals arith p (arith.unary op)⟩
    | .complex _ => none
  | .sum | .prod | .norm => none
  | op => floating arith op t

end UnaryStep

namespace BinaryStep

variable {R : Type} (arith : ScalarArithmetic R)

def ints (signed : Bool) (bits : Nat) (f : Int → Int → Int) (a b : RealNumber R) :
    Option (RealNumber R) :=
  (arith.wrap signed bits (f (a.toInt?.getD 0) (b.toInt?.getD 0))).map .int

def powers (signed : Bool) (bits : Nat) (a b : RealNumber R) : Option (RealNumber R) :=
  (arith.intPower signed bits (a.toInt?.getD 0) (b.toInt?.getD 0)).map .int

def reals (p : Precision) (f : R → R → Option R) (a b : RealNumber R) : Option (RealNumber R) :=
  (f (a.toReal arith) (b.toReal arith)).map fun x => .real (arith.round p x)

def test (f : RealNumber R → RealNumber R → Bool) (a b : RealNumber R) : Option (RealNumber R) :=
  some (.bool (f a b))

/-- The lesser or the greater of two elements; a NaN wins. -/
def extremum (wanted : Ordering) (a b : RealNumber R) : RealNumber R :=
  if a.isNaN arith then a else if RealNumber.order? arith a b == some wanted then a else b

/-- Sums, differences and products, which truth values have in their own way. -/
def arithmetic (op : BinaryOp) (onInt : Int → Int → Int)
    (onBool : Option (RealNumber R → RealNumber R → Bool)) (t : ElementType) :
    Option (BinaryStep R) :=
  match t with
  | .bool => onBool.map fun f => ⟨t, t, test f⟩
  | .int s b => some ⟨t, t, ints arith s b onInt⟩
  | .real p => some ⟨t, t, reals arith p (arith.binary op)⟩
  | .complex _ => none

/-- A test of two elements of any type that is not complex. -/
def testing (f : RealNumber R → RealNumber R → Bool) (t : ElementType) : Option (BinaryStep R) :=
  match t with
  | .complex _ => none
  | t => some ⟨t, .bool, test f⟩

/-- The remainder of two integers, zero for a zero divisor. -/
def intRemainder (m n : Int) : Int := if n = 0 then 0 else Int.fmod m n

/-- The operation of an operator on elements of one joined type. -/
def select (op : BinaryOp) (t : ElementType) : Option (BinaryStep R) :=
  match op with
  | .add => arithmetic arith .add (· + ·) (some fun a b => a.isTrue arith || b.isTrue arith) t
  | .sub => arithmetic arith .sub (· - ·) none t
  | .mul => arithmetic arith .mul (· * ·) (some fun a b => a.isTrue arith && b.isTrue arith) t
  | .div =>
    match t with
    | .bool | .int _ _ => some ⟨.float64, .float64, reals arith .double (arith.binary .div)⟩
    | .real p => some ⟨t, t, reals arith p (arith.binary .div)⟩
    | .complex _ => none
  | .pow =>
    match t with
    | .bool => some ⟨.int8, .int8, powers arith true 8⟩
    | .int s b => some ⟨t, t, powers arith s b⟩
    | .real p => some ⟨t, t, reals arith p (arith.binary .pow)⟩
    | .complex _ => none
  | .mod =>
    match t with
    | .bool => some ⟨.int8, .int8, ints arith true 8 intRemainder⟩
    | .int s b => some ⟨t, t, ints arith s b intRemainder⟩
    | .real p => some ⟨t, t, reals arith p (arith.binary .mod)⟩
    | .complex _ => none
  | .lt => testing (RealNumber.ordered arith (· == .lt)) t
  | .le => testing (RealNumber.ordered arith (· != .gt)) t
  | .gt => testing (RealNumber.ordered arith (· == .gt)) t
  | .ge => testing (RealNumber.ordered arith (· != .lt)) t
  | .eq => testing (RealNumber.same arith) t
  | .ne => testing (fun a b => !RealNumber.same arith a b) t
  | .and => testing (fun a b => a.isTrue arith && b.isTrue arith) t
  | .or => testing (fun a b => a.isTrue arith || b.isTrue arith) t
  | .min | .max =>
    match t with
    | .complex _ => none
    | t => some ⟨t, t, fun a b => some (extremum arith (if op = .min then .lt else .gt) a b)⟩
  | .atan2 =>
    match t.floating with
    | .real p => some ⟨.real p, .real p, reals arith p (arith.binary .atan2)⟩
    | _ => none
  | .dot => none

end BinaryStep

/-- A plain number or a single element. -/
inductive Scalar (R : Type)
  | plain (n : RealNumber R)
  | element (type : ElementType) (n : RealNumber R)

namespace Scalar

variable {R : Type} (arith : ScalarArithmetic R)

def number : Scalar R → RealNumber R
  | plain n => n
  | element _ n => n

/-- The element type of a scalar; plain integers beyond 64 bits have none. -/
def type? : Scalar R → Option ElementType
  | plain (.bool _) => some .bool
  | plain (.int n) =>
    if arith.fits true 64 n then some .int64
    else if arith.fits false 64 n then some .uint64
    else none
  | plain (.real _) => some .float64
  | element t _ => some t

/-- Whether a scalar yields to the type of the other operand. -/
def isWeak : Scalar R → Bool
  | plain (.bool _) => false
  | plain _ => true
  | element _ _ => false

def meet (a b : Scalar R) : Option ElementType := do
  let s ← a.type? arith
  let t ← b.type? arith
  match a.isWeak, b.isWeak with
  | false, true => return Value.weakType s t
  | true, false => return Value.weakType t s
  | _, _ => return s.join t

/-- A plain integer beside an integer type has to fit it. -/
def fitsIn (t : ElementType) (a : Scalar R) : Bool :=
  match t with
  | .int signed bits => !a.isWeak || (a.number.toInt?.map (arith.fits signed bits)).getD true
  | _ => true

/-- Whether two scalars are compared without conversion. -/
def areExact (op : BinaryOp) (a b : Scalar R) : Bool :=
  Value.isComparison op && !((a.type? arith).map ElementType.isInexact).getD false &&
    !((b.type? arith).map ElementType.isInexact).getD false

/-- Whether an operator takes plain integers that do not fit the joined type. -/
def takesAnyInteger (op : BinaryOp) : Bool := Value.isComparison op || op = .and || op = .or

/-- The number of an operand, converted unless it is compared as it is. -/
def operand (isExact : Bool) (t : ElementType) (a : Scalar R) : Option (RealNumber R) :=
  if isExact then some a.number else a.number.cast arith t

/-- The operator applied to two scalars as elements of a joined type. -/
def combine (op : BinaryOp) (a b : Scalar R) : Option (Scalar R) := do
  let t ← a.meet arith b
  let step ← BinaryStep.select arith op t
  if takesAnyInteger op || a.fitsIn arith t && b.fitsIn arith t then
    let x ← a.operand arith (areExact arith op a b) step.input
    let y ← b.operand arith (areExact arith op a b) step.input
    return element step.output (← step.apply x y)
  else none

/-- The operator between two scalars; two plain numbers stay plain. -/
def operator (op : BinaryOp) (a b : Scalar R) : Option (Scalar R) :=
  match a, b with
  | plain x, plain y => (RealNumber.plain arith op x y).map plain
  | a, b => combine arith op a b

def binary (op : BinaryOp) (a b : Scalar R) : Option (Scalar R) :=
  match op with
  | .and | .or | .atan2 | .min | .max | .mod => combine arith op a b
  | .dot => none
  | op => operator arith op a b

/-- An elementwise function; a plain number becomes an element first. -/
def elementwise (op : UnaryOp) (a : Scalar R) : Option (Scalar R) := do
  let t ← a.type? arith
  let step ← UnaryStep.select arith op t
  let n ← a.number.cast arith t
  return element step.output (← step.apply (← n.cast arith step.input))

def unary (op : UnaryOp) (a : Scalar R) : Option (Scalar R) :=
  match op with
  | .neg =>
    match a with
    | plain n => (n.neg arith).map plain
    | element t n => do
      let step ← UnaryStep.select arith .neg t
      return element step.output (← step.apply n)
  | op => elementwise arith op a

variable {arith} {a b c : Scalar R}

lemma combine_eq_some {op : BinaryOp} :
    combine arith op a b = some c ↔
      ∃ t step x y n, a.meet arith b = some t ∧ BinaryStep.select arith op t = some step ∧
        (takesAnyInteger op || a.fitsIn arith t && b.fitsIn arith t) = true ∧
        a.operand arith (areExact arith op a b) step.input = some x ∧
        b.operand arith (areExact arith op a b) step.input = some y ∧
        step.apply x y = some n ∧ c = element step.output n := by
  simp only [combine, Option.bind_eq_bind, Option.pure_def, Option.bind_eq_some_iff,
    Option.ite_none_right_eq_some, Option.some.injEq, @eq_comm _ _ c]
  constructor
  · rintro ⟨t, ht, step, hstep, hfits, x, hx, y, hy, n, hn, hc⟩
    exact ⟨t, step, x, y, n, ht, hstep, hfits, hx, hy, hn, hc⟩
  · rintro ⟨t, step, x, y, n, ht, hstep, hfits, hx, hy, hn, hc⟩
    exact ⟨t, ht, step, hstep, hfits, x, hx, y, hy, n, hn, hc⟩

lemma elementwise_eq_some {op : UnaryOp} :
    elementwise arith op a = some b ↔
      ∃ t step x y n, a.type? arith = some t ∧ UnaryStep.select arith op t = some step ∧
        a.number.cast arith t = some x ∧ x.cast arith step.input = some y ∧
        step.apply y = some n ∧ b = element step.output n := by
  simp only [elementwise, Option.bind_eq_bind, Option.pure_def, Option.bind_eq_some_iff,
    Option.some.injEq, @eq_comm _ _ b]
  constructor
  · rintro ⟨t, ht, step, hstep, x, hx, y, hy, n, hn, hb⟩
    exact ⟨t, step, x, y, n, ht, hstep, hx, hy, hn, hb⟩
  · rintro ⟨t, step, x, y, n, ht, hstep, hx, hy, hn, hb⟩
    exact ⟨t, ht, step, hstep, x, hx, y, hy, n, hn, hb⟩

variable (arith)

def ofLiteral (x : Literal) : Option (Scalar R) :=
  (arith.ofFloat x.number).map fun r =>
    if x.isElement then element .float64 (.real r) else plain (.real r)

/-- The scalar that a stored floating number is. -/
def ofStored : Value → Option (Scalar R)
  | .number (.real x) => (arith.ofFloat x).map fun r => plain (.real r)
  | _ => none

end Scalar

/-- Expressions over scalars; what is none has no value among them. -/
def Semantics.scalar {R : Type} (arith : ScalarArithmetic R) : Semantics (Option (Scalar R)) where
  constant x := x.bind (Scalar.ofLiteral arith)
  unary op a := defined (a.bind (Scalar.unary arith op))
  binary op a b := defined (do Scalar.binary arith op (← a) (← b))
  truth a :=
    match a with
    | some s => return s.number.isTrue arith
    | none => failWith .wrongType
  assemble _ _ := failWith .wrongType
where
  defined : Option (Scalar R) → Except Failure (Option (Scalar R))
    | some s => return some s
    | none => failWith .wrongType

/-- An expression evaluates to a scalar. -/
inductive Expr.Evaluates {R : Type} (arith : ScalarArithmetic R)
    (leaf : Expr → Except Failure (Option (Scalar R))) : Expr → Scalar R → Prop
  | symbol {cs l s} (h : leaf (.node .symbol cs l) = .ok (some s)) :
    Evaluates arith leaf (.node .symbol cs l) s
  | constant {cs l x s} (hx : l.value = some x) (hs : Scalar.ofLiteral arith x = some s) :
    Evaluates arith leaf (.node .constant cs l) s
  | unary {op c cs l a s} (hc : Evaluates arith leaf c a) (hs : a.unary arith op = some s) :
    Evaluates arith leaf (.node (.unary op) (c :: cs) l) s
  | binary {op c d cs l a b s} (hc : Evaluates arith leaf c a) (hd : Evaluates arith leaf d b)
    (hs : a.binary arith op b = some s) :
    Evaluates arith leaf (.node (.binary op) (c :: d :: cs) l) s
  | ifTrue {c t cs l a s} (hc : Evaluates arith leaf c a) (ha : a.number.isTrue arith = true)
    (ht : Evaluates arith leaf t s) :
    Evaluates arith leaf (.node .ifThenElse (c :: t :: cs) l) s
  | ifFalse {c t f cs l a s} (hc : Evaluates arith leaf c a) (ha : a.number.isTrue arith = false)
    (hf : Evaluates arith leaf f s) :
    Evaluates arith leaf (.node .ifThenElse (c :: t :: f :: cs) l) s

namespace Semantics.scalar

variable {R : Type} {arith : ScalarArithmetic R} {a b : Option (Scalar R)} {s : Scalar R}

lemma defined_eq_ok : defined a = .ok b ↔ ∃ s, a = some s ∧ b = some s := by
  cases a with
  | none => exact ⟨nofun, nofun⟩
  | some s =>
    constructor
    · intro h
      cases h
      exact ⟨s, rfl, rfl⟩
    · rintro ⟨_, ⟨⟩, rfl⟩
      rfl

lemma unary_eq_ok {op : UnaryOp} :
    (Semantics.scalar arith).unary op a = .ok (some s) ↔
      ∃ x, a = some x ∧ x.unary arith op = some s := by
  change defined (a.bind (Scalar.unary arith op)) = _ ↔ _
  rw [defined_eq_ok]
  cases a <;> simp

lemma binary_eq_ok {op : BinaryOp} :
    (Semantics.scalar arith).binary op a b = .ok (some s) ↔
      ∃ x y, a = some x ∧ b = some y ∧ x.binary arith op y = some s := by
  change defined (do Scalar.binary arith op (← a) (← b)) = _ ↔ _
  rw [defined_eq_ok]
  cases a <;> cases b <;> simp

lemma truth_eq_ok {t : Bool} :
    (Semantics.scalar arith).truth a = .ok t ↔
      ∃ x, a = some x ∧ x.number.isTrue arith = t := by
  cases a with
  | none => exact ⟨nofun, nofun⟩
  | some x =>
    constructor
    · intro h
      cases h
      exact ⟨x, rfl, rfl⟩
    · rintro ⟨_, ⟨⟩, rfl⟩
      rfl

end Semantics.scalar

namespace Expr

variable {R : Type} {arith : ScalarArithmetic R} {leaf : Expr → Except Failure (Option (Scalar R))}
  {e : Expr} {s : Scalar R}

lemma evaluates_of_eval (h : e.eval (.scalar arith) leaf = .ok (some s)) :
    e.Evaluates arith leaf s := by
  induction e using Expr.eval.induct generalizing s with
  | case1 cs l => exact .symbol h
  | case2 cs l =>
    obtain ⟨items, _, h⟩ := Except.eq_ok_of_bind h
    cases h
  | case3 cs l =>
    obtain ⟨x, hx, hs⟩ := Option.bind_eq_some_iff.1 (Except.ok.inj h)
    exact .constant hx hs
  | case4 op c cs l ih =>
    obtain ⟨a, hc, h⟩ := Except.eq_ok_of_bind h
    obtain ⟨x, rfl, hs⟩ := Semantics.scalar.unary_eq_ok.1 h
    exact .unary (ih hc) hs
  | case5 => cases h
  | case6 op c d cs l ihc ihd =>
    obtain ⟨a, hc, h⟩ := Except.eq_ok_of_bind h
    obtain ⟨b, hd, h⟩ := Except.eq_ok_of_bind h
    obtain ⟨x, y, rfl, rfl, hs⟩ := Semantics.scalar.binary_eq_ok.1 h
    exact .binary (ihc hc) (ihd hd) hs
  | case7 op c l ih =>
    obtain ⟨a, hc, h⟩ := Except.eq_ok_of_bind h
    cases h
  | case8 => cases h
  | case9 c t f cs l ihc iht ihf =>
    obtain ⟨a, hc, h⟩ := Except.eq_ok_of_bind h
    obtain ⟨b, hb, h⟩ := Except.eq_ok_of_bind h
    obtain ⟨x, rfl, hx⟩ := Semantics.scalar.truth_eq_ok.1 hb
    cases b with
    | true => exact .ifTrue (ihc hc) hx (iht h)
    | false => exact .ifFalse (ihc hc) hx (ihf h)
  | case10 c t l ihc iht =>
    obtain ⟨a, hc, h⟩ := Except.eq_ok_of_bind h
    obtain ⟨b, hb, h⟩ := Except.eq_ok_of_bind h
    obtain ⟨x, rfl, hx⟩ := Semantics.scalar.truth_eq_ok.1 hb
    cases b with
    | true => exact .ifTrue (ihc hc) hx (iht h)
    | false => cases h
  | case11 c l ih =>
    obtain ⟨a, hc, h⟩ := Except.eq_ok_of_bind h
    obtain ⟨b, _, h⟩ := Except.eq_ok_of_bind h
    cases h
  | case12 => cases h

lemma eval_of_evaluates (h : e.Evaluates arith leaf s) :
    e.eval (.scalar arith) leaf = .ok (some s) := by
  induction h with
  | symbol h => exact h
  | constant hx hs =>
    rw [eval]
    exact congrArg Except.ok (Option.bind_eq_some_iff.2 ⟨_, hx, hs⟩)
  | unary _ hs ihc =>
    rw [eval, ihc]
    exact Semantics.scalar.unary_eq_ok.2 ⟨_, rfl, hs⟩
  | binary _ _ hs ihc ihd =>
    rw [eval, ihc, ihd]
    exact Semantics.scalar.binary_eq_ok.2 ⟨_, _, rfl, rfl, hs⟩
  | @ifTrue c t cs l a s _ ha _ ihc iht =>
    have htruth : (Semantics.scalar arith).truth (some a) = .ok true :=
      Semantics.scalar.truth_eq_ok.2 ⟨a, rfl, ha⟩
    rcases cs with _ | ⟨f, cs⟩ <;>
    · rw [eval, ihc, Except.ok_bind, htruth]
      exact iht
  | @ifFalse c t f cs l a s _ ha _ ihc ihf =>
    have htruth : (Semantics.scalar arith).truth (some a) = .ok false :=
      Semantics.scalar.truth_eq_ok.2 ⟨a, rfl, ha⟩
    rw [eval, ihc, Except.ok_bind, htruth]
    exact ihf

/-- An expression evaluates to a scalar when that is its value over scalars. -/
theorem eval_eq_ok : e.eval (.scalar arith) leaf = .ok (some s) ↔ e.Evaluates arith leaf s :=
  ⟨evaluates_of_eval, eval_of_evaluates⟩

end Expr

/-- The value of an evaluator's expression over scalars, read from storage of floating numbers. -/
def Evaluator.interpretWith {R : Type} (arith : ScalarArithmetic R) (f : Evaluator)
    (u p t : Value) : Except Failure (Option (Scalar R)) :=
  f.expr.eval (.scalar arith) (f.table.value (.scalar arith) fun s => do
    return Scalar.ofStored arith (← s.read f.isTimeDependent u p t))

/-- The arithmetic that runs: integers wrap around, and real numbers are rounded. -/
def ScalarArithmetic.float : ScalarArithmetic Float where
  ofFloat := some
  ofInt? := Number.doubleOfInt?
  ofInt := Number.doubleOfInt
  truncated x := (Number.truncate? x).getD (-(twoTo 63 : Int))
  fits := ElementType.fits
  wrap signed bits n := some (ElementType.wrap signed bits n)
  intPower signed bits m n :=
    (BinaryLoop.intPow signed bits m n).toOption.map (ElementType.wrap signed bits)
  round := Precision.round
  isTrue x := x != 0.0
  isNaN := Float.isNaN
  same x y := x == y
  order? x y := Number.order? (.real x) (.real y)
  orderInt? := Number.compareInt
  unary op x :=
    match op with
    | .neg => some (-x)
    | .abs => some x.abs
    | .sign => some (Number.signOf x)
    | .floor => some x.floor
    | .ceil => some x.ceil
    | op => (Number.realFunction? op).map (· x)
  binary op x y :=
    match op with
    | .add => some (x + y)
    | .sub => some (x - y)
    | .mul => some (x * y)
    | .div => some (x / y)
    | .pow => some (Float.pow x y)
    | .atan2 => some (Float.atan2 x y)
    | .mod => some (Number.flooredRemainder x y)
    | _ => none
  ratio m n :=
    match Number.intQuotient m n with
    | .ok (.real x) => some x
    | _ => none
  plain op x y :=
    match op with
    | .add => some (x + y)
    | .sub => some (x - y)
    | .mul => some (x * y)
    | .div => if y == 0.0 then none else some (x / y)
    | .pow =>
      match Number.realPow x y with
      | .ok (.real r) => some r
      | _ => none
    | _ => none

end NamedSlots
