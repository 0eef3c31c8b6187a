import Mathlib.Tactic.Lemma
import NamedSlots.Evaluation.Evaluator

/-!
# Failures of what is computed from values

Arithmetic, access to items and the evaluation of expressions fail for reasons that lie in the
values: a wrong type, a size that does not fit, an index out of range. None of them ever fails
because an object lacks a method. One lemma for each function says so, and the rules for binds and
loops carry it from the functions that a computation calls to the computation.
-/

namespace NamedSlots

/-- The kinds of failure with which an object reports that it lacks a method. -/
@[grind]
def Fault.isAbsence : Fault → Bool
  | missingCapability | missingAttribute => true
  | _ => false

@[grind]
def Failure.isAbsence (e : Failure) : Bool := e.kind.isAbsence

attribute [grind] Failure.kind

/-- A computation that may fail, but not in a given way. -/
def Avoids {ε α : Type} (bad : ε → Bool) (x : Except ε α) : Prop :=
  ∀ e, x = .error e → bad e = false

/-! ### Computations put together -/

section Rules

variable {ε α β : Type} {bad : ε → Bool}

@[grind ←]
lemma avoids_pure (a : α) : Avoids bad (pure a : Except ε α) := nofun

@[grind ←]
lemma avoids_throw {e : ε} (h : bad e = false) : Avoids bad (throw e : Except ε α) := by
  intro e' he'
  cases he'
  exact h

lemma Avoids.bind_of_ok {x : Except ε α} {f : α → Except ε β} (hx : Avoids bad x)
    (hf : ∀ a, x = .ok a → Avoids bad (f a)) : Avoids bad (x >>= f) := by
  cases x with
  | error e =>
    intro e' he'
    cases he'
    exact hx e rfl
  | ok a => exact hf a rfl

@[grind ←]
lemma Avoids.bind {x : Except ε α} {f : α → Except ε β} (hx : Avoids bad x)
    (hf : ∀ a, Avoids bad (f a)) : Avoids bad (x >>= f) := hx.bind_of_ok fun a _ => hf a

@[grind ←]
lemma Avoids.map {x : Except ε α} (f : α → β) (hx : Avoids bad x) : Avoids bad (f <$> x) :=
  hx.bind fun a => avoids_pure (f a)

lemma avoids_ite {c : Prop} [Decidable c] {x y : Except ε α} (hx : Avoids bad x)
    (hy : Avoids bad y) : Avoids bad (if c then x else y) := by
  split
  · exact hx
  · exact hy

lemma avoids_mapM_of_mem {f : α → Except ε β} {as : List α} (hf : ∀ a ∈ as, Avoids bad (f a)) :
    Avoids bad (as.mapM f) := by
  induction as with
  | nil => exact nofun
  | cons a as ih =>
    rw [List.mapM_cons]
    have htail := ih fun a ha => hf a (List.mem_cons_of_mem _ ha)
    exact (hf a List.mem_cons_self).bind fun b => htail.bind fun bs => avoids_pure _

@[grind ←]
lemma avoids_mapM {f : α → Except ε β} (hf : ∀ a, Avoids bad (f a)) (as : List α) :
    Avoids bad (as.mapM f) := avoids_mapM_of_mem fun a _ => hf a

@[grind ←]
lemma avoids_foldlM {f : β → α → Except ε β} (hf : ∀ b a, Avoids bad (f b a)) (b : β)
    (as : List α) : Avoids bad (as.foldlM f b) := by
  induction as generalizing b with
  | nil => exact nofun
  | cons a as ih =>
    rw [List.foldlM_cons]
    exact (hf b a).bind ih

@[grind ←]
lemma avoids_failWith {f : Fault} (h : f.isAbsence = false) :
    Avoids Failure.isAbsence (failWith f : Except Failure α) := avoids_throw h

@[grind ←]
lemma Avoids.lift {x : Except Fault α} (h : Avoids Fault.isAbsence x) :
    Avoids Failure.isAbsence (monadLift x : Except Failure α) := by
  cases x with
  | error f => exact avoids_throw (h f rfl)
  | ok a => exact avoids_pure a

lemma eq_ok_of_lift {x : Except Fault α} {a : α} (h : (monadLift x : Except Failure α) = .ok a) :
    x = .ok a := by
  cases x with
  | error f => cases h
  | ok b =>
    cases h
    rfl

@[grind ←]
lemma avoids_lift_element (x : Except ElementError α) :
    Avoids Failure.isAbsence (monadLift x : Except Failure α) := by
  cases x with
  | error e => cases e <;> exact avoids_throw rfl
  | ok a => exact avoids_pure a

end Rules

/-! ### Numbers -/

namespace Number

@[grind ←]
lemma avoids_toFloatChecked (n : Number) : Avoids Fault.isAbsence n.toFloatChecked := by
  unfold toFloatChecked
  grind

@[grind ←]
lemma avoids_complexOperand (n : Number) : Avoids Fault.isAbsence n.complexOperand := by
  unfold complexOperand
  grind

@[grind ←]
lemma avoids_lift {onInt : Int → Int → Except Fault Number}
    {onReal : Float → Float → Except Fault Number}
    {onComplex : Float × Float → Float × Float → Except Fault Number}
    (hint : ∀ m n, Avoids Fault.isAbsence (onInt m n))
    (hreal : ∀ x y, Avoids Fault.isAbsence (onReal x y))
    (hcomplex : ∀ x y, Avoids Fault.isAbsence (onComplex x y)) (a b : Number) :
    Avoids Fault.isAbsence (lift onInt onReal onComplex a b) := by
  unfold lift
  grind

@[grind ←]
lemma avoids_complexPow (x y : Float × Float) : Avoids Fault.isAbsence (complexPow x y) := by
  unfold complexPow
  grind

@[grind ←]
lemma avoids_realPow (x y : Float) : Avoids Fault.isAbsence (realPow x y) := by
  unfold realPow
  grind

@[grind ←]
lemma avoids_add (a b : Number) : Avoids Fault.isAbsence (a.add b) := by
  unfold add
  grind

@[grind ←]
lemma avoids_sub (a b : Number) : Avoids Fault.isAbsence (a.sub b) := by
  unfold sub
  grind

@[grind ←]
lemma avoids_mul (a b : Number) : Avoids Fault.isAbsence (a.mul b) := by
  unfold mul
  grind

@[grind ←]
lemma avoids_intQuotient (m n : Int) : Avoids Fault.isAbsence (intQuotient m n) := by
  unfold intQuotient
  grind

@[grind ←]
lemma avoids_div (a b : Number) : Avoids Fault.isAbsence (a.div b) := by
  unfold div
  grind

@[grind ←]
lemma avoids_intPow (m : Int) (n : Nat) : Avoids Fault.isAbsence (intPow m n) := by
  unfold intPow
  grind

@[grind ←]
lemma avoids_pow (a b : Number) : Avoids Fault.isAbsence (a.pow b) := by
  unfold pow
  grind

@[grind ←]
lemma avoids_ordered (test : Ordering → Bool) (a b : Number) :
    Avoids Fault.isAbsence (ordered test a b) := by
  unfold ordered
  grind

end Number

namespace UnaryLoop

@[grind ←]
lemma avoids_floating (op : UnaryOp) (t : ElementType) :
    Avoids Fault.isAbsence (floating op t) := by
  unfold floating
  grind

@[grind ←]
lemma avoids_select (op : UnaryOp) (t : ElementType) : Avoids Fault.isAbsence (select op t) := by
  unfold select
  grind

end UnaryLoop

namespace BinaryLoop

@[grind ←]
lemma avoids_intPow (isSigned : Bool) (bits : Nat) (a b : Int) :
    Avoids Fault.isAbsence (intPow isSigned bits a b) := by
  unfold intPow
  grind

@[grind ←]
lemma avoids_ints {isSigned : Bool} {bits : Nat} {f : Int → Int → Except Fault Int}
    (hf : ∀ m n, Avoids Fault.isAbsence (f m n)) (a b : Number) :
    Avoids Fault.isAbsence (ints isSigned bits f a b) := by
  unfold ints
  grind

@[grind ←]
lemma avoids_reals (p : Precision) (f : Float → Float → Float) (a b : Number) :
    Avoids Fault.isAbsence (reals p f a b) := by
  unfold reals
  grind

@[grind ←]
lemma avoids_pairs (p : Precision) (f : Float × Float → Float × Float → Float × Float)
    (a b : Number) : Avoids Fault.isAbsence (pairs p f a b) := by
  unfold pairs
  grind

@[grind ←]
lemma avoids_test (f : Number → Number → Bool) (a b : Number) :
    Avoids Fault.isAbsence (test f a b) := by
  unfold test
  grind

@[grind ←]
lemma avoids_arithmetic (t : ElementType) (onInt : Int → Int → Int)
    (onReal : Float → Float → Float)
    (onComplex : Float × Float → Float × Float → Float × Float) (a b : Number) :
    Avoids Fault.isAbsence (arithmetic t onInt onReal onComplex a b) := by
  cases t with
  | bool => exact avoids_pure a
  | int isSigned bits => exact avoids_ints (fun m n => avoids_pure _) a b
  | real p => exact avoids_reals p onReal a b
  | complex p => exact avoids_pairs p onComplex a b

@[grind ←]
lemma avoids_select (op : BinaryOp) (t : ElementType) : Avoids Fault.isAbsence (select op t) := by
  unfold select
  grind

lemma avoids_apply {op : BinaryOp} {t : ElementType} {loop : BinaryLoop}
    (h : select op t = .ok loop) (a b : Number) : Avoids Fault.isAbsence (loop.apply a b) := by
  unfold select at h
  -- an operator has one loop, or one for each kind of type
  split at h <;> try split at h
  all_goals cases h
  all_goals grind

end BinaryLoop

/-! ### Terms and expressions as values -/

namespace Term

@[grind ←]
lemma avoids_foldLeft (op : BinaryOp) (es : List Expr) :
    Avoids Failure.isAbsence (foldLeft op es) := by
  cases es with
  | nil => exact avoids_failWith rfl
  | cons e es => exact avoids_pure _

mutual

@[grind ←]
lemma avoids_toExpr (t : Term) : Avoids Failure.isAbsence t.toExpr := by
  match t with
  | symbol _ => exact avoids_pure _
  | integer _ => exact avoids_pure _
  | rational _ _ => exact avoids_pure _
  | float _ => exact avoids_pure _
  | constant c =>
    rw [toExpr]
    grind
  | matrix _ _ _ => exact avoids_pure _
  | element _ _ _ _ _ => exact avoids_pure _
  | piecewise branches => exact avoids_branchesToExpr branches
  | apply head args =>
    have hargs := avoids_allToExpr args
    have harg (a : Term) (ha : a ∈ args) : Avoids Failure.isAbsence a.toExpr := avoids_toExpr a
    unfold toExpr
    grind

lemma avoids_allToExpr (ts : List Term) : Avoids Failure.isAbsence (allToExpr ts) := by
  match ts with
  | [] => exact avoids_pure _
  | t :: ts =>
    exact (avoids_toExpr t).bind fun e => (avoids_allToExpr ts).bind fun es => avoids_pure _

lemma avoids_branchesToExpr (branches : List (Term × Term)) :
    Avoids Failure.isAbsence (branchesToExpr branches) := by
  match branches with
  | [] => exact avoids_throw rfl
  | (value, condition) :: rest =>
    have hvalue := avoids_toExpr value
    have hcondition := avoids_toExpr condition
    have hrest := avoids_branchesToExpr rest
    rw [branchesToExpr]
    grind

end

end Term

namespace Expr

@[grind ←]
lemma avoids_length (e : Expr) : Avoids Failure.isAbsence e.length := by
  unfold length
  grind

@[grind ←]
lemma avoids_count (e : Expr) : Avoids Failure.isAbsence e.count := by
  unfold count
  grind

@[grind ←]
lemma avoids_iterate (e : Expr) : Avoids Failure.isAbsence e.iterate := by
  unfold iterate
  grind

end Expr

namespace Value

@[grind ←]
lemma avoids_termToFloat (t : Term) : Avoids Failure.isAbsence (termToFloat t) := by
  unfold termToFloat
  grind

@[grind ←]
lemma avoids_toFloat (v : Value) : Avoids Failure.isAbsence v.toFloat := by
  fun_induction toFloat v <;> grind

@[grind ←]
lemma avoids_toExpr (v : Value) : Avoids Failure.isAbsence v.toExpr := by
  fun_induction toExpr v <;> grind

@[grind ←]
lemma avoids_termTruth (t : Term) : Avoids Failure.isAbsence (termTruth t) := by
  unfold termTruth
  grind

@[grind ←]
lemma avoids_truth (v : Value) : Avoids Failure.isAbsence v.truth := by
  fun_induction truth v <;> grind

@[grind ←]
lemma avoids_iterate (v : Value) : Avoids Failure.isAbsence v.iterate := by
  unfold iterate
  grind

/-! ### Arrays and items -/

@[grind ←]
lemma avoids_assemble (v : Value) : Avoids Failure.isAbsence v.assemble := by
  unfold assemble
  grind

@[grind ←]
lemma avoids_reshape (v : Value) (shape : List Index) :
    Avoids Failure.isAbsence (v.reshape shape) := by
  unfold reshape
  grind

@[grind ←]
lemma avoids_pick {α : Type} (items : List α) (i : Int) :
    Avoids Failure.isAbsence (pick items i) := by
  unfold pick
  grind

@[grind ←]
lemma avoids_item (v : Value) (i : Index) : Avoids Failure.isAbsence (v.item i) := by
  unfold item
  grind

@[grind ←]
lemma avoids_toInt (v : Value) : Avoids Failure.isAbsence v.toInt := by
  unfold toInt
  grind

@[grind ←]
lemma avoids_storedInt (isSigned : Bool) (bits : Nat) (n : Int) :
    Avoids Failure.isAbsence (storedInt isSigned bits n) := by
  unfold storedInt
  grind

@[grind ←]
lemma avoids_storedNumber (t : ElementType) (v : Value) :
    Avoids Failure.isAbsence (storedNumber t v) := by
  unfold storedNumber
  grind

@[grind ←]
lemma avoids_storedText (width : Nat) (v : Value) :
    Avoids Failure.isAbsence (storedText width v) := by
  unfold storedText
  grind

@[grind ←]
lemma avoids_storedRow (v : Value) (shape : List Nat) (value : Value) :
    Avoids Failure.isAbsence (storedRow v shape value) := by
  refine (avoids_assemble value).bind fun a => ?_
  have hnumbers (t : ElementType) (items : List Value) := avoids_mapM (avoids_storedNumber t) items
  have htexts (width : Nat) (items : List Value) := avoids_mapM (avoids_storedText width) items
  split <;> grind

@[grind ←]
lemma avoids_replaced {α : Type} (items : List α) (i : Int) (a : α) :
    Avoids Failure.isAbsence (replaced items i a) := by
  unfold replaced
  grind

@[grind ←]
lemma avoids_withRow {α : Type} (size count : Nat) (items : List α) (i : Int) (row : List α) :
    Avoids Failure.isAbsence (withRow size count items i row) := by
  unfold withRow
  grind

@[grind ←]
lemma avoids_setItem (v : Value) (i : Index) (value : Value) :
    Avoids Failure.isAbsence (v.setItem i value) := by
  unfold setItem
  grind

end Value
end NamedSlots
