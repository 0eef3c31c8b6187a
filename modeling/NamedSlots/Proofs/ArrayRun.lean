import NamedSlots.Proofs.ArraySemantics
import NamedSlots.Proofs.ArrayStorage
import NamedSlots.Proofs.ScalarRun

/-!
# The interpreter on arrays

Over the arithmetic that runs, the operations on floating numbers and arrays are those of the
interpreter.
-/

namespace NamedSlots

/-! ### Broadcasting -/

namespace Shape

variable {α : Type}

lemma go_broadcast?_self (s : List Nat) : broadcast?.go s s = some s := by
  induction s with
  | nil => rfl
  | cons d ds ih =>
    rw [broadcast?.go, if_pos (.inl rfl), ih]
    rfl

lemma broadcast?_self (s : List Nat) : broadcast? s s = some s := by
  rw [broadcast?, go_broadcast?_self, Option.map_some, List.reverse_reverse]

lemma broadcast?_nil_left (s : List Nat) : broadcast? [] s = some s := by
  rw [broadcast?, List.reverse_nil, broadcast?.go, Option.map_some, List.reverse_reverse]

lemma broadcast?_nil_right (s : List Nat) : broadcast? s [] = some s := by
  cases hs : s.reverse with
  | nil =>
    cases List.reverse_eq_nil_iff.1 hs
    rfl
  | cons d ds =>
    rw [broadcast?, List.reverse_nil, hs, broadcast?.go, Option.map_some, ← hs,
      List.reverse_reverse]
    nofun

lemma flatten_chunks (size n : Nat) (items : List α) (h : items.length = n * size) :
    (chunks size items n).flatten = items := by
  induction n generalizing items with
  | zero => exact (List.length_eq_zero_iff.1 (h.trans (Nat.zero_mul size))).symm
  | succ n ih =>
    rw [chunks, List.flatten_cons, ih, List.take_append_drop]
    rw [List.length_drop, h, Nat.succ_mul, Nat.add_sub_cancel]

lemma length_of_mem_chunks {size n : Nat} {items part : List α} (h : items.length = n * size)
    (hpart : part ∈ chunks size items n) : part.length = size := by
  induction n generalizing items with
  | zero => cases hpart
  | succ n ih =>
    rcases List.mem_cons.1 hpart with rfl | hpart
    · rw [List.length_take, h, Nat.succ_mul]
      omega
    · refine ih ?_ hpart
      rw [List.length_drop, h, Nat.succ_mul, Nat.add_sub_cancel]

lemma go_spread_self {s : List Nat} {items : List α} (h : items.length = size s) :
    spread.go s s items = items := by
  induction s generalizing items with
  | nil => rfl
  | cons d ds ih =>
    have hparts : (chunks (size ds) items d).map (spread.go ds ds) = chunks (size ds) items d :=
      (List.map_congr_left fun part hpart => ih (length_of_mem_chunks h hpart)).trans
        (List.map_id _)
    rw [spread.go, hparts, if_pos rfl]
    exact flatten_chunks (size ds) d items h

/-- An array of the shape that is asked for is not repeated. -/
lemma spread_self {s : List Nat} {items : List α} (h : items.length = size s) :
    spread s s items = items := by
  unfold spread
  rw [Nat.sub_self]
  exact go_spread_self h

lemma size_replicate_one (n : Nat) : size (List.replicate n 1) = 1 := by
  induction n with
  | zero => rfl
  | succ n ih => rw [List.replicate_succ, size, ih]

lemma go_spread_single (s : List Nat) (x : α) :
    spread.go (List.replicate s.length 1) s [x] = List.replicate (size s) x := by
  induction s with
  | nil => rfl
  | cons d ds ih =>
    rw [List.length_cons, List.replicate_succ, spread.go, size_replicate_one]
    simp only [chunks, List.take_succ_cons, List.take_nil, List.map_cons, List.map_nil, ih,
      List.flatten_cons, List.flatten_nil, List.append_nil]
    split
    · rename_i hd
      rw [← hd, size, Nat.one_mul]
    · rw [List.flatten_replicate_replicate, size]

/-- A single number stands at every position. -/
lemma spread_single (s : List Nat) (x : α) : spread [] s [x] = List.replicate (size s) x := by
  unfold spread
  rw [List.length_nil, Nat.sub_zero, List.append_nil]
  exact go_spread_single s x

end Shape

namespace ArrayValue

def value : ArrayValue Float → Value
  | plain x => .real x
  | element x => .element .float64 (.real x)
  | array s xs _ => .numbers .float64 s (xs.map .real)

lemma value_ofItems {s : List Nat} {xs : List Float} (count : xs.length = Shape.size s) :
    (ofItems s xs count).value = Value.ofItems .float64 s (xs.map .real) := by
  cases s with
  | nil =>
    obtain ⟨x, rfl⟩ := List.length_eq_one_iff.1 count
    rfl
  | cons d ds => rfl

variable {a b c : ArrayValue Float}

lemma negate_value (a : ArrayValue Float) :
    a.value.negate = .ok (a.map ArrayArithmetic.float.neg).value := by
  cases a with
  | plain x => rfl
  | element x => rfl
  | array s xs count =>
    rw [map, value_ofItems, List.map_map]
    change Except.ok (Value.ofItems .float64 s ((xs.map Number.real).map _)) = _
    rw [List.map_map]
    rfl

lemma assemble_value (a : ArrayValue Float) :
    a.value.assemble = .ok (.numbers .float64 a.shape (a.items.map .real)) := by
  cases a <;> rfl

lemma aggregate_value (a : ArrayValue Float) (op : BinaryOp) (neutral : Int)
    (ofNumbers : ElementType → List Number → Number) :
    a.value.aggregate op neutral ofNumbers =
      .ok (.element .float64 (ofNumbers .float64 (a.items.map .real))) := by
  unfold Value.aggregate
  rw [assemble_value]
  rfl

lemma map_toFloat (xs : List Float) : (xs.map Number.real).map Number.toFloat = xs := by
  rw [List.map_map]
  exact List.map_id xs

lemma sumNumbers_real (xs : List Float) :
    Value.sumNumbers .float64 (xs.map .real) = .real (ArrayArithmetic.float.total xs) := by
  have hsum : ArrayArithmetic.float.total xs = 0.0 + Number.sum (· + ·) xs :=
    congrArg (0.0 + ·) (Addition.sum_float (· + ·) xs)
  rw [hsum]
  conv_rhs => rw [← map_toFloat xs]
  rfl

lemma productNumbers_real (xs : List Float) :
    Value.productNumbers .float64 (xs.map .real) = .real (ArrayArithmetic.float.product xs) := by
  refine congrArg Number.real ?_
  rw [List.foldl_map]
  rfl

lemma dotNumbers_real (xs ys : List Float) :
    Value.dotNumbers .float64 (xs.map .real) (ys.map .real) =
      .real (ArrayArithmetic.float.inner xs ys) := by
  refine congrArg Number.real ?_
  rw [List.zip_map, List.foldl_map]
  rfl

lemma norm_value (a : ArrayValue Float) :
    a.value.norm = .ok (.element .float64 (.real (ArrayArithmetic.float.magnitude a.items))) := by
  have hreal : (a.items.map Number.real).map (fun n => Number.real n.toFloat) =
      a.items.map Number.real := List.map_map
  unfold Value.norm
  rw [assemble_value, Except.ok_bind]
  dsimp only
  rw [hreal, dotNumbers_real]
  rfl

/-- What an operator gives for a value is what the interpreter computes. -/
lemma applyUnary_value {op : UnaryOp} (h : a.unary .float op = some b) :
    Value.applyUnary op a.value = .ok b.value := by
  cases op
  case neg =>
    cases h
    exact negate_value a
  case sum =>
    cases h
    exact (aggregate_value a .add 0 Value.sumNumbers).trans (by rw [sumNumbers_real]; rfl)
  case prod =>
    cases h
    exact (aggregate_value a .mul 1 Value.productNumbers).trans (by rw [productNumbers_real]; rfl)
  case norm =>
    cases h
    exact norm_value a
  all_goals cases h

/-! ### Operators of two values -/

/-- The numeric operand that a value is. -/
def operand : ArrayValue Float → Value.Operand
  | plain x => ⟨.float64, true, false, [], [.real x]⟩
  | element x => ⟨.float64, false, false, [], [.real x]⟩
  | array s xs _ => ⟨.float64, false, true, s, xs.map .real⟩

lemma meetType_operand (a b : ArrayValue Float) :
    Value.meetType a.operand b.operand = .float64 := by
  cases a <;> cases b <;> rfl

lemma map_cast_real (xs : List Float) :
    (xs.map Number.real).map ElementType.float64.cast = xs.map Number.real := List.map_map

/-- The loop of an operator runs over pairs of floating numbers. -/
lemma mapM_reals (f : Float → Float → Float) (xs ys : List Float) :
    ((xs.map Number.real).zip (ys.map Number.real)).mapM
        (fun (x, y) => (BinaryLoop.reals .double f x y : Except Failure Number)) =
      .ok ((List.zipWith f xs ys).map .real) := by
  induction xs generalizing ys with
  | nil => rfl
  | cons x xs ih =>
    cases ys with
    | nil => rfl
    | cons y ys =>
      rw [List.map_cons, List.map_cons, List.zip_cons_cons, List.mapM_cons, ih]
      rfl

lemma combine_value {op : BinaryOp} {f : Float → Float → Float}
    (hop : ArrayArithmetic.float.operator? op = some f) (a b : ArrayValue Float) {s : List Nat}
    {xs ys : List Float} (hs : Shape.broadcast? a.operand.shape b.operand.shape = some s)
    (hxs : Shape.spread a.operand.shape s a.operand.items = xs.map .real)
    (hys : Shape.spread b.operand.shape s b.operand.items = ys.map .real) :
    Value.combine op a.operand b.operand =
      .ok (Value.ofItems .float64 s ((List.zipWith f xs ys).map .real)) := by
  have hloop : BinaryLoop.select op .float64 =
      .ok ⟨.float64, .float64, BinaryLoop.reals .double f⟩ := by
    cases op <;> cases hop <;> rfl
  have hcomparison : Value.isComparison op = false := by
    cases op <;> first | rfl | cases hop
  have hlift : (liftM (BinaryLoop.select op .float64) : Except Failure BinaryLoop) =
      .ok ⟨.float64, .float64, BinaryLoop.reals .double f⟩ := by
    rw [hloop]
    rfl
  have hfits (c : ArrayValue Float) : c.operand.fitsIn .float64 = true := rfl
  unfold Value.combine
  simp only [meetType_operand, hlift, Except.ok_bind, hcomparison, hfits, Bool.and_self,
    Bool.not_true, Bool.and_false, Bool.false_and, Bool.false_eq_true, if_false, hs, hxs, hys,
    map_cast_real]
  rw [mapM_reals]
  rfl

lemma spread_items {s : List Nat} {xs : List Float} (count : xs.length = Shape.size s) :
    Shape.spread s s (xs.map Number.real) = xs.map Number.real :=
  Shape.spread_self ((List.length_map _).trans count)

lemma spread_number {s : List Nat} {xs : List Float} (count : xs.length = Shape.size s)
    (x : Float) : Shape.spread [] s [Number.real x] = (xs.map fun _ => x).map Number.real := by
  rw [Shape.spread_single, ← count, List.map_const', List.map_replicate]

section Combine

variable {op : BinaryOp} {f : Float → Float → Float} {s t : List Nat} {xs ys : List Float}
  (hop : ArrayArithmetic.float.operator? op = some f)
include hop

lemma combine_number_array {x : Float} (ha : a.operand.shape = [] ∧ a.operand.items = [.real x])
    (count : xs.length = Shape.size s) :
    Value.combine op a.operand (array s xs count).operand =
      .ok ((array s xs count).map (f x)).value := by
  have hspread := spread_number count x
  rw [← ha.1, ← ha.2] at hspread
  rw [combine_value hop a (array s xs count) (ha.1 ▸ Shape.broadcast?_nil_left s) hspread
    (spread_items count)]
  rw [map, value_ofItems, List.zipWith_map_left, List.zipWith_self]

lemma combine_array_number {y : Float} (hb : b.operand.shape = [] ∧ b.operand.items = [.real y])
    (count : xs.length = Shape.size s) :
    Value.combine op (array s xs count).operand b.operand =
      .ok ((array s xs count).map (f · y)).value := by
  have hspread := spread_number count y
  rw [← hb.1, ← hb.2] at hspread
  rw [combine_value hop (array s xs count) b (s := s) (hb.1 ▸ Shape.broadcast?_nil_right s)
    (spread_items count) hspread]
  rw [map, value_ofItems, List.zipWith_map_right, List.zipWith_self]

lemma combine_number_number {x y : Float} (ha : a.operand.shape = [] ∧ a.operand.items = [.real x])
    (hb : b.operand.shape = [] ∧ b.operand.items = [.real y]) :
    Value.combine op a.operand b.operand = .ok (element (f x y)).value := by
  have hspread {c : ArrayValue Float} {z : Float}
      (hc : c.operand.shape = [] ∧ c.operand.items = [.real z]) :
      Shape.spread c.operand.shape [] c.operand.items = [z].map Number.real := by
    rw [hc.1, hc.2]
    rfl
  exact combine_value hop a b (by rw [ha.1, hb.1]; rfl) (hspread ha) (hspread hb)

/-- An operator between an array and a number or an array of its shape. -/
lemma combine_of_zip? (h : a.zip? f b = some c)
    (htyped : (a.value.isTyped || b.value.isTyped) = true) :
    Value.combine op a.operand b.operand = .ok c.value := by
  cases a with
  | array s xs count =>
    cases b with
    | array t ys count' =>
      rw [zip?] at h
      split at h
      · rename_i heq
        subst heq
        cases h
        rw [combine_value hop (array s xs count) (array s ys count') (Shape.broadcast?_self s)
          (spread_items count) (spread_items count'), value_ofItems]
      · cases h
    | plain y | element y =>
      cases h
      exact combine_array_number hop ⟨rfl, rfl⟩ count
  | plain x =>
    cases b with
    | array t ys count =>
      cases h
      exact combine_number_array hop ⟨rfl, rfl⟩ count
    | plain y => cases htyped
    | element y =>
      cases h
      exact combine_number_number hop ⟨rfl, rfl⟩ ⟨rfl, rfl⟩
  | element x =>
    cases b with
    | array t ys count =>
      cases h
      exact combine_number_array hop ⟨rfl, rfl⟩ count
    | plain y | element y =>
      cases h
      exact combine_number_number hop ⟨rfl, rfl⟩ ⟨rfl, rfl⟩

end Combine

lemma repetition?_value (a b : ArrayValue Float) : Value.repetition? a.value b.value = none := by
  cases a <;> cases b <;> rfl

lemma operateWith_value {op : BinaryOp}
    (onObjects : BinaryOp → Value → Value → Except Failure Value)
    (hop : op = .add ∨ op = .sub ∨ op = .mul)
    (htyped : (a.value.isTyped || b.value.isTyped) = true) :
    Value.operateWith onObjects op a.value b.value = Value.combine op a.operand b.operand := by
  have hrepetition := repetition?_value a b
  unfold Value.operateWith
  cases a <;> cases b
  case plain.plain => cases htyped
  all_goals
    rcases hop with rfl | rfl | rfl <;> rfl

lemma binaryOperator_of_zip? {op : BinaryOp} {f : Float → Float → Float}
    (hop : ArrayArithmetic.float.operator? op = some f) (h : a.zip? f b = some c) :
    Value.binaryOperator op a.value b.value = .ok c.value := by
  have hop' : op = .add ∨ op = .sub ∨ op = .mul := by
    cases op <;> simp only [reduceCtorEq, or_false, or_true] <;> cases hop
  unfold Value.binaryOperator
  rw [Nat.add_comm]
  unfold Value.operate
  by_cases htyped : (a.value.isTyped || b.value.isTyped) = true
  · rw [operateWith_value _ hop' htyped]
    exact combine_of_zip? hop h htyped
  · cases a <;> cases b <;> first | exact absurd rfl htyped | skip
    cases op <;> cases hop <;> cases h <;> rfl

lemma dot_value (h : a.items.length = b.items.length) :
    Value.dot a.value b.value =
      .ok (.element .float64 (.real (ArrayArithmetic.float.inner a.items b.items))) := by
  have hsize : Shape.size a.shape = Shape.size b.shape := by
    rw [← length_items, ← length_items, h]
  unfold Value.dot
  rw [assemble_value, assemble_value]
  simp only [Except.ok_bind, Value.shape?, Option.map_some, hsize, bne_self_eq_false,
    Bool.false_eq_true, if_false]
  have hjoin : ElementType.float64.join .float64 = .float64 := Value.join_self .double
  rw [hjoin, map_cast_real, map_cast_real, dotNumbers_real]
  rfl

/-- What an operator gives for two values is what the interpreter computes. -/
lemma applyBinary_value {op : BinaryOp} (h : a.binary .float op b = some c) :
    Value.applyBinary op a.value b.value = .ok c.value := by
  cases op
  case dot =>
    obtain ⟨hlength, hc⟩ := Option.ite_none_right_eq_some.1 h
    cases hc
    exact dot_value hlength
  case add | sub | mul => exact binaryOperator_of_zip? rfl h
  all_goals cases h

/-! ### Arrays of single numbers -/

section Assemble

variable {as : List (ArrayValue Float)} {xs : List Float}

lemma value_of_number? {x : Float} (h : a.number? = some x) :
    a.value = .real x ∨ a.value = .element .float64 (.real x) := by
  cases a <;> cases h
  · exact .inl rfl
  · exact .inr rfl

lemma toNests_numbers (h : List.Forall₂ (fun a x => number? a = some x) as xs) :
    Value.toNests (as.map value) = (as.map value).map Nest.item := by
  induction h with
  | nil => rfl
  | cons hx _ ih =>
    rw [List.map_cons, List.map_cons, Value.toNests, ih]
    rcases value_of_number? hx with hx | hx <;> rw [hx] <;> rfl

lemma foldl_join_numbers (h : List.Forall₂ (fun a x => number? a = some x) as xs) :
    (as.map value).foldl (fun t v => ItemType.join t (ItemType.ofValue v))
      (.number .float64) = .number .float64 := by
  induction h with
  | nil => rfl
  | cons hx _ ih =>
    rw [List.map_cons, List.foldl_cons]
    rcases value_of_number? hx with hx | hx <;> rw [hx] <;> exact ih

lemma map_numbers {g : Value → Number}
    (hg : ∀ x : Float, g (.real x) = .real x ∧ g (.element .float64 (.real x)) = .real x)
    (h : List.Forall₂ (fun a x => number? a = some x) as xs) :
    (as.map value).map g = xs.map .real := by
  induction h with
  | nil => rfl
  | @cons a x as xs hx _ ih =>
    rw [List.map_cons, List.map_cons, List.map_cons, ih]
    rcases value_of_number? hx with hx | hx <;> rw [hx]
    · rw [(hg x).1]
    · rw [(hg x).2]

lemma gridOf_numbers (shape : List Nat) (h : List.Forall₂ (fun a x => number? a = some x) as xs) :
    Value.gridOf shape (as.map value) = .numbers .float64 shape (xs.map .real) := by
  cases h with
  | nil => rfl
  | @cons a x as xs hx h =>
    have htype : ItemType.ofValue a.value = .number .float64 := by
      rcases value_of_number? hx with hx | hx <;> rw [hx] <;> rfl
    unfold Value.gridOf
    rw [List.map_cons]
    dsimp only
    rw [htype, foldl_join_numbers h]
    refine congrArg (Value.numbers .float64 shape) ?_
    exact map_numbers (fun x => ⟨rfl, rfl⟩) (.cons hx h)

/-- Numbers side by side assemble to a floating array of one dimension. -/
lemma assemble_numbers (h : List.Forall₂ (fun a x => number? a = some x) as xs) :
    (Value.list (as.map value)).assemble = .ok (.numbers .float64 [xs.length] (xs.map .real)) := by
  have hnest : (Value.list (as.map value)).toNest = .nest ((as.map value).map Nest.item) := by
    rw [Value.toNest, toNests_numbers h]
  have hshape : (Nest.nest ((as.map value).map Nest.item)).shape? = some [xs.length] := by
    rw [← h.length_eq]
    cases as with
    | nil => rfl
    | cons a as =>
      rw [List.map_cons, List.map_cons, Nest.shape?]
      simp only [Nest.shape?, Value.allHaveShape_items, if_true, List.length_map, List.length_cons]
  unfold Value.assemble
  simp only [hnest, hshape, Nest.items, Value.itemsOfAll_items]
  rw [gridOf_numbers _ h]
  rfl

/-- What an array symbol gives for numbers is what the interpreter puts together. -/
lemma assemble_value_of {shape : List Index} (h : assemble shape as = some a) :
    Semantics.numeric.assemble shape (as.map value) = .ok a.value := by
  obtain ⟨xs, hxs, h⟩ := Option.bind_eq_some_iff.1 h
  obtain ⟨dims, hdims, h⟩ := Option.bind_eq_some_iff.1 h
  split at h
  · cases h
    change ((Value.list (as.map value)).assemble >>= fun grid => grid.reshape shape) = _
    rw [assemble_numbers (mapM_eq_some_iff.1 hxs), Except.ok_bind]
    unfold Value.reshape
    have hsize : ((Value.numbers .float64 [xs.length] (xs.map .real)).shape?.map
        Shape.size).getD 0 = xs.length := Nat.mul_one _
    rw [hsize, hdims]
    rfl
  · cases h

end Assemble

end ArrayValue

/-! ### Expressions -/

namespace Expr

section Leaf

variable {leaf : Expr → Except Failure (Option (ArrayValue Float))}
  {leaf' : Expr → Except Failure Value}
  (hleaf : ∀ {x a}, leaf x = .ok (some a) → leaf' x = .ok a.value)
include hleaf

lemma mapM_values {es : List Expr} {as : List (ArrayValue Float)}
    (h : es.mapM leaf = .ok (as.map some)) : es.mapM leaf' = .ok (as.map ArrayValue.value) := by
  induction es generalizing as with
  | nil =>
    cases as with
    | nil => rfl
    | cons a as => cases h
  | cons e es ih =>
    rw [List.mapM_cons] at h
    obtain ⟨v, hv, h⟩ := Except.eq_ok_of_bind h
    obtain ⟨vs, hvs, h⟩ := Except.eq_ok_of_bind h
    cases as with
    | nil => cases h
    | cons a as =>
      cases h
      rw [List.mapM_cons, hleaf hv, ih hvs]
      rfl

/-- An expression that has a value among numbers and arrays has this value in the interpreter. -/
lemma eval_numeric_of_array {e : Expr} {a : ArrayValue Float}
    (h : e.eval (.array .float) leaf = .ok (some a)) :
    e.eval .numeric leaf' = .ok a.value := by
  induction e using Expr.eval.induct generalizing a with
  | case1 cs l => exact hleaf h
  | case2 cs l =>
    obtain ⟨vs, hvs, h⟩ := Except.eq_ok_of_bind h
    obtain ⟨as, rfl, ha⟩ := Semantics.array.assemble_eq_ok.1 h
    rw [eval, mapM_values hleaf hvs]
    exact ArrayValue.assemble_value_of ha
  | case3 cs l =>
    obtain ⟨x, hx, hs⟩ := Option.bind_eq_some_iff.1 (Except.ok.inj h)
    rw [eval, ← Literal.value_eq ArrayValue.value hs (fun _ => rfl) fun _ => rfl, hx]
    rfl
  | case4 op c cs l ih =>
    obtain ⟨b, hc, h⟩ := Except.eq_ok_of_bind h
    obtain ⟨x, rfl, hs⟩ := Semantics.array.unary_eq_ok.1 h
    rw [eval, ih hc]
    exact ArrayValue.applyUnary_value hs
  | case5 => cases h
  | case6 op c d cs l ihc ihd =>
    obtain ⟨a, hc, h⟩ := Except.eq_ok_of_bind h
    obtain ⟨b, hd, h⟩ := Except.eq_ok_of_bind h
    obtain ⟨x, y, rfl, rfl, hs⟩ := Semantics.array.binary_eq_ok.1 h
    rw [eval, ihc hc, Except.ok_bind, ihd hd]
    exact ArrayValue.applyBinary_value hs
  | case7 op c l ih =>
    obtain ⟨a, hc, h⟩ := Except.eq_ok_of_bind h
    cases h
  | case8 => cases h
  | case9 | case10 | case11 =>
    obtain ⟨a, hc, h⟩ := Except.eq_ok_of_bind h
    cases h
  | case12 => cases h

end Leaf
end Expr
end NamedSlots
