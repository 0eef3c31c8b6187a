import NamedSlots.Graph.Lowering
import NamedSlots.Proofs.TracedRun

/-!
# Lowering of scalar expressions

An expression of scalar symbols, constants and operators between scalars is lowered to a single
graph. Whether it can be lowered depends on its leaves alone, not on the arithmetic.
-/

namespace NamedSlots

/-- An operator from scalars to scalars that runs over all items of an operand. -/
def UnaryOp.isAggregate : UnaryOp → Bool
  | sum | prod | norm => true
  | _ => false

/-- An expression of scalar symbols, constants and operators between scalars. -/
inductive Expr.IsScalar : Expr → Prop
  | symbol {cs l} : IsScalar (.node .symbol cs l)
  | constant {cs l} : IsScalar (.node .constant cs l)
  | unary {op c cs l} (hop : op.isAggregate = false) (hc : IsScalar c) :
    IsScalar (.node (.unary op) (c :: cs) l)
  | binary {op c d cs l} (hop : op ≠ .dot) (hc : IsScalar c) (hd : IsScalar d) :
    IsScalar (.node (.binary op) (c :: d :: cs) l)
  | ifThenElse {c t f cs l} (hc : IsScalar c) (ht : IsScalar t) (hf : IsScalar f) :
    IsScalar (.node .ifThenElse (c :: t :: f :: cs) l)

namespace Graph

open Sheet

variable {K K' : Type} {arith : Arithmetic K} {arith' : Arithmetic K'} {place : Place}

namespace Sheet

lemma exists_unary_single {op : UnaryOp} (hop : op.isAggregate = false) (n : Node K) :
    ∃ r, unary arith place op (.single n) = .ok (.single r) := by
  cases op
  case sum | prod | norm => cases hop
  all_goals exact ⟨_, rfl⟩

lemma exists_binary_single {op : BinaryOp} (hop : op ≠ .dot) (n m : Node K) :
    ∃ r, binary arith place op (.single n) (.single m) = .ok (.single r) := by
  cases op
  case dot => exact absurd rfl hop
  all_goals exact ⟨_, rfl⟩

lemma exists_conditional_single (c t f : Node K) :
    ∃ r, conditional arith place (.single c) (.single t) (.single f) = .ok (.single r) :=
  ⟨_, rfl⟩

end Sheet

/-- Leaves have single graphs in both ways of lowering, wherever the first succeeds. -/
def SinglesIn (leaf : Expr → Except Failure (Sheet K)) (leaf' : Expr → Except Failure (Sheet K')) :
    Prop :=
  ∀ x m, leaf x = .ok m → ∃ n n', m = .single n ∧ leaf' x = .ok (.single n')

variable {leaf : Expr → Except Failure (Sheet K)} {leaf' : Expr → Except Failure (Sheet K')}

/-- A scalar expression that is lowered becomes a single graph, in any arithmetic. -/
theorem lower_single (hleaf : SinglesIn leaf leaf') {e : Expr} (he : e.IsScalar) {m : Sheet K}
    (h : lower arith leaf place e = .ok m) :
    ∃ n n', m = .single n ∧ lower arith' leaf' place e = .ok (.single n') := by
  induction he generalizing place m with
  | symbol => exact hleaf _ _ h
  | @constant cs l =>
    rw [lower] at h ⊢
    split at h
    · cases h
      exact ⟨_, _, rfl, rfl⟩
    · cases h
  | unary hop _ ihc =>
    rw [lower] at h ⊢
    obtain ⟨a, ha, h⟩ := Except.eq_ok_of_bind h
    obtain ⟨n, n', rfl, hn'⟩ := ihc ha
    obtain ⟨r, hr⟩ := exists_unary_single hop n
    obtain ⟨r', hr'⟩ := exists_unary_single hop n'
    rw [hr] at h
    cases h
    rw [hn', Except.ok_bind, hr']
    exact ⟨_, _, rfl, rfl⟩
  | binary hop _ _ ihc ihd =>
    rw [lower] at h ⊢
    obtain ⟨a, ha, h⟩ := Except.eq_ok_of_bind h
    obtain ⟨b, hb, h⟩ := Except.eq_ok_of_bind h
    obtain ⟨n, n', rfl, hn'⟩ := ihc ha
    obtain ⟨k, k', rfl, hk'⟩ := ihd hb
    obtain ⟨r, hr⟩ := exists_binary_single hop n k
    obtain ⟨r', hr'⟩ := exists_binary_single hop n' k'
    rw [hr] at h
    cases h
    rw [hn', hk', Except.ok_bind, Except.ok_bind, hr']
    exact ⟨_, _, rfl, rfl⟩
  | ifThenElse _ _ _ ihc iht ihf =>
    rw [lower] at h ⊢
    obtain ⟨a, ha, h⟩ := Except.eq_ok_of_bind h
    obtain ⟨b, hb, h⟩ := Except.eq_ok_of_bind h
    obtain ⟨c, hc, h⟩ := Except.eq_ok_of_bind h
    obtain ⟨n, n', rfl, hn'⟩ := ihc ha
    obtain ⟨k, k', rfl, hk'⟩ := iht hb
    obtain ⟨j, j', rfl, hj'⟩ := ihf hc
    obtain ⟨r, hr⟩ := exists_conditional_single n k j
    obtain ⟨r', hr'⟩ := exists_conditional_single n' k' j'
    rw [hr] at h
    cases h
    rw [hn', hk', hj', Except.ok_bind, Except.ok_bind, Except.ok_bind, hr']
    exact ⟨_, _, rfl, rfl⟩

lemma exists_single_of_lower (hleaf : SinglesIn leaf leaf) {e : Expr} (he : e.IsScalar)
    {m : Sheet K} (h : lower arith leaf place e = .ok m) : ∃ n, m = .single n := by
  obtain ⟨n, _, hn, _⟩ := (lower_single hleaf he h : ∃ n n', m = .single n ∧ lower arith leaf place e = .ok (.single n'))
  exact ⟨n, hn⟩

lemma lowerLeaf_cons (key leaf : Expr) (m : Meaning) (earlier : List (Expr × Meaning)) :
    lowerLeaf arith ((key, m) :: earlier) leaf =
      if key == leaf then
        match m with
        | .source _ => .ok (.single (.input (LeafTable.mk earlier).bindings.length))
        | .definition e =>
          if Assoc.contains earlier leaf then lowerLeaf arith earlier leaf
          else lower arith (lowerLeaf arith earlier) [earlier.length, 1] e
      else lowerLeaf arith earlier leaf := rfl

/-- The definitions among the entries are scalar. -/
def AreScalar (entries : List (Expr × Meaning)) : Prop :=
  ∀ x e, (x, Meaning.definition e) ∈ entries → e.IsScalar

theorem singlesIn_lowerLeaf {entries : List (Expr × Meaning)} (h : AreScalar entries) :
    SinglesIn (lowerLeaf arith entries) (lowerLeaf arith' entries) := by
  induction entries with
  | nil =>
    intro x m h
    cases h
  | cons entry earlier ih =>
    have hearlier := ih fun x e hmem => h x e (List.mem_cons_of_mem _ hmem)
    obtain ⟨key, meaning⟩ := entry
    intro x m hm
    rw [lowerLeaf_cons] at hm ⊢
    split at hm
    · rename_i hkey
      rw [if_pos hkey]
      cases meaning with
      | source src =>
        cases hm
        exact ⟨_, _, rfl, rfl⟩
      | definition e =>
        dsimp only at hm ⊢
        split at hm
        · rename_i hbound
          rw [if_pos hbound]
          exact hearlier x m hm
        · rename_i hnew
          rw [if_neg hnew]
          exact lower_single hearlier (h key e List.mem_cons_self) hm
    · rename_i hkey
      rw [if_neg hkey]
      exact hearlier x m hm

end Graph
end NamedSlots
