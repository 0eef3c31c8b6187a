import Mathlib.Data.List.Basic
import NamedSlots.Proofs.ScalarLeaf

/-!
# Replacing symbols

Every symbol of an expression is replaced by an expression. The result has the value that the
expression has when a symbol stands for the value of its replacement, and it is well formed if
the replacements are.
-/

namespace NamedSlots

/-- The number of operands that a node of a kind needs. -/
def Kind.arity : Kind → Nat
  | .symbol | .array | .constant => 0
  | .unary _ => 1
  | .binary _ => 2
  | .ifThenElse => 3

namespace Expr

/-- Every node has the operands that its kind needs, and symbols have plain integer indices. -/
inductive WellFormed : Expr → Prop
  | node (k : Kind) (cs : List Expr) (l : Label) (arity : cs.length = k.arity)
      (children : ∀ c ∈ cs, WellFormed c)
      (plain : k = .symbol → (Expr.node k cs l).IsPlainSymbol) : WellFormed (.node k cs l)

mutual

/-- Replaces every symbol; array symbols stay as they are. -/
def mapSymbols (f : Expr → Expr) : Expr → Expr
  | node .symbol cs l => f (node .symbol cs l)
  | node .array cs l => node .array cs l
  | node k cs l => node k (mapSymbolsAll f cs) l

def mapSymbolsAll (f : Expr → Expr) : List Expr → List Expr
  | [] => []
  | c :: cs => mapSymbols f c :: mapSymbolsAll f cs

end

lemma mapSymbolsAll_eq (f : Expr → Expr) (cs : List Expr) :
    mapSymbolsAll f cs = cs.map (mapSymbols f) := by
  induction cs with
  | nil => rfl
  | cons c cs ih => rw [mapSymbolsAll, ih, List.map_cons]

lemma mapSymbols_node {k : Kind} (hs : k ≠ .symbol) (ha : k ≠ .array) (f : Expr → Expr)
    (cs : List Expr) (l : Label) :
    (node k cs l).mapSymbols f = node k (cs.map (mapSymbols f)) l := by
  rw [← mapSymbolsAll_eq]
  cases k with
  | symbol => exact absurd rfl hs
  | array => exact absurd rfl ha
  | _ => rfl

lemma mem_leaves_of_mem_children {k : Kind} (hs : k ≠ .symbol) (ha : k ≠ .array)
    {cs : List Expr} {l : Label} {c s : Expr} (hc : c ∈ cs) (hsc : s ∈ c.leaves) :
    s ∈ (node k cs l).leaves := by
  rw [leaves_node, if_neg (by simp [hs, ha])]
  exact List.mem_flatMap.2 ⟨c, hc, hsc⟩

lemma mapSymbols_congr {f g : Expr → Expr} {e : Expr}
    (h : ∀ s ∈ e.leaves, s.kind = .symbol → f s = g s) : e.mapSymbols f = e.mapSymbols g := by
  induction e using inductionOn with
  | node k cs l ih =>
    by_cases hs : k = .symbol
    · subst hs
      exact h _ (by simp [leaves]) rfl
    by_cases ha : k = .array
    · subst ha
      rfl
    rw [mapSymbols_node hs ha, mapSymbols_node hs ha]
    rw [List.map_congr_left fun c hc => ih c hc fun s hsc =>
      h s (mem_leaves_of_mem_children hs ha hc hsc)]

lemma mapSymbols_id (e : Expr) : e.mapSymbols id = e := by
  induction e using inductionOn with
  | node k cs l ih =>
    by_cases hs : k = .symbol
    · subst hs
      rfl
    by_cases ha : k = .array
    · subst ha
      rfl
    rw [mapSymbols_node hs ha, List.map_congr_left ih, List.map_id']

/-- A symbol stands for the value of its replacement, if no element of an array is replaced. -/
theorem eval_mapSymbols {V : Type} (sem : Semantics V) (leaf : Expr → Except Failure V)
    {f : Expr → Expr} {e : Expr}
    (harray : ∀ a ∈ e.leaves, a.kind = .array → ∀ s ∈ a.elements, f s = s) :
    (e.mapSymbols f).eval sem leaf = e.eval sem fun s => (f s).eval sem leaf := by
  induction e using inductionOn with
  | node k cs l ih =>
    by_cases hs : k = .symbol
    · subst hs
      rfl
    by_cases ha : k = .array
    · subst ha
      have helement (s : Expr) (hs : s ∈ (node .array cs l).elements) :
          leaf s = (f s).eval sem leaf := by
        rw [harray _ (by simp [leaves]) rfl s hs]
        obtain ⟨name, indices, rfl⟩ := isPlainSymbol_of_mem_elements hs
        rfl
      simp only [mapSymbols, eval]
      rw [mapM_congr helement]
    rw [mapSymbols_node hs ha]
    exact eval_node_map sem hs ha fun c hc =>
      ih c hc fun a hac => harray a (mem_leaves_of_mem_children hs ha hc hac)

/-- The symbols after a replacement are those of the replacements, and the elements of arrays. -/
lemma mem_occurrences_mapSymbols {f : Expr → Expr} {e s : Expr} :
    s ∈ (e.mapSymbols f).occurrences ↔
      (∃ x ∈ e.leaves, x.kind = .symbol ∧ s ∈ (f x).occurrences) ∨
        ∃ a ∈ e.leaves, a.kind = .array ∧ s ∈ a.elements := by
  induction e using inductionOn with
  | node k cs l ih =>
    by_cases hs : k = .symbol
    · subst hs
      simp [mapSymbols, leaves, kind]
    by_cases ha : k = .array
    · subst ha
      simp [mapSymbols, leaves, kind, occurrences_array]
    have hnode (cs' : List Expr) :
        s ∈ (node k cs' l).occurrences ↔ ∃ c ∈ cs', s ∈ c.occurrences := by
      rw [occurrences, leaves_node, if_neg (by simp [hs, ha]), List.flatMap_assoc]
      exact List.mem_flatMap
    rw [mapSymbols_node hs ha, hnode, leaves_node, if_neg (by simp [hs, ha])]
    simp only [List.mem_map, List.mem_flatMap]
    constructor
    · rintro ⟨_, ⟨c, hc, rfl⟩, hsc⟩
      rcases (ih c hc).1 hsc with ⟨x, hx, hxs⟩ | ⟨a, hac, has⟩
      · exact .inl ⟨x, ⟨c, hc, hx⟩, hxs⟩
      · exact .inr ⟨a, ⟨c, hc, hac⟩, has⟩
    · rintro (⟨x, ⟨c, hc, hx⟩, hxs⟩ | ⟨a, ⟨c, hc, hac⟩, has⟩)
      · exact ⟨_, ⟨c, hc, rfl⟩, (ih c hc).2 (.inl ⟨x, hx, hxs⟩)⟩
      · exact ⟨_, ⟨c, hc, rfl⟩, (ih c hc).2 (.inr ⟨a, hac, has⟩)⟩

namespace WellFormed

lemma mapSymbols {f : Expr → Expr} {e : Expr} (he : e.WellFormed)
    (hf : ∀ s ∈ e.leaves, s.kind = .symbol → (f s).WellFormed) : (e.mapSymbols f).WellFormed := by
  induction he with
  | node k cs l arity children plain ih =>
    by_cases hs : k = .symbol
    · subst hs
      exact hf _ (by simp [leaves]) rfl
    by_cases ha : k = .array
    · subst ha
      exact .node .array cs l arity children plain
    rw [mapSymbols_node hs ha]
    refine .node k _ l (by rwa [List.length_map]) ?_ fun h => absurd h hs
    intro c' hc'
    obtain ⟨c, hc, rfl⟩ := List.mem_map.1 hc'
    exact ih c hc fun s hsc => hf s (mem_leaves_of_mem_children hs ha hc hsc)

lemma of_isPlainSymbol {e : Expr} (he : e.IsPlainSymbol) : e.WellFormed := by
  obtain ⟨name, indices, rfl⟩ := he
  exact .node .symbol [] _ rfl (fun c hc => by cases hc) fun _ => ⟨name, indices, rfl⟩

lemma hasPlainSymbols {e : Expr} (he : e.WellFormed) : e.HasPlainSymbols := by
  induction he with
  | node k cs l arity children plain ih =>
    intro s hs hkind
    rw [leaves_node] at hs
    split at hs
    · rw [List.mem_singleton.1 hs] at hkind ⊢
      exact plain hkind
    · obtain ⟨c, hc, hsc⟩ := List.mem_flatMap.1 hs
      exact ih c hc s hsc hkind

lemma exists_text {e : Expr} (he : e.WellFormed) : ∃ text, e.text? = some text := by
  induction he with
  | node k cs l arity children plain ih =>
    cases k with
    | symbol => exact ⟨_, rfl⟩
    | array => exact ⟨_, rfl⟩
    | constant => exact ⟨_, rfl⟩
    | unary op =>
      obtain ⟨c, rfl⟩ := List.length_eq_one_iff.1 arity
      obtain ⟨x, hx⟩ := ih c List.mem_cons_self
      cases op <;> simp [text?, texts, hx]
    | binary op =>
      obtain ⟨c, d, rfl⟩ := List.length_eq_two.1 arity
      obtain ⟨x, hx⟩ := ih c (by simp)
      obtain ⟨y, hy⟩ := ih d (by simp)
      cases op <;> simp [text?, texts, hx, hy, BinaryOp.sign?]
    | ifThenElse =>
      obtain ⟨c, t, f, rfl⟩ := List.length_eq_three.1 arity
      obtain ⟨x, hx⟩ := ih c (by simp)
      obtain ⟨y, hy⟩ := ih t (by simp)
      obtain ⟨z, hz⟩ := ih f (by simp)
      simp [text?, texts, hx, hy, hz]

end WellFormed

end Expr
end NamedSlots
