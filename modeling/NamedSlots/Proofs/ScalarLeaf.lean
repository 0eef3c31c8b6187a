import NamedSlots.Evaluation.Semantics
import NamedSlots.Proofs.LeafWalk
import NamedSlots.Proofs.ListRun
import NamedSlots.Proofs.Repeats

/-!
# Scalar leaves

The scalar leaves of an expression are listed without repeats, where a repeat is an equal
expression. For symbols with plain integer indices to be equal is to be the same, so that no
leaf is lost, and an expression has the same value for two assignments that agree on its scalar
leaves.
-/

namespace NamedSlots

namespace Expr

/-- A symbol whose indices are plain integers. -/
def IsPlainSymbol (e : Expr) : Prop :=
  ∃ (name : Option String) (indices : List Int), e = symbol name (indices.map Index.int)

/-- Every symbol that stands in the expression has plain integer indices. -/
def HasPlainSymbols (e : Expr) : Prop :=
  ∀ s ∈ e.leaves, s.kind = .symbol → s.IsPlainSymbol

lemma exists_of_all_isPlain {indices : List Index} (h : indices.all Index.isPlain = true) :
    ∃ ns : List Int, indices = ns.map Index.int := by
  induction indices with
  | nil => exact ⟨[], rfl⟩
  | cons i indices ih =>
    obtain ⟨hi, hindices⟩ := Bool.and_eq_true_iff.1 h
    obtain ⟨ns, rfl⟩ := ih hindices
    cases i with
    | int n => exact ⟨n :: ns, rfl⟩
    | flag b => cases hi

lemma all_isPlain (ns : List Int) : (ns.map Index.int).all Index.isPlain = true := by
  rw [List.all_map]
  exact List.all_eq_true.2 fun _ _ => rfl

def isPlainSymbol : Expr → Bool
  | node .symbol [] ⟨_, none, indices, []⟩ => indices.all Index.isPlain
  | _ => false

lemma isPlainSymbol_iff {e : Expr} : e.isPlainSymbol = true ↔ e.IsPlainSymbol := by
  constructor
  · intro h
    unfold isPlainSymbol at h
    split at h
    · obtain ⟨ns, rfl⟩ := exists_of_all_isPlain h
      exact ⟨_, ns, rfl⟩
    · cases h
  · rintro ⟨name, ns, rfl⟩
    exact all_isPlain ns

instance : DecidablePred IsPlainSymbol := fun _ => decidable_of_iff _ isPlainSymbol_iff

instance : DecidablePred HasPlainSymbols := fun e =>
  inferInstanceAs (Decidable (∀ s ∈ e.leaves, s.kind = .symbol → s.IsPlainSymbol))

lemma hasPlainSymbols_node {k : Kind} {cs : List Expr} {l : Label} (hsymbol : k ≠ .symbol)
    (harray : k ≠ .array) (h : ∀ c ∈ cs, c.HasPlainSymbols) : (node k cs l).HasPlainSymbols := by
  intro s hs hkind
  rw [leaves_node, if_neg (by simp [hsymbol, harray])] at hs
  obtain ⟨c, hc, hs⟩ := List.mem_flatMap.1 hs
  exact h c hc s hs hkind

lemma beq_def (e e' : Expr) :
    (e == e') =
      (decide (e.kind = e'.kind) && sameAll e.children e'.children && e.label == e'.label) := by
  cases e
  cases e'
  change same _ _ = _
  rw [same]
  rfl

lemma indices_eq_of_beq {l l' : List Index} (h : (l == l') = true) :
    l.map Index.toInt = l'.map Index.toInt := by
  induction l generalizing l' with
  | nil =>
    cases l' with
    | nil => rfl
    | cons i is => cases h
  | cons i is ih =>
    cases l' with
    | nil => cases h
    | cons j js =>
      have hij : ((i == j) && (is == js)) = true := h
      rw [Bool.and_eq_true] at hij
      have hi : i.toInt = j.toInt := eq_of_beq (show (i.toInt == j.toInt) = true from hij.1)
      rw [List.map_cons, List.map_cons, hi, ih hij.2]

lemma label_beq {a b : Label} (h : (a == b) = true) :
    a.name = b.name ∧ a.indices.map Index.toInt = b.indices.map Index.toInt ∧
      a.shape.map Index.toInt = b.shape.map Index.toInt := by
  have h' : (a.name == b.name && a.value == b.value && a.indices == b.indices &&
      a.shape == b.shape) = true := h
  simp only [Bool.and_eq_true] at h'
  obtain ⟨⟨⟨hname, _⟩, hindices⟩, hshape⟩ := h'
  exact ⟨eq_of_beq hname, indices_eq_of_beq hindices, indices_eq_of_beq hshape⟩

lemma beq_spec {e e' : Expr} (h : (e == e') = true) :
    e.kind = e'.kind ∧ e.label.name = e'.label.name ∧
      e.label.indices.map Index.toInt = e'.label.indices.map Index.toInt ∧
      e.label.shape.map Index.toInt = e'.label.shape.map Index.toInt := by
  rw [beq_def] at h
  simp only [Bool.and_eq_true, decide_eq_true_eq] at h
  exact ⟨h.1.1, label_beq h.2⟩

/-- To show something of every expression, it is shown of a node whose children have it. -/
theorem inductionOn {motive : Expr → Prop} (e : Expr)
    (node : ∀ k cs l, (∀ c ∈ cs, motive c) → motive (.node k cs l)) : motive e :=
  match e with
  | .node k cs l => node k cs l fun c _ => inductionOn c node

namespace IsPlainSymbol

variable {a b c : Expr}

lemma kind_eq (ha : a.IsPlainSymbol) : a.kind = .symbol := by
  obtain ⟨name, indices, rfl⟩ := ha
  rfl

lemma toInt_map_int (indices : List Int) : (indices.map Index.int).map Index.toInt = indices := by
  rw [List.map_map]
  exact List.map_id indices

/-- Plain symbols are told apart by their name and their indices as integers. -/
lemma eq_of_label_eq (ha : a.IsPlainSymbol) (hb : b.IsPlainSymbol)
    (hname : a.label.name = b.label.name)
    (hindices : a.label.indices.map Index.toInt = b.label.indices.map Index.toInt) : a = b := by
  obtain ⟨m, is, rfl⟩ := ha
  obtain ⟨n, js, rfl⟩ := hb
  have hmn : m = n := hname
  have hij : is = js := by
    rw [← toInt_map_int is, ← toInt_map_int js]
    exact hindices
  rw [hmn, hij]

/-- Two plain symbols that equal one expression are the same. -/
lemma eq_of_beq_of_beq (ha : a.IsPlainSymbol) (hb : b.IsPlainSymbol) (hac : (a == c) = true)
    (hbc : (b == c) = true) : a = b := by
  obtain ⟨_, hna, hia, _⟩ := beq_spec hac
  obtain ⟨_, hnb, hib, _⟩ := beq_spec hbc
  exact eq_of_label_eq ha hb (hna.trans hnb.symm) (hia.trans hib.symm)

lemma eq_of_beq (ha : a.IsPlainSymbol) (hb : b.IsPlainSymbol) (h : (a == b) = true) : a = b := by
  obtain ⟨_, hname, hindices, _⟩ := beq_spec h
  exact eq_of_label_eq ha hb hname hindices

lemma beq_self (ha : a.IsPlainSymbol) : (a == a) = true := by
  obtain ⟨name, indices, rfl⟩ := ha
  have hindices : ((indices.map Index.int) == (indices.map Index.int)) = true := by
    induction indices with
    | nil => rfl
    | cons i is ih =>
      change (i == i && (is.map Index.int == is.map Index.int)) = true
      rw [ih, beq_self_eq_true]
      rfl
  change (decide (Kind.symbol = .symbol) && true && (name == name && true &&
    (indices.map Index.int == indices.map Index.int) && true)) = true
  rw [hindices, beq_self_eq_true]
  rfl

lemma text?_eq (ha : a.IsPlainSymbol) : a.text? = some a.indexedName := by
  obtain ⟨name, indices, rfl⟩ := ha
  rfl

lemma scalarLeaves_eq (ha : a.IsPlainSymbol) : a.scalarLeaves = [a] := by
  obtain ⟨name, indices, rfl⟩ := ha
  rfl

end IsPlainSymbol

lemma kind_of_mem_leaves {e s : Expr} (hs : s ∈ e.leaves) : s.kind = .symbol ∨ s.kind = .array := by
  induction e using inductionOn with
  | node k cs l ih =>
    rw [leaves_node] at hs
    split at hs
    · rename_i hk
      rw [List.mem_singleton] at hs
      rw [hs]
      exact hk
    · obtain ⟨c, hc, hsc⟩ := List.mem_flatMap.1 hs
      exact ih c hc hsc

lemma isPlainSymbol_of_mem_elements {e s : Expr} (hs : s ∈ e.elements) : s.IsPlainSymbol := by
  obtain ⟨p, hp, rfl⟩ := List.mem_map.1 hs
  obtain ⟨q, _, rfl⟩ := List.mem_map.1 hp
  refine ⟨e.label.name, q.map Int.ofNat, ?_⟩
  rw [List.map_map]
  rfl

/-- The scalar symbols that the leaves stand for, from left to right, repeats included. -/
def occurrences (e : Expr) : List Expr := e.leaves.flatMap scalars

lemma occurrences_symbol (cs : List Expr) (l : Label) :
    (node .symbol cs l).occurrences = [node .symbol cs l] := rfl

lemma occurrences_array (cs : List Expr) (l : Label) :
    (node .array cs l).occurrences = (node .array cs l).elements := by
  change [node .array cs l].flatMap scalars = _
  rw [List.flatMap_singleton]
  rfl

lemma mem_occurrences_of_mem_children {k : Kind} {cs : List Expr} {l : Label} {c s : Expr}
    (hs : k ≠ .symbol) (ha : k ≠ .array) (hc : c ∈ cs) (hsc : s ∈ c.occurrences) :
    s ∈ (node k cs l).occurrences := by
  obtain ⟨leaf, hleaf, hmem⟩ := List.mem_flatMap.1 hsc
  refine List.mem_flatMap.2 ⟨leaf, ?_, hmem⟩
  rw [leaves_node, if_neg (by simp [hs, ha])]
  exact List.mem_flatMap.2 ⟨c, hc, hleaf⟩

lemma mem_occurrences_unary {op : UnaryOp} {c s : Expr} {cs : List Expr} {l : Label}
    (hs : s ∈ c.occurrences) : s ∈ (node (.unary op) (c :: cs) l).occurrences :=
  mem_occurrences_of_mem_children Kind.noConfusion Kind.noConfusion List.mem_cons_self hs

lemma mem_occurrences_binary {op : BinaryOp} {c d s : Expr} {cs : List Expr} {l : Label}
    (hs : s ∈ c.occurrences ∨ s ∈ d.occurrences) :
    s ∈ (node (.binary op) (c :: d :: cs) l).occurrences := by
  rcases hs with hs | hs
  · exact mem_occurrences_of_mem_children Kind.noConfusion Kind.noConfusion List.mem_cons_self hs
  · exact mem_occurrences_of_mem_children Kind.noConfusion Kind.noConfusion
      (List.mem_cons_of_mem _ List.mem_cons_self) hs

lemma HasPlainSymbols.of_mem_occurrences {e s : Expr} (he : e.HasPlainSymbols)
    (hs : s ∈ e.occurrences) : s.IsPlainSymbol := by
  obtain ⟨leaf, hleaf, hmem⟩ := List.mem_flatMap.1 hs
  rw [scalars] at hmem
  split at hmem
  · exact isPlainSymbol_of_mem_elements hmem
  · rename_i hk
    rw [List.mem_singleton] at hmem
    subst hmem
    exact he s hleaf ((kind_of_mem_leaves hleaf).resolve_right hk)

lemma scalarLeaves_def (e : Expr) :
    e.scalarLeaves = (e.leaves.eraseDups.flatMap scalars).eraseDups := by
  rw [scalarLeaves, freeSymbols_eq]

lemma kind_of_mem_scalarLeaves {e s : Expr} (hs : s ∈ e.scalarLeaves) : s.kind = .symbol := by
  rw [scalarLeaves_def] at hs
  obtain ⟨leaf, hleaf, hmem⟩ := List.mem_flatMap.1 (mem_of_mem_eraseDups _ hs)
  rw [scalars] at hmem
  split at hmem
  · exact (isPlainSymbol_of_mem_elements hmem).kind_eq
  · rename_i hk
    rw [List.mem_singleton.1 hmem]
    exact (kind_of_mem_leaves (mem_of_mem_eraseDups _ hleaf)).resolve_right hk

/-- Equal arrays have the same elements, whatever their dimensions are written with. -/
lemma elements_eq_of_beq {a b : Expr} (h : (a == b) = true) : a.elements = b.elements := by
  obtain ⟨_, hname, _, hshape⟩ := beq_spec h
  have hextent : a.label.shape.map Index.extent = b.label.shape.map Index.extent := by
    have h := congrArg (List.map Int.toNat) hshape
    rw [List.map_map, List.map_map] at h
    exact h
  rw [elements, elements, Shape.indexPositions, Shape.indexPositions, hextent, hname]

/-- Equal leaves stand for the same scalar symbols, apart from symbols that are not plain. -/
lemma scalars_eq_of_beq {e a b : Expr} (he : e.HasPlainSymbols) (ha : a ∈ e.leaves)
    (hb : b ∈ e.leaves) (hab : (a == b) = true) : a.scalars = b.scalars := by
  have hkind := (beq_spec hab).1
  rcases kind_of_mem_leaves ha with hk | hk
  · rw [IsPlainSymbol.eq_of_beq (he a ha hk) (he b hb (hkind ▸ hk)) hab]
  · rw [scalars, scalars, if_pos hk, if_pos (hkind ▸ hk), elements_eq_of_beq hab]

/-- No scalar symbol is lost when repeats are left out. -/
lemma mem_scalarLeaves {e s : Expr} (he : e.HasPlainSymbols) :
    s ∈ e.scalarLeaves ↔ s ∈ e.occurrences := by
  rw [scalarLeaves_def]
  constructor
  · intro hs
    obtain ⟨leaf, hleaf, hmem⟩ := List.mem_flatMap.1 (mem_of_mem_eraseDups _ hs)
    exact List.mem_flatMap.2 ⟨leaf, mem_of_mem_eraseDups _ hleaf, hmem⟩
  · intro hs
    obtain ⟨leaf, hleaf, hmem⟩ := List.mem_flatMap.1 hs
    obtain ⟨kept, hkept, heq⟩ := exists_mem_eraseDups _ hleaf
    have hscalars : leaf.scalars = kept.scalars := by
      rcases heq with rfl | heq
      · rfl
      · exact scalars_eq_of_beq he hleaf (mem_of_mem_eraseDups _ hkept) heq
    rw [hscalars] at hmem
    obtain ⟨t, ht, hst⟩ := exists_mem_eraseDups _ (List.mem_flatMap.2 ⟨kept, hkept, hmem⟩)
    rcases hst with rfl | hst
    · exact ht
    · obtain ⟨other, hother, htmem⟩ := List.mem_flatMap.1 (mem_of_mem_eraseDups _ ht)
      have hplain : t.IsPlainSymbol :=
        he.of_mem_occurrences (List.mem_flatMap.2 ⟨other, mem_of_mem_eraseDups _ hother, htmem⟩)
      rw [IsPlainSymbol.eq_of_beq (he.of_mem_occurrences hs) hplain hst]
      exact ht

lemma HasPlainSymbols.of_mem_scalarLeaves {e s : Expr} (he : e.HasPlainSymbols)
    (hs : s ∈ e.scalarLeaves) : s.IsPlainSymbol :=
  he.of_mem_occurrences ((mem_scalarLeaves he).1 hs)

section Value

variable {V : Type} (sem : Semantics V) {leaf leaf' : Expr → Except Failure V}

lemma eval_node_map {k : Kind} (hs : k ≠ .symbol) (ha : k ≠ .array) {f : Expr → Expr}
    {cs : List Expr} {l : Label} (h : ∀ c ∈ cs, (f c).eval sem leaf = c.eval sem leaf') :
    (node k (cs.map f) l).eval sem leaf = (node k cs l).eval sem leaf' := by
  cases k with
  | symbol => exact absurd rfl hs
  | array => exact absurd rfl ha
  | constant => rfl
  | unary op =>
    rcases cs with _ | ⟨c, cs⟩
    · rfl
    · simp only [List.map_cons, eval]
      rw [h c (by simp)]
  | binary op =>
    rcases cs with _ | ⟨c, _ | ⟨d, cs⟩⟩
    · rfl
    · simp only [List.map_cons, List.map_nil, eval]
      rw [h c (by simp)]
    · simp only [List.map_cons, eval]
      rw [h c (by simp), h d (by simp)]
  | ifThenElse =>
    rcases cs with _ | ⟨c, _ | ⟨d, _ | ⟨g, cs⟩⟩⟩
    · rfl
    · simp only [List.map_cons, List.map_nil, eval]
      rw [h c (by simp)]
    · simp only [List.map_cons, List.map_nil, eval]
      rw [h c (by simp), h d (by simp)]
    · simp only [List.map_cons, eval]
      rw [h c (by simp), h d (by simp), h g (by simp)]

/-- The value of an expression depends on what its scalar symbols stand for and on nothing else. -/
theorem eval_congr {e : Expr} (h : ∀ s ∈ e.occurrences, leaf s = leaf' s) :
    e.eval sem leaf = e.eval sem leaf' := by
  induction e using inductionOn with
  | node k cs l ih =>
    by_cases hs : k = .symbol
    · subst hs
      exact h _ (by simp [occurrences_symbol])
    by_cases ha : k = .array
    · subst ha
      simp only [eval]
      rw [mapM_congr fun s hs => h s (by rwa [occurrences_array])]
    have hnode : (node k (cs.map id) l).eval sem leaf = (node k cs l).eval sem leaf' :=
      eval_node_map sem hs ha fun c hc =>
        ih c hc fun s hsc => h s (mem_occurrences_of_mem_children hs ha hc hsc)
    rwa [List.map_id] at hnode

end Value

end Expr
end NamedSlots
