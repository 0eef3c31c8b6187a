import NamedSlots.Expr.Substitution
import NamedSlots.Proofs.LeafEntries

/-!
# Substitution

A substitution replaces the leaves of an expression, arrays as well as scalar symbols. The node that
is kept because its new children equal the old ones hides no replacement: among leaves whose indices
and dimensions are plain integers to be equal is to be the same. So a substitution replaces every
leaf by what the mapping has for it, and the result has the value that the expression has when its
leaves are read as the values of their replacements.
-/

namespace NamedSlots

namespace Expr

/-! ### Replacing leaves -/

mutual

/-- Replaces every leaf, arrays as a whole. -/
def mapLeaves (f : Expr → Expr) : Expr → Expr
  | node .symbol cs l => f (node .symbol cs l)
  | node .array cs l => f (node .array cs l)
  | node k cs l => node k (mapLeavesAll f cs) l

def mapLeavesAll (f : Expr → Expr) : List Expr → List Expr
  | [] => []
  | c :: cs => mapLeaves f c :: mapLeavesAll f cs

end

lemma mapLeavesAll_eq (f : Expr → Expr) (cs : List Expr) :
    mapLeavesAll f cs = cs.map (mapLeaves f) := by
  induction cs with
  | nil => rfl
  | cons c cs ih => rw [mapLeavesAll, ih, List.map_cons]

/-- A leaf is replaced; in any other node the leaves of the children are. -/
lemma mapLeaves_node (f : Expr → Expr) (k : Kind) (cs : List Expr) (l : Label) :
    (node k cs l).mapLeaves f =
      if k = .symbol ∨ k = .array then f (node k cs l) else node k (cs.map (mapLeaves f)) l := by
  cases k <;> simp [mapLeaves, mapLeavesAll_eq]

/-- The leaves after a replacement are those of the replacements. -/
lemma leaves_mapLeaves (f : Expr → Expr) (e : Expr) :
    (e.mapLeaves f).leaves = e.leaves.flatMap fun s => (f s).leaves := by
  induction e using inductionOn with
  | node k cs l ih =>
    rw [mapLeaves_node, leaves_node]
    split
    · rw [List.flatMap_singleton]
    · rename_i hk
      rw [leaves_node, if_neg hk, List.flatMap_map, List.flatMap_assoc]
      exact List.flatMap_congr ih

lemma sameAll_map {f : Expr → Expr} {cs : List Expr} (h : sameAll (cs.map f) cs = true) :
    ∀ c ∈ cs, (f c == c) = true := by
  induction cs with
  | nil => exact fun c hc => by cases hc
  | cons c cs ih =>
    obtain ⟨hhead, htail⟩ := Bool.and_eq_true_iff.1 h
    exact List.forall_mem_cons.2 ⟨hhead, ih htail⟩

/-- An expression that equals its result has not been changed, if no leaf has been replaced by an
equal one. -/
lemma mapLeaves_eq_of_beq {f : Expr → Expr} {e : Expr}
    (hf : ∀ s ∈ e.leaves, (f s == s) = true → f s = s) (h : (e.mapLeaves f == e) = true) :
    e.mapLeaves f = e := by
  induction e using inductionOn with
  | node k cs l ih =>
    rw [leaves_node] at hf
    rw [mapLeaves_node] at h ⊢
    split
    · rename_i hk
      rw [if_pos hk] at hf h
      exact hf _ (List.mem_singleton.2 rfl) h
    · rename_i hk
      rw [if_neg hk] at hf h
      rw [beq_def, Bool.and_eq_true, Bool.and_eq_true] at h
      have hchildren := sameAll_map h.1.2
      have hkept : cs.map (mapLeaves f) = cs := by
        rw [List.map_congr_left fun c hc => ih c hc
          (fun s hs => hf s (List.mem_flatMap.2 ⟨c, hc, hs⟩)) (hchildren c hc), List.map_id']
      rw [hkept]

/-! ### Substitution replaces leaves -/

lemma mem_leaves_self {s : Expr} (h : s.kind = .symbol ∨ s.kind = .array) : s ∈ s.leaves := by
  obtain ⟨k, cs, l⟩ := s
  rw [leaves_node, if_pos (by exact h)]
  exact List.mem_singleton.2 rfl

/-- A scalar symbol or an array whose indices or dimensions are plain integers. -/
def IsPlainLeaf (s : Expr) : Prop :=
  s.IsPlainSymbol ∨ ∃ (name : Option String) (dims : List Int), s = array name (dims.map Index.int)

/-- Every leaf has plain integers as its indices or its dimensions. A truth value in their place
equals a number but is not accepted as a dimension. -/
def HasPlainLeaves (e : Expr) : Prop := ∀ s ∈ e.leaves, s.IsPlainLeaf

namespace IsPlainLeaf

variable {a b : Expr}

lemma symbol (name : Option String) (indices : List Int) :
    (Expr.symbol name (indices.map Index.int)).IsPlainLeaf := .inl ⟨name, indices, rfl⟩

lemma array (name : Option String) (dims : List Int) :
    (Expr.array name (dims.map Index.int)).IsPlainLeaf := .inr ⟨name, dims, rfl⟩

lemma children_eq (ha : a.IsPlainLeaf) : a.children = [] := by
  obtain ⟨name, indices, rfl⟩ | ⟨name, dims, rfl⟩ := ha <;> rfl

lemma kind_eq (ha : a.IsPlainLeaf) : a.kind = .symbol ∨ a.kind = .array := by
  obtain ⟨name, indices, rfl⟩ | ⟨name, dims, rfl⟩ := ha
  · exact .inl rfl
  · exact .inr rfl

lemma leaves_eq (ha : a.IsPlainLeaf) : a.leaves = [a] := by
  obtain ⟨name, indices, rfl⟩ | ⟨name, dims, rfl⟩ := ha <;> rfl

lemma eq_of_beq (ha : a.IsPlainLeaf) (hb : b.IsPlainLeaf) (h : (a == b) = true) : a = b := by
  obtain ⟨hkind, hname, hindices, hshape⟩ := beq_spec h
  rcases ha with ha | ⟨m, as, rfl⟩ <;> rcases hb with hb | ⟨n, bs, rfl⟩
  · exact IsPlainSymbol.eq_of_label_eq ha hb hname hindices
  · rw [ha.kind_eq] at hkind
    cases hkind
  · rw [hb.kind_eq] at hkind
    cases hkind
  · have hmn : m = n := hname
    have hab : as = bs := by
      rw [← IsPlainSymbol.toInt_map_int as, ← IsPlainSymbol.toInt_map_int bs]
      exact hshape
    rw [hmn, hab]

end IsPlainLeaf

namespace Mapping

/-- What a mapping has for a leaf: its value there, or else the leaf itself. -/
def get (m : Mapping) (s : Expr) : Expr := (Assoc.find? s m).getD s

/-- The keys are symbols, and the values have plain leaves. -/
structure IsPlain (m : Mapping) : Prop where
  keys : ∀ entry ∈ m, entry.1.kind = .symbol ∨ entry.1.kind = .array
  values : ∀ entry ∈ m, entry.2.HasPlainLeaves

variable {m : Mapping} {s : Expr}

lemma get_of_find? {v : Expr} (h : Assoc.find? s m = some v) : m.get s = v := by
  rw [get, h]
  rfl

lemma get_of_find?_none (h : Assoc.find? s m = none) : m.get s = s := by
  rw [get, h]
  rfl

namespace IsPlain

/-- Only symbols are replaced. -/
lemma find?_eq_none (hm : m.IsPlain) (h : ¬ (s.kind = .symbol ∨ s.kind = .array)) :
    Assoc.find? s m = none := by
  refine Assoc.find?_eq_none_iff.2 fun entry hentry => Bool.eq_false_iff.2 fun hequal => h ?_
  rw [← (beq_spec hequal).1]
  exact hm.keys entry hentry

lemma hasPlainLeaves_get (hm : m.IsPlain) (hs : s.IsPlainLeaf) : (m.get s).HasPlainLeaves := by
  cases hfind : Assoc.find? s m with
  | none =>
    rw [get_of_find?_none hfind, HasPlainLeaves, hs.leaves_eq]
    exact fun t ht => List.mem_singleton.1 ht ▸ hs
  | some v =>
    obtain ⟨key, hmem, -⟩ := Assoc.mem_of_find? hfind
    rw [get_of_find? hfind]
    exact hm.values _ hmem

/-- A leaf is not replaced by an equal one. -/
lemma get_eq_of_beq (hm : m.IsPlain) (hs : s.IsPlainLeaf) (h : (m.get s == s) = true) :
    m.get s = s := by
  have hkind : (m.get s).kind = .symbol ∨ (m.get s).kind = .array := by
    rw [(beq_spec h).1]
    exact hs.kind_eq
  exact (hm.hasPlainLeaves_get hs _ (mem_leaves_self hkind)).eq_of_beq hs h

end IsPlain
end Mapping

/-- What a substitution makes of a node, and what it takes for kept, is right. -/
def Substituted.Replaces (s : Substituted) (m : Mapping) (e : Expr) : Prop :=
  s.expr = e.mapLeaves m.get ∧ (s.kept = true → e.mapLeaves m.get = e)

section Substitution

variable {m : Mapping} (hm : m.IsPlain)
include hm

lemma substitutedAll_spec {cs : List Expr} (hcs : ∀ c ∈ cs, c.HasPlainLeaves)
    (h : ∀ c ∈ cs, (substituted m c).Replaces m c) :
    (substitutedAll m cs).1 = cs.map (mapLeaves m.get) ∧
      ((substitutedAll m cs).2 = true → cs.map (mapLeaves m.get) = cs) := by
  induction cs with
  | nil => exact ⟨rfl, fun _ => rfl⟩
  | cons c cs ih =>
    obtain ⟨hexpr, hkept⟩ := h c List.mem_cons_self
    obtain ⟨hexprs, hunchanged⟩ := ih (fun d hd => hcs d (List.mem_cons_of_mem _ hd))
      fun d hd => h d (List.mem_cons_of_mem _ hd)
    refine ⟨congrArg₂ List.cons hexpr hexprs, fun hall => ?_⟩
    obtain ⟨hhead, htail⟩ := Bool.and_eq_true_iff.1 hall
    have hsame : c.mapLeaves m.get = c := by
      rcases Bool.or_eq_true_iff.1 hhead with hsame | hequal
      · exact hkept hsame
      · rw [hexpr] at hequal
        exact mapLeaves_eq_of_beq
          (fun s hs => hm.get_eq_of_beq (hcs c List.mem_cons_self s hs)) hequal
    rw [List.map_cons, hsame, hunchanged htail]

lemma substituted_spec {e : Expr} (he : e.HasPlainLeaves) : (substituted m e).Replaces m e := by
  induction e using inductionOn with
  | node k cs l ih =>
    unfold Substituted.Replaces
    rw [substituted, mapLeaves_node]
    by_cases hk : k = .symbol ∨ k = .array
    · have hleaf : (node k cs l).IsPlainLeaf := by
        refine he _ ?_
        rw [leaves_node, if_pos hk]
        exact List.mem_singleton.2 rfl
      rw [if_pos hk]
      cases hfind : Assoc.find? (node k cs l) m with
      | some v => exact ⟨(Mapping.get_of_find? hfind).symm, nofun⟩
      | none =>
        have hcs : cs = [] := hleaf.children_eq
        subst hcs
        exact ⟨(Mapping.get_of_find?_none hfind).symm, fun _ => Mapping.get_of_find?_none hfind⟩
    · have hcs : ∀ c ∈ cs, c.HasPlainLeaves := by
        intro c hc s hs
        refine he s ?_
        rw [leaves_node, if_neg hk]
        exact List.mem_flatMap.2 ⟨c, hc, hs⟩
      obtain ⟨hexprs, hunchanged⟩ := substitutedAll_spec hm hcs fun c hc => ih c hc (hcs c hc)
      rw [if_neg hk, hm.find?_eq_none (s := node k cs l) hk]
      generalize substitutedAll m cs = result at hexprs hunchanged
      obtain ⟨cs', unchanged⟩ := result
      cases unchanged with
      | true =>
        have hsame := hunchanged rfl
        rw [hsame]
        exact ⟨rfl, fun _ => rfl⟩
      | false => exact ⟨congrArg (node k · l) hexprs, nofun⟩

theorem substitute_eq {e : Expr} (he : e.HasPlainLeaves) : e.substitute m = e.mapLeaves m.get :=
  (substituted_spec hm he).1

end Substitution

/-! ### Reading leaves as a whole -/

section Value

variable {V : Type} (sem : Semantics V)

/-- The value of an inner node, given what its operands evaluate to. What is not needed of them does
not count. -/
def operate : Kind → Label → List (Except Failure V) → Except Failure V
  | .constant, l, _ => return sem.constant l.value
  | .unary op, _, x :: _ => do sem.unary op (← x)
  | .binary op, _, x :: y :: _ => do sem.binary op (← x) (← y)
  | .binary _, _, [x] => do
    let _ ← x
    failWith .outOfRange
  | .ifThenElse, _, x :: y :: z :: _ => do if ← sem.truth (← x) then y else z
  | .ifThenElse, _, [x, y] => do if ← sem.truth (← x) then y else failWith .outOfRange
  | .ifThenElse, _, [x] => do
    let _ ← sem.truth (← x)
    failWith .outOfRange
  | _, _, _ => failWith .outOfRange

lemma eval_node {k : Kind} (hk : ¬ (k = .symbol ∨ k = .array)) (leaf : Expr → Except Failure V)
    (cs : List Expr) (l : Label) :
    (node k cs l).eval sem leaf = operate sem k l (cs.map (eval sem leaf)) := by
  cases k with
  | symbol => exact absurd (.inl rfl) hk
  | array => exact absurd (.inr rfl) hk
  | constant => rfl
  | unary op => cases cs <;> rfl
  | binary op => rcases cs with _ | ⟨c, _ | ⟨d, cs⟩⟩ <;> rfl
  | ifThenElse => rcases cs with _ | ⟨c, _ | ⟨d, _ | ⟨g, cs⟩⟩⟩ <;> rfl

mutual

/-- The value of an expression whose leaves are read as a whole, arrays too. -/
def evalWith (read : Expr → Except Failure V) : Expr → Except Failure V
  | node .symbol cs l => read (node .symbol cs l)
  | node .array cs l => read (node .array cs l)
  | node k cs l => operate sem k l (evalAllWith read cs)

def evalAllWith (read : Expr → Except Failure V) : List Expr → List (Except Failure V)
  | [] => []
  | c :: cs => evalWith read c :: evalAllWith read cs

end

lemma evalAllWith_eq (read : Expr → Except Failure V) (cs : List Expr) :
    evalAllWith sem read cs = cs.map (evalWith sem read) := by
  induction cs with
  | nil => rfl
  | cons c cs ih => rw [evalAllWith, ih, List.map_cons]

lemma evalWith_node (read : Expr → Except Failure V) (k : Kind) (cs : List Expr) (l : Label) :
    (node k cs l).evalWith sem read =
      if k = .symbol ∨ k = .array then read (node k cs l)
      else operate sem k l (cs.map (evalWith sem read)) := by
  cases k <;> simp [evalWith, evalAllWith_eq]

/-- A leaf stands for the value of its replacement. -/
lemma eval_mapLeaves (leaf : Expr → Except Failure V) (f : Expr → Expr) (e : Expr) :
    (e.mapLeaves f).eval sem leaf = e.evalWith sem fun s => (f s).eval sem leaf := by
  induction e using inductionOn with
  | node k cs l ih =>
    rw [mapLeaves_node, evalWith_node]
    split
    · rfl
    · rename_i hk
      rw [eval_node sem hk, List.map_map]
      exact congrArg (operate sem k l) (List.map_congr_left ih)

/-- An expression has the value that its leaves, each read as a whole, give it. -/
lemma evalWith_eval (leaf : Expr → Except Failure V) (e : Expr) :
    e.evalWith sem (eval sem leaf) = e.eval sem leaf := by
  induction e using inductionOn with
  | node k cs l ih =>
    rw [evalWith_node]
    split
    · rfl
    · rename_i hk
      rw [eval_node sem hk]
      exact congrArg (operate sem k l) (List.map_congr_left ih)

theorem eval_substitute (leaf : Expr → Except Failure V) {m : Mapping} (hm : m.IsPlain) {e : Expr}
    (he : e.HasPlainLeaves) :
    (e.substitute m).eval sem leaf = e.evalWith sem fun s => (m.get s).eval sem leaf := by
  rw [substitute_eq hm he]
  exact eval_mapLeaves sem leaf m.get e

end Value
end Expr

namespace Evaluator

/-- An evaluator with the same bound leaves for another expression. -/
def on (f : Evaluator) (e : Expr) : Evaluator := { f with expr := e }

/-- Whatever leaves are bound and whatever is stored: an expression has the value that reading its
leaves gives it, and after a substitution it has the value that reading each leaf as what the
mapping has for it gives it, failures included. -/
theorem substitution_reads_leaves (f : Evaluator) (u p t : Value) (e : Expr) (m : Expr.Mapping)
    (he : e.HasPlainLeaves) (hm : m.IsPlain) :
    (f.on e).interpret u p t = e.evalWith .numeric (fun s => (f.on s).interpret u p t) ∧
      (f.on (e.substitute m)).interpret u p t =
        e.evalWith .numeric fun s => (f.on (m.get s)).interpret u p t :=
  ⟨(Expr.evalWith_eval .numeric _ e).symm, Expr.eval_substitute .numeric _ hm he⟩

namespace Branches

def x : Expr := .symbol (some "x")

def y : Expr := .symbol (some "y")

def pair (name : String) : Expr := .array (some name) [.int 2]

/-- The sum of an array or a symbol, as another symbol decides. -/
def choice : Expr := .ifThenElse x (.unary .sum (pair "A")) y

/-- Both branches are replaced, one of them as an array. -/
def mapping : Expr.Mapping := [(pair "A", pair "B"), (y, .binary .mul x x)]

/-- The symbol is a state, and the array that is put in has a state and a parameter. -/
def evaluator : Evaluator where
  expr := choice
  table := ⟨[(.symbol (some "B") [.int 1], .source (.parameter (.int 0))),
    (.symbol (some "B") [.int 0], .source (.state (.int 1))), (x, .source (.state (.int 0)))]⟩
  isTimeDependent := false
  version := none

def states : Value := .list [.number (.int 3), .number (.int 5)]

def parameters : Value := .list [.number (.int 7)]

lemma isPlainLeaf_x : x.IsPlainLeaf := .symbol (some "x") []

lemma isPlainLeaf_pair (name : String) : (pair name).IsPlainLeaf := .array (some name) [2]

lemma hasPlainLeaves_choice : choice.HasPlainLeaves := by
  change ∀ s ∈ [x, pair "A", y], s.IsPlainLeaf
  exact List.forall_mem_cons.2 ⟨isPlainLeaf_x, List.forall_mem_cons.2
    ⟨isPlainLeaf_pair "A", List.forall_mem_singleton.2 (.symbol (some "y") [])⟩⟩

lemma isPlain_mapping : mapping.IsPlain where
  keys := List.forall_mem_cons.2 ⟨.inr rfl, List.forall_mem_singleton.2 (.inl rfl)⟩
  values := by
    refine List.forall_mem_cons.2 ⟨?_, List.forall_mem_singleton.2 ?_⟩
    · change ∀ s ∈ [pair "B"], s.IsPlainLeaf
      exact List.forall_mem_singleton.2 (isPlainLeaf_pair "B")
    · change ∀ s ∈ [x, x], s.IsPlainLeaf
      exact List.forall_mem_cons.2 ⟨isPlainLeaf_x, List.forall_mem_singleton.2 isPlainLeaf_x⟩

theorem substitution_reads_leaves_branches :
    choice.HasPlainLeaves ∧ mapping.IsPlain ∧
      choice.substitute mapping = .ifThenElse x (.unary .sum (pair "B")) (.binary .mul x x) ∧
      (evaluator.on (choice.substitute mapping)).interpret states parameters .none =
        choice.evalWith .numeric fun s =>
          (evaluator.on (mapping.get s)).interpret states parameters .none :=
  ⟨hasPlainLeaves_choice, isPlain_mapping, rfl,
    (substitution_reads_leaves evaluator states parameters .none choice mapping
      hasPlainLeaves_choice isPlain_mapping).2⟩

end Branches

end Evaluator
end NamedSlots
