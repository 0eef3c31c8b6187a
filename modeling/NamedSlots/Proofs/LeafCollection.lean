import NamedSlots.Proofs.KeyEquality
import NamedSlots.Proofs.Substitution

/-!
# Collected leaves

The symbols that a walk through an expression collects are its leaves without repeats, and the
scalar symbols are the elements that the leaves stand for without repeats: leaving out repeats
before leaves are expanded or replaced makes no difference.
-/

namespace NamedSlots.Expr

/-- What equals a leaf stands for nothing that the leaf does not. -/
lemma exists_mem_scalars_of_beq {a b y : Expr} (hba : (b == a) = true) (hy : y ∈ b.scalars) :
    ∃ x ∈ a.scalars, (y == x) = true := by
  have hkind := (beq_spec hba).1
  rw [scalars] at hy
  split at hy
  · rename_i hk
    refine ⟨y, ?_, (isPlainSymbol_of_mem_elements hy).beq_self⟩
    rwa [scalars, if_pos (hkind ▸ hk), ← elements_eq_of_beq hba]
  · rename_i hk
    rw [List.mem_singleton.1 hy]
    refine ⟨a, ?_, hba⟩
    rw [scalars, if_neg (hkind ▸ hk)]
    exact List.mem_singleton.2 rfl

lemma scalarLeaves_eq (e : Expr) : e.scalarLeaves = (e.leaves.flatMap scalars).eraseDups := by
  rw [scalarLeaves_def]
  exact eraseDups_flatMap_eraseDups fun _ _ _ _ hba _ hy => exists_mem_scalars_of_beq hba hy

lemma IsPlainLeaf.beq_self {s : Expr} (hs : s.IsPlainLeaf) : (s == s) = true := by
  refine same_self s ?_
  obtain ⟨name, indices, rfl⟩ | ⟨name, dims, rfl⟩ := hs <;> exact ⟨trivial, nofun⟩

/-- Every leaf gives way to the free symbols of its replacement. -/
lemma freeSymbols_substitute {e : Expr} (he : e.HasPlainLeaves) {m : Mapping} (hm : m.IsPlain) :
    (e.substitute m).freeSymbols =
      (e.freeSymbols.flatMap fun s => (m.get s).freeSymbols).eraseDups := by
  have hequal : ∀ a ∈ e.leaves, ∀ b ∈ e.leaves, (b == a) = true →
      ∀ y ∈ (m.get b).leaves, ∃ x ∈ (m.get a).leaves, (y == x) = true := by
    intro a ha b hb hba y hy
    rw [(he b hb).eq_of_beq (he a ha) hba] at hy
    exact ⟨y, hy, (hm.hasPlainLeaves_get (he a ha) y hy).beq_self⟩
  calc (e.substitute m).freeSymbols
      = (e.leaves.flatMap fun s => (m.get s).leaves).eraseDups := by
        rw [substitute_eq hm he, freeSymbols_eq, leaves_mapLeaves]
    _ = (e.leaves.eraseDups.flatMap fun s => (m.get s).leaves).eraseDups :=
        (eraseDups_flatMap_eraseDups hequal).symm
    _ = (e.freeSymbols.flatMap fun s => (m.get s).freeSymbols).eraseDups := by
        rw [freeSymbols_eq]
        refine eraseDups_flatMap_congr fun s _ => ?_
        rw [freeSymbols_eq, eraseDups_eraseDups]

/-- The free symbols are the leaves without repeats, the scalar leaves are the leaves with arrays
replaced by their elements without repeats, and after a substitution the free symbols are those of
what is put in the place of each free symbol without repeats. -/
theorem leaves_collected_once (e : Expr) :
    e.freeSymbols = e.leaves.eraseDups ∧
      e.scalarLeaves = (e.leaves.flatMap scalars).eraseDups ∧
      ∀ m : Mapping, e.HasPlainLeaves → m.IsPlain →
        (e.substitute m).freeSymbols =
          (e.freeSymbols.flatMap fun s => (m.get s).freeSymbols).eraseDups :=
  ⟨freeSymbols_eq e, scalarLeaves_eq e, fun _ he hm => freeSymbols_substitute he hm⟩

namespace Repeated

def x : Expr := symbol (some "x")

def y : Expr := symbol (some "y")

def pair : Expr := array (some "A") [.int 2]

/-- An array and a symbol, each of which stands twice. -/
def both : Expr := binary .mul (binary .add x pair) (binary .sub pair x)

/-- The array gives way to a product with the symbol that stands beside it. -/
def mapping : Mapping := [(pair, binary .mul y x)]

lemma isPlainLeaf_x : x.IsPlainLeaf := .symbol (some "x") []

lemma isPlainLeaf_pair : pair.IsPlainLeaf := .array (some "A") [2]

lemma hasPlainLeaves_both : both.HasPlainLeaves := by
  change ∀ s ∈ [x, pair, pair, x], s.IsPlainLeaf
  intro s hs
  simp only [List.mem_cons, List.not_mem_nil, or_false] at hs
  rcases hs with rfl | rfl | rfl | rfl
  · exact isPlainLeaf_x
  · exact isPlainLeaf_pair
  · exact isPlainLeaf_pair
  · exact isPlainLeaf_x

lemma isPlain_mapping : mapping.IsPlain where
  keys := List.forall_mem_singleton.2 (.inr rfl)
  values := by
    refine List.forall_mem_singleton.2 ?_
    change ∀ s ∈ [y, x], s.IsPlainLeaf
    exact List.forall_mem_cons.2
      ⟨.symbol (some "y") [], List.forall_mem_singleton.2 isPlainLeaf_x⟩

theorem leaves_collected_once_repeated :
    both.HasPlainLeaves ∧ mapping.IsPlain ∧
      both.freeSymbols = [x, pair] ∧
      both.scalarLeaves = [x, symbol (some "A") [.int 0], symbol (some "A") [.int 1]] ∧
      (both.substitute mapping).freeSymbols = [x, y] := by
  obtain ⟨hfree, hscalars, hsubstitute⟩ := leaves_collected_once both
  refine ⟨hasPlainLeaves_both, isPlain_mapping, hfree, hscalars, ?_⟩
  rw [hsubstitute mapping hasPlainLeaves_both isPlain_mapping, hfree]
  rfl

end Repeated

end NamedSlots.Expr
