import Mathlib.Data.List.Induction
import NamedSlots.Proofs.FactoryStep
import NamedSlots.System.Object

/-!
# Runs of a factory

A history of builds over objects that stay as they are is the repetition of one build. Every entry
that is kept after a history is what the factory without entries would have built.
-/

namespace NamedSlots

namespace Build

def target (objects : Objects) (c : Build) : System := System.of objects.world c.system

end Build

namespace Factory

def next (objects : Objects) (f : Factory) (c : Build) : Factory := f.nextOn (c.target objects) c

def accessor (objects : Objects) (f : Factory) (c : Build) : Except Failure Accessor :=
  f.accessorOn (c.target objects) c

def after (objects : Objects) (f : Factory) (history : List Build) : Factory :=
  history.foldl (next objects) f

/-- The key and the bound system of a build. -/
def keyed (objects : Objects) (f : Factory) (c : Build) : Except Failure (CacheKey × Bound) :=
  f.keyedOn (c.target objects) c

/-! ### Histories of builds -/

section History

variable {objects : Objects} {f : Factory} {history : List Build}

lemma after_append (f : Factory) (history : List Build) (c : Build) :
    f.after objects (history ++ [c]) = (f.after objects history).next objects c :=
  List.foldl_append

lemma options_after (objects : Objects) (f : Factory) (history : List Build) :
    (f.after objects history).isCaching = f.isCaching ∧
      (f.after objects history).withoutCache = f.withoutCache := by
  induction history using List.reverseRecOn with
  | nil => exact ⟨rfl, rfl⟩
  | append_singleton history c ih =>
    rw [after_append]
    have hnext := options_nextOn (c.target objects) (f.after objects history) c
    exact ⟨hnext.1.trans ih.1, hnext.2.trans ih.2⟩

lemma keyed_after (f : Factory) (history : List Build) (c : Build) :
    (f.after objects history).keyed objects c = f.keyed objects c := by
  have hkeyed (g : Factory) : g.keyed objects c = g.withoutCache.keyed objects c := rfl
  rw [hkeyed, (options_after objects f history).2, ← hkeyed]

/-- Every entry after a history of builds is the accessor that the factory without entries builds
for one of them, under the key of that build. -/
lemma mem_after (hempty : f.cache = []) {entry : CacheKey × Accessor}
    (h : entry ∈ (f.after objects history).cache) :
    ∃ r ∈ history, ∃ b, f.keyed objects r = .ok (entry.1, b) ∧
      Extra.isHashable entry.1.version = true ∧
      f.withoutCache.accessor objects r = .ok entry.2 := by
  induction history using List.reverseRecOn with
  | nil =>
    change entry ∈ f.cache at h
    rw [hempty] at h
    cases h
  | append_singleton history r ih =>
    rw [after_append] at h
    have hoptions := options_after objects f history
    rcases mem_nextOn h with h | ⟨b, hkeyed, hhashable, _, haccessor⟩
    · obtain ⟨r', hr', hentry⟩ := ih h
      exact ⟨r', List.mem_append_left _ hr', hentry⟩
    · have hkept : f.keyed objects r = .ok (entry.1, b) := (keyed_after f history r).symm.trans hkeyed
      rw [hoptions.2] at haccessor
      have hr : r ∈ history ++ [r] := List.mem_append_right history (List.mem_singleton_self r)
      exact ⟨r, hr, b, hkept, hhashable, haccessor⟩

end History

end Factory
end NamedSlots
