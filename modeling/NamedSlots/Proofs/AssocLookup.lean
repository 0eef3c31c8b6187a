import NamedSlots.Assoc
import NamedSlots.Proofs.ScalarLeaf

/-!
# Looking up keys

What is found under a key stands in the list with an equal key. Among plain symbols, where to be
equal is to be the same, a key that stands once finds its own entry.
-/

namespace NamedSlots

namespace Assoc

variable {κ α : Type}

lemma mem_keys_of_mem {key : κ} {a : α} {entries : List (κ × α)} (h : (key, a) ∈ entries) :
    key ∈ keys entries := List.mem_map.2 ⟨(key, a), h, rfl⟩

lemma exists_mem_of_mem_keys {key : κ} {entries : List (κ × α)} (h : key ∈ keys entries) :
    ∃ a, (key, a) ∈ entries := by
  obtain ⟨⟨k, a⟩, hmem, rfl⟩ := List.mem_map.1 h
  exact ⟨a, hmem⟩

lemma mem_of_find? [BEq κ] {key : κ} {a : α} {entries : List (κ × α)}
    (h : find? key entries = some a) : ∃ k, (k, a) ∈ entries ∧ (k == key) = true := by
  induction entries with
  | nil => cases h
  | cons entry rest ih =>
    rw [find?] at h
    split at h
    · rename_i hkey
      cases h
      exact ⟨entry.1, List.mem_cons_self, hkey⟩
    · obtain ⟨k, hk, hkey⟩ := ih h
      exact ⟨k, List.mem_cons_of_mem _ hk, hkey⟩

lemma find?_eq_none_iff [BEq κ] {key : κ} {entries : List (κ × α)} :
    find? key entries = none ↔ ∀ entry ∈ entries, (entry.1 == key) = false := by
  induction entries with
  | nil => exact ⟨fun _ => nofun, fun _ => rfl⟩
  | cons entry entries ih =>
    rw [find?, List.forall_mem_cons, ← ih]
    cases entry.1 == key <;> simp

lemma find?_append [BEq κ] {key : κ} {a : α} {entries : List (κ × α)}
    (h : find? key entries = some a) (more : List (κ × α)) :
    find? key (entries ++ more) = some a := by
  induction entries with
  | nil => cases h
  | cons entry entries ih =>
    rw [List.cons_append, find?]
    rw [find?] at h
    split
    · rename_i hkey
      rw [if_pos hkey] at h
      exact h
    · rename_i hkey
      rw [if_neg hkey] at h
      exact ih h

lemma find?_append_of_none [BEq κ] {key : κ} {entries : List (κ × α)}
    (h : find? key entries = none) (more : List (κ × α)) :
    find? key (entries ++ more) = find? key more := by
  induction entries with
  | nil => rfl
  | cons entry entries ih =>
    rw [find?] at h
    split at h
    · cases h
    · rename_i hkey
      rw [List.cons_append, find?, if_neg hkey]
      exact ih h

lemma find?_map {β : Type} [BEq κ] [LawfulBEq κ] (g : κ → α → β) (key : κ)
    (entries : List (κ × α)) :
    find? key (entries.map fun (k, a) => (k, g k a)) = (find? key entries).map (g key) := by
  induction entries with
  | nil => rfl
  | cons entry entries ih =>
    obtain ⟨k, a⟩ := entry
    rw [List.map_cons, find?, find?]
    by_cases hkey : (k == key) = true
    · rw [if_pos hkey, if_pos hkey, eq_of_beq hkey]
      rfl
    · rw [if_neg hkey, if_neg hkey, ih]

lemma mem_put [BEq κ] [LawfulBEq κ] {key : κ} {a : α} {entries : List (κ × α)} {entry : κ × α}
    (h : entry ∈ put key a entries) : entry ∈ entries ∨ entry = (key, a) := by
  induction entries with
  | nil => exact .inr (List.mem_singleton.1 h)
  | cons first rest ih =>
    rw [put] at h
    split at h
    · rename_i hkey
      rcases List.mem_cons.1 h with rfl | h
      · exact .inr (congrArg (fun k => (k, a)) (eq_of_beq hkey))
      · exact .inl (List.mem_cons_of_mem _ h)
    · rcases List.mem_cons.1 h with rfl | h
      · exact .inl List.mem_cons_self
      · exact (ih h).imp (List.mem_cons_of_mem _) id

lemma find?_put [BEq κ] [LawfulBEq κ] (key : κ) (a : α) (entries : List (κ × α)) :
    find? key (put key a entries) = some a := by
  induction entries with
  | nil => exact if_pos (beq_self_eq_true key)
  | cons first rest ih =>
    rw [put]
    split
    · rename_i hkey
      exact if_pos hkey
    · rename_i hkey
      rw [find?, if_neg hkey, ih]

lemma find?_put_of_ne [BEq κ] [LawfulBEq κ] {key k : κ} (hne : key ≠ k) (a : α)
    (entries : List (κ × α)) : find? k (put key a entries) = find? k entries := by
  have hkey : ¬ (key == k) = true := fun h => hne (eq_of_beq h)
  induction entries with
  | nil => exact if_neg hkey
  | cons first rest ih =>
    rw [put]
    split
    · rename_i hfirst
      have hk : ¬ (first.1 == k) = true := by
        rw [eq_of_beq hfirst]
        exact hkey
      rw [find?, if_neg hk, find?, if_neg hk]
    · rw [find?, find?, ih]

/-- Keys may be replaced by others that are equal exactly when they are. -/
lemma put_map {κ' β : Type} [BEq κ] [BEq κ'] {f : κ → κ'} (g : α → β) (hf : ∀ a b, (f a == f b) = (a == b))
    (key : κ) (a : α) (entries : List (κ × α)) :
    put (f key) (g a) (entries.map (Prod.map f g)) = (put key a entries).map (Prod.map f g) := by
  induction entries with
  | nil => rfl
  | cons first rest ih =>
    rw [List.map_cons, put, put, Prod.map_fst, hf, ih]
    split <;> rfl

lemma mem_keys_put [BEq κ] [LawfulBEq κ] {key k : κ} {a : α} {entries : List (κ × α)} :
    k ∈ keys (put key a entries) ↔ k = key ∨ k ∈ keys entries := by
  constructor
  · intro h
    obtain ⟨b, hb⟩ := exists_mem_of_mem_keys h
    rcases mem_put hb with hb | hb
    · exact .inr (mem_keys_of_mem hb)
    · cases hb
      exact .inl rfl
  · induction entries with
    | nil => exact fun h => List.mem_singleton.2 (h.resolve_right nofun)
    | cons first rest ih =>
      intro h
      rw [put]
      split
      · rename_i hkey
        rcases h with rfl | h
        · exact (eq_of_beq hkey) ▸ List.mem_cons_self
        · exact h
      · rcases h with rfl | h
        · exact List.mem_cons_of_mem _ (ih (.inl rfl))
        · rcases List.mem_cons.1 h with rfl | h
          · exact List.mem_cons_self
          · exact List.mem_cons_of_mem _ (ih (.inr h))

lemma nodup_keys_put [BEq κ] [LawfulBEq κ] {key : κ} (a : α) {entries : List (κ × α)}
    (h : (keys entries).Nodup) : (keys (put key a entries)).Nodup := by
  induction entries with
  | nil => exact List.pairwise_singleton _ key
  | cons first rest ih =>
    obtain ⟨hnew, hrest⟩ := List.nodup_cons.1 h
    rw [put]
    split
    · exact h
    · rename_i hkey
      refine List.nodup_cons.2 ⟨fun hmem => ?_, ih hrest⟩
      rcases mem_keys_put.1 hmem with heq | hmem
      · exact hkey (beq_iff_eq.2 heq)
      · exact hnew hmem

/-- Among plain symbols that stand once in a list, each finds its own entry. -/
lemma find?_eq_some_iff {entries : List (Expr × α)} {s : Expr} {a : α}
    (hplain : ∀ k ∈ keys entries, k.IsPlainSymbol) (hnodup : (keys entries).Nodup)
    (hs : s.IsPlainSymbol) : find? s entries = some a ↔ (s, a) ∈ entries := by
  constructor
  · intro h
    obtain ⟨k, hk, hks⟩ := mem_of_find? h
    rw [← (hplain k (mem_keys_of_mem hk)).eq_of_beq hs hks]
    exact hk
  · intro h
    induction entries with
    | nil => cases h
    | cons entry rest ih =>
      obtain ⟨hnew, hrest⟩ := List.nodup_cons.1 hnodup
      rw [find?]
      rcases List.mem_cons.1 h with rfl | h
      · rw [if_pos hs.beq_self]
      · have hne : ¬ (entry.1 == s) = true := by
          intro heq
          rw [(hplain _ List.mem_cons_self).eq_of_beq hs heq] at hnew
          exact hnew (mem_keys_of_mem h)
        rw [if_neg hne]
        exact ih (fun k hk => hplain k (List.mem_cons_of_mem _ hk)) hrest h

/-- Among plain symbols, the one that is found is the very one that stands there. -/
lemma contains_iff {entries : List (Expr × α)} {s : Expr}
    (hplain : ∀ k ∈ keys entries, k.IsPlainSymbol) (hs : s.IsPlainSymbol) :
    contains entries s = true ↔ s ∈ keys entries := by
  rw [contains, Option.isSome_iff_exists]
  constructor
  · rintro ⟨a, ha⟩
    obtain ⟨k, hk, hks⟩ := mem_of_find? ha
    rw [← (hplain k (mem_keys_of_mem hk)).eq_of_beq hs hks]
    exact mem_keys_of_mem hk
  · intro hmem
    induction entries with
    | nil => cases hmem
    | cons entry rest ih =>
      rw [find?]
      split
      · exact ⟨_, rfl⟩
      · rename_i hne
        refine ih (fun k hk => hplain k (List.mem_cons_of_mem _ hk)) ?_
        refine (List.mem_cons.1 hmem).resolve_left ?_
        rintro rfl
        exact hne hs.beq_self

end Assoc

end NamedSlots
