import Mathlib.Data.List.Forall2
import Mathlib.Tactic.Lemma

/-!
# Runs over lists

A function that may fail runs over a list item by item. It succeeds when it does on every item,
and the results stand in the order of the items; it fails as the first item that fails.
-/

namespace NamedSlots

lemma Except.eq_ok_of_bind {ε α β : Type} {x : Except ε α} {f : α → Except ε β} {b : β}
    (h : x >>= f = .ok b) : ∃ a, x = .ok a ∧ f a = .ok b := by
  cases x with
  | error e => cases h
  | ok a => exact ⟨a, rfl, h⟩

lemma Except.ok_bind {ε α β : Type} (a : α) (f : α → Except ε β) : (.ok a >>= f) = f a := rfl

lemma mapM_eq_some_iff {α β : Type} {f : α → Option β} {as : List α} {bs : List β} :
    as.mapM f = some bs ↔ List.Forall₂ (fun a b => f a = some b) as bs := by
  induction as generalizing bs with
  | nil =>
    rw [List.forall₂_nil_left_iff]
    exact ⟨fun h => (Option.some.inj h).symm, fun h => h ▸ rfl⟩
  | cons a as ih =>
    rw [List.mapM_cons, List.forall₂_cons_left_iff]
    simp only [Option.bind_eq_bind, Option.pure_def, Option.bind_eq_some_iff, ih]
    constructor
    · rintro ⟨b, hb, bs', hbs', h⟩
      exact ⟨b, bs', hb, hbs', (Option.some.inj h).symm⟩
    · rintro ⟨b, bs', hb, hbs', rfl⟩
      exact ⟨b, hb, bs', hbs', rfl⟩

section Order

variable {ε α β γ : Type} {g : α → Except ε β} {as : List α} {bs : List β}

lemma mapM_congr {f : α → Except ε β} (h : ∀ a ∈ as, f a = g a) : as.mapM f = as.mapM g := by
  induction as with
  | nil => rfl
  | cons a as ih =>
    rw [List.mapM_cons, List.mapM_cons, h a List.mem_cons_self]
    rw [ih fun b hb => h b (List.mem_cons_of_mem _ hb)]

lemma mapM_ok {f : α → Except ε β} {g : α → β} (h : ∀ a ∈ as, f a = .ok (g a)) :
    as.mapM f = .ok (as.map g) := by
  rw [mapM_congr h]
  exact List.mapM_pure

lemma mapM_eq_ok_iff : as.mapM g = .ok bs ↔ List.Forall₂ (fun a b => g a = .ok b) as bs := by
  constructor
  · intro h
    induction as generalizing bs with
    | nil =>
      cases h
      exact .nil
    | cons a as ih =>
      rw [List.mapM_cons] at h
      obtain ⟨b, hb, h⟩ := Except.eq_ok_of_bind h
      obtain ⟨bs, hbs, h⟩ := Except.eq_ok_of_bind h
      cases h
      exact .cons hb (ih hbs)
  · intro h
    induction h with
    | nil => rfl
    | cons hb _ ih =>
      rw [List.mapM_cons, hb, ih]
      rfl

lemma mapM_getElem? (h : as.mapM g = .ok bs) {i : Nat} {a : α} (ha : as[i]? = some a) :
    ∃ b, bs[i]? = some b ∧ g a = .ok b := by
  have hall := mapM_eq_ok_iff.1 h
  obtain ⟨hi, rfl⟩ := List.getElem?_eq_some_iff.1 ha
  have hi' : i < bs.length := hall.length_eq ▸ hi
  exact ⟨bs[i], List.getElem?_eq_getElem hi', hall.get hi hi'⟩

/-- A run over a list fails as the first item that fails. -/
lemma mapM_eq_error_iff {e : ε} : as.mapM g = .error e ↔ ∃ before a after,
    as = before ++ a :: after ∧ (∀ b ∈ before, ∃ x, g b = .ok x) ∧ g a = .error e := by
  constructor
  · intro h
    induction as with
    | nil => cases h
    | cons a as ih =>
      rw [List.mapM_cons] at h
      cases ha : g a with
      | error e' =>
        rw [ha] at h
        cases h
        exact ⟨[], a, as, rfl, nofun, ha⟩
      | ok b =>
        rw [ha, Except.ok_bind] at h
        cases hrest : as.mapM g with
        | ok bs =>
          rw [hrest] at h
          cases h
        | error e' =>
          rw [hrest] at h
          cases h
          obtain ⟨before, a', after, rfl, hbefore, ha'⟩ := ih hrest
          exact ⟨a :: before, a', after, rfl, List.forall_mem_cons.2 ⟨⟨b, ha⟩, hbefore⟩, ha'⟩
  · rintro ⟨before, a, after, rfl, hbefore, ha⟩
    induction before with
    | nil =>
      rw [List.nil_append, List.mapM_cons, ha]
      rfl
    | cons b before ih =>
      obtain ⟨⟨x, hx⟩, hbefore⟩ := List.forall_mem_cons.1 hbefore
      rw [List.cons_append, List.mapM_cons, hx, ih hbefore]
      rfl

lemma exists_mapM_ok_iff : (∃ bs, as.mapM g = .ok bs) ↔ ∀ a ∈ as, ∃ b, g a = .ok b := by
  constructor
  · rintro ⟨bs, hbs⟩ a ha
    have hall := mapM_eq_ok_iff.1 hbs
    obtain ⟨i, hi, rfl⟩ := List.getElem_of_mem ha
    exact ⟨_, hall.get hi (hall.length_eq ▸ hi)⟩
  · intro h
    cases hrun : as.mapM g with
    | ok bs => exact ⟨bs, rfl⟩
    | error e =>
      obtain ⟨before, a, after, rfl, _, ha⟩ := mapM_eq_error_iff.1 hrun
      obtain ⟨b, hb⟩ := h a (by simp)
      rw [ha] at hb
      cases hb

/-- Two runs over one list, the second over what the first gave. -/
lemma mapM_bind_of_ok {h : β → Except ε γ} (hbs : as.mapM g = .ok bs) :
    (as.mapM fun a => g a >>= h) = bs.mapM h := by
  induction as generalizing bs with
  | nil =>
    cases hbs
    rfl
  | cons a as ih =>
    rw [List.mapM_cons] at hbs
    obtain ⟨b, hb, hbs⟩ := Except.eq_ok_of_bind hbs
    obtain ⟨bs, hrest, hbs⟩ := Except.eq_ok_of_bind hbs
    cases hbs
    rw [List.mapM_cons, List.mapM_cons, hb, ih hrest]
    rfl

end Order

end NamedSlots
