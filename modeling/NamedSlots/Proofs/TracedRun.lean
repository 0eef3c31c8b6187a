import Mathlib.Tactic.Lemma
import NamedSlots.Evaluation.Binding
import NamedSlots.Proofs.ListRun

/-!
# Runs that leave a trace

A traced computation that asks no provider and warns about nothing leaves the trace as it is, and
what any of them returns need not depend on the trace that it starts from. This file gives the
rules by which such results are composed.
-/

namespace NamedSlots

/-- A run with failures and a state runs its first part, and its rest unless that failed. -/
lemma run_bind {ε σ α β : Type} (x : ExceptT ε (StateM σ) α) (f : α → ExceptT ε (StateM σ) β)
    (t : σ) :
    (x >>= f).run.run t =
      match x.run.run t with
      | (.ok a, t') => (f a).run.run t'
      | (.error e, t') => (.error e, t') := by
  rw [ExceptT.run_bind]
  rw [StateT.run_bind]
  simp only [bind]
  rcases x.run.run t with ⟨a | e, t'⟩ <;> rfl

lemma run_bind_ok {ε σ α β : Type} {x : ExceptT ε (StateM σ) α}
    {f : α → ExceptT ε (StateM σ) β} {t t' : σ} {a : α} (h : x.run.run t = (.ok a, t')) :
    (x >>= f).run.run t = (f a).run.run t' := by
  rw [run_bind, h]

lemma run_bind_error {ε σ α β : Type} {x : ExceptT ε (StateM σ) α}
    (f : α → ExceptT ε (StateM σ) β) {t t' : σ} {e : ε} (h : x.run.run t = (.error e, t')) :
    (x >>= f).run.run t = (.error e, t') := by
  rw [run_bind, h]

/-- If a run succeeds, its first part did, and its rest did from where that ended. -/
lemma run_bind_eq_ok {ε σ α β : Type} {x : ExceptT ε (StateM σ) α}
    {f : α → ExceptT ε (StateM σ) β} {t t' : σ} {b : β} (h : (x >>= f).run.run t = (.ok b, t')) :
    ∃ a s, x.run.run t = (.ok a, s) ∧ (f a).run.run s = (.ok b, t') := by
  rw [run_bind] at h
  rcases hx : x.run.run t with ⟨e | a, s⟩
  · rw [hx] at h
    cases h
  · rw [hx] at h
    exact ⟨a, s, rfl, h⟩

namespace Traced

variable {α β : Type}

/-- From every trace, the computation gives the result and adds nothing to the trace. -/
def Yields (x : Traced α) (r : Except Failure α) : Prop :=
  ∀ t, x.run.run t = (r, t)

/-- From some trace, the computation gives the value. -/
def Returns (x : Traced α) (a : α) : Prop :=
  ∃ t t', x.run.run t = (.ok a, t')

lemma yields_pure (a : α) : Yields (pure a) (.ok a) := by
  intro t
  rfl

lemma yields_throw (e : Failure) : Yields (throw e : Traced α) (.error e) := by
  intro t
  rfl

lemma yields_lift (r : Except Failure α) : Yields (liftM r : Traced α) r := by
  intro t
  cases r <;> rfl

lemma lift_run_eq_ok {r : Except Failure α} {a : α} {t t' : Trace}
    (h : (liftM r : Traced α).run.run t = (.ok a, t')) : r = .ok a ∧ t' = t := by
  rw [yields_lift r t] at h
  exact ⟨congrArg Prod.fst h, (congrArg Prod.snd h).symm⟩

lemma Yields.bind_ok {x : Traced α} {f : α → Traced β} {a : α} {r : Except Failure β}
    (hx : Yields x (.ok a)) (hf : Yields (f a) r) : Yields (x >>= f) r := by
  intro t
  rw [run_bind_ok (hx t)]
  exact hf t

lemma Yields.bind_error {x : Traced α} {e : Failure} (f : α → Traced β)
    (hx : Yields x (.error e)) : Yields (x >>= f) (.error e) := by
  intro t
  rw [run_bind_error f (hx t)]

lemma yields_lift_bind {x : Except Failure α} {f : α → Traced β} {a : α} {r : Except Failure β}
    (hx : x = .ok a) (hf : Yields (f a) r) : Yields (liftM x >>= f) r := by
  rw [hx]
  exact (yields_lift (.ok a)).bind_ok hf

lemma lift_bind_run {x : Except Failure α} (f : α → Traced β) {a : α} (hx : x = .ok a) (t : Trace) :
    (liftM x >>= f).run.run t = (f a).run.run t := by
  rw [hx]
  exact run_bind_ok (yields_lift (.ok a) t)

lemma Yields.unique {x : Traced α} {r s : Except Failure α} (hr : Yields x r) (hs : Yields x s) :
    r = s := by
  have h := (hr {}).symm.trans (hs {})
  exact congrArg Prod.fst h

lemma Returns.bind {x : Traced α} {f : α → Traced β} {b : β} (h : Returns (x >>= f) b) :
    ∃ a, Returns x a ∧ Returns (f a) b := by
  obtain ⟨t, t', h⟩ := h
  rw [run_bind] at h
  rcases hx : x.run.run t with ⟨a | a, s⟩
  · rw [hx] at h
    cases h
  · rw [hx] at h
    exact ⟨a, ⟨t, s, hx⟩, ⟨s, t', h⟩⟩

lemma Returns.of_pure {a b : α} (h : Returns (pure a : Traced α) b) : a = b := by
  obtain ⟨t, t', h⟩ := h
  cases h
  rfl

lemma Returns.of_lift {r : Except Failure α} {a : α} (h : Returns (liftM r : Traced α) a) :
    r = .ok a := by
  obtain ⟨t, t', h⟩ := h
  rw [yields_lift r t] at h
  exact congrArg Prod.fst h

lemma Yields.returns {x : Traced α} {a : α} (h : Yields x (.ok a)) : Returns x a := ⟨{}, {}, h {}⟩

lemma not_returns_throw {e : Failure} {a : α} : ¬ Returns (throw e : Traced α) a := by
  rintro ⟨t, t', h⟩
  cases h

/-! ### Results that do not depend on the trace -/

/-- A property that single steps have and that is kept when computations are composed. -/
structure Composes (C : (α : Type) → Traced α → Prop) : Prop where
  pure {α : Type} (a : α) : C α (pure a)
  throw {α : Type} (e : Failure) : C α (throw e)
  lift {α : Type} (r : Except Failure α) : C α (liftM r)
  bind {α β : Type} {x : Traced α} {f : α → Traced β} :
    C α x → (∀ a, C β (f a)) → C β (x >>= f)

/-- The result of a computation, from a trace that is empty. -/
def result (x : Traced α) : Except Failure α := (x.run.run {}).1

/-- The computation has one result, whatever trace it starts from. -/
def Steady (x : Traced α) : Prop := ∀ t, (x.run.run t).1 = x.result

lemma result_bind {x : Traced α} {f : α → Traced β} (hf : ∀ a, Steady (f a)) :
    (x >>= f).result = x.result >>= fun a => (f a).result := by
  unfold result
  rw [run_bind]
  rcases x.run.run {} with ⟨e | a, t⟩
  · rfl
  · exact hf a t

lemma Steady.bind {x : Traced α} {f : α → Traced β} (hx : Steady x) (hf : ∀ a, Steady (f a)) :
    Steady (x >>= f) := by
  intro t
  have hresult := hx t
  rw [result_bind hf, ← hresult, run_bind]
  rcases x.run.run t with ⟨e | a, t'⟩
  · rfl
  · exact hf a t'

lemma composes_steady : Composes fun _ x => Steady x where
  pure _ _ := rfl
  throw _ _ := rfl
  lift r _ := by cases r <;> rfl
  bind := Steady.bind

lemma steady_modify (f : Trace → Trace) : Steady (modify f : Traced Unit) := fun _ => rfl

/-- The computation has one result, whatever trace it starts from, and adds nothing to the trace. -/
def Quiet (x : Traced α) : Prop := ∃ r, Yields x r

lemma quiet_pure (a : α) : Quiet (pure a : Traced α) := ⟨_, yields_pure a⟩

lemma quiet_throw (e : Failure) : Quiet (throw e : Traced α) := ⟨_, yields_throw e⟩

lemma quiet_lift (r : Except Failure α) : Quiet (liftM r : Traced α) := ⟨_, yields_lift r⟩

lemma Quiet.bind {x : Traced α} {f : α → Traced β} (hx : Quiet x) (hf : ∀ a, Quiet (f a)) :
    Quiet (x >>= f) := by
  obtain ⟨r, hr⟩ := hx
  cases r with
  | error e => exact ⟨_, hr.bind_error f⟩
  | ok a =>
    obtain ⟨r', hr'⟩ := hf a
    exact ⟨r', hr.bind_ok hr'⟩

lemma composes_quiet : Composes fun _ x => Quiet x where
  pure := quiet_pure
  throw := quiet_throw
  lift := quiet_lift
  bind := Quiet.bind

/-- What a quiet computation returns from one trace, it returns from every trace. -/
lemma Quiet.yields {x : Traced α} {a : α} (hx : Quiet x) (h : Returns x a) : Yields x (.ok a) := by
  obtain ⟨r, hr⟩ := hx
  obtain ⟨t, t', h⟩ := h
  rw [hr t] at h
  cases h
  exact hr

end Traced
end NamedSlots
