import NamedSlots.Proofs.FactoryRun
import NamedSlots.Session.Tools
import NamedSlots.System.State

/-!
# Builds without a cache

An accessor that is built for an object without a cache comes from the plan for the normal form of
its request. A problem state and its container make a system whose storage is always offered.
-/

namespace NamedSlots

namespace System

/-- The accessor of a build that keeps nothing. -/
def accessor (s : System) (identity : Nat) (object : Value) (p : Permission)
    (request version : Value) : Except Failure Accessor :=
  (Step.uncaching.request identity s object p request version).2.2

variable {s : System} {b : Bound} {q : Request} {request version object : Value} {p : Permission}
  {identity : Nat}

lemma isHashableClass_of_bound (hb : Bound.of s version = .ok b) :
    version.isHashableClass = true := by
  unfold Bound.of at hb
  cases h : version.isHashableClass with
  | true => rfl
  | false =>
    rw [h] at hb
    cases hb

lemma prepare_eq_ok_iff :
    Step.uncaching.prepare s request version = .ok (q, b) ↔
      Request.ofValue .standard request = .ok q ∧ Bound.of s version = .ok b := by
  unfold Factory.prepare
  constructor
  · intro h
    split at h
    · cases h
    · obtain ⟨q', hq, h⟩ := Except.eq_ok_of_bind h
      obtain ⟨b', hb, h⟩ := Except.eq_ok_of_bind h
      cases h
      exact ⟨hq, hb⟩
  · rintro ⟨hq, hb⟩
    rw [isHashableClass_of_bound hb]
    change (do
      let normal ← Request.ofValue .standard request
      return (normal, ← Bound.of s version)) = _
    rw [hq, hb]
    rfl

/-- The accessor of a build that keeps nothing, by the steps of the build. -/
lemma accessor_eq (s : System) (identity : Nat) (object : Value) (p : Permission)
    (request version : Value) :
    s.accessor identity object p request version = (do
      let (q, b) ← Step.uncaching.prepare s request version
      let current ← s.reported b.version
      let plan ← ((Factory.planFor .interpreter b p q).run.run (Factory.noteTrace b.version current)).1
      return ⟨identity, plan, q, b.version⟩) := by
  unfold accessor Factory.request
  cases Step.uncaching.prepare s request version with
  | error e => rfl
  | ok prepared =>
    obtain ⟨q, b⟩ := prepared
    simp only [Factory.noteVersion_eq]
    change _ = (s.reported b.version >>= _)
    cases s.reported b.version with
    | error e => rfl
    | ok current =>
      have hcaching : (Step.uncaching.forget object current).isCaching = false := by
        rw [Factory.isCaching_forget]
        rfl
      have hbackend : (Step.uncaching.forget object current).backend = .interpreter := by
        rw [Factory.backend_forget]
        rfl
      simp only [Except.map, hcaching, Bool.false_and, Bool.false_eq_true, if_false,
        Factory.lookup?, Factory.make, hbackend]
      change _ = ((Factory.planFor .interpreter b p q).run.run
        (Factory.noteTrace b.version current)).1 >>= _
      rcases (Factory.planFor .interpreter b p q).run.run (Factory.noteTrace b.version current) with
        ⟨e | plan, t⟩ <;> rfl

lemma accessor_of_plan {current : Option Value} {plan : Except Failure AccessPlan}
    (hb : Bound.of s version = .ok b) (hq : Request.ofValue .standard request = .ok q)
    (hreported : s.reported b.version = .ok current)
    (hplan : Traced.Yields (Factory.planFor .interpreter b p q) plan) :
    s.accessor identity object p request version =
      plan.map fun plan => ⟨identity, plan, q, b.version⟩ := by
  rw [accessor_eq, prepare_eq_ok_iff.2 ⟨hq, hb⟩]
  change (s.reported b.version >>= _) = _
  rw [hreported]
  change ((Factory.planFor .interpreter b p q).run.run _).1 >>= _ = _
  rw [hplan]
  cases plan <;> rfl

/-- An accessor that is built is made of a plan for the normal form of its request. -/
lemma exists_plan_of_accessor {a : Accessor}
    (h : s.accessor identity object p request version = .ok a) :
    ∃ b q plan, Bound.of s version = .ok b ∧ Request.ofValue .standard request = .ok q ∧
      Traced.Returns (Factory.planFor .interpreter b p q) plan ∧
      a = ⟨identity, plan, q, b.version⟩ := by
  rw [accessor_eq] at h
  obtain ⟨⟨q, b⟩, hprepare, h⟩ := Except.eq_ok_of_bind h
  obtain ⟨hq, hb⟩ := prepare_eq_ok_iff.1 hprepare
  obtain ⟨current, _, h⟩ := Except.eq_ok_of_bind h
  obtain ⟨plan, hplan, h⟩ := Except.eq_ok_of_bind h
  cases h
  exact ⟨b, q, plan, hb, hq, ⟨_, _, Prod.ext hplan rfl⟩, rfl⟩

lemma returns_of_accessor {a : Accessor}
    (h : s.accessor identity object p request version = .ok a) :
    ∃ b q, Bound.of s version = .ok b ∧ Request.ofValue .standard request = .ok q ∧
      Traced.Returns (Factory.planFor .interpreter b p q) a.plan := by
  obtain ⟨b, q, plan, hb, hq, hplan, rfl⟩ := exists_plan_of_accessor h
  exact ⟨b, q, hb, hq, hplan⟩

end System

namespace ProblemState

/-- A problem state with the object that answers for it. -/
def systemOver (s : ProblemState) (world : World) (identity : Option Nat) (container : Interface) :
    System := ⟨s.toInterface world identity, container⟩

end ProblemState
end NamedSlots
