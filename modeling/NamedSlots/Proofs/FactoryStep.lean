import NamedSlots.Access.Factory
import NamedSlots.Proofs.AssocLookup
import NamedSlots.Proofs.Planning

/-!
# One build of a factory

A factory that keeps accessors answers a build from an entry with an equal key, if one is left
once the entries of outdated versions are dropped, and otherwise as a factory that keeps nothing.
Nothing is assumed about the system that is asked.
-/

namespace NamedSlots

/-- What a factory is asked for: an accessor of an object, and the identity that it gets if it is
new. -/
structure Build where
  identity : Nat
  system : Value
  permission : Permission
  request : Value
  version : Value

/-- The current version that an object reports to a build at a version, if it reports one. -/
def System.reported (s : System) : Extra → Except Failure (Option Value)
  | none => return none
  | some _ => do
    match ← s.currentVersion with
    | .none => return none
    | current => return some current

/-- Whether a version can be part of a key. -/
def Extra.isHashable (version : Extra) : Bool := (version.getD .none).isHashable

lemma CacheKey.of_same {key key' : CacheKey} (h : (key == key') = true) :
    key.system.isObject key'.system = true ∧ key.permission = key'.permission ∧
      (key.request == key'.request) = true ∧
        ∀ v v', key.version = some v → key'.version = some v' → (v == v') = true := by
  obtain ⟨h, hversion⟩ := (Bool.and_eq_true _ _).mp h
  obtain ⟨h, hrequest⟩ := (Bool.and_eq_true _ _).mp h
  obtain ⟨hsystem, hpermission⟩ := (Bool.and_eq_true _ _).mp h
  refine ⟨hsystem, of_decide_eq_true hpermission, hrequest, fun v v' hv hv' => ?_⟩
  rw [hv, hv'] at hversion
  exact hversion

namespace Factory

def nextOn (s : System) (f : Factory) (c : Build) : Factory :=
  (f.request c.identity s c.system c.permission c.request c.version).1

def accessorOn (s : System) (f : Factory) (c : Build) : Except Failure Accessor :=
  (f.request c.identity s c.system c.permission c.request c.version).2.2

/-- A factory with the same options that keeps nothing. -/
def withoutCache (f : Factory) : Factory := { f with isCaching := false, cache := [] }

/-- Drops the entries of an object that are not of the version that it reports. -/
def forget (f : Factory) (system : Value) : Option Value → Factory
  | none => f
  | some current => f.dropVersions system current

/-- What is said before a build at a version. -/
def noteTrace : Extra → Option Value → Trace
  | some version, some current => { warnings := versionWarning version current }
  | _, _ => {}

/-- The key and the bound system of a build. -/
def keyedOn (s : System) (f : Factory) (c : Build) : Except Failure (CacheKey × Bound) := do
  let (normal, b) ← f.prepare s c.request c.version
  return (⟨c.system, c.permission, normal, b.version⟩, b)

def made (f : Factory) (c : Build) (key : CacheKey) (b : Bound) (current : Option Value) :
    Except Failure Accessor :=
  ((planFor f.backend b key.permission key.request).run.run (noteTrace key.version current)).1.map
    fun plan => ⟨c.identity, plan, key.request, key.version⟩

variable {s : System} {f : Factory} {c : Build}

lemma keyedOn_eq_ok {key : CacheKey} {b : Bound} (h : f.keyedOn s c = .ok (key, b)) :
    key = ⟨c.system, c.permission, key.request, b.version⟩ ∧
      Request.ofValue f.classifier c.request = .ok key.request ∧
      Bound.of s c.version = .ok b := by
  obtain ⟨⟨normal, bound⟩, hprepare, h⟩ := Except.eq_ok_of_bind h
  cases h
  unfold prepare at hprepare
  split at hprepare
  · cases hprepare
  · obtain ⟨request, hrequest, hprepare⟩ := Except.eq_ok_of_bind hprepare
    obtain ⟨b', hb, hprepare⟩ := Except.eq_ok_of_bind hprepare
    cases hprepare
    exact ⟨rfl, hrequest, hb⟩

lemma bound_of_keyedOn {key : CacheKey} {b : Bound} (h : f.keyedOn s c = .ok (key, b)) :
    key.system = c.system ∧ key.permission = c.permission ∧ b = ⟨s, key.version⟩ := by
  obtain ⟨hkey, _, hb⟩ := keyedOn_eq_ok h
  refine ⟨congrArg CacheKey.system hkey, congrArg CacheKey.permission hkey, ?_⟩
  rw [hkey]
  obtain ⟨_, rfl⟩ | ⟨_, v, _, rfl, _⟩ := Bound.of_eq_ok hb
  · rfl
  · rfl

lemma returns_of_made {key : CacheKey} {b : Bound} {current : Option Value} {a : Accessor}
    (h : f.made c key b current = .ok a) :
    Traced.Returns (planFor f.backend b key.permission key.request) a.plan ∧
      a = ⟨c.identity, a.plan, key.request, key.version⟩ := by
  unfold made at h
  cases hrun : (planFor f.backend b key.permission key.request).run.run
      (noteTrace key.version current) with
  | mk result t =>
    rw [hrun] at h
    cases result with
    | error e => cases h
    | ok plan =>
      cases h
      exact ⟨⟨_, t, hrun⟩, rfl⟩

lemma made_of_yields {key : CacheKey} {b : Bound} {current : Option Value} {plan : AccessPlan}
    (h : Traced.Yields (planFor f.backend b key.permission key.request) (.ok plan)) :
    f.made c key b current = .ok ⟨c.identity, plan, key.request, key.version⟩ := by
  unfold made
  rw [h (noteTrace key.version current)]
  rfl

lemma noteVersion_eq (s : System) (system : Value) (version : Extra) :
    f.noteVersion s system version =
      (s.reported version).map fun current => (f.forget system current, noteTrace version current) := by
  cases version with
  | none => rfl
  | some version =>
    unfold noteVersion System.reported
    cases s.currentVersion with
    | error e => rfl
    | ok current => cases current <;> rfl

lemma backend_forget (system : Value) (current : Option Value) :
    (f.forget system current).backend = f.backend := by
  cases current <;> rfl

lemma isCaching_forget (system : Value) (current : Option Value) :
    (f.forget system current).isCaching = f.isCaching := by
  cases current <;> rfl

/-- The accessor of a build, and the factory after it, by the steps of the build. -/
lemma requestOn_eq (s : System) (f : Factory) (c : Build) :
    (f.nextOn s c, f.accessorOn s c) =
      match f.keyedOn s c with
      | .error e => (f, .error e)
      | .ok (key, b) =>
        match s.reported key.version with
        | .error e => (f, .error e)
        | .ok current =>
          if f.isCaching && !Extra.isHashable key.version then
            (f.forget c.system current, .error (.fault .wrongType))
          else
            match (f.forget c.system current).lookup? key, made f c key b current with
            | some a, _ => (f.forget c.system current, .ok a)
            | none, .error e => (f.forget c.system current, .error e)
            | none, .ok a =>
              (if f.isCaching then
                { f.forget c.system current with cache := (f.forget c.system current).cache ++ [(key, a)] }
              else f.forget c.system current, .ok a) := by
  unfold nextOn accessorOn request keyedOn
  cases f.prepare s c.request c.version with
  | error e => rfl
  | ok prepared =>
    obtain ⟨normal, b⟩ := prepared
    simp only [noteVersion_eq]
    change _ = match s.reported b.version with | .error e => _ | .ok current => _
    cases s.reported b.version with
    | error e => rfl
    | ok current =>
      let key : CacheKey := ⟨c.system, c.permission, normal, b.version⟩
      have hhashable : (b.version.getD .none).isHashable = Extra.isHashable b.version := rfl
      simp only [Except.map, isCaching_forget, hhashable]
      cases f.isCaching && !Extra.isHashable b.version with
      | true => rfl
      | false =>
        cases (f.forget c.system current).lookup? key with
        | some a => rfl
        | none =>
          simp only [make, made, backend_forget, isCaching_forget, Bool.false_eq_true, if_false]
          rcases (planFor f.backend b c.permission normal).run.run (noteTrace b.version current) with
            ⟨e | plan, t⟩ <;> rfl

lemma mem_forget {system : Value} {current : Option Value} {entry : CacheKey × Accessor}
    (h : entry ∈ (f.forget system current).cache) : entry ∈ f.cache := by
  cases current with
  | none => exact h
  | some current => exact (List.mem_filter.1 h).1

lemma version_of_mem_forget {system current : Value} {key : CacheKey} {a : Accessor}
    (h : (key, a) ∈ (f.forget system (some current)).cache)
    (hsystem : key.system.isObject system = true) :
    (key.version.getD .none == current) = true := by
  have hkept := (List.mem_filter.1 h).2
  simp only [hsystem, Bool.true_and, Bool.not_not] at hkept
  exact hkept

lemma accessorOn_withoutCache :
    f.withoutCache.accessorOn s c = (do
      let (key, b) ← f.keyedOn s c
      let current ← s.reported key.version
      f.made c key b current) := by
  have h := congrArg Prod.snd (requestOn_eq s f.withoutCache c)
  have hkeyed : f.withoutCache.keyedOn s c = f.keyedOn s c := rfl
  rw [hkeyed] at h
  change f.withoutCache.accessorOn s c = _ at h
  rw [h]
  cases f.keyedOn s c with
  | error e => rfl
  | ok keyed =>
    obtain ⟨key, b⟩ := keyed
    simp only [bind, Except.bind]
    cases s.reported key.version with
    | error e => rfl
    | ok current =>
      have hmade : f.withoutCache.made c key b current = f.made c key b current := rfl
      have hlookup : (f.withoutCache.forget c.system current).lookup? key = none := by
        cases current <;> rfl
      simp only [hmade, hlookup]
      cases f.made c key b current <;> rfl

lemma accessorOn_withoutCache_of_keyed {key : CacheKey} {b : Bound}
    (hkeyed : f.keyedOn s c = .ok (key, b)) :
    f.withoutCache.accessorOn s c =
      s.reported key.version >>= f.made c key b := by
  rw [accessorOn_withoutCache, hkeyed]
  rfl

lemma accessorOn_withoutCache_of_reported {key : CacheKey} {b : Bound} {current : Option Value}
    (hkeyed : f.keyedOn s c = .ok (key, b))
    (hreported : s.reported key.version = .ok current) :
    f.withoutCache.accessorOn s c = f.made c key b current := by
  rw [accessorOn_withoutCache_of_keyed hkeyed, hreported]
  rfl

lemma identity_of_accessorOn {a : Accessor} (h : f.withoutCache.accessorOn s c = .ok a) :
    a.identity = c.identity := by
  rw [accessorOn_withoutCache] at h
  obtain ⟨⟨key, b⟩, _, h⟩ := Except.eq_ok_of_bind h
  obtain ⟨current, _, h⟩ := Except.eq_ok_of_bind h
  exact congrArg Accessor.identity (returns_of_made h).2

/-- A build that does not come to look for an entry fails with and without entries. -/
lemma accessorOn_cases (s : System) (f : Factory) (c : Build) :
    ((∃ e, f.accessorOn s c = .error e) ∧ ∃ e, f.withoutCache.accessorOn s c = .error e) ∨
      ∃ key b current, f.keyedOn s c = .ok (key, b) ∧
        s.reported key.version = .ok current := by
  have h := congrArg Prod.snd (requestOn_eq s f c)
  change f.accessorOn s c = _ at h
  rw [h, accessorOn_withoutCache]
  cases f.keyedOn s c with
  | error e => exact .inl ⟨⟨e, rfl⟩, ⟨e, rfl⟩⟩
  | ok keyed =>
    obtain ⟨key, b⟩ := keyed
    cases hreported : s.reported key.version with
    | error e =>
      refine .inl ⟨⟨e, ?_⟩, ⟨e, ?_⟩⟩
      · simp only [hreported]
      · simp only [bind, Except.bind, hreported]
    | ok current => exact .inr ⟨key, b, current, rfl, hreported⟩

/-- An entry of the factory after a build was there before, or is the accessor that the build gives
and that the factory without entries builds. -/
lemma mem_nextOn {entry : CacheKey × Accessor} (h : entry ∈ (f.nextOn s c).cache) :
    entry ∈ f.cache ∨ ∃ b, f.keyedOn s c = .ok (entry.1, b) ∧
      Extra.isHashable entry.1.version = true ∧ f.accessorOn s c = .ok entry.2 ∧
      f.withoutCache.accessorOn s c = .ok entry.2 := by
  have hnext := congrArg Prod.fst (requestOn_eq s f c)
  have hanswer := congrArg Prod.snd (requestOn_eq s f c)
  change f.nextOn s c = _ at hnext
  change f.accessorOn s c = _ at hanswer
  rw [hnext] at h
  cases hkeyed : f.keyedOn s c with
  | error e =>
    rw [hkeyed] at h
    exact .inl h
  | ok keyed =>
    obtain ⟨key, b⟩ := keyed
    rw [hkeyed] at h
    cases hreported : s.reported key.version with
    | error e =>
      simp only [hreported] at h
      exact .inl h
    | ok current =>
      simp only [hreported] at h
      split at h
      · exact .inl (mem_forget h)
      · rename_i hstorable
        split at h
        · exact .inl (mem_forget h)
        · exact .inl (mem_forget h)
        · rename_i a hlookup hmade
          split at h
          · rename_i hcaching
            rcases List.mem_append.1 h with h | h
            · exact .inl (mem_forget h)
            · rw [List.mem_singleton.1 h]
              refine .inr ⟨b, rfl, ?_, ?_, ?_⟩
              · simpa [hcaching] using hstorable
              · rw [hanswer, hkeyed]
                simp only [hreported, if_neg hstorable, hlookup, hmade]
              · rw [accessorOn_withoutCache_of_reported hkeyed hreported, hmade]
          · exact .inl (mem_forget h)

/-- An accessor that a build gives was kept under an equal key, or is the accessor that the factory
without entries builds. -/
lemma accessorOn_eq_ok {a : Accessor} (h : f.accessorOn s c = .ok a) :
    ∃ key b, f.keyedOn s c = .ok (key, b) ∧
      ((∃ k, (k, a) ∈ f.cache ∧ (k == key) = true) ∨
        f.withoutCache.accessorOn s c = .ok a) := by
  have haccessor := congrArg Prod.snd (requestOn_eq s f c)
  change f.accessorOn s c = _ at haccessor
  rw [haccessor] at h
  cases hkeyed : f.keyedOn s c with
  | error e =>
    rw [hkeyed] at h
    cases h
  | ok keyed =>
    obtain ⟨key, b⟩ := keyed
    refine ⟨key, b, rfl, ?_⟩
    rw [hkeyed] at h
    cases hreported : s.reported key.version with
    | error e =>
      simp only [hreported] at h
      cases h
    | ok current =>
      simp only [hreported] at h
      split at h
      · cases h
      · split at h
        · rename_i a' _ hlookup
          cases h
          unfold lookup? at hlookup
          split at hlookup
          · obtain ⟨k, hk, hsame⟩ := Assoc.mem_of_find? hlookup
            exact .inl ⟨k, mem_forget hk, hsame⟩
          · cases hlookup
        · cases h
        · rename_i a' _ hmade
          cases h
          right
          rw [accessorOn_withoutCache_of_reported hkeyed hreported, hmade]

lemma options_nextOn (s : System) (f : Factory) (c : Build) :
    (f.nextOn s c).isCaching = f.isCaching ∧
      (f.nextOn s c).withoutCache = f.withoutCache := by
  have hforget (current : Option Value) :
      (f.forget c.system current).withoutCache = f.withoutCache := by
    cases current <;> rfl
  have h := congrArg Prod.fst (requestOn_eq s f c)
  change f.nextOn s c = _ at h
  rw [h]
  cases f.keyedOn s c with
  | error e => exact ⟨rfl, rfl⟩
  | ok keyed =>
    obtain ⟨key, b⟩ := keyed
    cases hreported : s.reported key.version with
    | error e => simp only [hreported, and_self]
    | ok current =>
      simp only [hreported]
      split
      · exact ⟨isCaching_forget c.system current, hforget current⟩
      · split
        · exact ⟨isCaching_forget c.system current, hforget current⟩
        · exact ⟨isCaching_forget c.system current, hforget current⟩
        · split
          · exact ⟨isCaching_forget c.system current, hforget current⟩
          · exact ⟨isCaching_forget c.system current, hforget current⟩

section Caching

variable (hcaching : f.isCaching = true)
include hcaching

lemma accessorOn_of_reported {key : CacheKey} {b : Bound} {current : Option Value}
    (hkeyed : f.keyedOn s c = .ok (key, b))
    (hreported : s.reported key.version = .ok current) :
    f.accessorOn s c =
      if Extra.isHashable key.version then
        match Assoc.find? key (f.forget c.system current).cache with
        | some a => .ok a
        | none => f.withoutCache.accessorOn s c
      else .error (.fault .wrongType) := by
  have h := congrArg Prod.snd (requestOn_eq s f c)
  change f.accessorOn s c = _ at h
  rw [h, accessorOn_withoutCache, hkeyed]
  simp only [hreported, bind, Except.bind, hcaching, Bool.true_and, lookup?, isCaching_forget,
    if_true]
  cases Extra.isHashable key.version with
  | false => rfl
  | true =>
    cases Assoc.find? key (f.forget c.system current).cache with
    | some a => rfl
    | none => cases f.made c key b current <;> rfl

end Caching

end Factory
end NamedSlots
