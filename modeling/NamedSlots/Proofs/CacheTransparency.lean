import NamedSlots.Proofs.AssocLookup
import NamedSlots.Proofs.FactoryRun
import NamedSlots.Proofs.RequestSpelling
import NamedSlots.Proofs.StateSystem

/-!
# When kept accessors cannot be told from new ones

A factory that keeps accessors answers a build as a factory that keeps nothing, whatever was built
before, exactly if no earlier build with an equal key has an accessor that behaves differently.
Over layouts that is so for builds that are spelled alike. It is not so for all builds: keys are
equal for expressions that differ in the sign of a zero.
-/

namespace NamedSlots

open Traced (Yields yields_pure yields_lift yields_lift_bind)

/-- Two attempts to get an accessor: both fail, or both give accessors that behave the same on
every object. -/
def SameAccess : Except Failure Accessor → Except Failure Accessor → Prop
  | .ok a, .ok a' => ∀ s, a.get s = a'.get s ∧ ∀ v, a.set s v = a'.set s v
  | .error _, .error _ => True
  | _, _ => False

namespace SameAccess

lemma refl (x : Except Failure Accessor) : SameAccess x x := by
  cases x with
  | error e => trivial
  | ok a => exact fun s => ⟨rfl, fun v => rfl⟩

lemma of_plan {a a' : Accessor} (hplan : a.plan = a'.plan) (hversion : a.version = a'.version) :
    SameAccess (.ok a) (.ok a') := by
  obtain ⟨identity, plan, request, version⟩ := a
  obtain ⟨identity', plan', request', version'⟩ := a'
  cases hplan
  cases hversion
  exact fun s => ⟨rfl, fun v => rfl⟩

end SameAccess

namespace Factory

/-- After a history of builds, a build gives what it gives from a factory that keeps nothing. -/
def Transparent (objects : Objects) (f : Factory) (history : List Build) (c : Build) : Prop :=
  SameAccess ((f.after objects history).accessor objects c) (f.withoutCache.accessor objects c)

/-- A build whose version can be part of a key, or that fails in any case. -/
def Storable (objects : Objects) (f : Factory) (c : Build) : Prop :=
  ∀ key b, f.keyed objects c = .ok (key, b) →
    Extra.isHashable key.version = true ∨ ∃ e, f.withoutCache.accessor objects c = .error e

/-- An earlier build whose entry answers a later one: the keys are equal, and the entry is not
dropped as outdated. -/
def Meets (objects : Objects) (f : Factory) (r c : Build) : Prop :=
  ∃ key b key' b' current, f.keyed objects r = .ok (key, b) ∧ f.keyed objects c = .ok (key', b') ∧
    (key == key') = true ∧ Extra.isHashable key.version = true ∧
    Extra.isHashable key'.version = true ∧ (c.target objects).reported key'.version = .ok current ∧
    ∀ v, current = some v → (key.version.getD .none == v) = true

/-- Builds at the very same version with alike requests. -/
def SpelledAlike (objects : Objects) (f : Factory) (r c : Build) : Prop :=
  ∀ key b key' b', f.keyed objects r = .ok (key, b) → f.keyed objects c = .ok (key', b') →
    key.version = key'.version ∧ key.request.Alike key'.request

section Builds

variable {objects : Objects} {f : Factory} {r c : Build} {history : List Build}

lemma made_eq_ok_iff {key : CacheKey} {b : Bound} {current : Option Value} {a : Accessor} :
    f.made c key b current = .ok a ↔
      ∃ plan t, (planFor f.backend b key.permission key.request).success
          (noteTrace key.version current) = some (plan, t) ∧
        a = ⟨c.identity, plan, key.request, key.version⟩ := by
  unfold made Traced.success
  rcases (planFor f.backend b key.permission key.request).run.run (noteTrace key.version current) with
    ⟨e | plan, t⟩
  · constructor
    · intro h
      cases h
    · rintro ⟨plan, t, h, -⟩
      cases h
  · constructor
    · intro h
      cases h
      exact ⟨plan, t, rfl, rfl⟩
    · rintro ⟨plan', t', h, rfl⟩
      cases h
      rfl

/-- An earlier build that is spelled alike has an accessor that behaves as a new one. -/
lemma sameAccess_of_spelledAlike (hr : objects.HoldsState r.system) (hc : objects.HoldsState c.system)
    (hmeets : f.Meets objects r c) (hspelled : f.SpelledAlike objects r c) {a : Accessor}
    (ha : f.withoutCache.accessor objects r = .ok a) :
    SameAccess (.ok a) (f.withoutCache.accessor objects c) := by
  obtain ⟨key, b, key', b', current, hkeyed, hkeyed', hsame, _, _, hreported, _⟩ := hmeets
  obtain ⟨hversion, halike⟩ := hspelled key b key' b' hkeyed hkeyed'
  obtain ⟨hsystem, hpermission, rfl⟩ := bound_of_keyedOn hkeyed
  obtain ⟨hsystem', hpermission', rfl⟩ := bound_of_keyedOn hkeyed'
  obtain ⟨hobject, hpermissions, _⟩ := CacheKey.of_same hsame
  rw [hsystem, hsystem'] at hobject
  have htarget : r.target objects = c.target objects := hr.system_eq hc hobject
  obtain ⟨layoutAt, hanswered⟩ := hc.answeredBy
  have hreported' : (r.target objects).reported key.version = .ok current := by
    rw [htarget, hversion, hreported]
  have hmade := (accessorOn_withoutCache_of_reported hkeyed hreported').symm.trans ha
  obtain ⟨plan, t, hplan, rfl⟩ := made_eq_ok_iff.1 hmade
  have hplan' : (planFor f.backend ⟨c.target objects, key'.version⟩ key'.permission
      key'.request).success (noteTrace key'.version current) = some (plan, t) := by
    rw [← planFor_congr hanswered f.backend key'.permission halike, ← hpermissions, ← hversion,
      ← htarget]
    exact hplan
  have huncached : f.withoutCache.accessor objects c = _ :=
    accessorOn_withoutCache_of_reported hkeyed' hreported
  rw [huncached, made_eq_ok_iff.2 ⟨plan, t, hplan', rfl⟩]
  exact SameAccess.of_plan rfl hversion

/-- A build that is answered in the same way after every history has a version that can be part
of a key, or fails. -/
lemma storable_of_transparent (hcaching : f.isCaching = true)
    (h : f.Transparent objects [] c) : f.Storable objects c := by
  intro key b hkeyed
  unfold Transparent at h
  change SameAccess (f.accessor objects c) _ at h
  obtain ⟨-, huncached⟩ | ⟨key', b', current, hkeyed', hreported⟩ :=
    accessorOn_cases (c.target objects) f c
  · exact .inr huncached
  · cases hkeyed.symm.trans hkeyed'
    have hanswer : f.accessor objects c = _ := accessorOn_of_reported hcaching hkeyed hreported
    rw [hanswer] at h
    cases hhashable : Extra.isHashable key.version with
    | true => exact .inl rfl
    | false =>
      simp only [hhashable, Bool.false_eq_true, if_false] at h
      cases huncached : f.withoutCache.accessor objects c with
      | error e => exact .inr ⟨e, rfl⟩
      | ok a =>
        rw [huncached] at h
        exact h.elim

section Caching

variable (hcaching : f.isCaching = true) (hempty : f.cache = [])
include hcaching hempty

/-- What is kept cannot be told from what is new if no entry that answers behaves differently. -/
lemma transparent_of_entries (hstorable : f.Storable objects c)
    (h : ∀ r ∈ history, f.Meets objects r c → ∀ a, f.withoutCache.accessor objects r = .ok a →
      SameAccess (.ok a) (f.withoutCache.accessor objects c)) :
    f.Transparent objects history c := by
  obtain ⟨hafter, hwithout⟩ := options_after objects f history
  unfold Transparent
  obtain ⟨⟨e, he⟩, ⟨e', he'⟩⟩ | ⟨key, b, current, hkeyed, hreported⟩ :=
    accessorOn_cases (c.target objects) (f.after objects history) c
  · rw [hwithout] at he'
    change SameAccess (accessorOn _ _ c) (accessorOn _ _ c)
    rw [he, he']
    trivial
  · have hanswer : (f.after objects history).accessor objects c = _ :=
      accessorOn_of_reported (hafter.trans hcaching) hkeyed hreported
    rw [hanswer, hwithout]
    replace hkeyed := (keyed_after f history c).symm.trans hkeyed
    cases hhashable : Extra.isHashable key.version with
    | false =>
      obtain hkey | ⟨e, he⟩ := hstorable key b hkeyed
      · rw [hkey] at hhashable
        cases hhashable
      · rw [he]
        trivial
    | true =>
      simp only [if_true]
      cases hfind : Assoc.find? key ((f.after objects history).forget c.system current).cache with
      | none => exact SameAccess.refl _
      | some a =>
        obtain ⟨key', hentry, hsame⟩ := Assoc.mem_of_find? hfind
        obtain ⟨r, hr, b', hkeyed', hhashable', ha⟩ :=
          mem_after hempty (mem_forget hentry)
        refine h r hr ⟨key', b', key, b, current, hkeyed', hkeyed, hsame, hhashable', hhashable,
          hreported, ?_⟩ a ha
        rintro v rfl
        have hsystem := (CacheKey.of_same hsame).1
        rw [(bound_of_keyedOn hkeyed).1] at hsystem
        exact version_of_mem_forget hentry hsystem

lemma cache_next {key : CacheKey} {b : Bound} {a : Accessor}
    (hkeyed : f.keyed objects r = .ok (key, b)) (hhashable : Extra.isHashable key.version = true)
    (ha : f.withoutCache.accessor objects r = .ok a) :
    (f.next objects r).cache = [(key, a)] := by
  have huncached := (accessorOn_withoutCache_of_keyed hkeyed).symm.trans ha
  obtain ⟨current, hreported, hmade⟩ := Except.eq_ok_of_bind huncached
  have hforget : (f.forget r.system current).cache = [] := by
    cases current with
    | none => exact hempty
    | some current =>
      change f.cache.filter _ = []
      rw [hempty]
      rfl
  have hlookup : (f.forget r.system current).lookup? key = none := by
    unfold lookup?
    rw [hforget]
    exact ite_self _
  have hkeyed' : f.keyedOn (r.target objects) r = .ok (key, b) := hkeyed
  have h := congrArg Prod.fst (requestOn_eq (r.target objects) f r)
  change f.next objects r = _ at h
  rw [h, hkeyed']
  simp only [hreported, hcaching, hhashable, hlookup, hmade, hforget, Bool.not_true, Bool.and_false,
    Bool.false_eq_true, if_false, if_true, List.nil_append]

lemma accessor_after_of_meets (hmeets : f.Meets objects r c) {a : Accessor}
    (ha : f.withoutCache.accessor objects r = .ok a) :
    (f.after objects [r]).accessor objects c = .ok a := by
  obtain ⟨key, b, key', b', current, hkeyed, hkeyed', hsame, hhashable, hhashable', hreported,
    hversion⟩ := hmeets
  have hcache : (f.after objects [r]).cache = [(key, a)] :=
    cache_next hcaching hempty hkeyed hhashable ha
  have hkept : ((f.after objects [r]).forget c.system current).cache = [(key, a)] := by
    cases current with
    | none => exact hcache
    | some v =>
      change (f.after objects [r]).cache.filter _ = _
      rw [hcache]
      simp only [List.filter, hversion v rfl, Bool.not_true, Bool.and_false, Bool.not_false]
  rw [← keyed_after f [r] c] at hkeyed'
  have hanswer : (f.after objects [r]).accessor objects c = _ :=
    accessorOn_of_reported ((options_after objects f [r]).1.trans hcaching) hkeyed' hreported
  rw [hanswer, hkept]
  simp only [hhashable', if_true, Assoc.find?, hsame]

end Caching

end Builds

/-- A factory that keeps accessors cannot be told from one that keeps nothing exactly if no build
meets an earlier one of other behaviour; and builds that are spelled alike behave alike. -/
theorem transparent_iff {objects : Objects} {f : Factory} (hcaching : f.isCaching = true)
    (hempty : f.cache = []) {c : Build} (hc : objects.HoldsState c.system) :
    ((∀ history, (∀ r ∈ history, objects.HoldsState r.system) → f.Transparent objects history c) ↔
        f.Storable objects c ∧
          ∀ r, objects.HoldsState r.system → f.Meets objects r c →
            ∀ a, f.withoutCache.accessor objects r = .ok a →
              SameAccess (.ok a) (f.withoutCache.accessor objects c)) ∧
      ∀ history, (∀ r ∈ history, objects.HoldsState r.system) → f.Storable objects c →
        (∀ r ∈ history, f.Meets objects r c → f.SpelledAlike objects r c) →
          f.Transparent objects history c := by
  refine ⟨⟨fun h => ⟨?_, fun r hr hmeets a ha => ?_⟩, fun ⟨hstorable, h⟩ history hhistory => ?_⟩,
    fun history hhistory hstorable hspelled => ?_⟩
  · exact storable_of_transparent hcaching (h [] nofun)
  · have htransparent := h [r] fun r' hr' => by
      rw [List.mem_singleton.1 hr']
      exact hr
    unfold Transparent at htransparent
    rw [accessor_after_of_meets hcaching hempty hmeets ha] at htransparent
    exact htransparent
  · exact transparent_of_entries hcaching hempty hstorable fun r hr => h r (hhistory r hr)
  · refine transparent_of_entries hcaching hempty hstorable fun r hr hmeets a ha => ?_
    exact sameAccess_of_spelledAlike (hhistory r hr) hc hmeets (hspelled r hr hmeets) ha

namespace SignedZero

def state : ProblemState := ⟨.handle ⟨0, "SymbolCache", "SymbolCache"⟩, .list [], .list [], .none, .none⟩

/-- A problem state without slots, over an empty layout. -/
def objects : Objects := [(1, .state state), (0, .layout {})]

def getter (x : Float) : Build :=
  ⟨2, .handle ⟨1, "ProblemState", "ProblemState"⟩, .readAny, .expr (.constant x), .none⟩

def key (x : Float) : CacheKey := ⟨(getter x).system, .readAny, .expression (.constant x), none⟩

lemma holdsState (x : Float) : objects.HoldsState (getter x).system :=
  ⟨_, _, state, rfl, rfl, rfl, .inl ⟨{}, rfl⟩⟩

lemma keyed (x : Float) :
    ({} : Factory).keyed objects (getter x) = .ok (key x, ⟨(getter x).target objects, none⟩) := rfl

lemma storable (x : Float) : ({} : Factory).Storable objects (getter x) := by
  intro key b h
  cases (keyed x).symm.trans h
  exact .inl rfl

lemma spelledAlike (x : Float) : ({} : Factory).SpelledAlike objects (getter x) (getter x) := by
  intro key b key' b' h h'
  cases (keyed x).symm.trans h
  cases (keyed x).symm.trans h'
  exact ⟨rfl, rfl⟩

/-- Zeros of either sign have equal keys. -/
lemma meets_zero : ({} : Factory).Meets objects (getter 0.0) (getter (-0.0)) :=
  ⟨key 0.0, _, key (-0.0), _, none, keyed 0.0, keyed (-0.0), by decide, rfl, rfl, rfl, nofun⟩

def bound : Bound := ⟨System.of objects.world (.handle ⟨1, "ProblemState", "ProblemState"⟩), none⟩

def evaluator (x : Float) : Evaluator := ⟨.constant x, {}, false, none, none⟩

lemma compile_constant (x : Float) :
    Yields (Evaluator.compile bound (.constant x) .interpreter) (.ok (evaluator x)) := by
  have hbind : bound.bind false (.constant x) = pure {} := by
    unfold Bound.bind
    exact Bound.bindAll.eq_1 ..
  have htime : bound.isTimeDependent = .ok false := rfl
  refine yields_lift_bind htime (Yields.bind_ok ?_ (yields_pure (evaluator x)))
  rw [hbind]
  exact yields_pure _

lemma planFor_constant (x : Float) :
    Yields (planFor .interpreter bound .readAny (.expression (.constant x)))
      (.ok (.getter (.expression (evaluator x)))) := by
  have hreader : Yields (Reader.ofRequest bound .interpreter .readAny (.expression (.constant x)))
      (.ok (.expression (evaluator x))) :=
    (compile_constant x).bind_ok (yields_lift_bind rfl (yields_lift _))
  exact hreader.bind_ok (yields_pure _)

lemma accessor_getter (x : Float) :
    ∃ a, ({} : Factory).withoutCache.accessor objects (getter x) = .ok a ∧
      ∀ s, a.get s = .ok (.number (.real x)) := by
  refine ⟨⟨2, .getter (.expression (evaluator x)), .expression (.constant x), none⟩, ?_, fun s => rfl⟩
  have hreported : ((getter x).target objects).reported (key x).version = .ok none := rfl
  exact (accessorOn_withoutCache_of_reported (keyed x) hreported).trans
    (made_of_yields (planFor_constant x))

lemma zero_ne : Value.number (.real 0.0) ≠ .number (.real (-0.0)) := by
  intro h
  injection h with h
  injection h with h
  have hsign : Number.isNegative 0.0 = Number.isNegative (-0.0) := congrArg Number.isNegative h
  exact absurd hsign (by decide)

end SignedZero

/-- A getter of zero that is built again after itself cannot be told from a new one. -/
theorem transparent_zero :
    ({} : Factory).Transparent SignedZero.objects [SignedZero.getter 0.0] (SignedZero.getter 0.0) := by
  refine (transparent_iff rfl rfl (SignedZero.holdsState 0.0)).2 _ ?_ (SignedZero.storable 0.0) ?_
  · intro r hr
    rw [List.mem_singleton.1 hr]
    exact SignedZero.holdsState 0.0
  · intro r hr _
    rw [List.mem_singleton.1 hr]
    exact SignedZero.spelledAlike 0.0

/-- A getter of negative zero that is built after a getter of zero reads zero. -/
theorem not_transparent_negative_zero :
    SignedZero.objects.HoldsState (SignedZero.getter (-0.0)).system ∧
      ¬ ({} : Factory).Transparent SignedZero.objects [SignedZero.getter 0.0]
        (SignedZero.getter (-0.0)) := by
  refine ⟨SignedZero.holdsState (-0.0), fun h => ?_⟩
  obtain ⟨a, ha, hread⟩ := SignedZero.accessor_getter 0.0
  obtain ⟨a', ha', hread'⟩ := SignedZero.accessor_getter (-0.0)
  unfold Transparent at h
  rw [accessor_after_of_meets rfl rfl SignedZero.meets_zero ha, ha'] at h
  have hsame := (h ((SignedZero.getter 0.0).target SignedZero.objects)).1
  rw [hread, hread'] at hsame
  exact SignedZero.zero_ne (Except.ok.inj hsame)

end Factory
end NamedSlots
