import NamedSlots.Access.Accessor
import NamedSlots.Proofs.AssocLookup
import NamedSlots.Proofs.StateSystem

/-!
# Problem states over one versioned layout

A fleet is a versioned layout with problem states that leave resolution to it. Each of them is at
its pinned version, or else at the current version of the layout. No change of the layout touches
the slot tables of a version that was declared before.
-/

namespace NamedSlots

namespace VersionedLayout

/-- Every layout that one versioned layout has, the other has too. -/
def Extends (l l' : VersionedLayout) : Prop :=
  ∀ v t, l.layoutAt v = .ok t → l'.layoutAt v = .ok t

variable {l l' : VersionedLayout} {version : Value}

lemma Extends.refl (l : VersionedLayout) : l.Extends l := fun _ _ h => h

lemma Extends.trans {l'' : VersionedLayout} (h : l.Extends l') (h' : l'.Extends l'') :
    l.Extends l'' := fun v t ht => h' v t (h v t ht)

lemma isHashableClass_of_checkVersion (h : checkVersion version = .ok ()) :
    version.isHashableClass = true := by
  unfold checkVersion at h
  cases hv : version.isHashableClass with
  | true => rfl
  | false =>
    rw [hv] at h
    cases h

lemma layoutAt_eq_ok_iff {t : Layout} :
    l.layoutAt version = .ok t ↔ checkVersion version = .ok () ∧
      ∃ s, Assoc.find? version l.structures = some s ∧
        t = ⟨s.states, s.parameters, l.independent, l.observed⟩ := by
  unfold layoutAt
  constructor
  · intro h
    obtain ⟨_, hcheck, h⟩ := Except.eq_ok_of_bind h
    cases hs : Assoc.find? version l.structures with
    | none =>
      rw [hs] at h
      cases h
    | some s =>
      rw [hs] at h
      cases h
      exact ⟨hcheck, s, rfl, rfl⟩
  · rintro ⟨hcheck, s, hs, rfl⟩
    rw [hcheck, hs]
    rfl

/-- A version is added if it is new and both of its tables can be made. -/
lemma addVersion_eq_ok_iff {states parameters : Value} :
    l.addVersion version states parameters = .ok l' ↔
      checkVersion version = .ok () ∧ Assoc.find? version l.structures = none ∧
        ∃ s : Structure, SlotTable.ofSymbols "variable" states.declared = .ok s.states ∧
          SlotTable.ofSymbols "parameter" parameters.declared = .ok s.parameters ∧
          l' = { l with structures := l.structures ++ [(version, s)], current := version } := by
  unfold addVersion
  constructor
  · intro h
    obtain ⟨_, hcheck, h⟩ := Except.eq_ok_of_bind h
    split at h
    · cases h
    · rename_i hnew
      obtain ⟨s, hs, h⟩ := Except.eq_ok_of_bind h
      obtain ⟨p, hp, h⟩ := Except.eq_ok_of_bind h
      cases h
      have hnone : Assoc.find? version l.structures = none := by
        simpa [Assoc.contains] using hnew
      exact ⟨hcheck, hnone, ⟨s, p⟩, hs, hp, rfl⟩
  · rintro ⟨hcheck, hnone, s, hs, hp, rfl⟩
    have hnew : Assoc.contains l.structures version = false := by
      rw [Assoc.contains, hnone]
      rfl
    rw [hcheck, hs, hp, hnew]
    rfl

lemma setCurrent_eq_ok_iff :
    l.setCurrent version = .ok l' ↔
      (∃ t, l.layoutAt version = .ok t) ∧ l' = { l with current := version } := by
  unfold setCurrent
  constructor
  · intro h
    obtain ⟨t, ht, h⟩ := Except.eq_ok_of_bind h
    cases h
    exact ⟨⟨t, ht⟩, rfl⟩
  · rintro ⟨⟨t, ht⟩, rfl⟩
    rw [ht]
    rfl

/-- A new version is current, and the others keep their tables. -/
lemma addVersion_eq_ok {states parameters : Value}
    (h : l.addVersion version states parameters = .ok l') :
    l'.current = version ∧ version.isHashableClass = true ∧ l.Extends l' := by
  obtain ⟨hcheck, _, s, _, _, rfl⟩ := addVersion_eq_ok_iff.1 h
  refine ⟨rfl, isHashableClass_of_checkVersion hcheck, fun v t ht => ?_⟩
  obtain ⟨hv, s, hs, ht⟩ := layoutAt_eq_ok_iff.1 ht
  exact layoutAt_eq_ok_iff.2 ⟨hv, s, Assoc.find?_append hs _, ht⟩

lemma setCurrent_eq_ok (h : l.setCurrent version = .ok l') :
    l'.current = version ∧ version.isHashableClass = true ∧ l.Extends l' := by
  obtain ⟨⟨t, ht⟩, rfl⟩ := setCurrent_eq_ok_iff.1 h
  have hcheck := (layoutAt_eq_ok_iff.1 ht).1
  refine ⟨rfl, isHashableClass_of_checkVersion hcheck, fun v t ht => ?_⟩
  have hdeclared := layoutAt_eq_ok_iff.1 ht
  exact layoutAt_eq_ok_iff.2 hdeclared

end VersionedLayout

/-- A versioned layout with problem states, each with its identity. -/
structure Fleet where
  states : List (Nat × ProblemState)
  container : Nat
  layout : VersionedLayout

namespace Fleet

def objects (f : Fleet) : Objects :=
  f.states.map (fun (k, s) => (k, .state s)) ++ [(f.container, .versioned f.layout)]

/-- The states belong to the layout, their versions are possible keys, and a version is current. -/
structure WellFormed (f : Fleet) : Prop where
  other (k : Nat) (s : ProblemState) : (k, s) ∈ f.states → k ≠ f.container
  system (k : Nat) (s : ProblemState) : (k, s) ∈ f.states →
    ∃ h, s.system = .handle h ∧ h.identity = f.container
  pinned (k : Nat) (s : ProblemState) : (k, s) ∈ f.states → s.version.isHashableClass = true
  declared : f.layout.current ≠ .none
  current : f.layout.current.isHashableClass = true

/-- A value refers to a problem state of a fleet. -/
def HasState (f : Fleet) (v : Value) : Prop :=
  ∃ h, v = .handle h ∧ (Assoc.find? h.identity f.states).isSome

def versionOf (f : Fleet) (s : ProblemState) : Value :=
  match s.version with
  | .none => f.layout.current
  | version => version

def containerInterface (f : Fleet) : Interface := .ofVersionedLayout f.layout (some f.container)

variable {f : Fleet}

lemma interfaceAt_container (hother : ∀ k s, (k, s) ∈ f.states → k ≠ f.container) :
    f.objects.interfaceAt f.container = f.containerInterface := by
  obtain ⟨states, container, layout⟩ := f
  induction states with
  | nil =>
    change (if container = container then _ else _) = _
    rw [if_pos rfl]
    rfl
  | cons entry states ih =>
    obtain ⟨k, s⟩ := entry
    have hk : k ≠ container := hother k s List.mem_cons_self
    change (if k = container then _ else _) = _
    rw [if_neg hk]
    exact ih fun k s hmem => hother k s (List.mem_cons_of_mem _ hmem)

lemma interfaceAt_state (hother : ∀ k s, (k, s) ∈ f.states → k ≠ f.container) {k : Nat}
    {s : ProblemState} (hs : Assoc.find? k f.states = some s) :
    ∃ world : World, f.objects.interfaceAt k = s.toInterface world (some k) ∧
      ∀ h : Handle, h.identity = f.container → world (.handle h) = f.containerInterface := by
  obtain ⟨states, container, layout⟩ := f
  induction states with
  | nil => cases hs
  | cons entry states ih =>
    obtain ⟨n, newest⟩ := entry
    have hrest : ∀ k s, (k, s) ∈ states → k ≠ container :=
      fun k s hmem => hother k s (List.mem_cons_of_mem _ hmem)
    by_cases hn : n = k
    · subst hn
      rw [Assoc.find?, if_pos (beq_self_eq_true n)] at hs
      cases hs
      refine ⟨_, if_pos rfl, fun h hh => ?_⟩
      subst hh
      exact interfaceAt_container (f := ⟨states, h.identity, layout⟩) hrest
    · rw [Assoc.find?, if_neg (by simp only [beq_iff_eq, hn, not_false_eq_true])] at hs
      obtain ⟨world, hworld⟩ := ih hrest hs
      exact ⟨world, (if_neg hn).trans hworld.1, hworld.2⟩

variable (hf : f.WellFormed)
include hf

lemma find?_objects_container : Assoc.find? f.container f.objects = some (.versioned f.layout) := by
  obtain ⟨states, container, layout⟩ := f
  have hother := hf.other
  clear hf
  induction states with
  | nil => exact if_pos (beq_self_eq_true container)
  | cons entry states ih =>
    have hk : ¬ (entry.1 == container) = true := by
      rw [beq_iff_eq]
      exact hother entry.1 entry.2 List.mem_cons_self
    exact (if_neg hk).trans (ih fun k s hmem => hother k s (List.mem_cons_of_mem _ hmem))

omit hf in
lemma find?_objects_state {k : Nat} {s : ProblemState} (hs : Assoc.find? k f.states = some s) :
    Assoc.find? k f.objects = some (.state s) := by
  have hmap := Assoc.find?_map (fun _ s => SystemObject.state s) k f.states
  rw [hs] at hmap
  exact Assoc.find?_append hmap _

lemma system_of_state {h : Handle} {s : ProblemState}
    (hs : Assoc.find? h.identity f.states = some s) :
    ∃ world : World, System.of f.objects.world (.handle h) =
        ⟨s.toInterface world (some h.identity), f.containerInterface⟩ ∧
      world s.system = f.containerInterface := by
  obtain ⟨world, hinterface, hworld⟩ := interfaceAt_state hf.other hs
  obtain ⟨key, hmem, hkey⟩ := Assoc.mem_of_find? hs
  obtain ⟨k, hsystem, hk⟩ := hf.system key s hmem
  have hown : f.objects.world (.handle h) = s.toInterface world (some h.identity) := by
    rw [Objects.world_handle (find?_objects_state hs), hinterface]
  refine ⟨world, ?_, by rw [hsystem]; exact hworld k hk⟩
  have hcontainer : f.objects.world (.handle k) = f.containerInterface := by
    have hfind : Assoc.find? k.identity f.objects = some (.versioned f.layout) := by
      rw [hk]
      exact find?_objects_container hf
    rw [Objects.world_handle hfind, hk, interfaceAt_container hf.other]
  unfold System.of System.containerValue
  rw [hown]
  change System.mk _ (f.objects.world s.system) = _
  rw [hsystem, hcontainer]

lemma currentVersion_state {world : World} {s : ProblemState} {k : Option Nat} {n : Nat}
    (hmem : (n, s) ∈ f.states) (hworld : world s.system = f.containerInterface) :
    System.currentVersion ⟨s.toInterface world k, f.containerInterface⟩ =
      .ok (f.versionOf s) := by
  have hhashable : (f.versionOf s).isHashableClass = true := by
    unfold versionOf
    split
    · exact hf.current
    · exact hf.pinned n s hmem
  have hstate : s.currentVersion world = .ok (f.versionOf s) := by
    have hcurrent : f.containerInterface.currentVersion = .method (.ok f.layout.current) := by
      change Attribute.method (if f.layout.current.isHashableClass then _ else _) = _
      rw [hf.current]
      rfl
    unfold ProblemState.currentVersion versionOf
    rw [hworld, hcurrent]
    cases s.version with
    | none =>
      change (if f.layout.current.isHashableClass then _ else _) = _
      rw [hf.current]
      rfl
    | _ => rfl
  unfold System.currentVersion
  change (do
    let version ← s.currentVersion world
    if version.isHashableClass then return version else failWith .badResult) = _
  rw [hstate]
  change (if (f.versionOf s).isHashableClass then _ else _) = _
  rw [hhashable]
  rfl

lemma versionOf_ne_none (s : ProblemState) : f.versionOf s ≠ .none := by
  unfold versionOf
  split
  · exact hf.declared
  · assumption

omit hf in
lemma answeredBy (f : Fleet) (i : Interface) (hi : i.provider = .absent) :
    System.AnsweredBy ⟨i, f.containerInterface⟩ (Interface.withVersion f.layout.layoutAt) where
  predicate := rfl
  index := rfl
  symbols := rfl
  definitions := rfl
  ownProvider := hi
  provider := rfl

/-- A call is let through exactly if the state is at the version of the accessor. -/
lemma checkVersion_state {world : World} {s : ProblemState} {k : Option Nat} {n : Nat}
    (hmem : (n, s) ∈ f.states) (hworld : world s.system = f.containerInterface) {a : Accessor}
    {v : Value} (hv : a.version = some v) :
    a.checkVersion ⟨s.toInterface world k, f.containerInterface⟩ =
      if f.versionOf s == v then .ok () else .error (.versionMismatch v (f.versionOf s)) := by
  unfold Accessor.checkVersion
  rw [hv]
  simp only [currentVersion_state hf hmem hworld]
  change (match f.versionOf s with
    | .none => _
    | actual => _) = _
  have hne := versionOf_ne_none hf s
  cases hs : f.versionOf s with
  | none => exact absurd hs hne
  | _ => rfl

/-! ### Changes of a fleet -/

/-- A fleet whose states are still there and whose layout still has the tables that it had. -/
structure Becomes (f f' : Fleet) : Prop where
  container : f'.container = f.container
  layout : f.layout.Extends f'.layout
  states (k : Nat) : (Assoc.find? k f.states).isSome → (Assoc.find? k f'.states).isSome

omit hf in
lemma Becomes.refl (f : Fleet) : f.Becomes f := ⟨rfl, .refl f.layout, fun _ h => h⟩

omit hf in
lemma Becomes.trans {f' f'' : Fleet} (h : f.Becomes f') (h' : f'.Becomes f'') : f.Becomes f'' where
  container := h'.container.trans h.container
  layout := h.layout.trans h'.layout
  states k hk := h'.states k (h.states k hk)

def withLayout (f : Fleet) (l : VersionedLayout) : Fleet := { f with layout := l }

lemma update_container (l : VersionedLayout) :
    f.objects.update f.container (fun _ => .versioned l) = (f.withLayout l).objects := by
  have hstates : Objects.update (f.states.map fun (k, s) => (k, .state s)) f.container
      (fun _ => .versioned l) = f.states.map fun (k, s) => (k, .state s) := by
    unfold Objects.update
    rw [List.map_map]
    apply List.map_congr_left
    rintro ⟨k, s⟩ hmem
    exact if_neg (hf.other k s hmem)
  have hlast : Objects.update [(f.container, .versioned f.layout)] f.container
      (fun _ => .versioned l) = [(f.container, .versioned l)] := by
    exact congrArg (fun entry => [entry]) (if_pos rfl)
  unfold Objects.update at hstates hlast ⊢
  unfold objects withLayout
  rw [List.map_append, hstates, hlast]

lemma wellFormed_withLayout {l : VersionedLayout} (hdeclared : l.current ≠ .none)
    (hcurrent : l.current.isHashableClass = true) : (f.withLayout l).WellFormed where
  other := hf.other
  system := hf.system
  pinned := hf.pinned
  declared := hdeclared
  current := hcurrent

omit hf in
lemma becomes_withLayout {l : VersionedLayout} (h : f.layout.Extends l) :
    f.Becomes (f.withLayout l) := ⟨rfl, h, fun _ hk => hk⟩

def mapStates (f : Fleet) (g : Nat → ProblemState → ProblemState) : Fleet :=
  { f with states := f.states.map fun (k, s) => (k, g k s) }

omit hf in
lemma becomes_mapStates (g : Nat → ProblemState → ProblemState) : f.Becomes (f.mapStates g) := by
  refine ⟨rfl, .refl f.layout, fun k hk => ?_⟩
  change (Assoc.find? k (f.states.map fun (k, s) => (k, g k s))).isSome
  rw [Assoc.find?_map, Option.isSome_map]
  exact hk

lemma wellFormed_mapStates {g : Nat → ProblemState → ProblemState}
    (hsystem : ∀ k s, (g k s).system = s.system) (hversion : ∀ k s, (g k s).version = s.version) :
    (f.mapStates g).WellFormed where
  other k s hmem := by
    obtain ⟨⟨_, s'⟩, hmem', heq⟩ := List.mem_map.1 hmem
    cases heq
    exact hf.other k s' hmem'
  system k s hmem := by
    obtain ⟨⟨_, s'⟩, hmem', heq⟩ := List.mem_map.1 hmem
    cases heq
    rw [hsystem]
    exact hf.system k s' hmem'
  pinned k s hmem := by
    obtain ⟨⟨_, s'⟩, hmem', heq⟩ := List.mem_map.1 hmem
    cases heq
    rw [hversion]
    exact hf.pinned k s' hmem'
  declared := hf.declared
  current := hf.current

end Fleet
end NamedSlots
