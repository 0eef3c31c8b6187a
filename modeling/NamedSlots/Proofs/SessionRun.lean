import Mathlib.Tactic.Choose
import NamedSlots.Proofs.FactoryRun
import NamedSlots.Proofs.Fleet
import NamedSlots.Proofs.ServedPlan
import NamedSlots.Proofs.SessionStep

/-!
# Runs of a session over one fleet

The layout of a fleet gets versions and changes its current one, accessors are built for the
states, from factories or without one, and they are called on states, in any order. Whatever was
done, every accessor at hand and every entry of a factory serves its request by the tables of its
own version.
-/

namespace NamedSlots

open Traced

/-- What is done with a fleet. -/
inductive Move
  | addVersion (version : Value) (tables : List Value)
  | setCurrent (version : Value)
  | build (owner : Option Value) (sys : Value) (p : Permission) (request version : Value)
  | get (acc obj : Value)
  | set (acc obj v : Value)

namespace Move

def step (container : Value) : Move → Step Unit
  | addVersion version tables => do
    let _ ← Step.callMethod container "add_version" (version :: tables)
  | setCurrent version => do
    let _ ← Step.callMethod container "set_current_version" [version]
  | build owner sys p request version => do
    let _ ← Step.build owner sys p request version
  | get acc obj => do
    let _ ← Step.getThrough acc obj
  | set acc obj v => Step.setThrough acc obj v

/-- Versions are not none, and accessors are built for states of the fleet. -/
def Fits (f : Fleet) : Move → Prop
  | addVersion version _ => version ≠ .none
  | setCurrent version => version ≠ .none
  | build _ sys _ _ _ => f.HasState sys
  | _ => True

lemma Fits.of_becomes {f f' : Fleet} (h : f.Becomes f') {m : Move} (hm : m.Fits f) : m.Fits f' := by
  cases m with
  | build owner sys p request version =>
    obtain ⟨k, hsys, hk⟩ := hm
    exact ⟨k, hsys, h.states k.identity hk⟩
  | _ => exact hm

end Move

/-- The session after a move; what was done before a failure stays done. -/
def Session.move (container : Value) (s : Session) (m : Move) : Session :=
  ((m.step container).run.run s).2

def Session.moves (container : Value) (s : Session) (ms : List Move) : Session :=
  ms.foldl (Session.move container) s

lemma Session.moves_append (container : Value) (s : Session) (ms ms' : List Move) :
    s.moves container (ms ++ ms') = (s.moves container ms).moves container ms' :=
  List.foldl_append

lemma Session.moves_cons (container : Value) (s : Session) (m : Move) (ms : List Move) :
    s.moves container (m :: ms) = (s.move container m).moves container ms := rfl

/-- An accessor of a version whose plan serves its request by the tables of that version. -/
def Accessor.Sound (l : VersionedLayout) (a : Accessor) : Prop :=
  ∃ v, a.version = some v ∧ a.plan.Serves (l.layoutAt v) a.request

lemma Accessor.Sound.mono {l l' : VersionedLayout} (h : l.Extends l') {a : Accessor}
    (ha : a.Sound l) : a.Sound l' := by
  obtain ⟨v, hv, hserves⟩ := ha
  exact ⟨v, hv, hserves.mono (h v)⟩

/-- An entry whose accessor is sound and was built for the key. -/
structure Factory.SoundEntry (l : VersionedLayout) (key : CacheKey) (a : Accessor) : Prop where
  sound : a.Sound l
  request : a.request = key.request
  version : a.version = key.version

/-- A session with a fleet in which every accessor, at hand or kept by a factory, is sound, and
those that are kept are at hand. -/
structure Session.Sound (f : Fleet) (s : Session) : Prop where
  fleet : f.WellFormed
  objects : s.objects = f.objects
  accessors (k : Nat) (a : Accessor) : (k, a) ∈ s.accessors → a.Sound f.layout
  identities (k : Nat) (a : Accessor) : (k, a) ∈ s.accessors → k < s.nextIdentity
  factories (k : Nat) (g : Factory) (key : CacheKey) (a : Accessor) :
    (k, g) ∈ s.factories → (key, a) ∈ g.cache → Factory.SoundEntry f.layout key a
  kept (k : Nat) (g : Factory) (key : CacheKey) (a : Accessor) :
    (k, g) ∈ s.factories → (key, a) ∈ g.cache → Assoc.find? a.identity s.accessors = some a

/-- Every accessor that is at hand in one session is at hand in another one. -/
def Session.Keeps (s s' : Session) : Prop :=
  ∀ k a, Assoc.find? k s.accessors = some a → Assoc.find? k s'.accessors = some a

lemma Session.Keeps.refl (s : Session) : s.Keeps s := fun _ _ h => h

lemma Session.Keeps.trans {s s' s'' : Session} (h : s.Keeps s') (h' : s'.Keeps s'') : s.Keeps s'' :=
  fun k a ha => h' k a (h k a ha)

lemma Session.Keeps.behind {s s' : Session} (h : s.Keeps s') {acc : Value} {a : Accessor}
    (ha : Session.behind? s.accessors acc = some a) : Session.behind? s'.accessors acc = some a := by
  cases acc with
  | handle k => exact h k.identity a ha
  | _ => cases ha

section Build

variable {f : Fleet} (hf : f.WellFormed)
include hf

lemma soundEntry_of_accessor {g : Factory} {c : Build} {key : CacheKey} {b : Bound} {a : Accessor}
    (hc : f.HasState c.system)
    (hkeyed : g.keyed f.objects c = .ok (key, b))
    (ha : g.withoutCache.accessor f.objects c = .ok a) :
    Factory.SoundEntry f.layout key a := by
  obtain ⟨h, hsystem, hstate⟩ := hc
  obtain ⟨s, hs⟩ := Option.isSome_iff_exists.1 hstate
  obtain ⟨world, htarget, _⟩ := Fleet.system_of_state hf hs
  have huncached := (Factory.accessorOn_withoutCache_of_keyed hkeyed).symm.trans ha
  obtain ⟨current, _, hmade⟩ := Except.eq_ok_of_bind huncached
  obtain ⟨hplan, ha⟩ := Factory.returns_of_made hmade
  have hrequest : a.request = key.request := congrArg Accessor.request ha
  have hversion : a.version = key.version := congrArg Accessor.version ha
  have hof := (Factory.keyedOn_eq_ok hkeyed).2.2
  obtain ⟨_, _, rfl⟩ := Factory.bound_of_keyedOn hkeyed
  have htarget' : c.target f.objects =
      ⟨s.toInterface world (some h.identity), f.containerInterface⟩ := by
    unfold Build.target
    rw [hsystem, htarget]
  rw [htarget'] at hof hplan
  obtain ⟨hconstant, _⟩ | ⟨_, v, _, hb, _⟩ := Bound.of_eq_ok hof
  · cases hconstant
  · have hv : key.version = some v := congrArg Bound.version hb
    rw [hv] at hplan
    have hserves := serves_of_planFor (Fleet.answeredBy f _ rfl) hplan
    rw [← hrequest] at hserves
    exact ⟨⟨v, hversion.trans hv, hserves⟩, hrequest, hversion⟩

/-- A factory whose entries are sound gives sound accessors to states of a fleet, and keeps sound
entries. -/
lemma sound_of_build {g : Factory} {c : Build}
    (hc : f.HasState c.system)
    (hg : ∀ key a, (key, a) ∈ g.cache → Factory.SoundEntry f.layout key a) :
    (∀ a, g.accessor f.objects c = .ok a → a.Sound f.layout) ∧
      ∀ key a, (key, a) ∈ (g.next f.objects c).cache → Factory.SoundEntry f.layout key a := by
  constructor
  · intro a ha
    obtain ⟨key, b, hkeyed, ⟨k, hk, _⟩ | ha⟩ := Factory.accessorOn_eq_ok ha
    · exact (hg k a hk).sound
    · exact (soundEntry_of_accessor hf hc hkeyed ha).sound
  · intro key a hmem
    obtain hmem | ⟨b, hkeyed, _, _, ha⟩ := Factory.mem_nextOn hmem
    · exact hg key a hmem
    · exact soundEntry_of_accessor hf hc hkeyed ha

end Build

/-! ### What one move preserves -/

lemma discard_run {α : Type} (x : Step α) (s : Session) :
    (do let _ ← x : Step Unit).run.run s = ((x.run.run s).1.map fun _ => (), (x.run.run s).2) := by
  rw [run_bind]
  rcases x.run.run s with ⟨e | a, t⟩ <;> rfl

lemma discard_state {α : Type} (x : Step α) (s : Session) :
    ((do let _ ← x : Step Unit).run.run s).2 = (x.run.run s).2 := by
  rw [discard_run]

namespace Session.Sound

variable {f : Fleet} {s : Session}

lemma withLayout (hs : s.Sound f) {l : VersionedLayout} (hdeclared : l.current ≠ .none)
    (hcurrent : l.current.isHashableClass = true) (hextends : f.layout.Extends l) :
    Sound (f.withLayout l)
      { s with objects := s.objects.update f.container fun _ => .versioned l } where
  fleet := Fleet.wellFormed_withLayout hs.fleet hdeclared hcurrent
  objects := by
    rw [← Fleet.update_container hs.fleet, hs.objects]
  accessors k a hmem := (hs.accessors k a hmem).mono hextends
  identities := hs.identities
  factories k g key a hg hmem := by
    obtain ⟨hsound, hrequest, hversion⟩ := hs.factories k g key a hg hmem
    exact ⟨hsound.mono hextends, hrequest, hversion⟩
  kept := hs.kept

/-- A method that makes a version current, of a layout that keeps those it had. -/
lemma callMethod (hs : s.Sound f) {container : Handle} (hcontainer : container.identity = f.container)
    {version : Value} (hversion : version ≠ .none) {name : String} {args : List Value}
    (hquery : Query.named? name = none) (hprovider : (name == Query.provider.name) = false)
    (hversions : (name == "versions") = false)
    (hchange : ∀ l, SystemObject.changeLayout f.layout name args = some (.ok l) →
      l.current = version ∧ version.isHashableClass = true ∧ f.layout.Extends l) :
    ∃ f', f.Becomes f' ∧ s.Keeps ((Step.callMethod (.handle container) name args).run.run s).2 ∧
      ((Step.callMethod (.handle container) name args).run.run s).2.Sound f' := by
  have hfind : Assoc.find? container.identity s.objects = some (.versioned f.layout) := by
    rw [hs.objects, hcontainer]
    exact Fleet.find?_objects_container hs.fleet
  obtain h | ⟨l, hl, h⟩ := Step.callMethod_run hfind hquery hprovider hversions args
  · rw [h]
    exact ⟨f, .refl f, .refl s, hs⟩
  · obtain ⟨rfl, hhashable, hextends⟩ := hchange l hl
    rw [h, hcontainer]
    exact ⟨f.withLayout l, Fleet.becomes_withLayout hextends, .refl s,
      hs.withLayout hversion hhashable hextends⟩

lemma changeLayout_addVersion {l l' : VersionedLayout} {version : Value} {tables : List Value}
    (h : SystemObject.changeLayout l "add_version" (version :: tables) = some (.ok l')) :
    l'.current = version ∧ version.isHashableClass = true ∧ l.Extends l' := by
  rcases tables with _ | ⟨states, _ | ⟨parameters, _ | ⟨other, tables⟩⟩⟩
  · exact VersionedLayout.addVersion_eq_ok (Option.some.inj h)
  · exact VersionedLayout.addVersion_eq_ok (Option.some.inj h)
  · exact VersionedLayout.addVersion_eq_ok (Option.some.inj h)
  · cases h

lemma addVersion (hs : s.Sound f) {container : Handle} (hcontainer : container.identity = f.container)
    {version : Value} (hversion : version ≠ .none) (tables : List Value) :
    ∃ f', f.Becomes f' ∧ s.Keeps (s.move (.handle container) (.addVersion version tables)) ∧
      (s.move (.handle container) (.addVersion version tables)).Sound f' := by
  unfold Session.move
  rw [Move.step, discard_state]
  exact hs.callMethod hcontainer hversion rfl rfl rfl fun _ => changeLayout_addVersion

lemma setCurrent (hs : s.Sound f) {container : Handle} (hcontainer : container.identity = f.container)
    {version : Value} (hversion : version ≠ .none) :
    ∃ f', f.Becomes f' ∧ s.Keeps (s.move (.handle container) (.setCurrent version)) ∧
      (s.move (.handle container) (.setCurrent version)).Sound f' := by
  unfold Session.move
  rw [Move.step, discard_state]
  exact hs.callMethod hcontainer hversion rfl rfl rfl fun _ hl =>
    VersionedLayout.setCurrent_eq_ok (Option.some.inj hl)

lemma mem_of_ownerOf {owner : Option Value} {g : Factory} (hg : Step.ownerOf s owner = some g)
    {key : CacheKey} {a : Accessor} (hmem : (key, a) ∈ g.cache) : ∃ k, (k, g) ∈ s.factories := by
  cases owner with
  | none =>
    cases hg
    cases hmem
  | some v =>
    cases v with
    | handle h =>
      obtain ⟨k, hk, _⟩ := Assoc.mem_of_find? hg
      exact ⟨k, hk⟩
    | _ => cases hg

lemma mem_factories_built {owner : Option Value} {g' : Factory} {trace : Trace}
    {result : Except Failure Accessor} {k : Nat} {g : Factory}
    (h : (k, g) ∈ (Step.built s owner (g', trace, result)).factories) :
    (k, g) ∈ s.factories ∨ g = g' := by
  cases owner with
  | none => exact .inl h
  | some v =>
    cases v with
    | handle h' =>
      obtain ⟨⟨n, old⟩, hold, heq⟩ := List.mem_map.1 h
      cases heq
      by_cases hn : k = h'.identity
      · exact .inr (if_pos hn)
      · left
        rw [if_neg hn]
        exact hold
    | _ => exact .inl h

lemma mem_accessors_built {owner : Option Value} {g' : Factory} {trace : Trace}
    {result : Except Failure Accessor} {k : Nat} {a : Accessor}
    (h : (k, a) ∈ (Step.built s owner (g', trace, result)).accessors) :
    (k, a) ∈ s.accessors ∨ k = a.identity ∧ result = .ok a := by
  cases result with
  | error e => exact .inl h
  | ok a' =>
    obtain h | heq := Assoc.mem_put h
    · exact .inl h
    · cases heq
      exact .inr ⟨rfl, rfl⟩

/-- An accessor that a build gives was at hand before, or has a new identity. -/
lemma find?_or_new (hs : s.Sound f) {owner : Option Value} {g : Factory}
    (hg : Step.ownerOf s owner = some g) {objects : Objects} {c : Build} {a : Accessor}
    (ha : g.accessor objects c = .ok a) :
    Assoc.find? a.identity s.accessors = some a ∨ a.identity = c.identity := by
  obtain ⟨_, _, _, ⟨key, hkey, _⟩ | ha⟩ := Factory.accessorOn_eq_ok ha
  · obtain ⟨k, hk⟩ := mem_of_ownerOf hg hkey
    exact .inl (hs.kept k g key a hk hkey)
  · exact .inr (Factory.identity_of_accessorOn ha)

/-- An accessor that is put at hand takes the place of no other one. -/
lemma find?_put (hs : s.Sound f) {a : Accessor}
    (ha : Assoc.find? a.identity s.accessors = some a ∨ a.identity = s.nextIdentity) {k : Nat}
    {a' : Accessor} (h : Assoc.find? k s.accessors = some a') :
    Assoc.find? k (Assoc.put a.identity a s.accessors) = some a' := by
  by_cases hk : a.identity = k
  · subst hk
    rw [Assoc.find?_put]
    rcases ha with ha | ha
    · rw [← ha, h]
    · obtain ⟨n, hmem, hn⟩ := Assoc.mem_of_find? h
      have hlt := hs.identities n a' hmem
      rw [eq_of_beq hn, ha] at hlt
      exact absurd hlt (Nat.lt_irrefl _)
  · rw [Assoc.find?_put_of_ne hk, h]

lemma build_cases (s : Session) (container : Value) (owner : Option Value) (sys : Value)
    (p : Permission) (request version : Value) :
    s.move container (.build owner sys p request version) = s ∨
      ∃ g trace, Step.ownerOf s owner = some g ∧
        s.move container (.build owner sys p request version) =
          Step.built s owner
            (g.next s.objects ⟨s.nextIdentity, sys, p, request, version⟩, trace,
              g.accessor s.objects ⟨s.nextIdentity, sys, p, request, version⟩) := by
  unfold Session.move
  rw [Move.step, discard_state]
  cases howner : Step.ownerOf s owner with
  | none =>
    left
    rw [Step.build_run_none howner]
  | some g =>
    right
    refine ⟨g, (g.request s.nextIdentity (System.of s.objects.world sys) sys p request version).2.1,
      rfl, ?_⟩
    rw [Step.build_run howner rfl]
    rfl

lemma build (hs : s.Sound f) (container : Value) (owner : Option Value) {sys : Value}
    (p : Permission) (request version : Value)
    (hsys : f.HasState sys) :
    s.Keeps (s.move container (.build owner sys p request version)) ∧
      (s.move container (.build owner sys p request version)).Sound f := by
  obtain h | ⟨g, trace, howner, h⟩ := build_cases s container owner sys p request version
  · rw [h]
    exact ⟨.refl s, hs⟩
  · rw [h]
    let c : Build := ⟨s.nextIdentity, sys, p, request, version⟩
    have hentries (key : CacheKey) (a : Accessor) (hmem : (key, a) ∈ g.cache) :
        Factory.SoundEntry f.layout key a := by
      obtain ⟨k, hk⟩ := mem_of_ownerOf howner hmem
      exact hs.factories k g key a hk hmem
    obtain ⟨hgiven, hkept⟩ := sound_of_build hs.fleet (c := c) hsys hentries
    rw [← hs.objects] at hgiven hkept
    have hkeeps : s.Keeps (Step.built s owner (g.next s.objects c, trace, g.accessor s.objects c)) := by
      intro k a hk
      cases ha : g.accessor s.objects c with
      | error e => exact hk
      | ok a' => exact hs.find?_put (hs.find?_or_new howner ha) hk
    refine ⟨hkeeps, hs.fleet, hs.objects, fun k a hmem => ?_, fun k a hmem => ?_,
      fun k g' key a hfactory hmem => ?_, fun k g' key a hfactory hmem => ?_⟩
    · obtain hmem | ⟨_, ha⟩ := mem_accessors_built hmem
      · exact hs.accessors k a hmem
      · exact hgiven a ha
    · change k < s.nextIdentity + 1
      obtain hmem | ⟨rfl, ha⟩ := mem_accessors_built hmem
      · have hlt := hs.identities k a hmem
        omega
      · obtain hfind | hnew := hs.find?_or_new howner ha
        · obtain ⟨n, hmem, hn⟩ := Assoc.mem_of_find? hfind
          have hlt := hs.identities n a hmem
          have hidentity : n = a.identity := eq_of_beq hn
          omega
        · have hidentity : a.identity = s.nextIdentity := hnew
          omega
    · obtain hold | rfl := mem_factories_built hfactory
      · exact hs.factories k g' key a hold hmem
      · exact hkept key a hmem
    · obtain hold | rfl := mem_factories_built hfactory
      · exact hkeeps a.identity a (hs.kept k g' key a hold hmem)
      · obtain hmem | ⟨_, _, _, ha, _⟩ := Factory.mem_nextOn hmem
        · obtain ⟨n, hn⟩ := mem_of_ownerOf howner hmem
          exact hkeeps a.identity a (hs.kept n g key a hn hmem)
        · have hanswer : g.accessor s.objects c = .ok a := ha
          rw [hanswer]
          exact Assoc.find?_put a.identity a s.accessors

lemma update_storage (f : Fleet) {change : SystemObject → SystemObject}
    (hchange : Step.StorageOnly change) (k : Nat) :
    ∃ g : Nat → ProblemState → ProblemState, (∀ n p, (g n p).system = p.system) ∧
      (∀ n p, (g n p).version = p.version) ∧ f.objects.update k change = (f.mapStates g).objects := by
  choose u v huv using hchange.state
  refine ⟨fun n p => if n = k then { p with states := u p, parameters := v p } else p, ?_, ?_, ?_⟩
  · intro n p
    dsimp only
    split <;> rfl
  · intro n p
    dsimp only
    split <;> rfl
  · unfold Objects.update Fleet.objects Fleet.mapStates
    rw [List.map_append, List.map_map, List.map_map, List.map_singleton]
    congr 1
    · apply List.map_congr_left
      rintro ⟨n, p⟩ -
      dsimp only [Function.comp]
      split
      · rw [huv]
      · rfl
    · dsimp only
      rw [hchange.versioned, ite_self]

lemma set (hs : s.Sound f) (container acc obj v : Value) :
    ∃ f', f.Becomes f' ∧ s.Keeps (s.move container (.set acc obj v)) ∧
      (s.move container (.set acc obj v)).Sound f' := by
  unfold Session.move
  rw [Move.step]
  obtain h | ⟨k, change, hchange, h⟩ := Step.setThrough_state s acc obj v
  · rw [h]
    exact ⟨f, .refl f, .refl s, hs⟩
  · obtain ⟨g, hsystem, hversion, hupdate⟩ := update_storage f hchange k
    rw [h]
    refine ⟨f.mapStates g, Fleet.becomes_mapStates g, .refl s, ?_, ?_, hs.accessors, hs.identities,
      hs.factories, hs.kept⟩
    · exact Fleet.wellFormed_mapStates hs.fleet hsystem hversion
    · rw [← hupdate, hs.objects]

/-- A move that fits the fleet leaves a sound session, with all accessors still at hand. -/
lemma move (hs : s.Sound f) {container : Handle} (hcontainer : container.identity = f.container)
    {m : Move} (hm : m.Fits f) :
    ∃ f', f.Becomes f' ∧ s.Keeps (s.move (.handle container) m) ∧
      (s.move (.handle container) m).Sound f' := by
  cases m with
  | addVersion version tables => exact hs.addVersion hcontainer hm tables
  | setCurrent version => exact hs.setCurrent hcontainer hm
  | build owner sys p request version =>
    exact ⟨f, .refl f, hs.build (.handle container) owner p request version hm⟩
  | get acc obj =>
    have hsame : s.move (.handle container) (.get acc obj) = s := by
      unfold Session.move
      rw [Move.step, discard_state, Step.getThrough_state]
    rw [hsame]
    exact ⟨f, .refl f, .refl s, hs⟩
  | set acc obj v => exact hs.set (.handle container) acc obj v

/-- Moves that fit the fleet leave a sound session, in whatever order they are made. -/
lemma moves (hs : s.Sound f) {container : Handle} (hcontainer : container.identity = f.container)
    {ms : List Move} (hms : ∀ m ∈ ms, m.Fits f) :
    ∃ f', f.Becomes f' ∧ s.Keeps (s.moves (.handle container) ms) ∧
      (s.moves (.handle container) ms).Sound f' := by
  induction ms generalizing f s with
  | nil => exact ⟨f, .refl f, .refl s, hs⟩
  | cons m ms ih =>
    obtain ⟨f', hbecomes, hkeeps, hs'⟩ := hs.move hcontainer (hms m List.mem_cons_self)
    have hrest : ∀ m ∈ ms, m.Fits f' := fun m hm =>
      (hms m (List.mem_cons_of_mem _ hm)).of_becomes hbecomes
    obtain ⟨f'', hbecomes', hkeeps', hs''⟩ :=
      ih hs' (hcontainer.trans hbecomes.container.symm) hrest
    exact ⟨f'', hbecomes.trans hbecomes', hkeeps.trans hkeeps', hs''⟩

end Session.Sound

end NamedSlots
