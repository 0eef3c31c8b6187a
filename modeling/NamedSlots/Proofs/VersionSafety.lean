import NamedSlots.Proofs.SessionRun
import NamedSlots.Proofs.SlotReading

/-!
# Calls at another version

Versions are added and made current, accessors are built, shared and kept, and states are read and
written, in any order. A call that is not refused for its version is then a call on a state at the
version of the accessor, and the slots that it reads or writes are those that the tables of this
version assign to the symbols of its request.
-/

namespace NamedSlots

namespace Accessor

variable {a : Accessor} {s : System}

lemma get_of_getter {r : Reader} (hr : a.plan = .getter r) :
    a.get s = (do a.checkVersion s; r.read s.own) := by
  unfold get
  rw [hr]

lemma set_of_checked {w : Writer} (hw : a.plan = .setter w) (hcheck : a.checkVersion s = .ok ())
    (v : Value) :
    a.set s v =
      (((Storage.ofInterface s.own).writeAll (w.plan v).writes).1,
        ((Storage.ofInterface s.own).writeAll (w.plan v).writes).2 <|> (w.plan v).failure) := by
  unfold set
  simp only [hw, hcheck]

lemma set_of_refused {w : Writer} (hw : a.plan = .setter w) {failure : Failure}
    (hcheck : a.checkVersion s = .error failure) (v : Value) :
    a.set s v = (Storage.ofInterface s.own, some failure) := by
  unfold set
  simp only [hw, hcheck]

end Accessor

/-- A call that was refused since the state is at another version. -/
def Refused {α : Type} (result : Except Failure α) : Prop :=
  ∃ expected actual, result = .error (.versionMismatch expected actual)

/-- What was read is what a reader that serves the request gets from every problem state with the
same items in the slots of the reader, and the request uses these slots. -/
def ReadsSlots (tables : Except Failure Layout) (q : Request) (state : ProblemState)
    (result : Except Failure Value) : Prop :=
  ∃ r : Reader, r.Serves tables q ∧ (∀ slot ∈ r.slots, q.Uses tables slot) ∧
    ∀ (state' : ProblemState) (world : World) (k : Option Nat),
      state.AgreesOn r.slots state' → result = r.read (state'.toInterface world k)

/-- The storage of a problem state is changed by writes that a writer that serves the request
plans, up to the first that fails, and the request uses the slots that are written. -/
def WritesSlots (tables : Except Failure Layout) (q : Request) (v : Value) (h : Handle)
    (state : ProblemState) (s s' : Session) : Prop :=
  ∃ w : Writer, w.Serves tables q ∧
    (∀ write ∈ (w.plan v).writes, q.Uses tables (write.role, write.index)) ∧
      s' = { s with objects := s.objects.update h.identity (Step.written
        (Storage.writeAll ⟨.ok state.states, .ok state.parameters⟩ (w.plan v).writes).1) }

namespace Session

/-- A session over a fleet in which nothing has been built yet. -/
structure Opens (f : Fleet) (s : Session) : Prop where
  fleet : f.WellFormed
  objects : s.objects = f.objects
  accessors : s.accessors = []
  factories (k : Nat) (g : Factory) : (k, g) ∈ s.factories → g.cache = []

/-- The system behind a handle is at a version, as far as equality tells. -/
def IsAt (s : Session) (h : Handle) (v : Value) : Prop :=
  ∃ current, (System.of s.objects.world (.handle h)).currentVersion = .ok current ∧
    (current == v) = true

/-- An accessor is of the version that a build asks for, or else of the current version of the
system, and for the normal form of the request, as far as equality tells. -/
def Answers (s : Session) (owner : Option Value) (sys request version : Value) (a : Accessor)
    (v : Value) : Prop :=
  a.version = some v ∧
    (∃ wanted, (version ≠ .none ∧ version = wanted ∨
        version = .none ∧ (System.of s.objects.world sys).currentVersion = .ok wanted) ∧
      (v = wanted ∨ (v == wanted) = true)) ∧
    ∃ g normal, Step.ownerOf s owner = some g ∧ Request.ofValue g.classifier request = .ok normal ∧
      (a.request = normal ∨ (a.request == normal) = true)

/-- An accessor of a version is at hand. Its calls on problem states of the fleet, unless they are
refused for the version, are made on states at this version, and use the slots that the tables of
the version assign to the symbols of the request. -/
structure UsesSlotsOf (s : Session) (f : Fleet) (v acc : Value) (a : Accessor) : Prop where
  atHand : behind? s.accessors acc = some a
  get (r : Reader) (h : Handle) (state : ProblemState) : a.plan = .getter r →
    Assoc.find? h.identity f.states = some state →
    ¬ Refused ((Step.getThrough acc (.handle h)).run.run s).1 →
    s.IsAt h v ∧ ReadsSlots (f.layout.layoutAt v) a.request state
      ((Step.getThrough acc (.handle h)).run.run s).1
  set (w : Writer) (h : Handle) (state : ProblemState) (x : Value) : a.plan = .setter w →
    Assoc.find? h.identity f.states = some state →
    ¬ Refused ((Step.setThrough acc (.handle h) x).run.run s).1 →
    s.IsAt h v ∧ WritesSlots (f.layout.layoutAt v) a.request x h state s
      ((Step.setThrough acc (.handle h) x).run.run s).2

variable {f : Fleet} {s : Session}

lemma Opens.sound (hs : s.Opens f) : s.Sound f where
  fleet := hs.fleet
  objects := hs.objects
  accessors k a hmem := by
    rw [hs.accessors] at hmem
    cases hmem
  identities k a hmem := by
    rw [hs.accessors] at hmem
    cases hmem
  factories k g key a hg hmem := by
    rw [hs.factories k g hg] at hmem
    cases hmem
  kept k g key a hg hmem := by
    rw [hs.factories k g hg] at hmem
    cases hmem

namespace Sound

section Call

variable (hs : s.Sound f) {h : Handle} {state : ProblemState}
  (hstate : Assoc.find? h.identity f.states = some state) {a : Accessor} {v : Value}
  (hv : a.version = some v)
include hs hstate hv

/-- A problem state is at the version of an accessor, or the accessor refuses it. -/
lemma isAt_or_refused :
    (s.IsAt h v ∧ a.checkVersion (System.of s.objects.world (.handle h)) = .ok ()) ∨
      Refused (a.checkVersion (System.of s.objects.world (.handle h))) := by
  obtain ⟨world, hsystem, hworld⟩ := Fleet.system_of_state hs.fleet hstate
  obtain ⟨n, hmem, _⟩ := Assoc.mem_of_find? hstate
  rw [← hs.objects] at hsystem
  have hcheck := Fleet.checkVersion_state hs.fleet (k := some h.identity) hmem hworld hv
  rw [← hsystem] at hcheck
  by_cases hversion : (f.versionOf state == v) = true
  · rw [if_pos hversion] at hcheck
    refine .inl ⟨⟨f.versionOf state, ?_, hversion⟩, hcheck⟩
    rw [hsystem]
    exact Fleet.currentVersion_state hs.fleet hmem hworld
  · rw [if_neg hversion] at hcheck
    exact .inr ⟨v, f.versionOf state, hcheck⟩

end Call

section Access

variable (hs : s.Sound f) {acc : Value} {a : Accessor}
  (ha : behind? s.accessors acc = some a)
include hs ha

lemma exists_version :
    ∃ v, a.version = some v ∧ a.plan.Serves (f.layout.layoutAt v) a.request := by
  cases acc with
  | handle k =>
    obtain ⟨n, hmem, _⟩ := Assoc.mem_of_find? ha
    exact hs.accessors n a hmem
  | _ => cases ha

variable {h : Handle} {state : ProblemState}
  (hstate : Assoc.find? h.identity f.states = some state) {v : Value} (hv : a.version = some v)
  (hserves : a.plan.Serves (f.layout.layoutAt v) a.request)
include hstate hv hserves

lemma reads_of_get {r : Reader} (hr : a.plan = .getter r)
    (hcall : ¬ Refused ((Step.getThrough acc (.handle h)).run.run s).1) :
    s.IsAt h v ∧ ReadsSlots (f.layout.layoutAt v) a.request state
      ((Step.getThrough acc (.handle h)).run.run s).1 := by
  obtain ⟨world, hsystem, _⟩ := Fleet.system_of_state hs.fleet hstate
  rw [← hs.objects] at hsystem
  rw [Step.getThrough_run ha] at hcall ⊢
  rw [Accessor.get_of_getter hr] at hcall ⊢
  rw [hr] at hserves
  obtain ⟨hat, hcheck⟩ | ⟨e, w, hcheck⟩ := hs.isAt_or_refused hstate hv
  · refine ⟨hat, r, hserves, fun slot hslot => ?_, fun state' world' k hagrees => ?_⟩
    · exact Reader.Serves.uses a.request r hserves hslot
    · rw [hcheck, hsystem]
      exact Reader.Serves.read_congr a.request r hserves hagrees
  · rw [hcheck] at hcall
    exact absurd ⟨e, w, rfl⟩ hcall

lemma writes_of_set {w : Writer} (hw : a.plan = .setter w) (x : Value)
    (hcall : ¬ Refused ((Step.setThrough acc (.handle h) x).run.run s).1) :
    s.IsAt h v ∧ WritesSlots (f.layout.layoutAt v) a.request x h state s
      ((Step.setThrough acc (.handle h) x).run.run s).2 := by
  obtain ⟨world, hsystem, _⟩ := Fleet.system_of_state hs.fleet hstate
  rw [← hs.objects] at hsystem
  rw [hw] at hserves
  obtain ⟨hat, hcheck⟩ | ⟨e, actual, hcheck⟩ := hs.isAt_or_refused hstate hv
  · refine ⟨hat, w, hserves, fun write hwrite => ?_, ?_⟩
    · exact Writer.Serves.uses a.request w hserves x hwrite
    · have hset := Accessor.set_of_checked hw hcheck x
      rw [Step.setThrough_run ha hset, hsystem]
      rfl
  · have hset := Accessor.set_of_refused hw hcheck x
    rw [Step.setThrough_run ha hset] at hcall
    exact absurd ⟨e, actual, rfl⟩ hcall

end Access

lemma usesSlotsOf (hs : s.Sound f) {acc : Value} {a : Accessor}
    (ha : behind? s.accessors acc = some a) {v : Value} (hv : a.version = some v) :
    s.UsesSlotsOf f v acc a := by
  obtain ⟨_, hv', hserves⟩ := hs.exists_version ha
  cases hv.symm.trans hv'
  refine ⟨ha, fun r h state hr hstate hcall => ?_, fun w h state x hw hstate hcall => ?_⟩
  · exact hs.reads_of_get ha hstate hv hserves hr hcall
  · exact hs.writes_of_set ha hstate hv hserves hw x hcall

/-- A problem state is bound to the version that is asked for, or else to its current version. -/
lemma version_of_bound (hs : s.Sound f) {h : Handle}
    (hstate : f.HasState (.handle h)) {version : Value} {b : Bound}
    (hb : Bound.of (System.of s.objects.world (.handle h)) version = .ok b) :
    ∃ wanted, b.version = some wanted ∧ (version ≠ .none ∧ version = wanted ∨
      version = .none ∧ (System.of s.objects.world (.handle h)).currentVersion = .ok wanted) := by
  obtain ⟨hconstant, _⟩ | ⟨_, wanted, hne, rfl, hwanted⟩ := Bound.of_eq_ok hb
  · obtain ⟨_, hh, hstate⟩ := hstate
    cases hh
    obtain ⟨state, hstate⟩ := Option.isSome_iff_exists.1 hstate
    obtain ⟨world, hsystem, _⟩ := Fleet.system_of_state hs.fleet hstate
    rw [hs.objects, hsystem] at hconstant
    cases hconstant
  · refine ⟨wanted, rfl, ?_⟩
    rcases hwanted with hcurrent | rfl
    · exact .inr hcurrent
    · exact .inl ⟨hne, rfl⟩

section Build

variable (hs : s.Sound f) {owner : Option Value} {h : Handle} {p : Permission}
  {request version acc : Value} {a : Accessor}
  (hbuild : ((Step.build owner (.handle h) p request version).run.run s).1 = .ok (acc, a))
include hbuild

lemma exists_factory_of_build :
    ∃ g, Step.ownerOf s owner = some g ∧
      g.accessor s.objects ⟨s.nextIdentity, .handle h, p, request, version⟩ = .ok a ∧
      behind? ((Step.build owner (.handle h) p request version).run.run s).2.accessors acc =
        some a := by
  cases howner : Step.ownerOf s owner with
  | none =>
    rw [Step.build_run_none howner] at hbuild
    cases hbuild
  | some g =>
    cases hanswer : g.request s.nextIdentity (System.of s.objects.world (.handle h)) (.handle h) p
      request version with
    | mk g' answer =>
      obtain ⟨trace, result⟩ := answer
      rw [Step.build_run howner hanswer] at hbuild ⊢
      cases result with
      | error e => cases hbuild
      | ok a' =>
        cases hbuild
        refine ⟨g, rfl, ?_, Assoc.find?_put a.identity a s.accessors⟩
        exact congrArg (fun answer => answer.2.2) hanswer

include hs

lemma answers_of_build (hstate : f.HasState (.handle h)) :
    ∃ v, s.Answers owner (.handle h) request version a v := by
  obtain ⟨g, howner, haccessor, _⟩ := exists_factory_of_build hbuild
  obtain ⟨key, b, hkeyed, ha⟩ := Factory.accessorOn_eq_ok haccessor
  obtain ⟨hkey, hrequest, hb⟩ := Factory.keyedOn_eq_ok hkeyed
  obtain ⟨wanted, hbound, hwanted⟩ := hs.version_of_bound hstate hb
  have hversion : key.version = some wanted := (congrArg CacheKey.version hkey).trans hbound
  obtain ⟨k, hk, hsame⟩ | ha := ha
  · obtain ⟨n, hn⟩ := mem_of_ownerOf howner hk
    obtain ⟨⟨v, hv, _⟩, hkept, hkeptVersion⟩ := hs.factories n g k a hn hk
    obtain ⟨_, _, hequal, hversions⟩ := CacheKey.of_same hsame
    refine ⟨v, hv, ⟨wanted, hwanted, .inr ?_⟩, g, key.request, howner, hrequest, .inr ?_⟩
    · exact hversions v wanted (hkeptVersion.symm.trans hv) hversion
    · rw [hkept]
      exact hequal
  · rw [hs.objects] at hkeyed ha
    have hmade := soundEntry_of_accessor hs.fleet hstate hkeyed ha
    exact ⟨wanted, hmade.version.trans hversion, ⟨wanted, hwanted, .inl rfl⟩, g, key.request,
      howner, hrequest, .inl hmade.request⟩

end Build

end Sound

/-- No accessor uses an outdated slot. Let an accessor be built on a problem state after any moves,
and let any moves be made after it. The accessor answers the build; and when it is called then, it
reads and writes, unless it is refused for the version, only slots of the version for which it was
built, and this is the version of the state that it is called on. -/
theorem no_outdated_slot {f₀ : Fleet} {s₀ : Session} (hs₀ : s₀.Opens f₀) {container : Handle}
    (hcontainer : container.identity = f₀.container) {before after : List Move}
    {owner : Option Value} {h : Handle} {p : Permission} {request version acc : Value}
    {a : Accessor}
    (hmoves : ∀ m ∈ before ++ .build owner (.handle h) p request version :: after, m.Fits f₀)
    (hbuild : ((Step.build owner (.handle h) p request version).run.run
      (s₀.moves (.handle container) before)).1 = .ok (acc, a)) :
    ∃ v f, (s₀.moves (.handle container) before).Answers owner (.handle h) request version a v ∧
      f₀.Becomes f ∧
      (s₀.moves (.handle container)
        (before ++ .build owner (.handle h) p request version :: after)).objects = f.objects ∧
      (s₀.moves (.handle container)
        (before ++ .build owner (.handle h) p request version :: after)).UsesSlotsOf f v acc a := by
  have hbefore : ∀ m ∈ before, m.Fits f₀ := fun m hm => hmoves m (List.mem_append_left _ hm)
  obtain ⟨f₁, hbecomes₁, _, hs₁⟩ := hs₀.sound.moves hcontainer hbefore
  have hrest : ∀ m ∈ Move.build owner (.handle h) p request version :: after, m.Fits f₁ :=
    fun m hm => (hmoves m (List.mem_append_right _ hm)).of_becomes hbecomes₁
  have hstate : f₁.HasState (.handle h) := hrest _ List.mem_cons_self
  -- the accessor is at hand right after its build, and so it is later
  obtain ⟨v, hanswers⟩ := hs₁.answers_of_build hbuild hstate
  obtain ⟨_, _, _, hgiven⟩ := Sound.exists_factory_of_build hbuild
  obtain ⟨_, hs₂⟩ := hs₁.build (.handle container) owner p request version hstate
  obtain ⟨f, hbecomes, hkeeps, hs⟩ := hs₂.moves (hcontainer.trans hbecomes₁.container.symm)
    fun m hm => hrest m (List.mem_cons_of_mem _ hm)
  rw [moves_append, moves_cons]
  refine ⟨v, f, hanswers, hbecomes₁.trans hbecomes, hs.objects, hs.usesSlotsOf ?_ hanswers.1⟩
  rw [← discard_state] at hgiven
  exact hkeeps.behind hgiven

/-! ### A state whose layout grows -/

namespace Growth

def version (n : Int) : Value := .number (.int n)

def container : Handle := ⟨0, "VersionedSymbolCache", "VersionedSymbolCache"⟩

def state : Handle := ⟨1, "ProblemState", "ProblemState"⟩

def factory : Value := .handle ⟨2, "AccessorFactory", "AccessorFactory"⟩

def getter : Value := .handle ⟨3, "Getter", "Getter"⟩

/-- A state that follows a layout with one version, in which x has the first slot. -/
def fleet : Fleet where
  states := [(1, ⟨.handle container, .list [.number (.int 5)], .list [], .none, .none⟩)]
  container := 0
  layout := { structures := [(version 0, ⟨⟨[("x", .text "x")]⟩, {}⟩)], current := version 0 }

def session : Session where
  objects := fleet.objects
  factories := [(2, {})]
  nextIdentity := 3

def build : Move := .build (some factory) (.handle state) .readAny (.text "x") .none

/-- A version in which x has the second slot. -/
def grow : Move := .addVersion (version 1) [.list [.text "y", .text "x"]]

def accessor : Accessor :=
  ⟨3, .getter (.state (.int 0)), .symbol "x" (.text "x"), some (version 0)⟩

lemma opens_session : session.Opens fleet where
  fleet := {
    other := by
      intro k s hmem
      cases List.mem_singleton.1 hmem
      decide
    system := by
      intro k s hmem
      cases List.mem_singleton.1 hmem
      exact ⟨container, rfl, rfl⟩
    pinned := by
      intro k s hmem
      cases List.mem_singleton.1 hmem
      rfl
    declared := nofun
    current := rfl }
  objects := rfl
  accessors := rfl
  factories := by
    intro k g hmem
    cases List.mem_singleton.1 hmem
    rfl

lemma fits_moves : ∀ m ∈ [] ++ build :: [grow, .setCurrent (version 0)], m.Fits fleet := by
  intro m hm
  rcases List.mem_cons.1 hm with rfl | hm
  · exact ⟨state, rfl, rfl⟩
  · rcases List.mem_cons.1 hm with rfl | hm
    · exact nofun
    · cases List.mem_singleton.1 hm
      exact nofun

end Growth

/-- A getter of a state is refused once its layout has grown, and reads again after a return to the
version for which it was built. -/
theorem no_outdated_slot_growth :
    Refused ((Step.getThrough Growth.getter (.handle Growth.state)).run.run
      (Growth.session.moves (.handle Growth.container) [Growth.build, Growth.grow])).1 ∧
    ((Step.getThrough Growth.getter (.handle Growth.state)).run.run
      (Growth.session.moves (.handle Growth.container)
        [Growth.build, Growth.grow, .setCurrent (Growth.version 0)])).1 = .ok (.number (.int 5)) ∧
    ∃ f, Growth.fleet.Becomes f ∧
      (Growth.session.moves (.handle Growth.container)
        [Growth.build, Growth.grow, .setCurrent (Growth.version 0)]).UsesSlotsOf f
          (Growth.version 0) Growth.getter Growth.accessor := by
  refine ⟨⟨Growth.version 0, Growth.version 1, rfl⟩, rfl, ?_⟩
  obtain ⟨v, f, hanswers, hbecomes, _, huses⟩ :=
    no_outdated_slot Growth.opens_session
      (rfl : Growth.container.identity = Growth.fleet.container) Growth.fits_moves
      (rfl : ((Step.build (some Growth.factory) (.handle Growth.state) .readAny (.text "x")
        .none).run.run (Growth.session.moves (.handle Growth.container) [])).1 =
          .ok (Growth.getter, Growth.accessor))
  cases hanswers.1
  exact ⟨f, hbecomes, huses⟩

end Session

end NamedSlots
