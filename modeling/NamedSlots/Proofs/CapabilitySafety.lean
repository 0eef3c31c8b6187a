import NamedSlots.Proofs.OfferedMethods
import NamedSlots.Proofs.OperatorFailure
import NamedSlots.Proofs.RejectedWrite

/-!
# Capabilities that are missing

A missing capability shows when an accessor is built. A call that comes after it uses storage
methods that the object offers, asks no other, and never fails because a method is missing, as long
as the object's own methods do not claim so. The methods of the objects of a session do not.
-/

namespace NamedSlots

/-! ### Methods that answer -/

/-- The methods of an object do not report that something is missing: not the time, once it is
offered, nor the current version or a provider. -/
structure Interface.HasSoundMethods (i : Interface) : Prop where
  currentTime : i.Offers .currentTime → ∀ t, i.currentTime = .method t → Avoids Failure.isAbsence t
  currentVersion : ∀ v, i.currentVersion = .method v → Avoids Failure.isAbsence v
  provider : ∀ f, i.provider = .method f → ∀ symbol extra g, f symbol extra = .ok (some g) →
    ∀ u p t, Avoids Failure.isAbsence (g u p t)

lemma Attribute.exists_of_isMethod {α : Type} {a : Attribute α} (h : a.isMethod = true) :
    ∃ f, a = .method f := by
  obtain ⟨f, hf⟩ := Option.isSome_iff_exists.1 h
  exact ⟨f, Attribute.eq_method hf⟩

lemma Attribute.avoids_invoke {α : Type} {a : Attribute α} (h : a.isMethod = true) :
    Avoids Failure.isAbsence a.invoke := by
  obtain ⟨f, rfl⟩ := exists_of_isMethod h
  exact avoids_pure f

namespace Interface

variable {i : Interface}

lemma Offers.avoids_storage {role : Role} (h : i.Offers (storageMethod role)) :
    Avoids Failure.isAbsence (i.storage role) := by
  unfold storageMethod at h
  unfold storage
  split at h
  · rename_i hrole
    rw [if_pos hrole]
    exact Attribute.avoids_invoke h
  · rename_i hrole
    rw [if_neg hrole]
    exact Attribute.avoids_invoke h

lemma HasSoundMethods.avoids_currentTimeValue (hi : i.HasSoundMethods)
    (h : i.Offers .currentTime) : Avoids Failure.isAbsence i.currentTimeValue := by
  obtain ⟨t, ht⟩ := Attribute.exists_of_isMethod h.1
  unfold currentTimeValue
  rw [ht]
  exact hi.currentTime h t ht

lemma avoids_ifUsed {isUsed : Bool} {v : Except Failure Value}
    (h : isUsed = true → Avoids Failure.isAbsence v) :
    Avoids Failure.isAbsence (ifUsed isUsed v) := by
  cases isUsed with
  | false => exact avoids_pure _
  | true => exact h rfl

end Interface

namespace System

variable {s : System} (hown : s.own.HasSoundMethods) (hcontainer : s.container.HasSoundMethods)
include hown hcontainer

lemma avoids_currentVersion : Avoids Failure.isAbsence s.currentVersion := by
  unfold currentVersion
  have hhashable (v : Value) : Avoids Failure.isAbsence
      (if v.isHashableClass then return v else failWith .badResult : Except Failure Value) := by
    grind
  dsimp only
  split
  · exact (hown.currentVersion _ ‹_›).bind hhashable
  · exact (hcontainer.currentVersion _ ‹_›).bind hhashable
  · exact avoids_pure _

lemma Gives.avoids {g : Provider} (hg : s.Gives g) (u p : Value) (t : Option Value) :
    Avoids Failure.isAbsence (g u p t) := by
  obtain ⟨i, hi, f, symbol, extra, hf, hsome⟩ := hg
  rcases List.mem_pair.1 hi with rfl | rfl
  · exact hown.provider f hf symbol extra g hsome u p t
  · exact hcontainer.provider f hf symbol extra g hsome u p t

end System

/-! ### Calls within reach -/

namespace Reader

section Read

variable {i : Interface}

mutual

lemma avoids_read (hi : i.HasSoundMethods) (r : Reader) (hcalls : ∀ m ∈ r.calls, i.Offers m)
    (hproviders : ∀ g ∈ r.providers, ∀ u p t, Avoids Failure.isAbsence (g u p t)) :
    Avoids Failure.isAbsence (r.read i) := by
  match r with
  | state k =>
    have hstorage : i.Offers (Interface.storageMethod .state) :=
      hcalls _ (List.mem_singleton_self _)
    exact hstorage.avoids_storage.bind fun u => u.avoids_item k
  | parameter k =>
    have hstorage : i.Offers (Interface.storageMethod .parameter) :=
      hcalls _ (List.mem_singleton_self _)
    exact hstorage.avoids_storage.bind fun p => p.avoids_item k
  | time => exact hi.avoids_currentTimeValue (hcalls _ (List.mem_singleton_self _))
  | gather role ks =>
    have hstorage := (hcalls _ (List.mem_singleton_self _)).avoids_storage
    exact hstorage.bind fun v => (avoids_mapM v.avoids_item ks).bind fun _ => avoids_pure _
  | provider g isTimeDependent =>
    have hstates : i.Offers (Interface.storageMethod .state) :=
      hcalls .stateValues (by simp [calls])
    have hparameters : i.Offers (Interface.storageMethod .parameter) :=
      hcalls .parameterValues (by simp [calls])
    refine hstates.avoids_storage.bind fun u => hparameters.avoids_storage.bind fun p => ?_
    have hprovider := hproviders g (List.mem_singleton_self g) u p
    cases isTimeDependent with
    | false => exact hprovider none
    | true =>
      have htime := hi.avoids_currentTimeValue (hcalls .currentTime (by simp [calls]))
      exact htime.bind fun t => hprovider (some t)
  | expression f =>
    have hstates (huses : f.usesStates = true) : Avoids Failure.isAbsence (i.storage .state) :=
      Interface.Offers.avoids_storage (hcalls _ (Evaluator.mem_calls.2 (.inl ⟨huses, rfl⟩)))
    have hparameters (huses : f.usesParameters = true) :
        Avoids Failure.isAbsence (i.storage .parameter) :=
      Interface.Offers.avoids_storage (hcalls _ (Evaluator.mem_calls.2 (.inr (.inl ⟨huses, rfl⟩))))
    have htime (huses : f.usesTime = true) : Avoids Failure.isAbsence i.currentTimeValue :=
      hi.avoids_currentTimeValue (hcalls _ (Evaluator.mem_calls.2 (.inr (.inr ⟨huses, rfl⟩))))
    have hf : f.HasSoundProviders := fun leaf g hmem =>
      hproviders g (List.mem_filterMap.2 ⟨_, hmem, rfl⟩)
    exact (Interface.avoids_ifUsed hstates).bind fun u =>
      (Interface.avoids_ifUsed hparameters).bind fun p =>
        (Interface.avoids_ifUsed htime).bind fun t => Evaluator.avoids_call hf u p t
  | vector rs => exact (avoids_readAll hi rs hcalls hproviders).bind fun vs => avoids_pure _
  | sequence inner isTuple =>
    exact (avoids_read hi inner hcalls hproviders).bind fun v =>
      v.avoids_iterate.bind fun vs => avoids_pure _
  | array inner shape =>
    exact (avoids_read hi inner hcalls hproviders).bind fun v =>
      v.avoids_assemble.bind fun grid => grid.avoids_reshape shape

lemma avoids_readAll (hi : i.HasSoundMethods) (rs : List Reader)
    (hcalls : ∀ m ∈ allCalls rs, i.Offers m)
    (hproviders : ∀ g ∈ allProviders rs, ∀ u p t, Avoids Failure.isAbsence (g u p t)) :
    Avoids Failure.isAbsence (readAll i rs) := by
  match rs with
  | [] => exact avoids_pure _
  | r :: rs =>
    have hhead := avoids_read hi r (fun m hm => hcalls m (List.mem_append_left _ hm))
      fun g hg => hproviders g (List.mem_append_left _ hg)
    have htail := avoids_readAll hi rs (fun m hm => hcalls m (List.mem_append_right _ hm))
      fun g hg => hproviders g (List.mem_append_right _ hg)
    exact hhead.bind fun v => htail.bind fun vs => avoids_pure _

end

end Read

end Reader

namespace Writer

mutual

/-- A value that does not fit a request is no failure of the object that is written to. -/
lemma isAbsence_of_plan (w : Writer) (v : Value) {e : Failure} (h : (w.plan v).failure = some e) :
    e.isAbsence = false := by
  match w with
  | slot role i => cases h
  | vector items =>
    rw [plan_vector] at h
    rcases failure_planItems h with hv | ⟨vs, _, rfl | h⟩
    · exact v.avoids_iterate e hv
    · rfl
    · exact isAbsence_of_planAll items vs h
  | array items shape =>
    rw [plan_array] at h
    rcases failure_planItems h with hv | ⟨vs, _, rfl | h⟩
    · exact congrArg Fault.isAbsence (kind_of_arrayItems hv)
    · rfl
    · exact isAbsence_of_planAll items vs h

lemma isAbsence_of_planAll (ws : List Writer) (vs : List Value) {e : Failure}
    (h : (planAll ws vs).failure = some e) : e.isAbsence = false := by
  match ws, vs with
  | [], _ => cases h
  | _ :: _, [] => cases h
  | w :: ws, v :: vs =>
    rcases failure_append h with h | h
    · exact isAbsence_of_plan w v h
    · exact isAbsence_of_planAll ws vs h

end

end Writer

namespace Storage

variable {s s' : Storage} {ws : List SlotWrite}

lemma isAbsence_of_writeAll (h : ∀ w ∈ ws, Avoids Failure.isAbsence (s.ofRole w.role))
    {e : Failure} (he : (s.writeAll ws).2 = some e) : e.isAbsence = false := by
  induction ws generalizing s with
  | nil => cases he
  | cons w ws ih =>
    rw [writeAll] at he
    split at he
    · rename_i hfailed
      cases he
      have hwrite : Avoids Failure.isAbsence (s.write w) := by
        rw [write_eq]
        exact (h w List.mem_cons_self).bind fun v =>
          (v.avoids_setItem w.index w.value).bind fun written => avoids_pure _
      exact hwrite e hfailed
    · rename_i s' hs'
      refine ih (fun w' hw' => ?_) he
      have hwritten := ofRole_write hs' w'.role
      split at hwritten
      · obtain ⟨v, hv⟩ := hwritten
        rw [hv]
        exact avoids_pure v
      · rw [hwritten]
        exact h w' (List.mem_cons_of_mem _ hw')

lemma write_congr {w : SlotWrite} (h : s.ofRole w.role = s'.ofRole w.role) :
    (∃ f, s.write w = .error f ∧ s'.write w = .error f) ∨
      ∃ t t', s.write w = .ok t ∧ s'.write w = .ok t' ∧
        ∀ role, s.ofRole role = s'.ofRole role → t.ofRole role = t'.ofRole role := by
  rw [write_eq, write_eq, ← h]
  cases s.ofRole w.role with
  | error f => exact .inl ⟨f, rfl, rfl⟩
  | ok v =>
    simp only [Except.ok_bind]
    cases v.setItem w.index w.value with
    | error f => exact .inl ⟨f, rfl, rfl⟩
    | ok written =>
      refine .inr ⟨_, _, rfl, rfl, fun role hrole => ?_⟩
      unfold ofRole at hrole ⊢
      by_cases hw : w.role = .parameter <;> by_cases hparameter : role = .parameter <;>
        simp_all

/-- Writes fail alike in storages that agree on the roles that are written to. -/
lemma failure_writeAll_congr (h : ∀ w ∈ ws, s.ofRole w.role = s'.ofRole w.role) :
    (s.writeAll ws).2 = (s'.writeAll ws).2 := by
  induction ws generalizing s s' with
  | nil => rfl
  | cons w ws ih =>
    rw [writeAll, writeAll]
    rcases write_congr (h w List.mem_cons_self) with ⟨f, hs, hs'⟩ | ⟨t, t', hs, hs', hagree⟩
    · rw [hs, hs']
    · rw [hs, hs']
      exact ih fun w' hw' => hagree w'.role (h w' (List.mem_cons_of_mem _ hw'))

end Storage

namespace Accessor

/-- The storage methods that a call uses; a setter uses those of the slots that the value goes to. -/
def calls (a : Accessor) (v : Value) : List Capability :=
  match a.plan with
  | .getter r => r.calls
  | .setter w => (w.plan v).writes.map fun write => Interface.storageMethod write.role

variable {a : Accessor} {s : System}

lemma offers_of_calls (ha : a.plan.WithinReach s) (v : Value) :
    ∀ m ∈ a.calls v, s.own.Offers m := by
  intro m hm
  unfold calls at hm
  split at hm
  · rename_i r hplan
    rw [hplan] at ha
    exact ha.offers m hm
  · rename_i w hplan
    rw [hplan] at ha
    obtain ⟨write, hwrite, rfl⟩ := List.mem_map.1 hm
    exact ha v write hwrite

/-- Objects of one version that answer alike to the methods that are called are accessed alike. -/
lemma access_congr {s' : System} {v : Value} (hversion : s.currentVersion = s'.currentVersion)
    (h : ∀ m ∈ a.calls v, s.own.AnswersAs s'.own m) :
    a.get s = a.get s' ∧ (a.set s v).2 = (a.set s' v).2 := by
  unfold calls at h
  cases hplan : a.plan with
  | getter r =>
    rw [hplan] at h
    refine ⟨get_congr hplan hversion h, ?_⟩
    unfold set
    rw [hplan]
  | setter w =>
    rw [hplan] at h
    constructor
    · unfold get
      rw [hplan]
    · have hstorage (write : SlotWrite) (hwrite : write ∈ (w.plan v).writes) :
          (Storage.ofInterface s.own).ofRole write.role =
            (Storage.ofInterface s'.own).ofRole write.role :=
        Interface.storage_congr (h _ (List.mem_map.2 ⟨write, hwrite, rfl⟩))
      have hcheck : a.checkVersion s = a.checkVersion s' := by
        unfold checkVersion
        rw [hversion]
      unfold set
      rw [hplan, hcheck]
      dsimp only
      split
      · rfl
      · dsimp only
        rw [Storage.failure_writeAll_congr hstorage]

section Sound

variable (hown : s.own.HasSoundMethods) (hcontainer : s.container.HasSoundMethods)
include hown hcontainer

lemma avoids_checkVersion : Avoids Failure.isAbsence (a.checkVersion s) := by
  unfold checkVersion
  split
  · exact avoids_pure _
  · refine (System.avoids_currentVersion hown hcontainer).bind fun v => ?_
    grind

lemma avoids_get (ha : a.plan.WithinReach s) : Avoids Failure.isAbsence (a.get s) := by
  unfold get
  split
  · exact avoids_failWith rfl
  · rename_i r hplan
    rw [hplan] at ha
    refine (avoids_checkVersion hown hcontainer).bind fun _ => ?_
    exact Reader.avoids_read hown r ha.offers fun g hg => (ha.gives g hg).avoids hown hcontainer

lemma isAbsence_of_set (ha : a.plan.WithinReach s) {v : Value} {e : Failure}
    (h : (a.set s v).2 = some e) : e.isAbsence = false := by
  unfold set at h
  dsimp only at h
  split at h
  · cases h
    rfl
  · rename_i w hplan
    rw [hplan] at ha
    split at h
    · rename_i hchecked
      cases h
      exact avoids_checkVersion hown hcontainer e hchecked
    · have hstorage (write : SlotWrite) (hwrite : write ∈ (w.plan v).writes) :
          Avoids Failure.isAbsence ((Storage.ofInterface s.own).ofRole write.role) :=
        Interface.Offers.avoids_storage (ha v write hwrite)
      dsimp only at h
      cases hwritten : ((Storage.ofInterface s.own).writeAll (w.plan v).writes).2 with
      | some f =>
        rw [hwritten] at h
        cases h
        exact Storage.isAbsence_of_writeAll hstorage hwritten
      | none =>
        rw [hwritten] at h
        exact Writer.isAbsence_of_plan w v h

end Sound

end Accessor

/-! ### Objects of a session -/

lemma Attribute.exists_of_map {α β : Type} {g : α → β} {a : Attribute α} {f : β}
    (h : a.map g = .method f) : ∃ m, f = g m := by
  cases a with
  | absent => cases h
  | plain v => cases h
  | method m =>
    cases h
    exact ⟨m, rfl⟩

namespace LinearProvider

lemma avoids_addItems (storage : Value) (place : Nat) (total : Value) (cs : List Number) :
    Avoids Failure.isAbsence (addItems storage place total cs) := by
  induction cs generalizing place total with
  | nil => exact avoids_pure total
  | cons c cs ih =>
    refine (storage.avoids_item _).bind fun v => ?_
    refine (Value.avoids_binaryOperator _ _ v).bind fun term => ?_
    exact (Value.avoids_binaryOperator _ total term).bind fun sum => ih (place + 1) sum

lemma avoids_provider (l : LinearProvider) (u p : Value) (t : Option Value) :
    Avoids Failure.isAbsence (l.provider u p t) := by
  refine (avoids_addItems u 0 _ _).bind fun ofStates => ?_
  refine (avoids_addItems p 0 ofStates _).bind fun total => ?_
  cases t with
  | none => exact avoids_pure total
  | some t =>
    exact (Value.avoids_binaryOperator _ _ t).bind fun term =>
      Value.avoids_binaryOperator _ total term

end LinearProvider

namespace Interface

lemma hasSoundMethods_of_className (name : String) :
    Interface.HasSoundMethods { className := name } := ⟨nofun, nofun, nofun⟩

lemma hasSoundMethods_ofLayout (l : Layout) (k : Option Nat) :
    (ofLayout l k).HasSoundMethods := ⟨nofun, nofun, nofun⟩

lemma hasSoundMethods_ofVersionedLayout (l : VersionedLayout) (k : Option Nat) :
    (ofVersionedLayout l k).HasSoundMethods := by
  refine ⟨nofun, fun v hv => ?_, nofun⟩
  cases hv
  grind

end Interface

lemma Host.hasSoundMethods (h : Host) (k : Option Nat) : (h.toInterface k).HasSoundMethods := by
  constructor
  · intro _ t ht
    obtain ⟨m, rfl⟩ := Attribute.exists_of_map ht
    exact avoids_pure _
  · intro v hv
    obtain ⟨m, rfl⟩ := Attribute.exists_of_map hv
    exact avoids_pure _
  · intro f hf symbol extra g hg
    obtain ⟨m, rfl⟩ := Attribute.exists_of_map hf
    obtain ⟨text, _, hg⟩ := Except.eq_ok_of_bind hg
    obtain ⟨l, _, rfl⟩ := Option.map_eq_some_iff.1 (Except.ok.inj hg)
    exact l.avoids_provider

/-- A problem state says whether it has a time. -/
lemma ProblemState.hasSoundMethods {world : World} (hworld : ∀ v, (world v).HasSoundMethods)
    (s : ProblemState) (k : Option Nat) : (s.toInterface world k).HasSoundMethods := by
  refine ⟨fun hoffers t ht => ?_, fun v hv => ?_, nofun⟩
  · cases ht
    have htime := hoffers.2 _ rfl
    unfold hasTime at htime
    unfold currentTime
    split
    · rename_i hnone
      rw [hnone] at htime
      cases htime
    · exact avoids_pure _
  · cases hv
    unfold currentVersion
    have hsystem := (hworld s.system).currentVersion
    grind

namespace Objects

lemma hasSoundMethods_interfaceAt (objects : Objects) (k : Nat) :
    (objects.interfaceAt k).HasSoundMethods := by
  induction objects generalizing k with
  | nil => exact Interface.hasSoundMethods_of_className _
  | cons entry older ih =>
    obtain ⟨n, object⟩ := entry
    rw [interfaceAt]
    split
    · cases object with
      | layout l => exact Interface.hasSoundMethods_ofLayout l _
      | versioned l => exact Interface.hasSoundMethods_ofVersionedLayout l _
      | host h => exact h.hasSoundMethods _
      | state s =>
        refine ProblemState.hasSoundMethods (fun v => ?_) s _
        split
        · exact ih _
        · exact Interface.hasSoundMethods_of_className _
    · exact ih k

lemma hasSoundMethods_world (objects : Objects) (v : Value) :
    (objects.world v).HasSoundMethods := by
  unfold world
  split
  · split
    · exact hasSoundMethods_interfaceAt objects _
    · exact Interface.hasSoundMethods_of_className _
  · exact Interface.hasSoundMethods_of_className _

/-- The methods of every object of a session are sound, and so are those of its container. -/
lemma hasSoundMethods_system (objects : Objects) (v : Value) :
    (System.of objects.world v).own.HasSoundMethods ∧
      (System.of objects.world v).container.HasSoundMethods :=
  ⟨objects.hasSoundMethods_world v, objects.hasSoundMethods_world _⟩

end Objects

/-! ### Calls of an accessor that was built -/

/-- A call of an accessor that was built for an object uses storage methods that the object offers,
and no others: what it gives is what it gives on every object of the same version that answers
alike to them. So it never fails because a capability or a method is missing, unless one of the
object's own methods reports so. Builds for other objects may have come before, and earlier builds
for the object if they found it unchanged. -/
theorem Factory.calls_offered {f : Factory} (hempty : f.cache = []) {run : List (System × Build)}
    {s : System} {c : Build} {a : Accessor}
    (hunchanged : ∀ turn ∈ run, turn.2.system.isObject c.system = true → turn.1 = s)
    (h : (f.runOn run).accessorOn s c = .ok a) (v : Value) :
    (∀ m ∈ a.calls v, s.own.Offers m) ∧
      (∀ s' : System, s.currentVersion = s'.currentVersion →
        (∀ m ∈ a.calls v, s.own.AnswersAs s'.own m) →
          a.get s = a.get s' ∧ (a.set s v).2 = (a.set s' v).2) ∧
      (s.own.HasSoundMethods → s.container.HasSoundMethods → ∀ e,
        a.get s = .error e ∨ (a.set s v).2 = some e →
          e.kind ≠ .missingCapability ∧ e.kind ≠ .missingAttribute) := by
  have hreach := withinReach_of_accessorOn hempty hunchanged h
  refine ⟨Accessor.offers_of_calls hreach v, fun s' => Accessor.access_congr, ?_⟩
  intro hown hcontainer e he
  have habsence : e.isAbsence = false := by
    rcases he with he | he
    · exact Accessor.avoids_get hown hcontainer hreach e he
    · exact Accessor.isAbsence_of_set hown hcontainer hreach he
  constructor
  · intro hkind
    rw [Failure.isAbsence, hkind] at habsence
    cases habsence
  · intro hkind
    rw [Failure.isAbsence, hkind] at habsence
    cases habsence

namespace Sparse

def state : Expr := .symbol (some "x")

def time : Expr := .symbol (some "t")

def rate : Expr := .symbol (some "k")

def layout : Layout :=
  ⟨⟨[("x", .expr state)]⟩, ⟨[("k", .expr rate)]⟩, ⟨[("t", .expr time)]⟩, {}⟩

def self : Value := .handle ⟨1, "CustomSystem", "CustomSystem"⟩

/-- A host with states and a time, but without parameters; it leaves resolution to a layout. -/
def host : Host where
  attributes := [(.stateValues, .method (.constant (.list [.int 1]))),
    (.currentTime, .method (.constant (.int 2))),
    (.hasCurrentTime, .method (.constant (.bool true))),
    (.container, .method (.constant (.handle ⟨0, "SymbolCache", "SymbolCache"⟩)))]

def objects : Objects := [(1, .host host), (0, .layout layout)]

def system : System := System.of objects.world self

def build (identity : Nat) : Build :=
  ⟨identity, self, .readAny, .list [.expr state, .expr time], .none⟩

def getter : Accessor :=
  ⟨0, .getter (.sequence (.vector [.state (.int 0), .time]) false),
    .sequence [.symbol "x" (.expr state), .symbol "t" (.expr time)] false, none⟩

lemma accessorOn_run :
    (({} : Factory).runOn [(system, build 0)]).accessorOn system (build 1) = .ok getter := by
  rfl

end Sparse

/-- The state and the time are read from a host that offers just these two, by a getter that was
kept; to ask for a parameter of the host fails when the getter is built. -/
theorem Factory.calls_offered_sparse :
    Sparse.getter.calls .none = [.stateValues, .currentTime] ∧
      (∀ m ∈ Sparse.getter.calls .none, Sparse.system.own.Offers m) ∧
      (∀ e, Sparse.getter.get Sparse.system = .error e →
        e.kind ≠ .missingCapability ∧ e.kind ≠ .missingAttribute) ∧
      ¬ Sparse.system.own.Offers .parameterValues ∧
      ({} : Factory).accessorOn Sparse.system
          ⟨0, Sparse.self, .readAny, .expr Sparse.rate, .none⟩ =
        .error (.missingCapability "parameter_values" (some "CustomSystem")) := by
  have hunchanged : ∀ turn ∈ [(Sparse.system, Sparse.build 0)],
      turn.2.system.isObject (Sparse.build 1).system = true → turn.1 = Sparse.system := by
    intro turn hturn _
    rw [List.mem_singleton.1 hturn]
  obtain ⟨hoffers, _, hfails⟩ :=
    Factory.calls_offered (f := {}) rfl hunchanged Sparse.accessorOn_run .none
  obtain ⟨hown, hcontainer⟩ := Sparse.objects.hasSoundMethods_system Sparse.self
  exact ⟨rfl, hoffers, fun e he => hfails hown hcontainer e (.inl he), Bool.false_ne_true, rfl⟩

end NamedSlots
