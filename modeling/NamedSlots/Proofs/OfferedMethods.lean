import NamedSlots.Proofs.AccessConfinement
import NamedSlots.Proofs.BindingDerivation
import NamedSlots.Proofs.CacheInvariants

/-!
# Methods that an object offers

An accessor is made only if the object that it is made for offers every storage method that a call
may use, and only from providers that the object or its container gives. This is shown for each
kind of symbol and for compiled expressions, carried over to requests and from there to all
accessors that a factory keeps for an object that stays as it is.
-/

namespace NamedSlots

open Traced

namespace Interface

/-- A storage method is there and can be called; the time has a value, if there is a method that
tells whether it has one. -/
def Offers (i : Interface) : Capability → Prop
  | .stateValues => i.stateValues.isMethod = true
  | .parameterValues => i.parameterValues.isMethod = true
  | .currentTime => i.currentTime.isMethod = true ∧
      ∀ probe, i.hasCurrentTime = .method probe → probe.truth = .ok true
  | _ => False

/-- A capability that is required only if it is used. -/
def requireIf (i : Interface) (isUsed : Bool) (m : Capability) : Except Failure Unit :=
  if isUsed then i.require m else return ()

variable {i : Interface} {m : Capability}

lemma hasCapability_of_require (h : i.require m = .ok ()) : i.hasCapability m = .ok true := by
  obtain ⟨isOffered, hoffered, h⟩ := Except.eq_ok_of_bind h
  cases isOffered with
  | true => exact hoffered
  | false => cases h

lemma offers_stateValues (h : i.require .stateValues = .ok ()) : i.Offers .stateValues :=
  Except.ok.inj (hasCapability_of_require h)

lemma offers_parameterValues (h : i.require .parameterValues = .ok ()) :
    i.Offers .parameterValues :=
  Except.ok.inj (hasCapability_of_require h)

lemma offers_currentTime (h : i.require .currentTime = .ok ()) : i.Offers .currentTime := by
  have h := hasCapability_of_require h
  unfold hasCapability at h
  cases hmethod : i.currentTime.isMethod with
  | false =>
    simp only [hmethod] at h
    cases h
  | true =>
    refine ⟨hmethod, fun probe hprobe => ?_⟩
    simp only [hmethod, hprobe] at h
    exact h

end Interface

/-- A provider that a system gives for some symbol: its own, or one of its container. -/
def System.Gives (s : System) (g : Provider) : Prop :=
  ∃ i ∈ [s.own, s.container], ∃ f symbol extra,
    i.provider = .method f ∧ f symbol extra = .ok (some g)

lemma Attribute.eq_method {α : Type} {a : Attribute α} {f : α} (h : a.method? = some f) :
    a = .method f := by
  cases a with
  | absent => cases h
  | plain v => cases h
  | method g => cases h; rfl

namespace Bound

variable {b : Bound}

lemma gives_of_provider {symbol : Value} {g : Provider}
    (h : Returns (b.provider symbol) (some g)) : b.system.Gives g := by
  unfold provider at h
  dsimp only at h
  split at h
  · cases h.of_pure
  · rename_i f hf
    obtain ⟨_, _, h⟩ := h.bind
    refine ⟨_, ?_, f, symbol, b.version, Attribute.eq_method hf, h.of_lift⟩
    split
    · exact List.mem_cons_self
    · exact List.mem_cons_of_mem _ List.mem_cons_self

end Bound

/-- The providers in a table are given by a system. -/
def LeafTable.TakesFrom (s : System) (t : LeafTable) : Prop :=
  ∀ leaf g, (leaf, .source (.provider g)) ∈ t.entries → s.Gives g

lemma LeafTable.TakesFrom.insert {s : System} {t : LeafTable} (h : t.TakesFrom s) (leaf : Expr)
    {m : Meaning} (hm : ∀ g, m = .source (.provider g) → s.Gives g) :
    (t.insert leaf m).TakesFrom s := by
  intro leaf' g hmem
  rcases List.mem_cons.1 hmem with heq | hmem
  · cases heq
    exact hm g rfl
  · exact h leaf' g hmem

namespace Bound

variable {b : Bound}

lemma takesFrom_of_bindsTo {isTimeDependent : Bool} {unvisited leaves : List Expr}
    {table t : LeafTable} {trace trace' : Trace}
    (h : b.BindsTo isTimeDependent unvisited table trace leaves t trace')
    (htable : table.TakesFrom b.system) : t.TakesFrom b.system := by
  induction h with
  | nil => exact htable
  | skip _ _ ih => exact ih htable
  | source _ hsource _ ih =>
    refine ih (htable.insert _ fun g heq => ?_)
    cases hsource with
    | provider _ _ hprovider =>
      cases heq
      exact gives_of_provider ⟨_, _, hprovider⟩
    | _ => cases heq
  | definition _ _ _ _ _ _ ihInner ih => exact ih ((ihInner htable).insert _ nofun)

lemma takesFrom_of_compile {e : Expr} {backend : Backend} {f : Evaluator}
    (h : Returns (Evaluator.compile b e backend) f) : f.table.TakesFrom b.system := by
  obtain ⟨_, _, hbinds⟩ := exists_bindsTo_of_returns (Evaluator.of_compile h).2.2.2.1
  exact takesFrom_of_bindsTo hbinds nofun

end Bound

/-! ### Plans within reach of a system -/

namespace Reader

mutual

/-- The providers that a reader calls. -/
def providers : Reader → List Provider
  | provider g _ => [g]
  | expression f => f.table.bindings.filterMap fun
    | (_, .provider g) => some g
    | _ => none
  | vector rs => allProviders rs
  | sequence inner _ => providers inner
  | array inner _ => providers inner
  | _ => []

def allProviders : List Reader → List Provider
  | [] => []
  | r :: rs => providers r ++ allProviders rs

end

lemma mem_allProviders {rs : List Reader} {g : Provider} :
    g ∈ allProviders rs ↔ ∃ r ∈ rs, g ∈ r.providers := by
  induction rs with
  | nil => simp [allProviders]
  | cons r rs ih => simp [allProviders, ih]

lemma mem_providers_ofItems {rs : List Reader} {g : Provider} (h : g ∈ (ofItems rs).providers) :
    g ∈ allProviders rs := by
  rcases ofItems_cases rs with ⟨ks, _, heq⟩ | ⟨ks, _, heq⟩ | heq
  · rw [heq] at h
    cases h
  · rw [heq] at h
    cases h
  · rw [heq] at h
    exact h

/-- Whatever a reader calls is offered or given by a system. -/
structure WithinReach (s : System) (r : Reader) : Prop where
  offers : ∀ m ∈ r.calls, s.own.Offers m
  gives : ∀ g ∈ r.providers, s.Gives g

variable {b : Bound} {backend : Backend} {p : Permission}

/-- What an evaluator uses is required in turn, each capability only if it is used. -/
lemma requireUsed_eq (i : Interface) (f : Evaluator) :
    requireUsed i f = (do
      i.requireIf f.usesStates .stateValues
      i.requireIf f.usesParameters .parameterValues
      i.requireIf f.usesTime .currentTime) := by
  unfold requireUsed
  cases f.usesStates <;> cases f.usesParameters <;> cases f.usesTime <;> rfl

lemma offers_of_requireUsed {i : Interface} {f : Evaluator} (h : requireUsed i f = .ok ()) :
    ∀ m ∈ f.calls, i.Offers m := by
  rw [requireUsed_eq] at h
  obtain ⟨_, hstates, h⟩ := Except.eq_ok_of_bind h
  obtain ⟨_, hparameters, htime⟩ := Except.eq_ok_of_bind h
  intro m hm
  rcases Evaluator.mem_calls.1 hm with ⟨huses, rfl⟩ | ⟨huses, rfl⟩ | ⟨huses, rfl⟩
  · rw [huses] at hstates
    exact Interface.offers_stateValues hstates
  · rw [huses] at hparameters
    exact Interface.offers_parameterValues hparameters
  · rw [huses] at htime
    exact Interface.offers_currentTime htime

lemma withinReach_of_evaluator {e : Expr} {f : Evaluator}
    (hf : Returns (Evaluator.compile b e backend) f)
    (hrequired : requireUsed b.system.own f = .ok ()) :
    (Reader.expression f).WithinReach b.system := by
  refine ⟨offers_of_requireUsed hrequired, fun g hg => ?_⟩
  obtain ⟨⟨leaf, src⟩, hmem, hsrc⟩ := List.mem_filterMap.1 hg
  cases src with
  | provider g' =>
    cases hsrc
    exact Bound.takesFrom_of_compile hf leaf g (LeafTable.mem_bindings.1 hmem)
  | state i => cases hsrc
  | parameter i => cases hsrc
  | time => cases hsrc

/-- A provider gets all of the storage, and the time of a system that has one. -/
lemma withinReach_of_provider {g : Provider} (hg : b.system.Gives g) (isTimeDependent : Bool)
    (hstates : b.system.own.require .stateValues = .ok ())
    (hparameters : b.system.own.require .parameterValues = .ok ())
    (htime : isTimeDependent = true → b.system.own.require .currentTime = .ok ()) :
    (Reader.provider g isTimeDependent).WithinReach b.system := by
  refine ⟨fun m hm => ?_, List.forall_mem_singleton.2 hg⟩
  rcases List.mem_append.1 hm with hm | hm
  · rcases List.mem_pair.1 hm with rfl | rfl
    · exact Interface.offers_stateValues hstates
    · exact Interface.offers_parameterValues hparameters
  · split at hm
    · rename_i hdependent
      rw [List.mem_singleton.1 hm]
      exact Interface.offers_currentTime (htime hdependent)
    · cases hm

lemma withinReach_of_symbol {symbol : Value} {r : Reader}
    (h : Returns (ofSymbol b backend p symbol) r) : r.WithinReach b.system := by
  cases madeFor_of_symbol h with
  | state _ _ hstates =>
    exact ⟨List.forall_mem_singleton.2 (Interface.offers_stateValues hstates), nofun⟩
  | parameter _ _ hparameters =>
    exact ⟨List.forall_mem_singleton.2 (Interface.offers_parameterValues hparameters), nofun⟩
  | time _ _ htime =>
    exact ⟨List.forall_mem_singleton.2 (Interface.offers_currentTime htime), nofun⟩
  | provider _ _ hprovider hstates hparameters htime =>
    exact withinReach_of_provider (Bound.gives_of_provider hprovider) _ hstates hparameters htime
  | definition _ _ _ _ _ hcompile hused => exact withinReach_of_evaluator hcompile hused

lemma withinReach_ofItems {s : System} {rs : List Reader} (h : ∀ r ∈ rs, r.WithinReach s) :
    (ofItems rs).WithinReach s := by
  constructor
  · intro m hm
    obtain ⟨r, hr, hm⟩ := mem_allCalls.1 (mem_calls_ofItems hm)
    exact (h r hr).offers m hm
  · intro g hg
    obtain ⟨r, hr, hg⟩ := mem_allProviders.1 (mem_providers_ofItems hg)
    exact (h r hr).gives g hg

lemma withinReach_of_request (q : Request) (r : Reader)
    (h : Returns (ofRequest b backend p q) r) : r.WithinReach b.system :=
  induction_of_request (fun _ _ => withinReach_of_symbol)
    (fun _ _ hf _ hrequired => withinReach_of_evaluator hf hrequired)
    (fun _ => withinReach_ofItems) (fun _ _ h => ⟨h.offers, h.gives⟩)
    (fun _ _ h => ⟨h.offers, h.gives⟩) q r h

end Reader

namespace Writer

variable {b : Bound} {p : Permission}

lemma offers_of_symbol {symbol : Value} {w : Writer} (h : ofSymbol b p symbol = .ok w) (v : Value)
    {write : SlotWrite} (hwrite : write ∈ (w.plan v).writes) :
    b.system.own.Offers (Interface.storageMethod write.role) := by
  obtain ⟨role, i, rfl, hstored, _, _, _, hrequired⟩ := eq_slot_of_symbol h
  rw [List.mem_singleton.1 hwrite]
  cases role with
  | state => exact Interface.offers_stateValues hrequired
  | parameter => exact Interface.offers_parameterValues hrequired
  | _ => cases hstored

end Writer

/-- A plan within reach of a system: a getter calls what the system offers and gives, and a setter
writes to storage that it offers. -/
def AccessPlan.WithinReach (s : System) : AccessPlan → Prop
  | .getter r => r.WithinReach s
  | .setter w => ∀ v, ∀ write ∈ (w.plan v).writes,
      s.own.Offers (Interface.storageMethod write.role)

lemma withinReach_of_planFor {b : Bound} {backend : Backend} {p : Permission} {q : Request}
    {plan : AccessPlan} (h : Returns (Factory.planFor backend b p q) plan) :
    plan.WithinReach b.system := by
  rcases Factory.planFor_cases h with ⟨_, w, hw, rfl⟩ | ⟨_, r, hr, rfl⟩
  · exact Writer.forall_writes_of_request (fun _ _ hw v _ => Writer.offers_of_symbol hw v) q w hw
  · exact Reader.withinReach_of_request q r hr

/-! ### What a factory keeps for an object that stays as it is -/

namespace Factory

variable {f : Factory} {s : System} {c : Build} {a : Accessor}

lemma withinReach_of_accessorOn_withoutCache (h : f.withoutCache.accessorOn s c = .ok a) :
    a.plan.WithinReach s := by
  rw [accessorOn_withoutCache] at h
  obtain ⟨⟨key, b⟩, hkeyed, h⟩ := Except.eq_ok_of_bind h
  obtain ⟨current, _, h⟩ := Except.eq_ok_of_bind h
  obtain ⟨_, _, rfl⟩ := bound_of_keyedOn hkeyed
  exact withinReach_of_planFor (returns_of_made h).1

/-- Every accessor that is kept for an object is within its reach, if all builds for the object
found it as it is. -/
lemma withinReach_of_mem (hempty : f.cache = []) {run : List (System × Build)} {v : Value}
    (hunchanged : ∀ turn ∈ run, turn.2.system.isObject v = true → turn.1 = s)
    {entry : CacheKey × Accessor} (hentry : entry ∈ (f.runOn run).cache)
    (hkey : entry.1.system.isObject v = true) : entry.2.plan.WithinReach s := by
  induction run using List.reverseRecOn with
  | nil =>
    change entry ∈ f.cache at hentry
    rw [hempty] at hentry
    cases hentry
  | append_singleton run turn ih =>
    rw [runOn_append] at hentry
    rcases mem_nextOn hentry with hentry | ⟨b, hkeyed, _, _, hmade⟩
    · exact ih (fun turn hturn => hunchanged turn (List.mem_append_left _ hturn)) hentry
    · rw [(bound_of_keyedOn hkeyed).1] at hkey
      rw [← hunchanged turn (List.mem_append_right _ (List.mem_singleton_self _)) hkey]
      exact withinReach_of_accessorOn_withoutCache hmade

lemma withinReach_of_accessorOn (hempty : f.cache = []) {run : List (System × Build)}
    (hunchanged : ∀ turn ∈ run, turn.2.system.isObject c.system = true → turn.1 = s)
    (h : (f.runOn run).accessorOn s c = .ok a) : a.plan.WithinReach s := by
  obtain ⟨key, b, hkeyed, ⟨k, hk, hsame⟩ | hmade⟩ := accessorOn_eq_ok h
  · have hsystem := (CacheKey.of_same hsame).1
    rw [(bound_of_keyedOn hkeyed).1] at hsystem
    exact withinReach_of_mem hempty hunchanged hk hsystem
  · exact withinReach_of_accessorOn_withoutCache hmade

end Factory
end NamedSlots
