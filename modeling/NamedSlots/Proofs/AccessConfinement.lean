import NamedSlots.Proofs.BindingRun
import NamedSlots.Proofs.FactoryStep
import NamedSlots.Proofs.SlotAccess
import NamedSlots.System.Object

/-!
# Accessors that keep to their permission

A reader calls some of the storage methods of an object, and what it returns depends on their
answers alone. Made under a permission without observed symbols, it calls only the methods of the
roles that are permitted; a writer writes only to slots of these roles. Every accessor that a
factory keeps was built with the permission of its key, so this holds of all that a factory gives.
-/

namespace NamedSlots

open Traced

/-! ### The methods that a reader calls -/

namespace Interface

/-- The method that offers the storage of a role. -/
def storageMethod (role : Role) : Capability :=
  if role = .parameter then .parameterValues else .stateValues

/-- Two objects answer alike when a storage method is called. -/
def AnswersAs (i j : Interface) : Capability → Prop
  | .stateValues => i.stateValues.invoke = j.stateValues.invoke
  | .parameterValues => i.parameterValues.invoke = j.parameterValues.invoke
  | .currentTime => i.currentTimeValue = j.currentTimeValue
  | _ => True

lemma storage_congr {i j : Interface} {role : Role} (h : i.AnswersAs j (storageMethod role)) :
    i.storage role = j.storage role := by
  unfold storageMethod at h
  unfold storage
  split at h
  · rename_i hrole
    rw [if_pos hrole, if_pos hrole]
    exact h
  · rename_i hrole
    rw [if_neg hrole, if_neg hrole]
    exact h

lemma ifUsed_congr {isUsed : Bool} {v w : Except Failure Value} (h : isUsed = true → v = w) :
    ifUsed isUsed v = ifUsed isUsed w := by
  cases isUsed with
  | false => rfl
  | true => rw [h rfl]

end Interface

/-- The storage methods whose answers are passed to an evaluator. -/
def Evaluator.calls (f : Evaluator) : List Capability :=
  (if f.usesStates then [.stateValues] else []) ++
    (if f.usesParameters then [.parameterValues] else []) ++
      if f.usesTime then [.currentTime] else []

lemma Evaluator.mem_calls {f : Evaluator} {c : Capability} :
    c ∈ f.calls ↔ (f.usesStates = true ∧ c = .stateValues) ∨
      (f.usesParameters = true ∧ c = .parameterValues) ∨ (f.usesTime = true ∧ c = .currentTime) := by
  unfold calls
  cases f.usesStates <;> cases f.usesParameters <;> cases f.usesTime <;> simp

namespace Reader

mutual

/-- The storage methods that a reader calls. -/
def calls : Reader → List Capability
  | state _ => [.stateValues]
  | parameter _ => [.parameterValues]
  | time => [.currentTime]
  | gather role _ => [Interface.storageMethod role]
  | provider _ isTimeDependent =>
    [.stateValues, .parameterValues] ++ if isTimeDependent then [.currentTime] else []
  | expression f => f.calls
  | vector rs => allCalls rs
  | sequence inner _ => calls inner
  | array inner _ => calls inner

def allCalls : List Reader → List Capability
  | [] => []
  | r :: rs => calls r ++ allCalls rs

end

lemma mem_allCalls {rs : List Reader} {c : Capability} :
    c ∈ allCalls rs ↔ ∃ r ∈ rs, c ∈ r.calls := by
  induction rs with
  | nil => simp [allCalls]
  | cons r rs ih => simp [allCalls, ih]

/-- To gather slots is to call the method that each of them would call. -/
lemma mem_calls_ofItems {rs : List Reader} {c : Capability} (h : c ∈ calls (ofItems rs)) :
    c ∈ allCalls rs := by
  cases rs with
  | nil => exact h
  | cons r rest =>
    rcases ofItems_cases (r :: rest) with ⟨ks, hks, heq⟩ | ⟨ks, hks, heq⟩ | heq
    · rw [heq] at h
      cases ks with
      | nil => cases hks
      | cons k ks =>
        rw [hks]
        exact List.mem_append_left _ h
    · rw [heq] at h
      cases ks with
      | nil => cases hks
      | cons k ks =>
        rw [hks]
        exact List.mem_append_left _ h
    · rw [heq] at h
      exact h

section Congr

variable {i j : Interface}

mutual

/-- Objects that answer alike to what a reader calls are read alike. -/
lemma read_congr (r : Reader) (h : ∀ c ∈ r.calls, i.AnswersAs j c) : r.read i = r.read j := by
  match r with
  | state k =>
    have hstorage : i.storage .state = j.storage .state :=
      Interface.storage_congr (h _ (List.mem_singleton_self _))
    rw [read, read, hstorage]
  | parameter k =>
    have hstorage : i.storage .parameter = j.storage .parameter :=
      Interface.storage_congr (h _ (List.mem_singleton_self _))
    rw [read, read, hstorage]
  | time => exact h _ (List.mem_singleton_self _)
  | gather role ks =>
    rw [read, read, Interface.storage_congr (h _ (List.mem_singleton_self _))]
  | provider f isTimeDependent =>
    have hstates : i.storage .state = j.storage .state :=
      Interface.storage_congr (h .stateValues (by simp [calls]))
    have hparameters : i.storage .parameter = j.storage .parameter :=
      Interface.storage_congr (h .parameterValues (by simp [calls]))
    rw [read, read, hstates, hparameters]
    cases isTimeDependent with
    | false => rfl
    | true =>
      have htime : i.currentTimeValue = j.currentTimeValue := h .currentTime (by simp [calls])
      rw [htime]
  | expression f =>
    have hstates (huses : f.usesStates = true) : i.storage .state = j.storage .state :=
      Interface.storage_congr (h _ (Evaluator.mem_calls.2 (.inl ⟨huses, rfl⟩)))
    have hparameters (huses : f.usesParameters = true) :
        i.storage .parameter = j.storage .parameter :=
      Interface.storage_congr (h _ (Evaluator.mem_calls.2 (.inr (.inl ⟨huses, rfl⟩))))
    have htime (huses : f.usesTime = true) : i.currentTimeValue = j.currentTimeValue :=
      h _ (Evaluator.mem_calls.2 (.inr (.inr ⟨huses, rfl⟩)))
    rw [read, read, Interface.ifUsed_congr hstates, Interface.ifUsed_congr hparameters,
      Interface.ifUsed_congr htime]
  | vector rs => rw [read, read, readAll_congr rs h]
  | sequence inner isTuple => rw [read, read, read_congr inner h]
  | array inner shape => rw [read, read, read_congr inner h]

lemma readAll_congr (rs : List Reader) (h : ∀ c ∈ allCalls rs, i.AnswersAs j c) :
    readAll i rs = readAll j rs := by
  match rs with
  | [] => rfl
  | r :: rs =>
    have hhead := read_congr r fun c hc => h c (List.mem_append_left _ hc)
    have htail := readAll_congr rs fun c hc => h c (List.mem_append_right _ hc)
    rw [readAll, readAll, hhead, htail]

end

end Congr

end Reader

/-! ### What a permission lets through -/

namespace Permission

/-- A storage method of one of the permitted roles. -/
def Covers (p : Permission) : Capability → Prop
  | .stateValues => .state ∈ p.roles
  | .parameterValues => .parameter ∈ p.roles
  | .currentTime => .independent ∈ p.roles
  | _ => False

variable {p : Permission}

lemma mem_roles_of_check {symbol : Value} {role : Role} (h : p.check symbol role = .ok ()) :
    role ∈ p.roles := by
  unfold check at h
  split at h
  · exact List.contains_iff_mem.1 ‹_›
  · cases h

lemma eq_ok_of_forIn {α : Type} {f : α → Except Failure Unit} {as : List α} {u : PUnit}
    (h : forIn as PUnit.unit (fun a _ => do f a; pure (ForInStep.yield PUnit.unit)) =
      (.ok u : Except Failure PUnit)) : ∀ a ∈ as, f a = .ok () := by
  induction as with
  | nil => exact nofun
  | cons a as ih =>
    rw [List.forIn_cons] at h
    obtain ⟨step, hstep, h⟩ := Except.eq_ok_of_bind h
    obtain ⟨_, ha, hstep⟩ := Except.eq_ok_of_bind hstep
    cases hstep
    intro b hb
    rcases List.mem_cons.1 hb with rfl | hb
    · exact ha
    · exact ih h b hb

/-- The leaves of an evaluator that passes the check of a permission have permitted roles. -/
lemma role_mem_of_checkEvaluator (hobserved : .observed ∉ p.roles) {f : Evaluator}
    (h : p.checkEvaluator f = .ok ()) {x : Expr} {src : Source}
    (hmem : (x, src) ∈ f.table.bindings) : src.role ∈ p.roles := by
  unfold checkEvaluator at h
  split at h
  · rename_i hall
    rw [hall] at hobserved
    exact absurd (by decide) hobserved
  · obtain ⟨_, hbindings, _⟩ := Except.eq_ok_of_bind h
    exact mem_roles_of_check (eq_ok_of_forIn hbindings (x, src) hmem)

lemma covers_of_checkEvaluator (hobserved : .observed ∉ p.roles) {f : Evaluator}
    (h : p.checkEvaluator f = .ok ()) : ∀ c ∈ f.calls, p.Covers c := by
  have huses (role : Role) (hany : (f.table.bindings.any fun b => b.2.role == role) = true) :
      role ∈ p.roles := by
    obtain ⟨⟨x, src⟩, hmem, hrole⟩ := List.any_eq_true.1 hany
    exact eq_of_beq hrole ▸ role_mem_of_checkEvaluator hobserved h hmem
  -- a provider is observed, so there is none
  have hprovider : f.usesProvider = false := Bool.eq_false_iff.2 fun hany =>
    hobserved (huses .observed hany)
  intro c hc
  rcases Evaluator.mem_calls.1 hc with ⟨hused, rfl⟩ | ⟨hused, rfl⟩ | ⟨hused, rfl⟩
  · unfold Evaluator.usesStates at hused
    rw [hprovider, Bool.or_false] at hused
    exact huses .state hused
  · unfold Evaluator.usesParameters at hused
    rw [hprovider, Bool.or_false] at hused
    exact huses .parameter hused
  · unfold Evaluator.usesTime at hused
    rw [hprovider, Bool.false_and, Bool.or_false] at hused
    exact huses .independent hused

end Permission

section Plan

variable {b : Bound} {backend : Backend} {p : Permission}

namespace Reader

section Induction

variable {P : Reader → Prop} (hsymbol : ∀ symbol r, Returns (ofSymbol b backend p symbol) r → P r)
  (hexpression : ∀ e f, Returns (Evaluator.compile b e backend) f →
    p.checkEvaluator f = .ok () → requireUsed b.system.own f = .ok () → P (.expression f))
  (hitems : ∀ rs, (∀ r ∈ rs, P r) → P (ofItems rs))
  (hsequence : ∀ r isTuple, P r → P (.sequence r isTuple))
  (harray : ∀ r shape, P r → P (.array r shape))
include hsymbol hexpression hitems hsequence harray

-- The linter does not count what is only passed on to the other lemma of a mutual block.
set_option linter.unusedSectionVars false in
mutual

/-- What holds of the readers of symbols and of expressions, and is kept as readers are put side by
side, holds of the reader of every request. -/
lemma induction_of_request (q : Request) (r : Reader)
    (h : Returns (ofRequest b backend p q) r) : P r := by
  match q with
  | .symbol _ symbol => exact hsymbol symbol r h
  | .expression e =>
    obtain ⟨f, hf, h⟩ := h.bind
    obtain ⟨_, hcheck, h⟩ := h.bind
    obtain ⟨_, hrequired, h⟩ := Except.eq_ok_of_bind h.of_lift
    cases h
    exact hexpression e f hf hcheck.of_lift hrequired
  | .sequence items isTuple =>
    obtain ⟨rs, hrs, h⟩ := h.bind
    cases h.of_pure
    exact hsequence _ isTuple (hitems rs (induction_of_requests items rs hrs))
  | .array shape elements =>
    obtain ⟨rs, hrs, h⟩ := h.bind
    cases h.of_pure
    exact harray _ shape (hitems rs (induction_of_requests elements rs hrs))

lemma induction_of_requests (qs : List Request) (rs : List Reader)
    (h : Returns (ofRequests b backend p qs) rs) : ∀ r ∈ rs, P r := by
  match qs with
  | [] =>
    cases h.of_pure
    exact nofun
  | q :: qs =>
    obtain ⟨r, hr, h⟩ := h.bind
    obtain ⟨rest, hrest, h⟩ := h.bind
    cases h.of_pure
    intro r' hr'
    rcases List.mem_cons.1 hr' with rfl | hr'
    · exact induction_of_request q r' hr
    · exact induction_of_requests qs rest hrest r' hr'

end

end Induction

lemma covers_of_symbol (hobserved : .observed ∉ p.roles) {symbol : Value} {r : Reader}
    (h : Returns (ofSymbol b backend p symbol) r) : ∀ c ∈ r.calls, p.Covers c := by
  cases madeFor_of_symbol h with
  | state _ hcheck =>
    exact List.forall_mem_singleton.2 (Permission.mem_roles_of_check hcheck)
  | parameter _ hcheck =>
    exact List.forall_mem_singleton.2 (Permission.mem_roles_of_check hcheck)
  | time _ hcheck => exact List.forall_mem_singleton.2 (Permission.mem_roles_of_check hcheck)
  | provider _ hcheck => exact absurd (Permission.mem_roles_of_check hcheck) hobserved
  | definition _ hcheck => exact absurd (Permission.mem_roles_of_check hcheck) hobserved

/-- Unless observed symbols are permitted, a reader calls the methods of permitted roles only. -/
lemma covers_of_request (hobserved : .observed ∉ p.roles) (q : Request) (r : Reader)
    (h : Returns (ofRequest b backend p q) r) : ∀ c ∈ r.calls, p.Covers c := by
  refine induction_of_request (fun _ _ hr => covers_of_symbol hobserved hr)
    (fun _ _ _ hcheck _ => Permission.covers_of_checkEvaluator hobserved hcheck)
    (fun rs hrs c hc => ?_) (fun _ _ hr => hr) (fun _ _ hr => hr) q r h
  obtain ⟨r, hr, hc⟩ := mem_allCalls.1 (mem_calls_ofItems hc)
  exact hrs r hr c hc

end Reader

namespace Writer

section Writes

variable {Q : SlotWrite → Prop} (hsymbol : ∀ symbol w, ofSymbol b p symbol = .ok w →
  ∀ v, ∀ write ∈ (w.plan v).writes, Q write)
include hsymbol

set_option linter.unusedSectionVars false in
mutual

/-- What holds of every write to the slot of a symbol holds of every write of a request. -/
lemma forall_writes_of_request (q : Request) (w : Writer) (h : ofRequest b p q = .ok w)
    (v : Value) : ∀ write ∈ (w.plan v).writes, Q write := by
  intro write hwrite
  match q with
  | .symbol _ symbol => exact hsymbol symbol w h v write hwrite
  | .expression e => cases h
  | .sequence items isTuple =>
    obtain ⟨ws, hws, h⟩ := Except.eq_ok_of_bind h
    cases h
    rw [plan_vector] at hwrite
    obtain ⟨vs, hwrite⟩ := mem_writes_planItems hwrite
    exact forall_writes_of_requests items ws hws vs write hwrite
  | .array shape elements =>
    obtain ⟨ws, hws, h⟩ := Except.eq_ok_of_bind h
    cases h
    rw [plan_array] at hwrite
    obtain ⟨vs, hwrite⟩ := mem_writes_planItems hwrite
    exact forall_writes_of_requests elements ws hws vs write hwrite

lemma forall_writes_of_requests (qs : List Request) (ws : List Writer)
    (h : ofRequests b p qs = .ok ws) (vs : List Value) :
    ∀ write ∈ (planAll ws vs).writes, Q write := by
  intro write hwrite
  match qs with
  | [] =>
    cases h
    cases hwrite
  | q :: qs =>
    obtain ⟨w, hw, h⟩ := Except.eq_ok_of_bind h
    obtain ⟨rest, hrest, h⟩ := Except.eq_ok_of_bind h
    cases h
    cases vs with
    | nil => cases hwrite
    | cons v vs =>
      rw [planAll] at hwrite
      rcases WritePlan.mem_append hwrite with hwrite | hwrite
      · exact forall_writes_of_request q w hw v write hwrite
      · exact forall_writes_of_requests qs rest hrest vs write hwrite

end

end Writes

lemma role_mem_of_symbol {symbol : Value} {w : Writer} (h : ofSymbol b p symbol = .ok w)
    (v : Value) {write : SlotWrite} (hwrite : write ∈ (w.plan v).writes) : write.role ∈ p.roles := by
  obtain ⟨role, i, rfl, _, _, _, hcheck, _⟩ := eq_slot_of_symbol h
  rw [List.mem_singleton.1 hwrite]
  exact Permission.mem_roles_of_check hcheck

/-- A writer writes to slots of permitted roles only. -/
lemma role_mem_of_request (q : Request) (w : Writer) (h : ofRequest b p q = .ok w) (v : Value)
    {write : SlotWrite} (hwrite : write ∈ (w.plan v).writes) : write.role ∈ p.roles :=
  forall_writes_of_request (fun _ _ hw v _ => role_mem_of_symbol hw v) q w h v write hwrite

end Writer

/-- A plan that keeps to a permission: a getter calls methods of permitted roles only, unless
observed symbols are permitted, and a setter writes to slots of permitted roles only. -/
def AccessPlan.KeepsTo (p : Permission) : AccessPlan → Prop
  | .getter r => p.isWrite = false ∧ (.observed ∉ p.roles → ∀ c ∈ r.calls, p.Covers c)
  | .setter w => p.isWrite = true ∧ ∀ v, ∀ write ∈ (w.plan v).writes, write.role ∈ p.roles

lemma keepsTo_of_planFor {q : Request} {plan : AccessPlan}
    (h : Returns (Factory.planFor backend b p q) plan) : plan.KeepsTo p := by
  rcases Factory.planFor_cases h with ⟨hwrite, w, hw, rfl⟩ | ⟨hread, r, hr, rfl⟩
  · exact ⟨hwrite, fun v write => Writer.role_mem_of_request q w hw v⟩
  · exact ⟨hread, fun hobserved => Reader.covers_of_request hobserved q r hr⟩

end Plan

/-! ### Storage that is not written -/

namespace Storage

/-- The storage that holds the slots of a role. -/
def ofRole (s : Storage) (role : Role) : Except Failure Value :=
  if role = .parameter then s.parameters else s.states

variable {s s' : Storage} {ws : List SlotWrite} {role : Role}

lemma write_eq (s : Storage) (w : SlotWrite) :
    s.write w = (do
      let written ← (← s.ofRole w.role).setItem w.index w.value
      return if w.role = .parameter then { s with parameters := .ok written }
        else { s with states := .ok written }) := by
  obtain ⟨role, i, v⟩ := w
  cases role <;> rfl

/-- A write puts a value into the storage of its role and leaves the other one. -/
lemma ofRole_write {w : SlotWrite} (h : s.write w = .ok s') (role : Role) :
    if w.role = .parameter ↔ role = .parameter then ∃ v, s'.ofRole role = .ok v
    else s'.ofRole role = s.ofRole role := by
  rw [write_eq] at h
  obtain ⟨v, _, h⟩ := Except.eq_ok_of_bind h
  obtain ⟨written, _, h⟩ := Except.eq_ok_of_bind h
  cases h
  unfold ofRole
  by_cases hw : w.role = .parameter <;> by_cases hrole : role = .parameter <;>
    simp [hw, hrole]

lemma ofRole_writeAll (h : ∀ w ∈ ws, ¬ (w.role = .parameter ↔ role = .parameter)) (s : Storage) :
    (s.writeAll ws).1.ofRole role = s.ofRole role := by
  induction ws generalizing s with
  | nil => rfl
  | cons w ws ih =>
    obtain ⟨hw, hws⟩ := List.forall_mem_cons.1 h
    rw [writeAll]
    split
    · rfl
    · rename_i s' hs'
      have hkept := ofRole_write hs' role
      rw [if_neg hw] at hkept
      rw [ih hws s', hkept]

end Storage

namespace Accessor

variable {a : Accessor}

/-- Objects that answer alike to what a getter calls, at one version, are read alike. -/
lemma get_congr {r : Reader} (hplan : a.plan = .getter r) {s s' : System}
    (hversion : s.currentVersion = s'.currentVersion)
    (h : ∀ c ∈ r.calls, s.own.AnswersAs s'.own c) : a.get s = a.get s' := by
  unfold get checkVersion
  rw [hplan, hversion]
  simp only [Reader.read_congr r h]

/-- A setter leaves the storage of a role if all that it writes is of the other storage. -/
lemma ofRole_set (role : Role) {w : Writer} (hplan : a.plan = .setter w)
    (h : ∀ v, ∀ write ∈ (w.plan v).writes, ¬ (write.role = .parameter ↔ role = .parameter))
    (s : System) (v : Value) :
    (a.set s v).1.ofRole role = (Storage.ofInterface s.own).ofRole role := by
  unfold set
  rw [hplan]
  dsimp only
  split
  · rfl
  · exact Storage.ofRole_writeAll (h v) _

end Accessor

/-! ### What a factory gives -/

namespace Factory

/-- A factory that may be reached from one without entries: by builds on any systems, which may
fail, and by the loss of objects. -/
inductive Reachable : Factory → Prop
  | empty {f : Factory} : f.cache = [] → Reachable f
  | build {f : Factory} (s : System) (c : Build) : Reachable f → Reachable (f.nextOn s c)
  | dropDead {f : Factory} (isLive : Value → Bool) : Reachable f → Reachable (f.dropDead isLive)

variable {f : Factory} {s : System} {c : Build} {a : Accessor}

lemma keepsTo_of_accessorOn_withoutCache (h : f.withoutCache.accessorOn s c = .ok a) :
    a.plan.KeepsTo c.permission := by
  rw [accessorOn_withoutCache] at h
  obtain ⟨⟨key, b⟩, hkeyed, h⟩ := Except.eq_ok_of_bind h
  obtain ⟨current, _, h⟩ := Except.eq_ok_of_bind h
  obtain ⟨_, hpermission, _⟩ := bound_of_keyedOn hkeyed
  rw [← hpermission]
  exact keepsTo_of_planFor (returns_of_made h).1

/-- What a factory keeps under a key keeps to the permission of the key. -/
lemma Reachable.keepsTo (hf : f.Reachable) {entry : CacheKey × Accessor}
    (hentry : entry ∈ f.cache) : entry.2.plan.KeepsTo entry.1.permission := by
  induction hf with
  | empty hempty =>
    rw [hempty] at hentry
    cases hentry
  | build s c _ ih =>
    rcases mem_nextOn hentry with hentry | ⟨b, hkeyed, _, _, hmade⟩
    · exact ih hentry
    · rw [(bound_of_keyedOn hkeyed).2.1]
      exact keepsTo_of_accessorOn_withoutCache hmade
  | dropDead isLive _ ih => exact ih (List.mem_filter.1 hentry).1

/-- An accessor keeps to the permission that it is asked for with. -/
lemma Reachable.keepsTo_of_accessorOn (hf : f.Reachable) (h : f.accessorOn s c = .ok a) :
    a.plan.KeepsTo c.permission := by
  obtain ⟨key, b, hkeyed, ⟨k, hk, hsame⟩ | hmade⟩ := accessorOn_eq_ok h
  · obtain ⟨_, hpermission, _⟩ := bound_of_keyedOn hkeyed
    rw [← hpermission, ← (CacheKey.of_same hsame).2.1]
    exact hf.keepsTo hk
  · exact keepsTo_of_accessorOn_withoutCache hmade

end Factory

/-- A getter of parameters calls no storage method but that of parameters, so that objects of one
version with the same parameters are read alike; a setter of parameters leaves the states, and a
setter of states leaves the parameters. -/
theorem Factory.accessor_stays {f : Factory} (hf : f.Reachable) (s : System) (identity : Nat)
    (system request version : Value) :
    (∀ a, f.accessorOn s ⟨identity, system, .readParameters, request, version⟩ = .ok a →
      ∃ r, a.plan = .getter r ∧ (∀ c ∈ r.calls, c = .parameterValues) ∧
        ∀ s₁ s₂ : System, s₁.currentVersion = s₂.currentVersion →
          s₁.own.parameterValues.invoke = s₂.own.parameterValues.invoke → a.get s₁ = a.get s₂) ∧
    (∀ a, f.accessorOn s ⟨identity, system, .writeParameters, request, version⟩ = .ok a →
      ∃ w, a.plan = .setter w ∧
        ∀ (s' : System) v, (a.set s' v).1.states = s'.own.stateValues.invoke) ∧
    ∀ a, f.accessorOn s ⟨identity, system, .writeStates, request, version⟩ = .ok a →
      ∃ w, a.plan = .setter w ∧
        ∀ (s' : System) v, (a.set s' v).1.parameters = s'.own.parameterValues.invoke := by
  refine ⟨fun a ha => ?_, fun a ha => ?_, fun a ha => ?_⟩
  · have hkeeps := hf.keepsTo_of_accessorOn ha
    cases hplan : a.plan with
    | setter w =>
      rw [hplan] at hkeeps
      cases hkeeps.1
    | getter r =>
      rw [hplan] at hkeeps
      have hcalls : ∀ c ∈ r.calls, c = .parameterValues := by
        intro c hc
        have hcovered := hkeeps.2 (by decide : Role.observed ∉ [Role.parameter]) c hc
        cases c with
        | parameterValues => rfl
        | stateValues => exact absurd hcovered (by decide : Role.state ∉ [Role.parameter])
        | currentTime => exact absurd hcovered (by decide : Role.independent ∉ [Role.parameter])
        | _ => exact hcovered.elim
      refine ⟨r, rfl, hcalls, fun s₁ s₂ hversion hparameters => ?_⟩
      refine Accessor.get_congr hplan hversion fun c hc => ?_
      rw [hcalls c hc]
      exact hparameters
  · have hkeeps := hf.keepsTo_of_accessorOn ha
    cases hplan : a.plan with
    | getter r =>
      rw [hplan] at hkeeps
      cases hkeeps.1
    | setter w =>
      rw [hplan] at hkeeps
      refine ⟨w, rfl, Accessor.ofRole_set .state hplan fun v write hwrite => ?_⟩
      rw [List.mem_singleton.1 (hkeeps.2 v write hwrite)]
      decide
  · have hkeeps := hf.keepsTo_of_accessorOn ha
    cases hplan : a.plan with
    | getter r =>
      rw [hplan] at hkeeps
      cases hkeeps.1
    | setter w =>
      rw [hplan] at hkeeps
      refine ⟨w, rfl, Accessor.ofRole_set .parameter hplan fun v write hwrite => ?_⟩
      rw [List.mem_singleton.1 (hkeeps.2 v write hwrite)]
      decide

namespace Damped

def state : Expr := .symbol (some "x")

def rate : Expr := .symbol (some "k")

def square : Expr := .binary .mul rate rate

/-- One state and one parameter. -/
def layout : Layout := ⟨⟨[("x", .expr state)]⟩, ⟨[("k", .expr rate)]⟩, {}, {}⟩

def self : Value := .handle ⟨1, "ProblemState", "ProblemState"⟩

/-- A problem state over the layout. -/
def system (u p : Int) : System :=
  System.of (Objects.world [(1, .state ⟨.handle ⟨0, "SymbolCache", "SymbolCache"⟩, .list [.int u],
    .list [.int p], .none, .none⟩), (0, .layout layout)]) self

def evaluator : Evaluator :=
  ⟨square, ⟨[(rate, .source (.parameter (.int 0)))]⟩, false, none, none⟩

/-- The getter of the parameter and its square. -/
def getter : Accessor :=
  ⟨0, .getter (.sequence (.vector [.parameter (.int 0), .expression evaluator]) false),
    .sequence [.symbol "k" (.expr rate), .expression square] false, none⟩

def setter (role : Role) (name : String) (symbol : Expr) : Accessor :=
  ⟨0, .setter (.slot role (.int 0)), .symbol name (.expr symbol), none⟩

def bound : Bound := ⟨system 1 2, none⟩

lemma answeredBy_system : (system 1 2).AnsweredBy (Interface.withoutVersion layout) :=
  ⟨rfl, rfl, rfl, rfl, rfl, rfl⟩

lemma answeredBy_bound : bound.AnsweredBy layout := .of_layoutAt answeredBy_system rfl

lemma bind_square : Yields (bound.bind false square) (.ok evaluator.table) := by
  refine Bound.bindAll_cons (Bound.bindLeaf_of_source answeredBy_bound (fun v h => ?_)
    ⟨some "k", [], rfl⟩ ?_ rfl) Bound.bindAll_nil
  · exact absurd (Layout.size_pos_of_has_independent h) (by decide)
  · exact Bool.false_ne_true

lemma planFor_readParameters :
    Yields (Factory.planFor .interpreter bound .readParameters getter.request)
      (.ok getter.plan) := by
  have hcompile : Yields (Evaluator.compile bound square .interpreter) (.ok evaluator) :=
    yields_lift_bind rfl (bind_square.bind_ok (yields_pure _))
  have hexpression : Yields
      (Reader.ofRequest bound .interpreter .readParameters (.expression square))
      (.ok (.expression evaluator)) :=
    hcompile.bind_ok (yields_lift_bind rfl (yields_lift _))
  have hsymbol : Yields
      (Reader.ofRequest bound .interpreter .readParameters (.symbol "k" (.expr rate)))
      (.ok (.parameter (.int 0))) := fun _ => rfl
  have hlast : Yields
      (Reader.ofRequests bound .interpreter .readParameters [.expression square])
      (.ok [.expression evaluator]) := hexpression.bind_ok fun _ => rfl
  have hitems : Yields (Reader.ofRequests bound .interpreter .readParameters
      [.symbol "k" (.expr rate), .expression square])
      (.ok [.parameter (.int 0), .expression evaluator]) :=
    hsymbol.bind_ok (hlast.bind_ok (yields_pure _))
  have hreader : Yields (Reader.ofRequest bound .interpreter .readParameters getter.request)
      (.ok (.sequence (.vector [.parameter (.int 0), .expression evaluator]) false)) :=
    hitems.bind_ok (yields_pure _)
  exact hreader.bind_ok (yields_pure _)

lemma accessorOn_readParameters :
    ({} : Factory).accessorOn (system 1 2)
      ⟨0, self, .readParameters, .list [.expr rate, .expr square], .none⟩ = .ok getter := by
  have hkeyed : ({} : Factory).keyedOn (system 1 2)
      ⟨0, self, .readParameters, .list [.expr rate, .expr square], .none⟩ =
        .ok (⟨self, .readParameters, getter.request, none⟩, bound) := rfl
  rw [Factory.accessorOn_of_reported rfl hkeyed rfl]
  change Factory.accessorOn _ _ _ = _
  rw [Factory.accessorOn_withoutCache_of_reported hkeyed rfl]
  exact Factory.made_of_yields planFor_readParameters

lemma accessorOn_writeParameters :
    ({} : Factory).accessorOn (system 1 2) ⟨0, self, .writeParameters, .expr rate, .none⟩ =
      .ok (setter .parameter "k" rate) := by
  rfl

lemma accessorOn_writeStates :
    ({} : Factory).accessorOn (system 1 2) ⟨0, self, .writeStates, .expr state, .none⟩ =
      .ok (setter .state "x" state) := by
  rfl

end Damped

/-- The parameter and its square are read alike from objects that differ in the state; to set the
parameter leaves the state, and to set the state leaves the parameter. -/
theorem Factory.accessor_stays_damped :
    Damped.getter.get (Damped.system 1 2) = Damped.getter.get (Damped.system 5 2) ∧
      ((Damped.setter .parameter "k" Damped.rate).set (Damped.system 1 2) (.int 3)).1.states =
        .ok (.list [.int 1]) ∧
      ((Damped.setter .state "x" Damped.state).set (Damped.system 1 2) (.int 3)).1.parameters =
        .ok (.list [.int 2]) := by
  have hstays (request : Value) := Factory.accessor_stays (f := {}) (.empty rfl)
    (Damped.system 1 2) 0 Damped.self request .none
  obtain ⟨_, _, _, hget⟩ := (hstays _).1 _ Damped.accessorOn_readParameters
  obtain ⟨_, _, hstates⟩ := (hstays _).2.1 _ Damped.accessorOn_writeParameters
  obtain ⟨_, _, hparameters⟩ := (hstays _).2.2 _ Damped.accessorOn_writeStates
  exact ⟨hget (Damped.system 1 2) (Damped.system 5 2) rfl rfl, hstates _ _, hparameters _ _⟩

end NamedSlots
