import NamedSlots.Proofs.LeafEntries
import NamedSlots.Proofs.SlotAccess
import NamedSlots.System.State

/-!
# What a reading depends on

Two problem states that hold the same items in the slots of a reader, at the same time, are read
alike: whatever else their storage holds is not looked at.
-/

namespace NamedSlots

namespace ProblemState

def storage (s : ProblemState) (role : Role) : Value :=
  if role = .parameter then s.parameters else s.states

/-- States that hold the same items in some slots, at the same time. -/
def AgreesOn (slots : List Slot) (s s' : ProblemState) : Prop :=
  s.time = s'.time ∧
    ∀ slot ∈ slots, (s.storage slot.1).item slot.2 = (s'.storage slot.1).item slot.2

variable {s s' : ProblemState} {slots slots' : List Slot}

lemma AgreesOn.mono (h : s.AgreesOn slots s') (hsub : ∀ slot ∈ slots', slot ∈ slots) :
    s.AgreesOn slots' s' :=
  ⟨h.1, fun slot hslot => h.2 slot (hsub slot hslot)⟩

lemma storage_toInterface (world : World) (s : ProblemState) (k : Option Nat) (role : Role) :
    (s.toInterface world k).storage role = .ok (s.storage role) := by
  unfold Interface.storage storage
  split <;> rfl

end ProblemState

namespace Reader

/-! ### Readers one after the other -/

section Items

variable {i : Interface}

lemma readAll_map {g : Index → Reader} {v : Value} (hg : ∀ k, (g k).read i = v.item k)
    (ks : List Index) : readAll i (ks.map g) = ks.mapM v.item := by
  induction ks with
  | nil => rfl
  | cons k ks ih =>
    rw [List.map_cons, readAll, hg, ih, List.mapM_cons]

/-- Storage is looked at once for gathered slots, and for each of them if they are read one by one:
if there is a slot at all, a failure to offer storage shows in either case. -/
lemma read_gather {role : Role} {g : Index → Reader}
    (hg : ∀ k, (g k).read i = do (← i.storage role).item k) (k : Index) (ks : List Index) :
    (gather role (k :: ks)).read i = (do return .list (← readAll i ((k :: ks).map g))) := by
  cases hstorage : i.storage role with
  | error e =>
    rw [read, hstorage, List.map_cons, readAll, hg, hstorage]
    rfl
  | ok v =>
    have hitem (k : Index) : (g k).read i = v.item k := by
      rw [hg, hstorage]
      rfl
    rw [read, hstorage, readAll_map hitem]
    rfl

/-- Gathered slots are read as they would be one by one. -/
lemma read_ofItems (rs : List Reader) :
    (ofItems rs).read i = (do return .list (← readAll i rs)) := by
  rcases ofItems_cases rs with ⟨ks, rfl, h⟩ | ⟨ks, rfl, h⟩ | h
  · cases ks with
    | nil => cases h
    | cons k ks =>
      rw [h]
      exact read_gather (fun k => by rw [read]) k ks
  · cases ks with
    | nil => cases h
    | cons k ks =>
      rw [h]
      exact read_gather (fun k => by rw [read]) k ks
  · rw [h, read]

end Items

/-! ### Readers of problem states -/

section State

variable {tables : Except Failure Layout} {s s' : ProblemState} {world world' : World}
  {k k' : Option Nat}

lemma read_state (i : Index) :
    (state i).read (s.toInterface world k) = (s.storage .state).item i := by
  rw [read, ProblemState.storage_toInterface]
  rfl

lemma read_parameter (i : Index) :
    (parameter i).read (s.toInterface world k) = (s.storage .parameter).item i := by
  rw [read, ProblemState.storage_toInterface]
  rfl

lemma read_time : time.read (s.toInterface world k) = s.currentTime := rfl

lemma currentTime_congr (h : s.time = s'.time) : s.currentTime = s'.currentTime := by
  unfold ProblemState.currentTime
  rw [h]

lemma read_expression (f : Evaluator) :
    (expression f).read (s.toInterface world k) = (do
      let t ← Interface.ifUsed f.usesTime s.currentTime
      f.call (if f.usesStates then s.storage .state else .none)
        (if f.usesParameters then s.storage .parameter else .none) t) := by
  rw [read, ProblemState.storage_toInterface, ProblemState.storage_toInterface]
  cases f.usesStates <;> cases f.usesParameters <;> rfl

lemma mem_slots_of_mem {f : Evaluator} {x : Expr} {src : Source} {i : Index}
    (h : (x, src) ∈ f.table.bindings) (hi : src.index? = some i) : (src.role, i) ∈ f.slots :=
  List.mem_filterMap.2 ⟨(x, src), h, by simp only [hi, Option.map_some]⟩

lemma read_expression_congr {e : Expr} {f : Evaluator} (hf : f.Serves tables e)
    (h : s.AgreesOn f.slots s') :
    (expression f).read (s.toInterface world k) = (expression f).read (s'.toInterface world' k') := by
  rw [read_expression, read_expression, currentTime_congr h.1]
  congr 1
  funext t
  apply Evaluator.call_congr rfl
  intro x src hmem
  cases src with
  | state i =>
    have huses : f.usesStates = true := Evaluator.usesStates_of_mem hmem
    rw [huses]
    exact h.2 (.state, i) (mem_slots_of_mem hmem rfl)
  | parameter i =>
    have huses : f.usesParameters = true := Evaluator.usesParameters_of_mem hmem
    rw [huses]
    exact h.2 (.parameter, i) (mem_slots_of_mem hmem rfl)
  | time => rfl
  | provider g =>
    obtain ⟨l, _, _, hm⟩ := hf.2 x _ (LeafTable.mem_bindings.1 hmem)
    exact absurd rfl (Layout.role_of_meaningOf hm)

lemma read_symbol_congr {symbol : Value} {r : Reader} (hr : r.ServesSymbol tables symbol)
    (h : s.AgreesOn r.slots s') :
    r.read (s.toInterface world k) = r.read (s'.toInterface world' k') := by
  cases r with
  | state i =>
    rw [read_state, read_state]
    exact h.2 (.state, i) (List.mem_singleton_self _)
  | parameter i =>
    rw [read_parameter, read_parameter]
    exact h.2 (.parameter, i) (List.mem_singleton_self _)
  | time =>
    rw [read_time, read_time]
    exact currentTime_congr h.1
  | expression f =>
    obtain ⟨_, _, _, _, _, hf⟩ := hr
    exact read_expression_congr hf h
  | _ => exact hr.elim

end State

variable {tables : Except Failure Layout} {s s' : ProblemState} {world world' : World}
  {k k' : Option Nat}

mutual

/-- What a reader that serves a request gets from a problem state depends on its slots. -/
lemma Serves.read_congr (q : Request) (r : Reader) (hr : r.Serves tables q)
    (h : s.AgreesOn r.slots s') :
    r.read (s.toInterface world k) = r.read (s'.toInterface world' k') := by
  match q with
  | .symbol _ symbol => exact read_symbol_congr hr h
  | .expression e =>
    obtain ⟨f, rfl, hf⟩ := hr
    exact read_expression_congr hf h
  | .sequence items isTuple =>
    obtain ⟨rs, rfl, hr⟩ := hr
    rw [slots, slots_ofItems] at h
    rw [read, read, read_ofItems, read_ofItems, AllServe.read_congr items rs hr h]
  | .array shape elements =>
    obtain ⟨rs, rfl, hr⟩ := hr
    rw [slots, slots_ofItems] at h
    rw [read, read, read_ofItems, read_ofItems, AllServe.read_congr elements rs hr h]

lemma AllServe.read_congr (qs : List Request) (rs : List Reader) (hrs : AllServe tables qs rs)
    (h : s.AgreesOn (allSlots rs) s') :
    readAll (s.toInterface world k) rs = readAll (s'.toInterface world' k') rs := by
  match qs with
  | [] =>
    cases hrs
    rfl
  | q :: qs =>
    obtain ⟨r, rest, rfl, hr, hrs⟩ := hrs
    have hhead := Serves.read_congr q r hr
      (h.mono fun slot hslot => List.mem_append_left (allSlots rest) hslot)
    have hrest := AllServe.read_congr qs rest hrs
      (h.mono fun slot hslot => List.mem_append_right r.slots hslot)
    rw [readAll, readAll, hhead, hrest]

end

end Reader
end NamedSlots
