import NamedSlots.Proofs.TracedRun
import NamedSlots.Session.Tools

/-!
# Single steps of a session

What the steps that change versioned layouts, build accessors and call them make of a session,
whether they fail or not.
-/

namespace NamedSlots

namespace Step

variable {α : Type}

lemma behind_run (table : Session → List (Nat × α)) (fault : Fault) (v : Value) (s : Session) :
    (behind table fault v).run.run s =
      (match Session.behind? (table s) v with
        | some a => .ok a
        | none => .error (.fault fault), s) := by
  change StateT.run (match Session.behind? (table s) v with
    | some a => (pure a : Step α)
    | none => failWith fault).run s = _
  cases Session.behind? (table s) v <;> rfl

lemma behind_run_some {table : Session → List (Nat × α)} {fault : Fault} {v : Value}
    {s : Session} {a : α} (h : Session.behind? (table s) v = some a) :
    (behind table fault v).run.run s = (.ok a, s) := by
  rw [behind_run, h]

lemma behind_run_none {table : Session → List (Nat × α)} {fault : Fault} {v : Value}
    {s : Session} (h : Session.behind? (table s) v = none) :
    (behind table fault v).run.run s = (.error (.fault fault), s) := by
  rw [behind_run, h]

lemma lift_run (r : Except Failure α) (s : Session) :
    (liftM r : Step α).run.run s = (r, s) := by
  cases r <;> rfl

lemma system_run (v : Value) (s : Session) :
    (system v).run.run s = (.ok (System.of s.objects.world v), s) := rfl

/-! ### Building -/

/-- The factory of a build. -/
def ownerOf (s : Session) : Option Value → Option Factory
  | some v => Session.behind? s.factories v
  | none => some uncaching

def built (s : Session) (owner : Option Value) : Factory × Trace × Except Failure Accessor → Session
  | (f, trace, result) =>
    { s with
      nextIdentity := s.nextIdentity + 1
      trace := ⟨s.trace.asked ++ trace.asked, s.trace.warnings ++ trace.warnings⟩
      factories :=
        match owner with
        | some (.handle h) => s.factories.map fun (k, g) => (k, if k = h.identity then f else g)
        | _ => s.factories
      accessors :=
        match result with
        | .ok a => Assoc.put a.identity a s.accessors
        | .error _ => s.accessors }

lemma build_run {s : Session} {owner : Option Value} {sys : Value} {p : Permission}
    {request version : Value} {g : Factory} {answer : Factory × Trace × Except Failure Accessor}
    (hg : ownerOf s owner = some g)
    (hanswer : g.request s.nextIdentity (System.of s.objects.world sys) sys p request version =
      answer) :
    (build owner sys p request version).run.run s =
      (answer.2.2.map fun a => (.handle ⟨a.identity, a.className, a.className⟩, a),
        built s owner answer) := by
  have hfresh : fresh.run.run s =
      (.ok s.nextIdentity, { s with nextIdentity := s.nextIdentity + 1 }) := rfl
  cases owner with
  | none =>
    cases hg
    have hrun : (pure uncaching : Step Factory).run.run s = (.ok uncaching, s) := rfl
    unfold build
    dsimp only
    refine (run_bind_ok hrun).trans ?_
    refine (run_bind_ok (system_run sys s)).trans ((run_bind_ok hfresh).trans ?_)
    rw [hanswer]
    rcases answer with ⟨f, trace, e | a⟩
    · rfl
    · rfl
  | some v =>
    have hrun : (factory v).run.run s = (.ok g, s) := behind_run_some hg
    cases v with
    | handle h =>
      unfold build
      dsimp only
      refine (run_bind_ok hrun).trans ?_
      refine (run_bind_ok (system_run sys s)).trans ((run_bind_ok hfresh).trans ?_)
      rw [hanswer]
      rcases answer with ⟨f, trace, e | a⟩
      · rfl
      · rfl
    | _ => cases hg

lemma build_run_none {s : Session} {owner : Option Value} {sys : Value} {p : Permission}
    {request version : Value} (hg : ownerOf s owner = none) :
    (build owner sys p request version).run.run s = (.error (.fault .missingAttribute), s) := by
  cases owner with
  | none => cases hg
  | some v =>
    have hrun : (factory v).run.run s = (.error (.fault .missingAttribute), s) :=
      behind_run_none hg
    unfold build
    dsimp only
    rw [run_bind_error _ hrun]

/-! ### Changing a layout -/

/-- A call that changes a versioned layout has no answer; one that fails changes nothing. -/
lemma callMethod_change {s : Session} {h : Handle} {l : VersionedLayout} {name : String}
    (hfind : Assoc.find? h.identity s.objects = some (.versioned l))
    (hquery : Query.named? name = none) (hprovider : (name == Query.provider.name) = false)
    (hversions : (name == "versions") = false) (args : List Value) :
    (callMethod (.handle h) name args).run.run s =
      match SystemObject.changeLayout l name args with
      | none => (.error (.fault .missingAttribute), s)
      | some (.error e) => (.error e, s)
      | some (.ok l') =>
        (.ok .none, { s with objects := s.objects.update h.identity fun _ => .versioned l' }) := by
  have hnotice (i : Interface) : (notice i name args).run.run s = (.ok (), s) := by
    unfold notice
    simp only [hprovider, Bool.false_and, Bool.false_eq_true, if_false]
    rfl
  let changed : Except Failure (SystemObject × Value) :=
    (SystemObject.changeLayout l name args).elim (failWith .missingAttribute) fun changed =>
      changed.map fun l' => (.versioned l', Value.none)
  have hcall (i : Interface) : (SystemObject.versioned l).call i name args = changed := by
    unfold SystemObject.call
    simp only [hquery, hversions, Bool.false_eq_true, if_false]
    cases hchanged : SystemObject.changeLayout l name args with
    | none => simp only [changed, hchanged, Option.elim_none]
    | some result => cases result <;> simp only [changed, hchanged, Option.elim_some] <;> rfl
  have hrun : (callMethod (.handle h) name args).run.run s = (do
      let answer ← changed
      modify fun s => { s with objects := s.objects.update h.identity fun _ => answer.1 }
      return answer.2 : Step Value).run.run s := by
    unfold callMethod
    have hbehind : Session.behind? s.objects (.handle h) = some (.versioned l) := hfind
    refine (run_bind_ok (rfl : (get : Step Session).run.run s = (.ok s, s))).trans ?_
    dsimp only
    rw [hbehind]
    dsimp only
    refine (run_bind_ok (hnotice _)).trans ?_
    rw [hcall]
  rw [hrun]
  unfold changed
  cases SystemObject.changeLayout l name args with
  | none => rfl
  | some result => cases result <;> rfl

/-- A versioned layout is changed by its method, or stays as it is when the method fails. -/
lemma callMethod_run {s : Session} {h : Handle} {l : VersionedLayout} {name : String}
    (hfind : Assoc.find? h.identity s.objects = some (.versioned l))
    (hquery : Query.named? name = none) (hprovider : (name == Query.provider.name) = false)
    (hversions : (name == "versions") = false) (args : List Value) :
    ((callMethod (.handle h) name args).run.run s).2 = s ∨
      ∃ l', SystemObject.changeLayout l name args = some (.ok l') ∧
        ((callMethod (.handle h) name args).run.run s).2 =
          { s with objects := s.objects.update h.identity fun _ => .versioned l' } := by
  rw [callMethod_change hfind hquery hprovider hversions]
  cases SystemObject.changeLayout l name args with
  | none => exact .inl rfl
  | some result =>
    cases result with
    | error e => exact .inl rfl
    | ok l' => exact .inr ⟨l', rfl, rfl⟩

/-! ### Calling accessors -/

lemma getThrough_run {s : Session} {acc obj : Value} {a : Accessor}
    (ha : Session.behind? s.accessors acc = some a) :
    (getThrough acc obj).run.run s = (a.get (System.of s.objects.world obj), s) := by
  unfold getThrough
  refine (run_bind_ok (behind_run_some ha)).trans ?_
  refine (run_bind_ok (system_run obj s)).trans ?_
  exact lift_run _ s

lemma getThrough_state (s : Session) (acc obj : Value) :
    ((getThrough acc obj).run.run s).2 = s := by
  cases ha : Session.behind? s.accessors acc with
  | some a => rw [getThrough_run ha]
  | none =>
    unfold getThrough
    rw [run_bind_error _ (behind_run_none ha)]

/-- A change of an object that concerns the storage of problem states only. -/
structure StorageOnly (change : SystemObject → SystemObject) : Prop where
  state (p : ProblemState) : ∃ u v, change (.state p) = .state { p with states := u, parameters := v }
  versioned (l : VersionedLayout) : change (.versioned l) = .versioned l

def written (storage : Storage) (object : SystemObject) : SystemObject :=
  let object :=
    match storage.states with
    | .ok v => object.setStorage .state v
    | .error _ => object
  match storage.parameters with
  | .ok v => object.setStorage .parameter v
  | .error _ => object

lemma storageOnly_written (storage : Storage) : StorageOnly (written storage) := by
  obtain ⟨states, parameters⟩ := storage
  constructor
  · intro p
    cases states <;> cases parameters <;> exact ⟨_, _, rfl⟩
  · intro l
    cases states <;> cases parameters <;> rfl

lemma setThrough_run {s : Session} {acc : Value} {h : Handle} {v : Value} {a : Accessor}
    (ha : Session.behind? s.accessors acc = some a) {storage : Storage} {failure : Option Failure}
    (hset : a.set (System.of s.objects.world (.handle h)) v = (storage, failure)) :
    (setThrough acc (.handle h) v).run.run s =
      (failure.elim (.ok ()) .error,
        { s with objects := s.objects.update h.identity (written storage) }) := by
  unfold setThrough
  refine (run_bind_ok (behind_run_some ha)).trans ?_
  refine (run_bind_ok (system_run _ s)).trans ?_
  rw [hset]
  cases failure with
  | none => rfl
  | some f => rfl

/-- A call of a setter changes at most the storage of problem states. -/
lemma setThrough_state (s : Session) (acc obj v : Value) :
    ((setThrough acc obj v).run.run s).2 = s ∨
      ∃ k change, StorageOnly change ∧
        ((setThrough acc obj v).run.run s).2 = { s with objects := s.objects.update k change } := by
  cases ha : Session.behind? s.accessors acc with
  | none =>
    unfold setThrough
    rw [run_bind_error _ (behind_run_none ha)]
    exact .inl rfl
  | some a =>
    cases hset : a.set (System.of s.objects.world obj) v with
    | mk storage failure =>
      cases obj with
      | handle h =>
        right
        refine ⟨h.identity, written storage, storageOnly_written storage, ?_⟩
        rw [setThrough_run ha hset]
      | _ =>
        left
        unfold setThrough
        rw [run_bind_ok (behind_run_some ha), run_bind_ok (system_run _ s), hset]
        cases failure <;> rfl

end Step
end NamedSlots
