import NamedSlots.Proofs.BindingSuccess
import NamedSlots.Proofs.SlotReading

/-!
# Evaluators on problem states

For a system that answers from a layout, an expression is compiled exactly if it is bound. The
reader of an evaluator passes on only what the evaluator uses. On a problem state that has a time
whenever the layout has an independent variable, that makes no difference.
-/

namespace NamedSlots

open Traced

namespace Layout

/-- Whether there is an independent variable. -/
def isTimeDependent (l : Layout) : Bool := l.independent.size == 1

lemma isTimeDependent_of_has {l : Layout} (hsize : l.independent.size ≤ 1) {v : Value}
    (h : l.has .independent v = true) : l.isTimeDependent = true := by
  have hpos := size_pos_of_has_independent h
  rw [isTimeDependent, beq_iff_eq]
  omega

end Layout

/-! ### Compiling for a layout -/

namespace Evaluator

variable {b : Bound} {layoutAt : Extra → Except Failure Layout} {l : Layout} {e : Expr}

lemma compile_quiet (hb : b.system.AnsweredBy layoutAt) (e : Expr) :
    Quiet (compile b e .interpreter) :=
  (quiet_lift _).bind fun isTimeDependent =>
    (Bound.bind_quiet hb isTimeDependent e).bind fun _ => quiet_pure _

section Layout

variable (hb : b.AnsweredBy l) (hsize : l.independent.size ≤ 1)
include hb hsize

lemma isTimeDependent_bound : b.isTimeDependent = .ok l.isTimeDependent :=
  hb.isTimeDependent_of_size hsize

lemma compile_of_bind {t : LeafTable} (ht : Yields (b.bind l.isTimeDependent e) (.ok t)) :
    Yields (compile b e .interpreter) (.ok ⟨e, t, l.isTimeDependent, b.version, none⟩) :=
  yields_lift_bind (isTimeDependent_bound hb hsize) (ht.bind_ok (yields_pure _))

lemma bind_of_compile {f : Evaluator} (h : Returns (compile b e .interpreter) f) :
    Returns (b.bind l.isTimeDependent e) f.table ∧
      f = ⟨e, f.table, l.isTimeDependent, b.version, none⟩ := by
  obtain ⟨isTimeDependent, htime, h⟩ := h.bind
  rw [isTimeDependent_bound hb hsize] at htime
  cases htime.of_lift
  obtain ⟨t, ht, h⟩ := h.bind
  cases h.of_pure
  exact ⟨ht, rfl⟩

end Layout

/-! ### What an evaluator uses -/

section Uses

variable {f : Evaluator} {tables : Except Failure Layout}

lemma Serves.usesProvider_eq (hf : f.Serves tables e) : f.usesProvider = false := by
  change (f.table.bindings.any fun entry => entry.2.role == .observed) = false
  rw [List.any_eq_false]
  rintro ⟨x, src⟩ hmem hrole
  obtain ⟨_, _, _, hm⟩ := hf.2 x _ (LeafTable.mem_bindings.1 hmem)
  exact Layout.role_of_meaningOf hm (eq_of_beq hrole)

/-- An evaluator that uses the time has the independent variable among its leaves. -/
lemma Serves.has_of_usesTime (hf : f.Serves (.ok l) e) (h : f.usesTime = true) :
    ∃ v, l.has .independent v = true := by
  change ((f.table.bindings.any fun entry => entry.2.role == .independent) ||
    (f.usesProvider && f.isTimeDependent)) = true at h
  rw [hf.usesProvider_eq, Bool.false_and, Bool.or_false] at h
  obtain ⟨⟨x, src⟩, hmem, hrole⟩ := List.any_eq_true.1 h
  obtain ⟨_, heq, _, hm⟩ := hf.2 x _ (LeafTable.mem_bindings.1 hmem)
  cases heq
  refine ⟨.expr x, ?_⟩
  cases src with
  | time =>
    unfold Layout.meaningOf at hm
    split at hm <;> simp_all [Layout.has_of_rolesOf]
  | _ => cases hrole

end Uses

end Evaluator

/-! ### Reading an evaluator from a problem state -/

namespace ProblemState

variable {s : ProblemState}

/-- The time if it is asked for. -/
def timeIf (s : ProblemState) (isAsked : Bool) : Value := if isAsked then s.time else .none

lemma isTime_timeIf {isAsked : Bool} (h : isAsked = true → s.hasTime = true) :
    Evaluator.isTime (s.timeIf isAsked) = isAsked := by
  have htime : Evaluator.isTime s.time = s.hasTime := by
    unfold hasTime
    cases s.time <;> rfl
  cases isAsked with
  | false => rfl
  | true => exact htime.trans (h rfl)

/-- A time that is needed is given, and none is given where it is not expected. -/
lemma checkTime_timeIf {f : Evaluator} {isAsked : Bool}
    (hexpected : isAsked = true → f.isTimeDependent = true)
    (huses : f.usesTime = true → isAsked = true) (htime : isAsked = true → s.hasTime = true) :
    f.checkTime (s.timeIf isAsked) = .ok () := by
  unfold Evaluator.checkTime
  rw [isTime_timeIf htime]
  cases isAsked <;> cases hd : f.isTimeDependent <;> cases hu : f.usesTime <;> simp_all <;> rfl

lemma currentTime_eq (h : s.hasTime = true) : s.currentTime = .ok s.time := by
  unfold hasTime at h
  unfold currentTime
  cases ht : s.time <;> simp_all <;> rfl

lemma ifUsed_currentTime {isUsed : Bool} (h : isUsed = true → s.hasTime = true) :
    Interface.ifUsed isUsed s.currentTime = .ok (s.timeIf isUsed) := by
  cases isUsed with
  | false => rfl
  | true => exact currentTime_eq (h rfl)

lemma require_currentTime (world : World) (k : Option Nat) (h : s.hasTime = true) :
    (s.toInterface world k).require .currentTime = .ok () := by
  have hprobe : (s.toInterface world k).hasCapability .currentTime = .ok s.hasTime := rfl
  unfold Interface.require
  rw [hprobe, h]
  rfl

end ProblemState

namespace Reader

variable {s : ProblemState} {world : World} {k : Option Nat} {f : Evaluator}

lemma requireUsed_state (h : f.usesTime = true → s.hasTime = true) :
    requireUsed (s.toInterface world k) f = .ok () := by
  have htime : (if f.usesTime then (s.toInterface world k).require .currentTime else pure ()) =
      .ok () := by
    split
    · exact s.require_currentTime world k (h ‹_›)
    · rfl
  unfold requireUsed
  cases f.usesStates <;> cases f.usesParameters <;> exact htime

/-- A problem state offers its storage always, but its time only if it has one. -/
lemma requireUsed_state_iff :
    requireUsed (s.toInterface world k) f = .ok () ↔ (f.usesTime = true → s.hasTime = true) := by
  refine ⟨fun h huses => ?_, requireUsed_state⟩
  have hrequire : (s.toInterface world k).require .currentTime = .ok () := by
    unfold requireUsed at h
    rw [huses] at h
    revert h
    cases f.usesStates <;> cases f.usesParameters <;> exact id
  have hprobe : (s.toInterface world k).hasCapability .currentTime = .ok s.hasTime := rfl
  unfold Interface.require at hrequire
  rw [hprobe] at hrequire
  cases hhas : s.hasTime with
  | true => rfl
  | false =>
    rw [hhas] at hrequire
    cases hrequire

/-- The reader of an evaluator passes on the storage, and the time exactly if it is used. -/
lemma read_evaluator_used {tables : Except Failure Layout} {e : Expr} (hf : f.Serves tables e)
    (htime : f.usesTime = true → s.hasTime = true) :
    (expression f).read (s.toInterface world k) =
      f.call s.states s.parameters (s.timeIf f.usesTime) := by
  rw [read_expression, ProblemState.ifUsed_currentTime htime]
  change f.call _ _ (s.timeIf f.usesTime) = _
  refine Evaluator.call_congr rfl fun x src hmem => ?_
  cases src with
  | state i =>
    have hstates : f.usesStates = true := Evaluator.usesStates_of_mem hmem
    rw [hstates]
    rfl
  | parameter i =>
    have hparameters : f.usesParameters = true := Evaluator.usesParameters_of_mem hmem
    rw [hparameters]
    rfl
  | time => rfl
  | provider g =>
    obtain ⟨l, _, _, hm⟩ := hf.2 x _ (LeafTable.mem_bindings.1 hmem)
    exact absurd rfl (Layout.role_of_meaningOf hm)

/-- To pass on what an evaluator uses is as good as to pass everything. -/
lemma read_evaluator {tables : Except Failure Layout} {e : Expr} (hf : f.Serves tables e)
    (huses : f.usesTime = true → f.isTimeDependent = true)
    (htime : f.isTimeDependent = true → s.hasTime = true) :
    (expression f).read (s.toInterface world k) =
      f.call s.states s.parameters (s.timeIf f.isTimeDependent) := by
  rw [read_evaluator_used hf fun h => htime (huses h)]
  have hpassed := s.checkTime_timeIf huses id fun h => htime (huses h)
  have hgiven := s.checkTime_timeIf id huses htime
  refine Evaluator.call_congr (hpassed.trans hgiven.symm) fun x src hmem => ?_
  cases src with
  | state i => rfl
  | parameter i => rfl
  | time =>
    have hused : f.usesTime = true := Evaluator.usesTime_of_mem hmem
    rw [hused, huses hused]
  | provider g =>
    obtain ⟨l, _, _, hm⟩ := hf.2 x _ (LeafTable.mem_bindings.1 hmem)
    exact absurd rfl (Layout.role_of_meaningOf hm)

end Reader
end NamedSlots
