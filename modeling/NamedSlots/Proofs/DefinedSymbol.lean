import NamedSlots.Proofs.GetterEvaluator
import NamedSlots.Proofs.InlinedEvaluation
import NamedSlots.Proofs.SymbolAgreement

/-!
# A symbol and its definition

A defined symbol leads to its definition and to what that leads to. So it is compiled exactly if its
definition is, and both give the same. Whatever converts to the symbol and has its name is read as
the definition is evaluated.
-/

namespace NamedSlots

open Relation Traced

namespace Layout

variable {l : Layout} {x d e : Expr} (hx : x.IsPlainSymbol)
  (hd : l.definitionOf x.indexedName = some d)
include hx hd

lemma unfolds_of_defined : l.Unfolds x d := by
  refine ⟨x, ?_, hd⟩
  rw [hx.scalarLeaves_eq]
  exact List.mem_singleton_self x

lemma within_iff_of_defined : l.Within x e ↔ e = x ∨ l.Within d e := by
  constructor
  · intro h
    rcases h.cases_head with rfl | ⟨d', ⟨s, hs, hdef⟩, h⟩
    · exact .inl rfl
    · rw [hx.scalarLeaves_eq, List.mem_singleton] at hs
      rw [hs, hd] at hdef
      cases hdef
      exact .inr h
  · rintro (rfl | h)
    · exact .refl
    · exact h.head (unfolds_of_defined hx hd)

lemma plainThrough_iff_of_defined : l.PlainThrough x ↔ l.PlainThrough d := by
  constructor
  · exact fun h e he => h e ((within_iff_of_defined hx hd).2 (.inr he))
  · intro h e he
    rcases (within_iff_of_defined hx hd).1 he with rfl | he
    · exact hx.hasPlainSymbols
    · exact h e he

lemma resolves_iff_of_defined :
    l.Resolves x ↔ (∃ role, l.rolesOf (.expr x) = [role]) ∧ l.Resolves d := by
  constructor
  · intro h
    refine ⟨h.known x (reached_self hx), (plainThrough_iff_of_defined hx hd).1 h.plain,
      fun s hs => ?_⟩
    exact h.known s (hs.of_unfolds (unfolds_of_defined hx hd))
  · rintro ⟨hrole, h⟩
    refine ⟨(plainThrough_iff_of_defined hx hd).2 h.plain, fun s hs => ?_⟩
    rcases (reached_iff_of_defined hx hd).1 hs with rfl | hs
    · exact hrole
    · exact h.known s hs

/-- A symbol that comes back to its name does so through a leaf of its definition, which then comes
back to its own. -/
lemma cyclicFrom_iff_of_defined : l.CyclicFrom x ↔ l.CyclicFrom d := by
  constructor
  · rintro ⟨s, hs, hcycle⟩
    rcases (reached_iff_of_defined hx hd).1 hs with rfl | hs
    · obtain ⟨name, hmentions, hback⟩ := TransGen.head'_iff.1 hcycle
      obtain ⟨d', hd', t, ht, rfl⟩ := id hmentions
      rw [hd] at hd'
      cases hd'
      exact ⟨t, reached_of_mem ht, .tail' hback hmentions⟩
    · exact ⟨s, hs, hcycle⟩
  · rintro ⟨s, hs, hcycle⟩
    exact ⟨s, hs.of_unfolds (unfolds_of_defined hx hd), hcycle⟩

end Layout

section Bound

variable {b : Bound} {layoutAt : Extra → Except Failure Layout} {l : Layout} {s : ProblemState}
  {world : World} {k : Option Nat} (hb : b.system.AnsweredBy layoutAt)
  (hl : layoutAt b.version = .ok l) (hsize : l.independent.size ≤ 1)
include hb hl hsize

/-- An evaluator interprets its expression at the time of a state, if it uses the time. -/
lemma call_used_eq {e : Expr} (he : l.PlainThrough e) {f : Evaluator}
    (hf : Yields (Evaluator.compile b e .interpreter) (.ok f))
    (htime : f.usesTime = true → s.hasTime = true) :
    f.call s.states s.parameters (s.timeIf f.usesTime) =
      e.eval .numeric (f.table.value .numeric (Source.read l.isTimeDependent s.states s.parameters
        (s.timeIf f.usesTime))) := by
  obtain ⟨_, hresolves, hsettled, _⟩ := settled_of_compile hb hl hsize he hf
  have hexpected : f.usesTime = true → f.isTimeDependent = true :=
    usesTime_of_compile hb hl hsize hf.returns
  exact call_of_checkTime hb hl hsize hf.returns
    (fun k hk => hsettled.isPlainSymbol_of_mem_keys hresolves hk)
    (s.checkTime_timeIf hexpected id htime)

section Defined

variable {x d : Expr} (hx : x.IsPlainSymbol) (hroles : l.rolesOf (.expr x) = [.observed])
  (hd : l.definitionOf x.indexedName = some d) (hplain : l.PlainThrough d)
include hx hroles hd hplain

/-- A symbol is compiled exactly if its definition is. -/
lemma compile_defined_iff :
    (∃ f, Yields (Evaluator.compile b x .interpreter) (.ok f)) ↔
      ∃ g, Yields (Evaluator.compile b d .interpreter) (.ok g) := by
  have hrole : ∃ role, l.rolesOf (.expr x) = [role] := ⟨_, hroles⟩
  rw [compile_ok_iff hb hl hsize hplain,
    compile_ok_iff hb hl hsize ((Layout.plainThrough_iff_of_defined hx hd).2 hplain),
    Layout.resolves_iff_of_defined hx hd, Layout.cyclicFrom_iff_of_defined hx hd, and_assoc,
    and_iff_right hrole]

variable {f g : Evaluator} (hf : Yields (Evaluator.compile b x .interpreter) (.ok f))
  (hg : Yields (Evaluator.compile b d .interpreter) (.ok g))
include hf hg

/-- A symbol uses the time exactly if its definition does. -/
lemma usesTime_defined_eq : f.usesTime = g.usesTime := by
  have hxplain := (Layout.plainThrough_iff_of_defined hx hd).2 hplain
  obtain ⟨hfx, hxresolves, hxsettled, hxbound⟩ := settled_of_compile hb hl hsize hxplain hf
  obtain ⟨hgd, hresolves, hsettled, hbound⟩ := settled_of_compile hb hl hsize hplain hg
  rw [Bool.eq_iff_iff, Evaluator.usesTime_iff (hfx ▸ hxresolves) (hfx ▸ hxsettled) (hfx ▸ hxbound),
    Evaluator.usesTime_iff (hgd ▸ hresolves) (hgd ▸ hsettled) (hgd ▸ hbound), hfx, hgd]
  constructor
  · rintro ⟨t, ht, hmeaning⟩
    rcases (Layout.reached_iff_of_defined hx hd).1 ht with rfl | ht
    · rw [Layout.meaningOf_of_definitionOf hx ⟨_, hroles⟩ hd] at hmeaning
      cases hmeaning
    · exact ⟨t, ht, hmeaning⟩
  · rintro ⟨t, ht, hmeaning⟩
    exact ⟨t, (Layout.reached_iff_of_defined hx hd).2 (.inr ht), hmeaning⟩

/-- A symbol and its definition have one value, although their tables are not the same. -/
lemma call_defined_eq (htime : g.usesTime = true → s.hasTime = true) :
    f.call s.states s.parameters (s.timeIf f.usesTime) =
      g.call s.states s.parameters (s.timeIf g.usesTime) := by
  have hxplain := (Layout.plainThrough_iff_of_defined hx hd).2 hplain
  have huses := usesTime_defined_eq hb hl hsize hx hroles hd hplain hf hg
  obtain ⟨_, hxresolves, hxsettled, hxbound⟩ := settled_of_compile hb hl hsize hxplain hf
  obtain ⟨_, hresolves, hsettled, hbound⟩ := settled_of_compile hb hl hsize hplain hg
  -- the table of the symbol holds its definition, and with that the leaves of the definition
  have hentry : (x, .definition d) ∈ f.table.entries := by
    have hmem := hxbound x (hx.scalarLeaves_eq ▸ List.mem_singleton_self x)
    obtain ⟨m, hm⟩ := Assoc.exists_mem_of_mem_keys hmem
    have hmeaning := hxsettled.meaningOf_of_mem hm
    rw [Layout.meaningOf_of_definitionOf hx ⟨_, hroles⟩ hd] at hmeaning
    cases hmeaning
    exact hm
  rw [call_used_eq hb hl hsize hxplain hf (huses ▸ htime), call_used_eq hb hl hsize hplain hg htime,
    eval_plainSymbol hx, huses]
  refine (hxsettled.valueIn_of_definition .numeric _ hxresolves hentry).trans ?_
  refine Expr.eval_congr .numeric fun t ht => ?_
  have hleaf := (Expr.mem_scalarLeaves (hplain d .refl)).2 ht
  exact hxsettled.valueIn_eq_valueIn .numeric _ hxresolves hresolves hsettled
    (hxsettled.closed_of_mem hentry hleaf) (hbound t hleaf)

end Defined
end Bound

namespace System

variable {sys : System} {version v object : Value} {b : Bound} {name : String} {e : Expr}
  {n : Nat} {layoutAt : Extra → Except Failure Layout}
  {s : ProblemState} {world : World} {k : Option Nat} {current : Option Value}
  (hb : Bound.of sys version = .ok b) (hanswered : b.system.AnsweredBy layoutAt)
include hb hanswered

lemma evaluator_eq_ok_iff {f : Evaluator} :
    sys.evaluator (.expr e) version = .ok f ↔
      Yields (Evaluator.compile b e .interpreter) (.ok f) := by
  refine ⟨fun h => ?_, evaluator_of_compile hb⟩
  obtain ⟨b', hb', hf⟩ := returns_of_evaluator h
  cases hb.symm.trans hb'
  exact (Evaluator.compile_quiet hanswered e).yields hf

/-- The getters of what is read through an evaluator of its expression. -/
lemma accessor_eq_ok_iff_of_ofSymbol (hown : b.system.own = s.toInterface world k)
    (hq : Request.ofValue .standard v = .ok (.symbol name v))
    (hreported : sys.reported b.version = .ok current)
    (hread : Reader.ofSymbol b .interpreter .readAny v = (do
      let f ← Evaluator.compile b e .interpreter
      Reader.ofEvaluator b f)) {a : Accessor} :
    sys.accessor n object .readAny v version = .ok a ↔
      ∃ f, Yields (Evaluator.compile b e .interpreter) (.ok f) ∧
        (f.usesTime = true → s.hasTime = true) ∧
        a = ⟨n, .getter (.expression f), .symbol name v, b.version⟩ := by
  have hplan : Factory.planFor .interpreter b .readAny (.symbol name v) = (do
      return .getter (← Reader.ofSymbol b .interpreter .readAny v)) := rfl
  rw [hread] at hplan
  constructor
  · intro ha
    obtain ⟨b', q, plan, hb', hq', h, rfl⟩ := exists_plan_of_accessor ha
    cases hb.symm.trans hb'
    cases hq.symm.trans hq'
    rw [hplan] at h
    obtain ⟨r, hr, h⟩ := h.bind
    cases h.of_pure
    obtain ⟨f, hf, hr⟩ := hr.bind
    obtain ⟨_, hrequired, hr⟩ := Except.eq_ok_of_bind hr.of_lift
    cases hr
    rw [hown] at hrequired
    exact ⟨f, (Evaluator.compile_quiet hanswered e).yields hf,
      Reader.requireUsed_state_iff.1 hrequired, rfl⟩
  · rintro ⟨f, hf, htime, rfl⟩
    have hreader : Reader.ofEvaluator b f = .ok (.expression f) := by
      unfold Reader.ofEvaluator
      rw [hown, Reader.requireUsed_state htime]
      rfl
    have hyields : Yields (Factory.planFor .interpreter b .readAny (.symbol name v))
        (.ok (.getter (.expression f))) := by
      rw [hplan]
      refine (hf.bind_ok ?_).bind_ok (yields_pure _)
      rw [hreader]
      exact yields_lift _
    exact accessor_of_plan hb hq hreported hyields

end System
end NamedSlots
