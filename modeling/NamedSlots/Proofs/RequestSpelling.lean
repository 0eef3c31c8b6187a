import NamedSlots.Proofs.LayoutAnswer
import NamedSlots.Proofs.Planning

/-!
# Spellings of a request

Resolution over layouts sees of a symbol its form and its name, and the expression that it
converts to when it is observed. Requests that agree in these, symbol by symbol, and hold the very
same expressions have the same plan or none. This is finer than the equality of requests, which
takes some expressions of different value for equal.
-/

namespace NamedSlots

/-! ### Successful results -/

lemma toOption_bind {ε α β : Type} (x : Except ε α) (f : α → Except ε β) :
    (x >>= f).toOption = x.toOption.bind fun a => (f a).toOption := by
  cases x <;> rfl

namespace Traced

variable {α β : Type}

/-- The value that a computation gives with the trace that it leaves, unless it fails. -/
def success (x : Traced α) (t : Trace) : Option (α × Trace) :=
  match x.run.run t with
  | (.ok a, t') => some (a, t')
  | (.error _, _) => none

lemma success_bind {x y : Traced α} {f g : α → Traced β} (hx : x.success = y.success)
    (hf : ∀ a, (f a).success = (g a).success) : (x >>= f).success = (y >>= g).success := by
  funext t
  have hbind (z : Traced α) (h : α → Traced β) :
      (z >>= h).success t = (z.success t).bind fun (a, t') => (h a).success t' := by
    unfold success
    rw [run_bind]
    rcases z.run.run t with ⟨e | a, t'⟩ <;> rfl
  rw [hbind, hbind, hx]
  apply Option.bind_congr
  rintro ⟨a, t'⟩ -
  exact congrFun (hf a) t'

lemma success_throw (e e' : Failure) :
    (throw e : Traced α).success = (throw e' : Traced α).success := rfl

lemma success_lift {r s : Except Failure α} (h : r.toOption = s.toOption) :
    (liftM r : Traced α).success = (liftM s : Traced α).success := by
  cases r with
  | error e =>
    cases s with
    | error e' => rfl
    | ok b => cases h
  | ok a =>
    cases s with
    | error e' => cases h
    | ok b =>
      cases h
      rfl

end Traced

/-! ### Symbols that resolution does not tell apart -/

/-- Symbols of one form and one name, which convert to one expression or to none. -/
structure Value.Alike (v w : Value) : Prop where
  key : v.key? = w.key?
  form : Classifier.standard.form v = Classifier.standard.form w
  toExpr : v.toExpr.toOption = w.toExpr.toOption

namespace Request

mutual

/-- Alike symbols in the same places, and the very same expressions. -/
def Alike : Request → Request → Prop
  | symbol _ v, symbol _ w => v.Alike w
  | array s as, array t bs => s = t ∧ AllAlike as bs
  | sequence as t, sequence bs u => t = u ∧ AllAlike as bs
  | expression a, expression b => a = b
  | _, _ => False

def AllAlike : List Request → List Request → Prop
  | [], [] => True
  | a :: as, b :: bs => Alike a b ∧ AllAlike as bs
  | _, _ => False

end

end Request

section Resolution

variable {b : Bound} {layoutAt : Extra → Except Failure Layout} {v w : Value}

lemma Layout.has_congr (l : Layout) (role : Role) (h : v.key? = w.key?) :
    l.has role v = l.has role w := by
  cases role <;> simp only [Layout.has, Layout.table?, Option.map_some, SlotTable.contains,
    SlotTable.find?, DefinitionTable.contains, h]

lemma Layout.place?_congr (l : Layout) (role : Role) (h : v.key? = w.key?) :
    l.place? role v = l.place? role w := by
  simp only [Layout.place?, SlotTable.find?, h]

variable (hb : b.system.AnsweredBy layoutAt) (h : v.Alike w)
include hb h

lemma claims_congr : b.system.claims b.version v = b.system.claims b.version w := by
  unfold System.claims
  rw [hb.predicate]
  congr 1
  funext role
  simp only [Interface.ofLayoutAt]
  cases Interface.isQueried role with
  | false => rfl
  | true =>
    change (layoutAt b.version >>= fun l => pure (l.has role v)) =
      layoutAt b.version >>= fun l => pure (l.has role w)
    simp only [Layout.has_congr _ role h.key]

lemma classify_congr : (b.classify v).toOption = (b.classify w).toOption := by
  unfold Bound.classify System.classify
  rw [h.form, claims_congr hb h]
  cases Classifier.standard.form w with
  | notSymbolic => rfl
  | array => rfl
  | scalar =>
    rw [toOption_bind, toOption_bind]
    apply Option.bind_congr
    intro roles _
    rcases roles with _ | ⟨role, _ | ⟨other, roles⟩⟩ <;> rfl

lemma indexOf_congr (role : Role) :
    (b.system.indexOf b.version role v).toOption = (b.system.indexOf b.version role w).toOption := by
  unfold System.indexOf
  rw [hb.index]
  simp only [Interface.ofLayoutAt]
  cases Interface.isStored role with
  | false => rfl
  | true =>
    simp only [if_true, Attribute.method?, Layout.place?_congr _ role h.key]
    simp only [toOption_bind]
    apply Option.bind_congr
    intro place _
    cases place <;> rfl

lemma locate_congr : (b.locate v).toOption = (b.locate w).toOption := by
  have hclassify := classify_congr hb h
  unfold Bound.classify at hclassify
  unfold Bound.locate System.locate
  rw [toOption_bind, toOption_bind, hclassify]
  apply Option.bind_congr
  intro role _
  cases role with
  | state => exact indexOf_congr hb h .state
  | parameter => exact indexOf_congr hb h .parameter
  | _ => rfl

lemma definition_congr : b.definition v = b.definition w := by
  unfold Bound.definition System.definition
  rw [hb.definitions]
  simp only [Interface.ofLayoutAt, Attribute.method?, Definitions.find?, h.key]

/-! ### Plans for alike requests -/

lemma ofObserved_congr (backend : Backend) :
    (Reader.ofObserved b backend v).success = (Reader.ofObserved b backend w).success := by
  unfold Reader.ofObserved
  rw [Bound.provider_eq hb.ownProvider hb.provider, Bound.provider_eq hb.ownProvider hb.provider,
    definition_congr hb h]
  refine Traced.success_bind rfl fun provider => ?_
  cases provider with
  | some f => rfl
  | none =>
    refine Traced.success_bind rfl fun definition => ?_
    cases definition with
    | none => exact Traced.success_throw _ _
    | some e => exact Traced.success_bind (Traced.success_lift h.toExpr) fun e => rfl

omit hb h in
lemma check_congr (v w : Value) (p : Permission) (role : Role) :
    (p.check v role).toOption = (p.check w role).toOption := by
  unfold Permission.check
  split <;> rfl

lemma readerOfSymbol_congr (backend : Backend) (p : Permission) :
    (Reader.ofSymbol b backend p v).success = (Reader.ofSymbol b backend p w).success := by
  have hcheck (role : Role) := Traced.success_lift (check_congr v w p role)
  have hlocate := Traced.success_lift (locate_congr hb h)
  have hclassify := Traced.success_lift (classify_congr hb h)
  rw [Reader.ofSymbol_eq, Reader.ofSymbol_eq]
  refine Traced.success_bind hclassify fun role => ?_
  cases role with
  | unknown => exact Traced.success_throw _ _
  | state =>
    refine Traced.success_bind (hcheck .state) fun _ => Traced.success_bind rfl fun _ => ?_
    exact Traced.success_bind hlocate fun i => rfl
  | parameter =>
    refine Traced.success_bind (hcheck .parameter) fun _ => Traced.success_bind rfl fun _ => ?_
    exact Traced.success_bind hlocate fun i => rfl
  | independent => exact Traced.success_bind (hcheck .independent) fun _ => rfl
  | observed => exact Traced.success_bind (hcheck .observed) fun _ => ofObserved_congr hb h backend

lemma writerOfSymbol_congr (p : Permission) :
    (Writer.ofSymbol b p v).toOption = (Writer.ofSymbol b p w).toOption := by
  rw [Writer.ofSymbol_eq, Writer.ofSymbol_eq, toOption_bind, toOption_bind, classify_congr hb h]
  apply Option.bind_congr
  intro role _
  cases role with
  | state | parameter =>
    simp only [Writer.ofRole, toOption_bind, check_congr v w p, locate_congr hb h]
  | _ => rfl

end Resolution

section Plan

variable {b : Bound} {layoutAt : Extra → Except Failure Layout}

mutual

lemma readerOfRequest_congr (hb : b.system.AnsweredBy layoutAt) (backend : Backend)
    (p : Permission) (r s : Request) (h : r.Alike s) :
    (Reader.ofRequest b backend p r).success = (Reader.ofRequest b backend p s).success := by
  match r, s with
  | .symbol _ v, .symbol _ w => exact readerOfSymbol_congr hb h backend p
  | .expression e, .expression _ =>
    cases h
    rfl
  | .sequence as t, .sequence bs _ =>
    obtain ⟨rfl, h⟩ := h
    have hreaders := readersOfRequests_congr hb backend p as bs h
    exact Traced.success_bind hreaders fun rs => rfl
  | .array shape as, .array _ bs =>
    obtain ⟨rfl, h⟩ := h
    have hreaders := readersOfRequests_congr hb backend p as bs h
    exact Traced.success_bind hreaders fun rs => rfl

lemma readersOfRequests_congr (hb : b.system.AnsweredBy layoutAt) (backend : Backend)
    (p : Permission) (rs ss : List Request) (h : Request.AllAlike rs ss) :
    (Reader.ofRequests b backend p rs).success = (Reader.ofRequests b backend p ss).success := by
  match rs, ss with
  | [], [] => rfl
  | r :: rs, s :: ss =>
    have hreader := readerOfRequest_congr hb backend p r s h.1
    have hreaders := readersOfRequests_congr hb backend p rs ss h.2
    refine Traced.success_bind hreader fun reader => ?_
    exact Traced.success_bind hreaders fun readers => rfl

end

mutual

lemma writerOfRequest_congr (hb : b.system.AnsweredBy layoutAt) (p : Permission) (r s : Request)
    (h : r.Alike s) :
    (Writer.ofRequest b p r).toOption = (Writer.ofRequest b p s).toOption := by
  match r, s with
  | .symbol _ v, .symbol _ w => exact writerOfSymbol_congr hb h p
  | .expression e, .expression _ => rfl
  | .sequence as _, .sequence bs _ =>
    have hwriters := writersOfRequests_congr hb p as bs h.2
    simp only [Writer.ofRequest, toOption_bind, hwriters]
  | .array _ as, .array _ bs =>
    obtain ⟨rfl, h⟩ := h
    have hwriters := writersOfRequests_congr hb p as bs h
    simp only [Writer.ofRequest, toOption_bind, hwriters]

lemma writersOfRequests_congr (hb : b.system.AnsweredBy layoutAt) (p : Permission)
    (rs ss : List Request) (h : Request.AllAlike rs ss) :
    (Writer.ofRequests b p rs).toOption = (Writer.ofRequests b p ss).toOption := by
  match rs, ss with
  | [], [] => rfl
  | r :: rs, s :: ss =>
    have hwriter := writerOfRequest_congr hb p r s h.1
    have hwriters := writersOfRequests_congr hb p rs ss h.2
    simp only [Writer.ofRequests, toOption_bind, hwriter, hwriters]

end

/-- Alike requests have the same plan, or none. -/
lemma planFor_congr (hb : b.system.AnsweredBy layoutAt) (backend : Backend) (p : Permission)
    {r s : Request} (h : r.Alike s) :
    (Factory.planFor backend b p r).success = (Factory.planFor backend b p s).success := by
  unfold Factory.planFor
  cases p.isWrite with
  | true =>
    have hwriter := Traced.success_lift (writerOfRequest_congr hb p r s h)
    exact Traced.success_bind hwriter fun w => rfl
  | false =>
    have hreader := readerOfRequest_congr hb backend p r s h
    exact Traced.success_bind hreader fun r => rfl

end Plan

end NamedSlots
