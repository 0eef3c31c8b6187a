import NamedSlots.Evaluation.Compilation
import NamedSlots.Proofs.LayoutAnswer
import NamedSlots.System.Question

/-!
# Systems that agree

Two systems, each with the version argument that its resolution methods take, agree when every
method of their containers gives the same answer. Resolution, the walk through definitions and
binding ask nothing else, so that they agree too, on values and on failures.
-/

namespace NamedSlots

namespace System

/-- Every question put to the container of one system at its version argument is answered as the
container of the other one answers it. -/
structure Agrees (s : System) (extra : Extra) (s' : System) (extra' : Extra) : Prop where
  predicate (role : Role) (v : Value) :
    (s.container.predicate role).method?.map (· v extra) =
      (s'.container.predicate role).method?.map (· v extra')
  index (role : Role) (v : Value) :
    (s.container.index role).method?.map (· v extra) =
      (s'.container.index role).method?.map (· v extra')
  symbols (role : Role) :
    (s.container.symbols role).method?.map (· extra) =
      (s'.container.symbols role).method?.map (· extra')
  definitions :
    s.container.definitions.method?.map (fun d => (d.textOf, d.entries extra)) =
      s'.container.definitions.method?.map fun d => (d.textOf, d.entries extra')
  provider (v : Value) : Bound.provider ⟨s, extra⟩ v = Bound.provider ⟨s', extra'⟩ v

variable {s s' : System} {extra extra' : Extra}

/-- Systems answer alike at version arguments for which they find one layout. -/
lemma AnsweredBy.agrees {layoutAt layoutAt' : Extra → Except Failure Layout}
    (h : s.AnsweredBy layoutAt) (h' : s'.AnsweredBy layoutAt')
    (hl : layoutAt extra = layoutAt' extra') : s.Agrees extra s' extra' where
  predicate role v := by
    rw [h.predicate, h'.predicate]
    by_cases hrole : Interface.isQueried role = true <;>
      simp [Interface.ofLayoutAt, Attribute.method?, hrole, hl]
  index role v := by
    rw [h.index, h'.index]
    by_cases hrole : Interface.isStored role = true <;>
      simp [Interface.ofLayoutAt, Attribute.method?, hrole, hl]
  symbols role := by
    rw [h.symbols, h'.symbols]
    by_cases hrole : Interface.isQueried role = true <;>
      simp [Interface.ofLayoutAt, Attribute.method?, hrole, hl]
  definitions := by
    rw [h.definitions, h'.definitions]
    simp only [Interface.ofLayoutAt, Attribute.method?, Option.map_some, hl]
  provider v := by
    rw [Bound.provider_eq h.ownProvider h.provider, Bound.provider_eq h'.ownProvider h'.provider]

namespace Agrees

variable (h : s.Agrees extra s' extra')
include h

lemma claims_eq (v : Value) : s.claims extra v = s'.claims extra' v := by
  unfold claims
  congr 1
  funext role
  have hrole := h.predicate role v
  cases hf : (s.container.predicate role).method? <;>
    cases hf' : (s'.container.predicate role).method? <;>
    simp_all

lemma classify_eq (v : Value) : s.classify extra v = s'.classify extra' v := by
  unfold classify
  rw [h.claims_eq v]

lemma indexOf_eq (role : Role) (v : Value) :
    s.indexOf extra role v = s'.indexOf extra' role v := by
  have hrole := h.index role v
  unfold indexOf
  cases hf : (s.container.index role).method? <;>
    cases hf' : (s'.container.index role).method? <;>
    simp_all

lemma locate_eq (v : Value) : s.locate extra v = s'.locate extra' v := by
  unfold locate
  rw [h.classify_eq v, h.indexOf_eq .state v, h.indexOf_eq .parameter v]

lemma enumerate_eq (role : Role) : s.enumerate extra role = s'.enumerate extra' role := by
  have hrole := h.symbols role
  unfold enumerate
  cases hf : (s.container.symbols role).method? <;>
    cases hf' : (s'.container.symbols role).method? <;>
    simp_all

lemma allSolvable_eq : s.allSolvable extra = s'.allSolvable extra' := by
  unfold allSolvable group
  rw [h.enumerate_eq .state, h.enumerate_eq .observed]

lemma allSymbols_eq : s.allSymbols extra = s'.allSymbols extra' := by
  unfold allSymbols group
  rw [h.enumerate_eq .state, h.enumerate_eq .observed, h.enumerate_eq .parameter,
    h.enumerate_eq .independent]

lemma isTimeDependent_eq : s.isTimeDependent extra = s'.isTimeDependent extra' := by
  unfold isTimeDependent
  rw [h.enumerate_eq .independent]

lemma definition_eq (v : Value) : s.definition extra v = s'.definition extra' v := by
  have hdefinitions := h.definitions
  unfold definition Definitions.find?
  cases hd : s.container.definitions.method? <;>
    cases hd' : s'.container.definitions.method? <;>
    simp_all

lemma definitionLeaves_eq : s.definitionLeaves extra = s'.definitionLeaves extra' := by
  have hdefinitions := h.definitions
  unfold definitionLeaves Definitions.leaves
  cases hd : s.container.definitions.method? <;>
    cases hd' : s'.container.definitions.method? <;>
    simp_all

lemma observedIndex_eq (v : Value) : s.observedIndex extra v = s'.observedIndex extra' v := by
  unfold observedIndex
  rw [h.enumerate_eq .observed]

/-- The walk through definitions finds the same states. -/
lemma visit_eq_and_visitAll_eq :
    (∀ unvisited found v,
        s.visit extra unvisited found v = s'.visit extra' unvisited found v) ∧
      ∀ unvisited found vs,
        s.visitAll extra unvisited found vs = s'.visitAll extra' unvisited found vs := by
  refine visit.mutual_induct _ _ (fun unvisited found v ih => ?_) (fun unvisited found => ?_)
    fun unvisited found v rest ihVisit ihRest => ?_
  · rw [visit, visit, h.classify_eq v, h.locate_eq v, h.definition_eq v]
    by_cases hmay : Unvisited.mayEnter unvisited v.key? = true
    · simp only [hmay, dite_true, ih hmay]
    · simp only [hmay, Bool.false_eq_true, dite_false]
  · rw [visitAll, visitAll]
  · rw [visitAll, visitAll, ihVisit]
    simp only [ihRest]

lemma stateDependencies_eq (v : Value) :
    s.stateDependencies extra v = s'.stateDependencies extra' v := by
  unfold stateDependencies
  rw [h.definitionLeaves_eq]
  simp only [h.visit_eq_and_visitAll_eq.2]

/-- Every question has the same answer. -/
lemma answer_eq (q : Question) : q.answer s extra = q.answer s' extra' := by
  simp only [Question.answer, h.classify_eq, h.locate_eq, h.enumerate_eq, h.allSolvable_eq,
    h.allSymbols_eq, h.isTimeDependent_eq, h.definition_eq, h.observedIndex_eq,
    h.stateDependencies_eq]

/-- Binding makes one table for both, or fails for both in the same way. -/
lemma bindLeaf_eq_and_bindAll_eq (isTimeDependent : Bool) :
    (∀ unvisited table leaf,
        Bound.bindLeaf ⟨s, extra⟩ isTimeDependent unvisited table leaf =
          Bound.bindLeaf ⟨s', extra'⟩ isTimeDependent unvisited table leaf) ∧
      ∀ unvisited table leaves,
        Bound.bindAll ⟨s, extra⟩ isTimeDependent unvisited table leaves =
          Bound.bindAll ⟨s', extra'⟩ isTimeDependent unvisited table leaves := by
  refine Bound.bindLeaf.mutual_induct _ _ (fun unvisited table leaf hmem => ?_)
    (fun unvisited table leaf hmem ih => ?_) (fun unvisited table => ?_)
    fun unvisited table leaf rest ihLeaf ihRest => ?_
  · rw [Bound.bindLeaf, Bound.bindLeaf, if_pos hmem, if_pos hmem]
  · rw [Bound.bindLeaf, Bound.bindLeaf]
    unfold Bound.classify Bound.locate Bound.definition
    simp only [h.classify_eq, h.locate_eq, h.definition_eq, h.provider]
    by_cases hmay : Unvisited.mayEnter unvisited leaf = true
    · simp only [hmay, dite_true, ih _ hmay]
    · simp only [hmay, Bool.false_eq_true, dite_false]
  · rw [Bound.bindAll, Bound.bindAll]
  · rw [Bound.bindAll, Bound.bindAll, ihLeaf]
    simp only [ihRest]

lemma bind_eq (isTimeDependent : Bool) (e : Expr) :
    Bound.bind ⟨s, extra⟩ isTimeDependent e = Bound.bind ⟨s', extra'⟩ isTimeDependent e := by
  unfold Bound.bind
  rw [h.definitionLeaves_eq, (h.bindLeaf_eq_and_bindAll_eq isTimeDependent).2]

/-- The evaluators of an expression differ in the version that they carry, and in nothing else. -/
lemma compile_eq (e : Expr) (backend : Backend) :
    Evaluator.compile ⟨s, extra⟩ e backend =
      (fun evaluator => { evaluator with version := extra }) <$>
        Evaluator.compile ⟨s', extra'⟩ e backend := by
  unfold Evaluator.compile Bound.isTimeDependent
  simp only [h.isTimeDependent_eq, h.bind_eq, map_bind]
  congr
  funext isTimeDependent
  congr
  funext table
  cases backend with
  | interpreter => rfl
  | graph =>
    have huses : Evaluator.usesProvider ⟨e, table, isTimeDependent, extra, none⟩ =
        Evaluator.usesProvider ⟨e, table, isTimeDependent, extra', none⟩ := rfl
    simp only [huses]
    split
    · cases e.text? with
      | none => simp only [map_bind, map_pure]
      | some text => simp only [map_bind, map_pure]
    · simp only [map_bind, map_pure]

end Agrees
end System
end NamedSlots
