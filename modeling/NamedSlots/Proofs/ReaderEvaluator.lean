import NamedSlots.Proofs.SharedLeaves
import NamedSlots.Proofs.StateEvaluation
import NamedSlots.Proofs.StoredAccess

/-!
# Readers and evaluators

A getter reads a symbol from its slot, the elements of an array one by one, and everything else
through an evaluator; an evaluator has its whole expression bound at once. For every expression the
reader can be made exactly if the evaluator can, and on a problem state that has a time whenever
the layout has an independent variable both give the same, failures included.
-/

namespace NamedSlots

open Traced

/-- A reader and an evaluator of one thing: each is made if the other is, and on a problem state
they give the same. -/
structure Corresponds (s : ProblemState) (i : Interface) (isTimeDependent : Bool)
    (reader : Traced Reader) (evaluator : Traced Evaluator) : Prop where
  reads {f : Evaluator} : Yields evaluator (.ok f) →
    ∃ r, Yields reader (.ok r) ∧
      r.read i = f.call s.states s.parameters (s.timeIf isTimeDependent)
  compiles {r : Reader} : Returns reader r → ∃ f, Yields evaluator (.ok f)

section Bound

variable {b : Bound} {layoutAt : Extra → Except Failure Layout} {l : Layout} {s : ProblemState}
  {world : World} {k : Option Nat} (hb : b.system.AnsweredBy layoutAt)
  (hl : layoutAt b.version = .ok l) (hsize : l.independent.size ≤ 1)
  (hown : b.system.own = s.toInterface world k)
  (htime : l.isTimeDependent = true → s.hasTime = true)

/-! ### Expressions -/

include hb hl hsize in
/-- An evaluator uses the time only if there is an independent variable. -/
lemma usesTime_of_compile {e : Expr} {f : Evaluator}
    (hf : Returns (Evaluator.compile b e .interpreter) f) (h : f.usesTime = true) :
    f.isTimeDependent = true := by
  have hserves := serves_of_compile hb hf
  rw [hl] at hserves
  obtain ⟨v, hv⟩ := hserves.has_of_usesTime h
  rw [(Evaluator.bind_of_compile (.of_layoutAt hb hl) hsize hf).2]
  exact Layout.isTimeDependent_of_has hsize hv

include hb hl hsize hown htime in
/-- A reader that runs an evaluator reads what the evaluator gives. -/
lemma corresponds_evaluator (e : Expr) :
    Corresponds s (s.toInterface world k) l.isTimeDependent (do
      let f ← Evaluator.compile b e .interpreter
      Reader.ofEvaluator b f) (Evaluator.compile b e .interpreter) where
  reads {f} hf := by
    have huses := usesTime_of_compile hb hl hsize hf.returns
    have hflag : f.isTimeDependent = l.isTimeDependent := by
      rw [(Evaluator.bind_of_compile (.of_layoutAt hb hl) hsize hf.returns).2]
    rw [← hflag] at htime ⊢
    have hreader : Reader.ofEvaluator b f = .ok (.expression f) := by
      unfold Reader.ofEvaluator
      rw [hown, Reader.requireUsed_state fun h => htime (huses h)]
      rfl
    refine ⟨.expression f, hf.bind_ok ?_,
      Reader.read_evaluator (serves_of_compile hb hf.returns) huses htime⟩
    rw [hreader]
    exact yields_lift _
  compiles {r} hr := by
    obtain ⟨f, hf, _⟩ := hr.bind
    exact ⟨f, (Evaluator.compile_quiet hb e).yields hf⟩

include hb hl hsize in
/-- With plain leaves only, an evaluator interprets its expression at every time that it accepts. -/
lemma call_of_checkTime {e : Expr} {f : Evaluator}
    (hf : Returns (Evaluator.compile b e .interpreter) f)
    (hplain : ∀ k ∈ Assoc.keys f.table.entries, k.IsPlainSymbol) {u p t : Value}
    (hcheck : f.checkTime t = .ok ()) :
    f.call u p t =
      e.eval .numeric (f.table.value .numeric (Source.read l.isTimeDependent u p t)) := by
  obtain ⟨_, heq⟩ := Evaluator.bind_of_compile (.of_layoutAt hb hl) hsize hf
  rw [Evaluator.call_eq (by rw [heq]) fun k hk => (hplain k hk).kind_eq, hcheck]
  change f.interpret _ _ _ = _
  rw [heq]
  rfl

include hb hl hsize htime in
/-- With plain leaves only, an evaluator interprets its expression at the time of the state. -/
lemma call_of_compile {e : Expr} {f : Evaluator}
    (hf : Returns (Evaluator.compile b e .interpreter) f)
    (hplain : ∀ k ∈ Assoc.keys f.table.entries, k.IsPlainSymbol) :
    f.call s.states s.parameters (s.timeIf l.isTimeDependent) =
      e.eval .numeric (f.table.value .numeric (Source.read l.isTimeDependent s.states s.parameters
        (s.timeIf l.isTimeDependent))) := by
  have huses := usesTime_of_compile hb hl hsize hf
  obtain ⟨_, heq⟩ := Evaluator.bind_of_compile (.of_layoutAt hb hl) hsize hf
  refine call_of_checkTime hb hl hsize hf hplain ?_
  rw [heq] at huses ⊢
  exact s.checkTime_timeIf id huses htime

/-! ### Symbols -/

section Symbol

variable {x : Expr} (hx : x.IsPlainSymbol)

include hb hl hx in
/-- A symbol that can be read stands for something. -/
lemma exists_meaning_of_reader {r : Reader} {p : Permission}
    (h : Returns (Reader.ofSymbol b .interpreter p (.expr x)) r) : ∃ m, l.meaningOf x = some m := by
  obtain ⟨role, hrole, hknown, _⟩ := (Reader.madeFor_of_symbol h).exists_role
  obtain ⟨l', hl', _, _, hroles⟩ := Bound.rolesOf_of_classify hb hrole hknown
  cases hl.symm.trans hl'
  rcases Layout.meaningOf_cases hx ⟨role, hroles⟩ with ⟨src, hm, _⟩ | ⟨d, hm, _⟩
  · exact ⟨_, hm⟩
  · exact ⟨_, hm⟩

include hb hl hx in
/-- A symbol that can be bound stands for something. -/
lemma exists_meaning_of_bind {isTimeDependent : Bool} {t : LeafTable}
    (h : Returns (b.bind isTimeDependent x) t) : ∃ m, l.meaningOf x = some m := by
  unfold Bound.bind at h
  rw [hx.scalarLeaves_eq] at h
  obtain ⟨_, _, hbinds⟩ := Bound.exists_bindsTo_of_returns h
  cases hbinds with
  | skip hbound _ => cases hbound
  | source _ hsource _ =>
    obtain ⟨l', hl', hm⟩ := Bound.exists_meaningOf_of_finds hb hsource
    cases hl.symm.trans hl'
    exact ⟨_, hm⟩
  | definition _ hrole hdefinition _ _ _ =>
    obtain ⟨l', hl', hm⟩ := Bound.exists_meaningOf_of_definition hb hx.kind_eq hrole hdefinition
    cases hl.symm.trans hl'
    exact ⟨_, hm⟩

include hx in
lemma eval_plainSymbol {V : Type} (sem : Semantics V) (leaf : Expr → Except Failure V) :
    x.eval sem leaf = leaf x := by
  obtain ⟨name, indices, rfl⟩ := hx
  rfl

include hb hl hown htime hsize hx in
/-- A symbol with a source is read from it. -/
lemma exists_reader_of_source {src : Source} (hm : l.meaningOf x = some (.source src)) :
    ∃ r, Yields (Reader.ofSymbol b .interpreter .readAny (.expr x)) (.ok r) ∧
      r.read (s.toInterface world k) =
        src.read l.isTimeDependent s.states s.parameters (s.timeIf l.isTimeDependent) := by
  have hanswered : b.AnsweredBy l := .of_layoutAt hb hl
  unfold Layout.meaningOf at hm
  split at hm
  · rename_i hroles
    obtain ⟨n, hn, heq⟩ := Option.map_eq_some_iff.1 hm
    cases heq
    have hcell : l.cell? (.expr x) = some (.state n) := Layout.cell?_eq_some_iff.2 ⟨hroles, hn⟩
    exact ⟨_, readerOfSymbol_of_cell hanswered hown hx.form_eq hcell _, Reader.read_state _⟩
  · rename_i hroles
    obtain ⟨n, hn, heq⟩ := Option.map_eq_some_iff.1 hm
    cases heq
    have hcell : l.cell? (.expr x) = some (.parameter n) := Layout.cell?_eq_some_iff.2 ⟨hroles, hn⟩
    exact ⟨_, readerOfSymbol_of_cell hanswered hown hx.form_eq hcell _, Reader.read_parameter _⟩
  · rename_i hroles
    cases hm
    have hdependent := Layout.isTimeDependent_of_has hsize (Layout.has_of_rolesOf hroles)
    have hhas := htime hdependent
    refine ⟨.time, ?_, ?_⟩
    · rw [Reader.ofSymbol_eq]
      refine yields_lift_bind (hanswered.classify_of_rolesOf hx.form_eq hroles) ?_
      unfold Reader.ofRole
      rw [hown, s.require_currentTime world k hhas]
      exact fun t => rfl
    · rw [Reader.read_time, s.currentTime_eq hhas, hdependent]
      rfl
  · obtain ⟨d, _, heq⟩ := Option.map_eq_some_iff.1 hm
    cases heq
  · cases hm

include hb hl hsize hx in
/-- A symbol with a source is compiled to a table of one entry. -/
lemma compile_of_source {src : Source} (hm : l.meaningOf x = some (.source src)) :
    Yields (Evaluator.compile b x .interpreter)
      (.ok ⟨x, ⟨[(x, .source src)]⟩, l.isTimeDependent, b.version, none⟩) := by
  have hanswered : b.AnsweredBy l := .of_layoutAt hb hl
  refine Evaluator.compile_of_bind hanswered hsize ?_
  have hnew : ¬ LeafTable.contains {} x = true := Bool.false_ne_true
  unfold Bound.bind
  rw [hx.scalarLeaves_eq]
  refine Bound.bindAll_cons (Bound.bindLeaf_of_source hanswered ?_ hx hnew hm) Bound.bindAll_nil
  exact fun v => Layout.isTimeDependent_of_has hsize

include hb hl in
/-- A defined value is read through the evaluator of the expression that it converts to. -/
lemma ofSymbol_of_observed {v : Value} {name : String} {d e : Expr} (hkey : v.key? = some name)
    (hroles : l.rolesOf v = [.observed]) (hd : l.definitionOf name = some d)
    (he : v.toExpr = .ok e) :
    Reader.ofSymbol b .interpreter .readAny v = (do
      let f ← Evaluator.compile b e .interpreter
      Reader.ofEvaluator b f) := by
  have hanswered : b.AnsweredBy l := .of_layoutAt hb hl
  have hclassify := hanswered.classify_of_rolesOf (Value.form_of_key? hkey) hroles
  have hdefinition : b.definition v = .ok (some d) := by
    rw [hanswered.definition_eq, hkey, Option.bind_some, hd]
  rw [Reader.ofSymbol_eq, hclassify]
  change Reader.ofObserved b .interpreter v = _
  unfold Reader.ofObserved
  rw [Bound.provider_eq hb.ownProvider hb.provider, hdefinition, he]
  rfl

include hb hl hx in
/-- A symbol with a definition is read through the evaluator of the symbol. -/
lemma ofSymbol_of_definition {d : Expr} (hm : l.meaningOf x = some (.definition d)) :
    Reader.ofSymbol b .interpreter .readAny (.expr x) = (do
      let f ← Evaluator.compile b x .interpreter
      Reader.ofEvaluator b f) := by
  obtain ⟨hroles, hd⟩ := Layout.rolesOf_of_definition hm
  exact ofSymbol_of_observed hb hl hx.key?_eq hroles hd rfl

include hb hl hsize hown htime hx in
lemma corresponds_symbol :
    Corresponds s (s.toInterface world k) l.isTimeDependent
      (Reader.ofSymbol b .interpreter .readAny (.expr x)) (Evaluator.compile b x .interpreter) := by
  have hanswered : b.AnsweredBy l := .of_layoutAt hb hl
  -- the two sides are the same computation for a defined symbol, and one entry for any other
  have hknown (m : Meaning) (hm : l.meaningOf x = some m) :
      Corresponds s (s.toInterface world k) l.isTimeDependent
        (Reader.ofSymbol b .interpreter .readAny (.expr x))
        (Evaluator.compile b x .interpreter) := by
    cases m with
    | definition d =>
      rw [ofSymbol_of_definition hb hl hx hm]
      exact corresponds_evaluator hb hl hsize hown htime x
    | source src =>
      have hcompile := compile_of_source hb hl hsize hx hm
      refine ⟨fun hf => ?_, fun _ => ⟨_, hcompile⟩⟩
      obtain ⟨r, hr, hread⟩ := exists_reader_of_source hb hl hsize hown htime hx hm
      refine ⟨r, hr, hread.trans ?_⟩
      cases hf.unique hcompile
      have hkeys : ∀ k ∈ [x], k.IsPlainSymbol := by simpa using hx
      rw [call_of_compile hb hl hsize htime hcompile.returns hkeys, eval_plainSymbol hx]
      have hfind : Assoc.find? x [(x, Meaning.source src)] = some (.source src) := if_pos hx.beq_self
      exact (LeafTable.valueIn_of_find? .numeric _ hfind).symm
  refine ⟨fun hf => ?_, fun hr => ?_⟩
  · obtain ⟨hbind, _⟩ := Evaluator.bind_of_compile hanswered hsize hf.returns
    obtain ⟨m, hm⟩ := exists_meaning_of_bind hb hl hx hbind
    exact (hknown m hm).reads hf
  · obtain ⟨m, hm⟩ := exists_meaning_of_reader hb hl hx hr
    exact (hknown m hm).compiles hr

end Symbol

/-! ### Arrays -/

section Array

include hb hl hsize in
/-- An expression is compiled exactly if its leaves, through definitions, have one role each and
no definition that it leads to comes back to its own name. -/
lemma compile_ok_iff {e : Expr} (he : l.PlainThrough e) :
    (∃ f, Yields (Evaluator.compile b e .interpreter) (.ok f)) ↔
      l.Resolves e ∧ ¬ l.CyclicFrom e := by
  have hanswered : b.AnsweredBy l := .of_layoutAt hb hl
  rw [← bind_ok_iff hb hl he fun v => Layout.isTimeDependent_of_has hsize]
  constructor
  · rintro ⟨f, hf⟩
    have hbind := (Evaluator.bind_of_compile hanswered hsize hf.returns).1
    exact ⟨f.table, (Bound.bind_quiet hb _ e).yields hbind⟩
  · rintro ⟨t, ht⟩
    exact ⟨_, Evaluator.compile_of_bind hanswered hsize ht⟩

include hb hl hsize in
/-- What compiling says of an evaluator: each leaf, through definitions, has one role, and the table
is settled and has the leaves. -/
lemma settled_of_compile {e : Expr} (he : l.PlainThrough e) {f : Evaluator}
    (hf : Yields (Evaluator.compile b e .interpreter) (.ok f)) :
    f.expr = e ∧ l.Resolves e ∧ Settled l e f.table.entries ∧
      ∀ t ∈ e.scalarLeaves, t ∈ Assoc.keys f.table.entries := by
  obtain ⟨hbind, heq⟩ := Evaluator.bind_of_compile (.of_layoutAt hb hl) hsize hf.returns
  have hext := Bound.bind_extends hb hl he hbind
  refine ⟨?_, hext.settled.resolves he hext.bound, hext.settled, hext.bound⟩
  rw [heq]

/-- The request for an element of an array. -/
def Request.ofElement (x : Expr) : Request := .symbol x.indexedName (.expr x)

lemma exists_readersOfElements {i : Interface} {value : Expr → Except Failure Value}
    {xs : List Expr}
    (h : ∀ x ∈ xs, ∃ r, Yields (Reader.ofSymbol b .interpreter .readAny (.expr x)) (.ok r) ∧
      r.read i = value x) :
    ∃ rs, Yields (Reader.ofRequests b .interpreter .readAny (xs.map Request.ofElement)) (.ok rs) ∧
      Reader.readAll i rs = xs.mapM value := by
  induction xs with
  | nil => exact ⟨[], yields_pure [], rfl⟩
  | cons x xs ih =>
    obtain ⟨r, hr, hread⟩ := h x List.mem_cons_self
    obtain ⟨rs, hrs, hreads⟩ := ih fun y hy => h y (List.mem_cons_of_mem _ hy)
    refine ⟨r :: rs, hr.bind_ok (hrs.bind_ok (yields_pure _)), ?_⟩
    rw [Reader.readAll, hread, hreads, List.mapM_cons]

lemma returns_of_readersOfElements {xs : List Expr} {rs : List Reader}
    (h : Returns (Reader.ofRequests b .interpreter .readAny (xs.map Request.ofElement)) rs)
    {x : Expr} (hx : x ∈ xs) :
    ∃ r, Returns (Reader.ofSymbol b .interpreter .readAny (.expr x)) r := by
  induction xs generalizing rs with
  | nil => cases hx
  | cons y ys ih =>
    obtain ⟨r, hr, h⟩ := h.bind
    obtain ⟨rest, hrest, _⟩ := h.bind
    rcases List.mem_cons.1 hx with rfl | hx
    · exact ⟨r, hr⟩
    · exact ih hrest hx

variable {a : Expr} (ha : a.kind = .array) (hplain : l.PlainThrough a)

include hb hl hsize hown htime ha hplain in
/-- An element has a reader that gives the value of the element on the table of the array. -/
lemma exists_reader_of_element {f : Evaluator}
    (hf : Yields (Evaluator.compile b a .interpreter) (.ok f)) {x : Expr} (hx : x ∈ a.elements) :
    ∃ r, Yields (Reader.ofSymbol b .interpreter .readAny (.expr x)) (.ok r) ∧
      r.read (s.toInterface world k) =
        f.table.value .numeric (Source.read l.isTimeDependent s.states s.parameters
          (s.timeIf l.isTimeDependent)) x := by
  have hxsymbol := Expr.isPlainSymbol_of_mem_elements hx
  have hxplain := Layout.PlainThrough.of_element hplain ha hx
  obtain ⟨_, hresolves, hsettled, hbound⟩ := settled_of_compile hb hl hsize hplain hf
  have hacyclic := ((compile_ok_iff hb hl hsize hplain).1 ⟨f, hf⟩).2
  have hxresolves := ((Layout.resolves_array_iff ha).1 hresolves).2 x hx
  have hxacyclic : ¬ l.CyclicFrom x := fun hcycle =>
    hacyclic ((Layout.cyclicFrom_array_iff ha).2 ⟨x, hx, hcycle⟩)
  obtain ⟨g, hg⟩ := (compile_ok_iff hb hl hsize hxplain).2 ⟨hxresolves, hxacyclic⟩
  obtain ⟨r, hr, hread⟩ := (corresponds_symbol hb hl hsize hown htime hxsymbol).reads hg
  obtain ⟨_, _, hxsettled, hxbound⟩ := settled_of_compile hb hl hsize hxplain hg
  refine ⟨r, hr, hread.trans ?_⟩
  rw [call_of_compile hb hl hsize htime hg.returns
    fun k hk => hxsettled.isPlainSymbol_of_mem_keys hxresolves hk, eval_plainSymbol hxsymbol]
  refine hxsettled.valueIn_eq_valueIn .numeric _ hxresolves hresolves hsettled ?_ ?_
  · exact hxbound x (hxsymbol.scalarLeaves_eq ▸ List.mem_singleton_self x)
  · exact hbound x ((Expr.mem_scalarLeaves_array ha).2 hx)

include hb hl hsize hown htime ha hplain in
lemma corresponds_array :
    Corresponds s (s.toInterface world k) l.isTimeDependent
      (Reader.ofRequest b .interpreter .readAny
        (.array a.label.shape (a.elements.map Request.ofElement)))
      (Evaluator.compile b a .interpreter) where
  reads {f} hf := by
    obtain ⟨_, hresolves, hsettled, _⟩ := settled_of_compile hb hl hsize hplain hf
    obtain ⟨rs, hrs, hread⟩ := exists_readersOfElements fun x =>
      exists_reader_of_element hb hl hsize hown htime ha hplain hf
    refine ⟨.array (.ofItems rs) a.label.shape, hrs.bind_ok (yields_pure _), ?_⟩
    rw [call_of_compile hb hl hsize htime hf.returns
      fun k hk => hsettled.isPlainSymbol_of_mem_keys hresolves hk]
    have hassemble (items : Except Failure (List Value)) :
        (do
          let v ← (do return Value.list (← items) : Except Failure Value)
          (← v.assemble).reshape a.label.shape) =
        (do Semantics.numeric.assemble a.label.shape (← items)) := by
      cases items <;> rfl
    rw [Reader.read, Reader.read_ofItems, hread, hassemble]
    obtain ⟨kind, cs, label⟩ := a
    cases ha
    rfl
  compiles {r} hr := by
    obtain ⟨rs, hrs, _⟩ := hr.bind
    have helements : ∀ x ∈ a.elements, l.Resolves x ∧ ¬ l.CyclicFrom x := by
      intro x hx
      obtain ⟨r, hr⟩ := returns_of_readersOfElements hrs hx
      have hsymbol := corresponds_symbol hb hl hsize hown htime (Expr.isPlainSymbol_of_mem_elements hx)
      exact (compile_ok_iff hb hl hsize (Layout.PlainThrough.of_element hplain ha hx)).1
        (hsymbol.compiles hr)
    refine (compile_ok_iff hb hl hsize hplain).2 ⟨?_, ?_⟩
    · exact (Layout.resolves_array_iff ha).2 ⟨hplain, fun x hx => (helements x hx).1⟩
    · intro hcycle
      obtain ⟨x, hx, hcycle⟩ := (Layout.cyclicFrom_array_iff ha).1 hcycle
      exact (helements x hx).2 hcycle

end Array

/-! ### Requests -/

section Request

lemma ofValue_symbol {x : Expr} (hx : x.kind = .symbol) :
    Request.ofValue .standard (.expr x) = .ok (.ofElement x) := by
  obtain ⟨kind, cs, label⟩ := x
  cases hx
  rw [Request.ofValue.eq_def]
  rfl

lemma ofValue_array {a : Expr} (ha : a.kind = .array) :
    Request.ofValue .standard (.expr a) =
      .ok (.array a.label.shape (a.elements.map Request.ofElement)) := by
  have hleaves (xs : List Expr) (hxs : ∀ x ∈ xs, x.kind = .symbol) :
      (xs.map Value.expr).mapM (Request.ofLeaf .standard) = .ok (xs.map Request.ofElement) := by
    induction xs with
    | nil => rfl
    | cons x xs ih =>
      have hx : Request.ofLeaf .standard (.expr x) = .ok (.ofElement x) := by
        have hkind := hxs x List.mem_cons_self
        obtain ⟨kind, cs, label⟩ := x
        cases hkind
        rfl
      rw [List.map_cons, List.mapM_cons, hx, ih fun y hy => hxs y (List.mem_cons_of_mem _ hy)]
      rfl
  have hkinds : ∀ x ∈ a.elements, x.kind = .symbol := fun x hx =>
    (Expr.isPlainSymbol_of_mem_elements hx).kind_eq
  obtain ⟨kind, cs, label⟩ := a
  cases ha
  rw [Request.ofValue.eq_def]
  change Request.array label.shape <$> List.mapM (Request.ofLeaf .standard)
    ((Expr.node .array cs label).elements.map Value.expr) = _
  rw [hleaves _ hkinds]
  rfl

lemma ofValue_compound {e : Expr} (hsymbol : e.kind ≠ .symbol) (harray : e.kind ≠ .array) :
    Request.ofValue .standard (.expr e) = .ok (.expression e) := by
  obtain ⟨kind, cs, label⟩ := e
  rw [Request.ofValue.eq_def]
  cases kind <;> first | rfl | exact absurd rfl hsymbol | exact absurd rfl harray

end Request

include hb hl hsize hown htime in
/-- The request that an expression stands for has a reader exactly if the expression has an
evaluator, and the two give the same. -/
lemma corresponds_request {r : Expr} (hr : r.HasPlainSymbols)
    (hplain : r.kind = .array → l.PlainThrough r) :
    ∃ q, Request.ofValue .standard (.expr r) = .ok q ∧
      Corresponds s (s.toInterface world k) l.isTimeDependent
        (Reader.ofRequest b .interpreter .readAny q) (Evaluator.compile b r .interpreter) := by
  by_cases hsymbol : r.kind = .symbol
  · have hleaf : r ∈ r.leaves := by
      obtain ⟨kind, cs, label⟩ := r
      cases hsymbol
      exact List.mem_singleton_self _
    exact ⟨_, ofValue_symbol hsymbol,
      corresponds_symbol hb hl hsize hown htime (hr r hleaf hsymbol)⟩
  by_cases harray : r.kind = .array
  · exact ⟨_, ofValue_array harray, corresponds_array hb hl hsize hown htime harray (hplain harray)⟩
  · exact ⟨_, ofValue_compound hsymbol harray, corresponds_evaluator hb hl hsize hown htime r⟩

end Bound

end NamedSlots
