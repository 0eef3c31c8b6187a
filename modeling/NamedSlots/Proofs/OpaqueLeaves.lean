import NamedSlots.Evaluation.Compilation
import NamedSlots.Proofs.BindingDerivation
import NamedSlots.Proofs.LeafCollection
import NamedSlots.Proofs.SessionStep

/-!
# Opaque leaves

An observed leaf without a definition is opaque: its value comes from a provider, which the object
is asked for when the leaf is bound. Binding asks once for each of the opaque leaves that it meets,
however many definitions lead to one, where equal leaves count as one. It meets all that an
expression reaches, if the object says the same of equal leaves. Evaluation asks for nothing.
-/

namespace NamedSlots

open Relation Traced

namespace LeafTable

/-- The leaves whose values come from providers, in the order of binding. -/
def provided (t : LeafTable) : List Expr :=
  (t.bindings.filter fun (_, src) => src.role = .observed).map (·.1)

/-- A leaf, or one that equals it, is bound. -/
def Covers (t : LeafTable) (s : Expr) : Prop :=
  ∃ key m, (key, m) ∈ t.entries ∧ (key = s ∨ (key == s) = true)

lemma covers_of_contains {t : LeafTable} {s : Expr} (h : t.contains s = true) : t.Covers s := by
  obtain ⟨m, hm⟩ := Option.isSome_iff_exists.1 h
  obtain ⟨key, hmem, hequal⟩ := Assoc.mem_of_find? hm
  exact ⟨key, m, hmem, .inr hequal⟩

lemma Covers.mono {t t' : LeafTable} {s : Expr} (h : t.Covers s)
    (hsuffix : t.entries <:+ t'.entries) : t'.Covers s := by
  obtain ⟨key, m, hmem, hkey⟩ := h
  exact ⟨key, m, hsuffix.mem hmem, hkey⟩

lemma covers_insert (t : LeafTable) (s : Expr) (m : Meaning) : (t.insert s m).Covers s :=
  ⟨s, m, List.mem_cons_self, .inl rfl⟩

lemma provided_insert (t : LeafTable) (s : Expr) (m : Meaning) :
    (t.insert s m).provided = t.provided ++ match m with
      | .source (.provider _) => [s]
      | _ => [] := by
  unfold provided
  rw [bindings_insert, List.filter_append, List.map_append]
  rcases m with (i | i | _ | p) | d <;> rfl

lemma mem_provided {t : LeafTable} {s : Expr} :
    s ∈ t.provided ↔ ∃ p, (s, .source (.provider p)) ∈ t.entries := by
  unfold provided
  rw [List.mem_map]
  constructor
  · rintro ⟨⟨key, src⟩, hmem, rfl⟩
    obtain ⟨hbinding, hrole⟩ := List.mem_filter.1 hmem
    cases src with
    | provider p => exact ⟨p, mem_bindings.1 hbinding⟩
    | _ => cases of_decide_eq_true hrole
  · rintro ⟨p, hmem⟩
    exact ⟨(s, .provider p), List.mem_filter.2 ⟨mem_bindings.2 hmem, rfl⟩, rfl⟩

end LeafTable

namespace Bound

/-! ### Leaves that an expression reaches -/

section Graph

variable (b : Bound)

/-- A leaf is observed and has a definition. -/
def Defines (s d : Expr) : Prop :=
  b.classify (.expr s) = .ok .observed ∧ b.definition (.expr s) = .ok (some d)

/-- A leaf is observed and has no definition. -/
def IsOpaque (s : Expr) : Prop :=
  b.classify (.expr s) = .ok .observed ∧ b.definition (.expr s) = .ok none

/-- A scalar leaf of one expression, or an element of an array in it, is defined by the other. -/
def Unfolds (e d : Expr) : Prop := ∃ s ∈ e.occurrences, b.Defines s d

/-- An expression reaches its scalar leaves and the elements of its arrays, and those of the
definitions that these lead to. -/
def Reaches (e s : Expr) : Prop := ∃ d, ReflTransGen b.Unfolds e d ∧ s ∈ d.occurrences

/-- Leaves that are equal and reached have one role and one definition, if any. -/
def AnswersAlike (e : Expr) : Prop :=
  ∀ s t, b.Reaches e s → b.Reaches e t → (s == t) = true →
    b.classify (.expr s) = b.classify (.expr t) ∧ b.definition (.expr s) = b.definition (.expr t)

/-- The object that is asked for providers. -/
def asker : Interface :=
  if b.system.own.provider.isMethod then b.system.own else b.system.container

/-- What a table has for a leaf is what the object says about it. -/
def Says (s : Expr) : Meaning → Prop
  | .source src => b.classify (.expr s) = .ok src.role ∧
      (src.role = .observed → b.definition (.expr s) = .ok none)
  | .definition d => b.Defines s d

end Graph

variable {b : Bound} {e : Expr}

lemma Reaches.of_defines {s d t : Expr} (hs : b.Reaches e s) (hd : b.Defines s d)
    (ht : t ∈ d.occurrences) : b.Reaches e t := by
  obtain ⟨d', hwithin, hmem⟩ := hs
  exact ⟨d, hwithin.tail ⟨s, hmem, hd⟩, ht⟩

lemma mem_occurrences_of_mem_scalarLeaves {d s : Expr} (hs : s ∈ d.scalarLeaves) :
    s ∈ d.occurrences := by
  rw [Expr.scalarLeaves_eq] at hs
  exact mem_of_mem_eraseDups _ hs

/-- A leaf of an expression is bound, if its leaves without repeats are. -/
lemma covers_of_mem_occurrences {t : LeafTable} {d s : Expr}
    (h : ∀ x ∈ d.scalarLeaves, t.Covers x) (hs : s ∈ d.occurrences) : t.Covers s := by
  obtain ⟨x, hx, hsx⟩ := exists_mem_eraseDups d.occurrences hs
  rw [Expr.occurrences, ← Expr.scalarLeaves_eq] at hx
  obtain ⟨key, m, hmem, hkey⟩ := h x hx
  refine ⟨key, m, hmem, ?_⟩
  rcases hsx with rfl | hsx
  · exact hkey
  · rcases hkey with rfl | hkey
    · exact .inr (PartialEquivBEq.symm hsx)
    · exact .inr (PartialEquivBEq.trans hkey (PartialEquivBEq.symm hsx))

/-! ### What binding asks -/

lemma provider_run {v : Value} {trace trace' : Trace} {p : Provider}
    (h : (b.provider v).run.run trace = (.ok (some p), trace')) :
    trace' = { trace with asked := trace.asked ++ [b.asker.identity] } := by
  unfold provider at h
  dsimp only at h
  cases hmethod : b.asker.provider.method? with
  | none =>
    unfold asker at hmethod
    rw [hmethod] at h
    cases h
  | some f =>
    unfold asker at hmethod ⊢
    rw [hmethod] at h
    obtain ⟨_, _, hnoted, hanswer⟩ := run_bind_eq_ok h
    cases hnoted
    exact (lift_run_eq_ok hanswer).2

/-- The object is asked exactly if the value of the leaf comes from a provider. -/
lemma says_and_asked_of_finds {isTimeDependent : Bool} {leaf : Expr} {src : Source}
    {trace trace' : Trace} (h : b.Finds isTimeDependent leaf src trace trace') :
    b.Says leaf (.source src) ∧
      trace'.asked = trace.asked ++ if src.role = .observed then [b.asker.identity] else [] := by
  cases h with
  | state hrole _ => exact ⟨⟨hrole, nofun⟩, (List.append_nil _).symm⟩
  | parameter hrole _ => exact ⟨⟨hrole, nofun⟩, (List.append_nil _).symm⟩
  | time hrole _ => exact ⟨⟨hrole, nofun⟩, (List.append_nil _).symm⟩
  | provider hrole hundefined hprovider =>
    rw [provider_run hprovider]
    exact ⟨⟨hrole, fun _ => hundefined⟩, rfl⟩

/-! ### What has been asked when a table is bound -/

/-- A table bound on behalf of an expression: its entries are reached and are what the object says,
the leaves of the definitions are bound as well, and since the start the object has been asked once
for each leaf whose value comes from a provider. -/
structure Records (b : Bound) (e : Expr) (start : List (Option Nat)) (t : LeafTable)
    (trace : Trace) : Prop where
  entries (s : Expr) (m : Meaning) : (s, m) ∈ t.entries → b.Reaches e s ∧ b.Says s m
  closed (s d : Expr) : (s, .definition d) ∈ t.entries → ∀ x ∈ d.scalarLeaves, t.Covers x
  apart : t.provided.Pairwise fun s s' => (s == s') = false
  asked : trace.asked = start ++ t.provided.map fun _ => b.asker.identity

namespace Records

variable {start : List (Option Nat)} {t : LeafTable} {trace trace' : Trace} {leaf : Expr}

lemma empty (b : Bound) (e : Expr) (trace : Trace) : b.Records e trace.asked {} trace where
  entries := nofun
  closed := nofun
  apart := .nil
  asked := (List.append_nil _).symm

lemma entries_insert {m : Meaning} (h : b.Records e start t trace) (hreached : b.Reaches e leaf)
    (hstated : b.Says leaf m) :
    ∀ s m', (s, m') ∈ (t.insert leaf m).entries → b.Reaches e s ∧ b.Says s m' := by
  intro s m' hmem
  rcases List.mem_cons.1 hmem with heq | hmem
  · cases heq
    exact ⟨hreached, hstated⟩
  · exact h.entries s m' hmem

lemma closed_insert {m : Meaning} (h : b.Records e start t trace)
    (hleaves : ∀ d, m = .definition d → ∀ x ∈ d.scalarLeaves, t.Covers x) :
    ∀ s d, (s, .definition d) ∈ (t.insert leaf m).entries →
      ∀ x ∈ d.scalarLeaves, (t.insert leaf m).Covers x := by
  intro s d hmem x hx
  refine LeafTable.Covers.mono ?_ (List.suffix_cons _ _)
  rcases List.mem_cons.1 hmem with heq | hmem
  · cases heq
    exact hleaves d rfl x hx
  · exact h.closed s d hmem x hx

lemma insert_source (h : b.Records e start t trace) (hreached : b.Reaches e leaf)
    (hnew : t.contains leaf = false) {src : Source} (hstated : b.Says leaf (.source src))
    (hasked : trace'.asked =
      trace.asked ++ if src.role = .observed then [b.asker.identity] else []) :
    b.Records e start (t.insert leaf (.source src)) trace' where
  entries := h.entries_insert hreached hstated
  closed := h.closed_insert nofun
  apart := by
    rw [LeafTable.provided_insert]
    cases src with
    | provider p =>
      refine List.pairwise_append.2 ⟨h.apart, List.pairwise_singleton _ _, fun s hs s' hs' => ?_⟩
      obtain ⟨p', hmem⟩ := LeafTable.mem_provided.1 hs
      have hnone : Assoc.find? leaf t.entries = none :=
        Option.isNone_iff_eq_none.1 (Option.isSome_eq_false_iff.1 hnew)
      rw [List.mem_singleton.1 hs']
      exact Assoc.find?_eq_none_iff.1 hnone _ hmem
    | _ =>
      rw [List.append_nil]
      exact h.apart
  asked := by
    rw [hasked, h.asked, LeafTable.provided_insert, List.map_append, List.append_assoc]
    cases src <;> rfl

/-- A definition is entered once its leaves are bound. -/
lemma insert_definition (h : b.Records e start t trace) (hreached : b.Reaches e leaf) {d : Expr}
    (hd : b.Defines leaf d) (hleaves : ∀ x ∈ d.scalarLeaves, t.Covers x) :
    b.Records e start (t.insert leaf (.definition d)) trace where
  entries := h.entries_insert hreached hd
  closed := h.closed_insert fun _ heq => Meaning.definition.inj heq ▸ hleaves
  apart := by
    rw [LeafTable.provided_insert, List.append_nil]
    exact h.apart
  asked := by
    rw [LeafTable.provided_insert, List.append_nil]
    exact h.asked

end Records

lemma records_of_bindsTo {start : List (Option Nat)} {isTimeDependent : Bool}
    {unvisited leaves : List Expr} {table t : LeafTable} {trace trace' : Trace}
    (h : b.BindsTo isTimeDependent unvisited table trace leaves t trace')
    (hrecords : b.Records e start table trace) (hreached : ∀ s ∈ leaves, b.Reaches e s) :
    b.Records e start t trace' ∧ table.entries <:+ t.entries ∧ ∀ s ∈ leaves, t.Covers s := by
  induction h with
  | nil => exact ⟨hrecords, List.suffix_rfl, nofun⟩
  | skip hbound _ ih =>
    obtain ⟨_, hrest⟩ := List.forall_mem_cons.1 hreached
    obtain ⟨hrecords', hsuffix, hcovers⟩ := ih hrecords hrest
    have hleaf := (LeafTable.covers_of_contains hbound).mono hsuffix
    exact ⟨hrecords', hsuffix, List.forall_mem_cons.2 ⟨hleaf, hcovers⟩⟩
  | source hnew hsource _ ih =>
    obtain ⟨hleaf, hrest⟩ := List.forall_mem_cons.1 hreached
    obtain ⟨hstated, hasked⟩ := says_and_asked_of_finds hsource
    obtain ⟨hrecords', hsuffix, hcovers⟩ :=
      ih (hrecords.insert_source hleaf hnew hstated hasked) hrest
    have hbound := (LeafTable.covers_insert _ _ _).mono hsuffix
    exact ⟨hrecords', (List.suffix_cons _ _).trans hsuffix,
      List.forall_mem_cons.2 ⟨hbound, hcovers⟩⟩
  | definition _ hrole hdefinition _ _ _ ihInner ih =>
    obtain ⟨hleaf, hrest⟩ := List.forall_mem_cons.1 hreached
    have hd : b.Defines _ _ := ⟨hrole, hdefinition⟩
    obtain ⟨hinner, hsuffixInner, hcoversInner⟩ := ihInner hrecords fun x hx =>
      hleaf.of_defines hd (mem_occurrences_of_mem_scalarLeaves hx)
    obtain ⟨hrecords', hsuffix, hcovers⟩ :=
      ih (hinner.insert_definition hleaf hd hcoversInner) hrest
    have hbound := (LeafTable.covers_insert _ _ _).mono hsuffix
    exact ⟨hrecords', hsuffixInner.trans ((List.suffix_cons _ _).trans hsuffix),
      List.forall_mem_cons.2 ⟨hbound, hcovers⟩⟩

lemma bind_records {isTimeDependent : Bool} {t : LeafTable} {trace trace' : Trace}
    (h : (b.bind isTimeDependent e).run.run trace = (.ok t, trace')) :
    b.Records e trace.asked t trace' ∧ ∀ s ∈ e.scalarLeaves, t.Covers s := by
  have hreached : ∀ s ∈ e.scalarLeaves, b.Reaches e s := fun s hs =>
    ⟨e, .refl, mem_occurrences_of_mem_scalarLeaves hs⟩
  obtain ⟨hrecords, -, hcovers⟩ :=
    records_of_bindsTo (bindAll_run_iff.1 h) (.empty b e trace) hreached
  exact ⟨hrecords, hcovers⟩

/-! ### All opaque leaves are asked for -/

namespace Records

variable {start : List (Option Nat)} {t : LeafTable} {trace : Trace}

lemma sound (h : b.Records e start t trace) {s : Expr} (hs : s ∈ t.provided) :
    b.Reaches e s ∧ b.IsOpaque s := by
  obtain ⟨p, hmem⟩ := LeafTable.mem_provided.1 hs
  obtain ⟨hreached, hrole, hdefinition⟩ := h.entries s _ hmem
  exact ⟨hreached, hrole, hdefinition rfl⟩

variable (halike : b.AnswersAlike e)
include halike

/-- What the object says about a bound leaf is what it says about the leaf that was bound. -/
lemma exists_entry (h : b.Records e start t trace) {s : Expr} (hs : b.Reaches e s)
    (hcovers : t.Covers s) :
    ∃ key m, (key, m) ∈ t.entries ∧ (key = s ∨ (key == s) = true) ∧ b.Says key m ∧
      b.classify (.expr key) = b.classify (.expr s) ∧
      b.definition (.expr key) = b.definition (.expr s) := by
  obtain ⟨key, m, hmem, hkey⟩ := hcovers
  obtain ⟨hreached, hstated⟩ := h.entries key m hmem
  refine ⟨key, m, hmem, hkey, hstated, ?_⟩
  rcases hkey with rfl | hkey
  · exact ⟨rfl, rfl⟩
  · exact halike key s hreached hs hkey

lemma covers_within (h : b.Records e start t trace) (hroot : ∀ s ∈ e.scalarLeaves, t.Covers s)
    {d : Expr} (hd : ReflTransGen b.Unfolds e d) : ∀ s ∈ d.scalarLeaves, t.Covers s := by
  induction hd with
  | refl => exact hroot
  | @tail d d' hwithin hunfolds ih =>
    obtain ⟨s, hs, hrole, hdefinition⟩ := hunfolds
    obtain ⟨key, m, hmem, -, hstated, hrole', hdefinition'⟩ :=
      h.exists_entry halike ⟨d, hwithin, hs⟩ (covers_of_mem_occurrences ih hs)
    cases m with
    | source src =>
      -- a leaf with a definition has no source
      have hobserved : src.role = .observed :=
        Except.ok.inj (hstated.1.symm.trans (hrole'.trans hrole))
      cases (hstated.2 hobserved).symm.trans (hdefinition'.trans hdefinition)
    | definition d'' =>
      cases hstated.2.symm.trans (hdefinition'.trans hdefinition)
      exact h.closed key d' hmem

lemma complete (h : b.Records e start t trace) (hroot : ∀ s ∈ e.scalarLeaves, t.Covers s)
    {s : Expr} (hs : b.Reaches e s) (hundefined : b.IsOpaque s) :
    ∃ key ∈ t.provided, key = s ∨ (key == s) = true := by
  obtain ⟨d, hwithin, hmem⟩ := hs
  have hcovers := covers_of_mem_occurrences (h.covers_within halike hroot hwithin) hmem
  obtain ⟨key, m, hentry, hkey, hstated, hrole, hdefinition⟩ :=
    h.exists_entry halike ⟨d, hwithin, hmem⟩ hcovers
  refine ⟨key, LeafTable.mem_provided.2 ?_, hkey⟩
  cases m with
  | definition d' => cases hstated.2.symm.trans (hdefinition.trans hundefined.2)
  | source src =>
    have hobserved : src.role = .observed :=
      Except.ok.inj (hstated.1.symm.trans (hrole.trans hundefined.1))
    cases src with
    | provider p => exact ⟨p, hentry⟩
    | _ => cases hobserved

end Records

/-! ### How often an object is asked -/

/-- The leaves for which an object has been asked on behalf of an expression: each is opaque and
reached, and equal leaves count as one. -/
structure AskedFor (b : Bound) (e : Expr) (asked : List Expr) : Prop where
  apart : asked.Pairwise fun s t => (s == t) = false
  sound (s : Expr) : s ∈ asked → b.Reaches e s ∧ b.IsOpaque s
  complete : b.AnswersAlike e →
    ∀ s, b.Reaches e s → b.IsOpaque s → ∃ t ∈ asked, t = s ∨ (t == s) = true
  distinct : (∀ s, b.Reaches e s → s.IsPlainSymbol) →
    asked.Nodup ∧ ∀ s, s ∈ asked ↔ b.Reaches e s ∧ b.IsOpaque s

lemma answersAlike_of_plain (hplain : ∀ s, b.Reaches e s → s.IsPlainSymbol) :
    b.AnswersAlike e := by
  intro s t hs ht hst
  rw [(hplain s hs).eq_of_beq (hplain t ht) hst]
  exact ⟨rfl, rfl⟩

lemma Records.askedFor {start : List (Option Nat)} {t : LeafTable} {trace : Trace}
    (h : b.Records e start t trace) (hroot : ∀ s ∈ e.scalarLeaves, t.Covers s) :
    b.AskedFor e t.provided where
  apart := h.apart
  sound _ := h.sound
  complete halike _ := h.complete halike hroot
  distinct hplain := by
    refine ⟨h.apart.imp_of_mem fun {s s'} hs _ hne heq => ?_, fun s => ⟨h.sound, ?_⟩⟩
    · rw [← heq, (hplain s (h.sound hs).1).beq_self] at hne
      cases hne
    · rintro ⟨hs, hundefined⟩
      obtain ⟨key, hkey, heq⟩ := h.complete (answersAlike_of_plain hplain) hroot hs hundefined
      have hsame : key = s :=
        heq.elim id fun heq => (hplain key (h.sound hkey).1).eq_of_beq (hplain s hs) heq
      exact hsame ▸ hkey

end Bound

namespace Evaluator

variable {e : Expr} {backend : Backend} {f : Evaluator} {trace trace' : Trace}

/-- Compiling binds the leaves; lowering asks for nothing. -/
lemma bound_of_compile {b : Bound}
    (h : (compile b e backend).run.run trace = (.ok f, trace')) :
    ∃ isTimeDependent trace₁,
      (b.bind isTimeDependent e).run.run trace = (.ok f.table, trace₁) ∧
        trace'.asked = trace₁.asked := by
  unfold compile at h
  obtain ⟨isTimeDependent, _, htime, hrest⟩ := run_bind_eq_ok h
  obtain ⟨-, rfl⟩ := lift_run_eq_ok htime
  obtain ⟨t, trace₁, hbind, hend⟩ := run_bind_eq_ok hrest
  cases backend with
  | interpreter =>
    cases hend
    exact ⟨isTimeDependent, trace', hbind, rfl⟩
  | graph =>
    dsimp only at hend
    split at hend
    · cases htext : e.text? with
      | none =>
        rw [htext] at hend
        cases hend
      | some s =>
        rw [htext] at hend
        obtain ⟨_, _, hwarned, hlowered⟩ := run_bind_eq_ok hend
        obtain ⟨graph, _, hgraph, hreturn⟩ := run_bind_eq_ok hlowered
        obtain ⟨-, rfl⟩ := lift_run_eq_ok hgraph
        cases hwarned
        cases hreturn
        exact ⟨isTimeDependent, trace₁, hbind, rfl⟩
    · obtain ⟨graph, _, hgraph, hreturn⟩ := run_bind_eq_ok hend
      obtain ⟨-, rfl⟩ := lift_run_eq_ok hgraph
      cases hreturn
      exact ⟨isTimeDependent, trace', hbind, rfl⟩

lemma compile_of_ofValue {s : System} {version : Value}
    (h : (ofValue s (.expr e) version backend).run.run trace = (.ok f, trace')) :
    ∃ b, Bound.of s version = .ok b ∧ (compile b e backend).run.run trace = (.ok f, trace') := by
  unfold ofValue at h
  obtain ⟨b, _, hbound, hrest⟩ := run_bind_eq_ok h
  obtain ⟨hb, rfl⟩ := lift_run_eq_ok hbound
  exact ⟨b, hb, hrest⟩

end Evaluator

/-- A call of an evaluator of a session: the evaluator and the storages and time that are given. -/
structure Evaluation where
  evaluator : Value
  u : Option Value
  p : Option Value
  t : Option Value

/-- The session after evaluations in order, whether they fail or not. -/
def Session.evaluated (s : Session) (calls : List Evaluation) : Session :=
  calls.foldl (fun s c => ((Step.evaluate c.evaluator c.u c.p c.t).run.run s).2) s

lemma Step.evaluate_run (f : Value) (u p t : Option Value) (s : Session) :
    ((evaluate f u p t).run.run s).2 = s := by
  unfold evaluate
  rw [run_bind, behind_run]
  cases Session.behind? s.evaluators f with
  | none => rfl
  | some e =>
    cases u with
    | none => rfl
    | some u =>
      cases p with
      | none => rfl
      | some p =>
        exact congrArg Prod.snd (lift_run _ _)

lemma Session.evaluated_eq (s : Session) (calls : List Evaluation) : s.evaluated calls = s := by
  induction calls with
  | nil => rfl
  | cons c calls ih =>
    rw [evaluated, List.foldl_cons, Step.evaluate_run]
    exact ih

/-- Whatever the object is: to compile an expression asks it once for each of the opaque leaves that
are met, and to evaluate asks for nothing, however often it is done. All reached opaque leaves are
met if the object answers alike for equal leaves, so that each distinct one is asked for once where
indices are plain integers. -/
theorem opaque_leaves_asked_once {s : System} {version : Value} {e : Expr} {backend : Backend}
    {f : Evaluator} {trace trace' : Trace}
    (h : (Evaluator.ofValue s (.expr e) version backend).run.run trace = (.ok f, trace')) :
    (∃ b, Bound.of s version = .ok b ∧ b.AskedFor e f.table.provided ∧
      trace'.asked = trace.asked ++ f.table.provided.map fun _ => b.asker.identity) ∧
    ∀ (session : Session) (calls : List Evaluation),
      (session.evaluated calls).trace = session.trace := by
  obtain ⟨b, hb, hcompile⟩ := Evaluator.compile_of_ofValue h
  obtain ⟨isTimeDependent, trace₁, hbind, hasked⟩ := Evaluator.bound_of_compile hcompile
  obtain ⟨hrecords, hroot⟩ := Bound.bind_records hbind
  refine ⟨⟨b, hb, hrecords.askedFor hroot, hasked.trans hrecords.asked⟩, fun session calls => ?_⟩
  rw [session.evaluated_eq]

namespace TruthIndex

def element (i : Index) : Expr := .symbol (some "A") [i]

def b : Expr := .symbol (some "b")

def c : Expr := .symbol (some "c")

/-- An element has one role under the index 1 and another one under the truth value that equals it. -/
def host : Host where
  attributes := [
    (.predicate .state, .method (.names (.always ["A[True]"]))),
    (.index .state, .method (.table (.always [("A[True]", .number (.int 0))]))),
    (.predicate .observed, .method (.names (.always ["b", "A[1]", "c"]))),
    (.definition, .method (.table (.always [("b", .expr (element (.int 1))), ("A[1]", .expr c)]))),
    (.provider, .method (.providers (.always [("c", some {})])))]

def bound : Bound := ⟨⟨host.toInterface (some 0), host.toInterface (some 0)⟩, none⟩

lemma defines_b : bound.Defines b (element (.int 1)) := ⟨rfl, rfl⟩

lemma defines_element : bound.Defines (element (.int 1)) c := ⟨rfl, rfl⟩

lemma isOpaque_c : bound.IsOpaque c := ⟨rfl, rfl⟩

/-- Three paths lead to the opaque leaf. -/
def paths : Expr := .binary .add (.binary .add b (element (.int 1))) c

def evaluator : Evaluator where
  expr := paths
  table := ⟨[(b, .definition (element (.int 1))), (element (.int 1), .definition c),
    (c, .source (.provider (LinearProvider.provider {})))]⟩
  isTimeDependent := false
  version := none

lemma bindsTo_c {unvisited : List Expr} :
    bound.BindsTo false unvisited {} {} [c]
      ⟨[(c, .source (.provider (LinearProvider.provider {})))]⟩ ⟨[some 0], []⟩ :=
  .source rfl (.provider isOpaque_c.1 isOpaque_c.2 rfl) .nil

lemma bindsTo_element {unvisited : List Expr}
    (hmay : Unvisited.mayEnter unvisited (element (.int 1)) = true) :
    bound.BindsTo false unvisited {} {} [element (.int 1)]
      ⟨[(element (.int 1), .definition c),
        (c, .source (.provider (LinearProvider.provider {})))]⟩ ⟨[some 0], []⟩ :=
  .definition rfl defines_element.1 defines_element.2 hmay bindsTo_c .nil

lemma bind_paths : (bound.bind false paths).run.run {} = (.ok evaluator.table, ⟨[some 0], []⟩) :=
  Bound.bindAll_run_iff.2 (.definition rfl defines_b.1 defines_b.2 (by decide)
    (bindsTo_element (by decide)) (.skip (by decide) (.skip (by decide) .nil)))

lemma ofValue_paths : (Evaluator.ofValue bound.system (.expr paths) .none .interpreter).run.run {} =
    (.ok evaluator, ⟨[some 0], []⟩) :=
  run_bind_ok bind_paths

theorem opaque_leaves_asked_once_paths :
    (Evaluator.ofValue bound.system (.expr paths) .none .interpreter).run.run {} =
        (.ok evaluator, ⟨[some 0], []⟩) ∧
      evaluator.table.provided = [c] ∧ bound.AskedFor paths [c] ∧
      ∀ calls, (({} : Session).evaluated calls).trace = {} := by
  obtain ⟨⟨bound', hbound, hasked, -⟩, hevaluated⟩ := opaque_leaves_asked_once ofValue_paths
  cases hbound
  exact ⟨ofValue_paths, rfl, hasked, hevaluated {}⟩

/-- The sum of the element under the truth value and the symbol that the other one defines. -/
def sum : Expr := .binary .add (element (.flag true)) b

/-- The element under the truth value is bound, and nothing else. -/
def flagged : LeafTable := ⟨[(element (.flag true), .source (.state (.int 0)))]⟩

def summed : Evaluator where
  expr := sum
  table := flagged.insert b (.definition (element (.int 1)))
  isTimeDependent := false
  version := none

lemma finds_flag {trace : Trace} :
    bound.Finds false (element (.flag true)) (.state (.int 0)) trace trace :=
  .state rfl rfl

lemma bind_sum : (bound.bind false sum).run.run {} = (.ok summed.table, {}) :=
  Bound.bindAll_run_iff.2 (.source rfl finds_flag (.definition (by decide) defines_b.1 defines_b.2
    (by decide) (.skip (by decide) .nil) .nil))

/-- A reached opaque leaf is not asked for if a leaf that leads to it equals one of another role. -/
theorem reached_leaf_not_asked :
    (Evaluator.ofValue bound.system (.expr sum) .none .interpreter).run.run {} = (.ok summed, {}) ∧
      bound.Reaches sum c ∧ bound.IsOpaque c := by
  have hsum : b ∈ sum.occurrences := List.mem_cons_of_mem _ List.mem_cons_self
  have hb : bound.Unfolds sum (element (.int 1)) := ⟨b, hsum, defines_b⟩
  have helement : bound.Unfolds (element (.int 1)) c :=
    ⟨element (.int 1), List.mem_cons_self, defines_element⟩
  exact ⟨run_bind_ok bind_sum, ⟨c, .tail (.single hb) helement, List.mem_cons_self⟩, isOpaque_c⟩

end TruthIndex

end NamedSlots
