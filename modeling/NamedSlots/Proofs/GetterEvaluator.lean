import NamedSlots.Proofs.InlinedEvaluation
import NamedSlots.Proofs.ReaderEvaluator
import NamedSlots.Proofs.VersionedAgreement

/-!
# Getters and evaluators

A problem state over a layout, or over a versioned layout at one of its versions, offers two ways
to the value of an expression: a getter, and an evaluator that is called on its storage. Either way
is open exactly if the other is, and they lead to the same value or to the same failure.
-/

namespace NamedSlots

open Relation Traced

namespace System

variable {s : System} {version : Value} {e : Expr} {f : Evaluator}

/-- The evaluator that a value is compiled to. -/
def evaluator (s : System) (v version : Value) : Except Failure Evaluator :=
  ((Evaluator.ofValue s v version .interpreter).run.run {}).1

lemma returns_of_evaluator (h : s.evaluator (.expr e) version = .ok f) :
    ∃ b, Bound.of s version = .ok b ∧ Returns (Evaluator.compile b e .interpreter) f := by
  have hreturns : Returns (Evaluator.ofValue s (.expr e) version .interpreter) f :=
    ⟨{}, _, Prod.ext h rfl⟩
  obtain ⟨b, hb, hreturns⟩ := hreturns.bind
  obtain ⟨e', he, hreturns⟩ := hreturns.bind
  cases he.of_lift
  exact ⟨b, hb.of_lift, hreturns⟩

lemma evaluator_of_compile {b : Bound} (hb : Bound.of s version = .ok b)
    {r : Except Failure Evaluator} (hr : Yields (Evaluator.compile b e .interpreter) r) :
    s.evaluator (.expr e) version = r := by
  have hyields : Yields (Evaluator.ofValue s (.expr e) version .interpreter) r :=
    yields_lift_bind hb (yields_lift_bind (rfl : Value.toExpr (.expr e) = .ok e) hr)
  exact congrArg Prod.fst (hyields {})

section Accessor

variable {b : Bound} {q : Request} {state : ProblemState} {i : Interface} {isTimeDependent : Bool}
  (hb : Bound.of s version = .ok b) (hq : Request.ofValue .standard (.expr e) = .ok q)
  (hcorresponds : Corresponds state i isTimeDependent (Reader.ofRequest b .interpreter .readAny q)
    (Evaluator.compile b e .interpreter)) {n : Nat} {object : Value}
include hb hq hcorresponds

/-- An evaluator gives a reader, and with it a getter that reads what the evaluator gives. -/
lemma exists_getter_of_evaluator (hquiet : Quiet (Evaluator.compile b e .interpreter))
    {current : Option Value} (hreported : s.reported b.version = .ok current)
    (hf : s.evaluator (.expr e) version = .ok f) :
    ∃ r, s.accessor n object .readAny (.expr e) version = .ok ⟨n, .getter r, q, b.version⟩ ∧
      r.read i = f.call state.states state.parameters (state.timeIf isTimeDependent) := by
  obtain ⟨b', hb', hcompile⟩ := returns_of_evaluator hf
  cases hb.symm.trans hb'
  obtain ⟨r, hr, hread⟩ := hcorresponds.reads (hquiet.yields hcompile)
  have hplan : Yields (Factory.planFor .interpreter b .readAny q) (.ok (.getter r)) :=
    hr.bind_ok (yields_pure _)
  exact ⟨r, accessor_of_plan hb hq hreported hplan, hread⟩

/-- A getter comes from a reader, and with it there is an evaluator. -/
lemma exists_evaluator_of_getter {a : Accessor}
    (ha : s.accessor n object .readAny (.expr e) version = .ok a) :
    ∃ f, s.evaluator (.expr e) version = .ok f := by
  obtain ⟨b', q', hb', hq', hplan⟩ := returns_of_accessor ha
  cases hb.symm.trans hb'
  cases hq.symm.trans hq'
  obtain ⟨r, hr, _⟩ := hplan.bind
  obtain ⟨f, hf⟩ := hcorresponds.compiles hr
  exact ⟨f, evaluator_of_compile hb hf⟩

end Accessor

end System

namespace ProblemState

/-- The containers of a problem state, with the version that the state is at and the layout that is
found for it. A version is found only if it equals itself as a key, as everything does that holds
no NaN. -/
inductive LaidOut (s : ProblemState) (world : World) : Interface → Extra → Layout → Prop
  | constant {states parameters independent observed : Value} {l : Layout}
      (identity : Option Nat) :
      Layout.build states parameters independent observed = .ok l →
      LaidOut s world (.ofLayout l identity) none l
  | versioned {independent observed version : Value} {empty versions : VersionedLayout}
      {l : Layout} (identity : Option Nat) :
      VersionedLayout.build independent observed = .ok empty →
      ReflTransGen VersionedLayout.Changes empty versions →
      versions.layoutAt version = .ok l → (version == version) = true →
      s.currentVersion world = .ok version →
      LaidOut s world (.ofVersionedLayout versions identity) (some version) l

namespace LaidOut

variable {s : ProblemState} {world : World} {container : Interface} {version : Extra} {l : Layout}
  (h : s.LaidOut world container version l) (k : Option Nat)
include h

lemma answeredBy : ∃ layoutAt, (s.systemOver world k container).AnsweredBy layoutAt ∧
    layoutAt version = .ok l := by
  cases h with
  | constant identity hl =>
    exact ⟨Interface.withoutVersion l, ⟨rfl, rfl, rfl, rfl, rfl, rfl⟩, rfl⟩
  | versioned identity _ _ hat _ _ =>
    exact ⟨Interface.withVersion _, ⟨rfl, rfl, rfl, rfl, rfl, rfl⟩, hat⟩

lemma independent_size : l.independent.size ≤ 1 := by
  cases h with
  | constant identity hl => exact Layout.independent_size hl
  | versioned identity hbuild hchanges hat _ _ =>
    obtain ⟨hindependent, _⟩ := VersionedLayout.build_ok hbuild
    obtain ⟨_, _, _, rfl⟩ := VersionedLayout.layoutAt_eq_ok_iff.1 hat
    rw [(VersionedLayout.shared_of_changes hchanges).1]
    exact Layout.size_of_independent hindependent

/-- Resolution is fixed to the version of the state, and accessors built so are let through. A
state whose version is missing is not resolved at all. -/
lemma opens : (∃ e, Bound.of (s.systemOver world k container) .none = .error e) ∨
    Bound.of (s.systemOver world k container) .none =
        .ok ⟨s.systemOver world k container, version⟩ ∧
      (∃ current, (s.systemOver world k container).reported version = .ok current) ∧
      ∀ a : Accessor, a.version = version →
        a.checkVersion (s.systemOver world k container) = .ok () := by
  cases h with
  | constant identity hl =>
    refine .inr ⟨rfl, ⟨none, rfl⟩, fun a ha => ?_⟩
    unfold Accessor.checkVersion
    rw [ha]
    rfl
  | @versioned _ _ version _ versions _ identity _ _ hat hself hcurrent =>
    have hclass := VersionedLayout.isHashableClass_of_layoutAt hat
    have hsystem : (s.systemOver world k (.ofVersionedLayout versions identity)).currentVersion =
        .ok version := by
      change (s.currentVersion world >>= _) = _
      rw [hcurrent]
      exact if_pos hclass
    by_cases hnone : version = .none
    · refine .inl ⟨.versionMismatch .none .none, ?_⟩
      change ((s.systemOver world k _).currentVersion >>= _) = _
      rw [hsystem, hnone]
      rfl
    · refine .inr ⟨?_, ⟨some version, ?_⟩, fun a ha => ?_⟩
      · change ((s.systemOver world k _).currentVersion >>= _) = _
        rw [hsystem]
        cases version <;> first | rfl | exact absurd rfl hnone
      · change ((s.systemOver world k _).currentVersion >>= _) = _
        rw [hsystem]
        cases version <;> first | rfl | exact absurd rfl hnone
      · unfold Accessor.checkVersion
        simp only [ha, hsystem]
        cases version <;> first | exact if_pos hself | exact absurd rfl hnone

end LaidOut

/-- Over a layout, and over a versioned layout at a version that was added, a getter of an
expression can be built exactly if the expression compiles. On a problem state that has a time if
its system is time dependent, the getter returns what the evaluator returns on the storage of the
state and, only if the system is time dependent, its time; or both fail in the same way. Symbols
have plain integer indices, for an array also those in the definitions that it leads to: the
elements of an array share one table, in which an index that is a truth value is an integer. -/
theorem getter_eq_evaluator {s : ProblemState} {world : World} {container : Interface}
    {version : Extra} {l : Layout} (h : s.LaidOut world container version l) (k : Option Nat)
    {r : Expr} (hr : r.HasPlainSymbols) (hplain : r.kind = .array → l.PlainThrough r) (n : Nat)
    (object : Value) :
    ∃ isTimeDependent,
      (s.systemOver world k container).isTimeDependent version = .ok isTimeDependent ∧
      ((isTimeDependent = true → s.hasTime = true) →
        ((∃ a, (s.systemOver world k container).accessor n object .readAny (.expr r) .none = .ok a) ↔
          ∃ f, (s.systemOver world k container).evaluator (.expr r) .none = .ok f) ∧
        ∀ a f, (s.systemOver world k container).accessor n object .readAny (.expr r) .none = .ok a →
          (s.systemOver world k container).evaluator (.expr r) .none = .ok f →
          a.get (s.systemOver world k container) =
            f.call s.states s.parameters (s.timeIf isTimeDependent)) := by
  obtain ⟨layoutAt, hanswered, hl⟩ := h.answeredBy k
  have hsize := h.independent_size
  let b : Bound := ⟨s.systemOver world k container, version⟩
  have hb : b.AnsweredBy l := .of_layoutAt hanswered hl
  refine ⟨l.isTimeDependent, Evaluator.isTimeDependent_bound hb hsize, fun htime => ?_⟩
  obtain ⟨q, hq, hcorresponds⟩ := corresponds_request (b := b) hanswered hl hsize rfl htime hr hplain
  rcases h.opens k with ⟨e, herror⟩ | ⟨hbound, ⟨current, hreported⟩, hcheck⟩
  · have hgetter (a : Accessor) :
        ¬ (s.systemOver world k container).accessor n object .readAny (.expr r) .none = .ok a := by
      intro ha
      obtain ⟨b', _, hb', _⟩ := System.returns_of_accessor ha
      rw [herror] at hb'
      cases hb'
    refine ⟨⟨fun ⟨a, ha⟩ => absurd ha (hgetter a), fun ⟨f, hf⟩ => ?_⟩,
      fun a f ha _ => absurd ha (hgetter a)⟩
    obtain ⟨b', hb', _⟩ := System.returns_of_evaluator hf
    rw [herror] at hb'
    cases hb'
  · have hquiet := Evaluator.compile_quiet (b := b) hanswered r
    refine ⟨⟨?_, ?_⟩, ?_⟩
    · rintro ⟨a, ha⟩
      exact System.exists_evaluator_of_getter hbound hq hcorresponds ha
    · rintro ⟨f, hf⟩
      obtain ⟨reader, hreader, _⟩ :=
        System.exists_getter_of_evaluator hbound hq hcorresponds hquiet hreported hf
      exact ⟨_, hreader⟩
    · intro a f ha hf
      obtain ⟨reader, hreader, hread⟩ :=
        System.exists_getter_of_evaluator hbound hq hcorresponds hquiet hreported hf
      cases hreader.symm.trans ha
      unfold Accessor.get
      rw [hcheck _ rfl]
      exact hread

namespace MixedArray

def element (n : Int) : Expr := .symbol (some "A") [.int n]

def time : Expr := .symbol (some "t")

def definition : Expr := .binary .add (element 0) time

def vector : Expr := .array (some "A") [.int 2]

def version : Value := .number (.int 1)

def observed : Value := .dict [(.expr (element 1), .expr definition)]

/-- A stored element, and one that is defined as the stored one plus the time. -/
def layout : Layout where
  states := ⟨[("A[0]", .expr (element 0))]⟩
  independent := ⟨[("t", .expr time)]⟩
  observed := ⟨[("A[1]", .expr (element 1), definition)]⟩

def empty : VersionedLayout := ⟨[], layout.independent, layout.observed, .none⟩

def versions : VersionedLayout :=
  { empty with structures := [(version, ⟨layout.states, {}⟩)], current := version }

lemma build_empty : VersionedLayout.build (.expr time) observed = .ok empty := rfl

lemma changes_versions : ReflTransGen VersionedLayout.Changes empty versions :=
  .single (.add version (.expr (element 0)) .none rfl)

def world : World := fun _ => .ofVersionedLayout versions none

/-- A state pinned to the version. -/
def state : ProblemState := ⟨.none, .list [.int 2], .list [], .int 3, version⟩

lemma laidOut : state.LaidOut world (.ofVersionedLayout versions none) (some version) layout :=
  .versioned none build_empty changes_versions rfl rfl rfl

/-- Only the second element has a definition, which leads to no other. -/
lemma unrolls_vector :
    layout.Unrolls (fun d => d.HasPlainSymbols ∧ layout.Knows d) vector :=
  .intro ⟨by decide, by decide⟩
    (List.forall_mem_singleton.2 (.intro ⟨by decide, by decide⟩ (List.forall_mem_nil _)))

def system : System := state.systemOver world none (.ofVersionedLayout versions none)

lemma exists_evaluator : ∃ f, system.evaluator (.expr vector) .none = .ok f := by
  obtain ⟨layoutAt, hanswered, hl⟩ := laidOut.answeredBy none
  have hresolves := unrolls_vector.resolves
  obtain ⟨f, hf⟩ := (compile_ok_iff (b := ⟨system, some version⟩) hanswered hl (Nat.le_refl 1)
    hresolves.plain).2 ⟨hresolves, unrolls_vector.not_cyclicFrom⟩
  exact ⟨f, System.evaluator_of_compile rfl hf⟩

end MixedArray

/-- An array with a stored element and one that is defined through the time has a getter, which
returns what the evaluator of the array returns. -/
theorem getter_eq_evaluator_mixed :
    ∃ a f, MixedArray.system.accessor 0 .none .readAny (.expr MixedArray.vector) .none = .ok a ∧
      MixedArray.system.evaluator (.expr MixedArray.vector) .none = .ok f ∧
      a.get MixedArray.system = f.call MixedArray.state.states MixedArray.state.parameters (.int 3) := by
  obtain ⟨isTimeDependent, hdependent, h⟩ := getter_eq_evaluator MixedArray.laidOut none
    (Expr.hasPlainSymbols_of_array rfl) (fun _ => MixedArray.unrolls_vector.resolves.plain) 0 .none
  have htrue : MixedArray.system.isTimeDependent (some MixedArray.version) = .ok true := rfl
  cases hdependent.symm.trans htrue
  obtain ⟨hiff, hget⟩ := h fun _ => rfl
  obtain ⟨f, hf⟩ := MixedArray.exists_evaluator
  obtain ⟨a, ha⟩ := hiff.2 ⟨f, hf⟩
  exact ⟨a, f, ha, hf, hget a f ha hf⟩

namespace CrossedArray

open Twins

def vector : Expr := .array (some "A") [.int 2]

def state : ProblemState := ⟨.none, Twins.states, .list [], .none, .none⟩

def world : World := fun _ => .ofLayout crossed none

def system : System := state.systemOver world none (.ofLayout crossed none)

def bound : Bound := ⟨system, none⟩

lemma laidOut : state.LaidOut world (.ofLayout crossed none) none crossed :=
  .constant none build_crossed

/-- The first element stands for the stored one. -/
def firstTable : LeafTable :=
  ⟨[(element (.int 0), .definition (element (.flag true))),
    (element (.flag true), .source (.state (.int 1)))]⟩

/-- The second element stands for the other state. -/
def secondTable : LeafTable :=
  ⟨[(element (.int 1), .definition single), (single, .source (.state (.int 0)))]⟩

def evaluatorOf (e : Expr) (table : LeafTable) : Evaluator := ⟨e, table, false, none, none⟩

lemma bindsTo_first {unvisited rest : List Expr} {t : LeafTable} {trace trace' : Trace}
    (hmay : Unvisited.mayEnter unvisited (element (.int 0)) = true)
    (hrest : bound.BindsTo false unvisited firstTable trace rest t trace') :
    bound.BindsTo false unvisited {} trace (element (.int 0) :: rest) t trace' :=
  .definition rfl rfl rfl hmay (.source rfl (.state rfl rfl) .nil) hrest

lemma compile_of_bindsTo {e : Expr} {table : LeafTable}
    (h : ∀ trace, bound.BindsTo false (e.scalarLeaves ++ system.definitionLeaves none) {} trace
      e.scalarLeaves table trace) :
    Yields (Evaluator.compile bound e .interpreter) (.ok (evaluatorOf e table)) := by
  have hbind : Yields (bound.bind false e) (.ok table) := fun trace =>
    Bound.bindAll_run_iff.2 (h trace)
  exact yields_lift_bind (rfl : bound.isTimeDependent = .ok false) (hbind.bind_ok (yields_pure _))

/-- Once the stored element is bound, its twin is taken for bound as well. -/
lemma compile_vector :
    Yields (Evaluator.compile bound vector .interpreter) (.ok (evaluatorOf vector firstTable)) :=
  compile_of_bindsTo fun _ => bindsTo_first (by decide) (.skip (by decide) .nil)

lemma compile_first : Yields (Evaluator.compile bound (element (.int 0)) .interpreter)
    (.ok (evaluatorOf (element (.int 0)) firstTable)) :=
  compile_of_bindsTo fun _ => bindsTo_first (by decide) .nil

lemma compile_second : Yields (Evaluator.compile bound (element (.int 1)) .interpreter)
    (.ok (evaluatorOf (element (.int 1)) secondTable)) :=
  compile_of_bindsTo fun _ => .definition rfl rfl rfl (by decide)
    (.source rfl (.state rfl rfl) .nil) .nil

/-- The elements are read one by one, each with a table of its own. -/
def reader : Reader :=
  .array (.vector [.expression (evaluatorOf (element (.int 0)) firstTable),
    .expression (evaluatorOf (element (.int 1)) secondTable)]) [.int 2]

def request : Request := .array [.int 2]
  [.symbol "A[0]" (.expr (element (.int 0))), .symbol "A[1]" (.expr (element (.int 1)))]

lemma ofSymbol_element {n : Int} {d : Expr} {table : LeafTable}
    (hroles : crossed.rolesOf (.expr (element (.int n))) = [.observed])
    (hd : crossed.definitionOf (element (.int n)).indexedName = some d)
    (hcompile : Yields (Evaluator.compile bound (element (.int n)) .interpreter)
      (.ok (evaluatorOf (element (.int n)) table)))
    (hreader : Reader.ofEvaluator bound (evaluatorOf (element (.int n)) table) =
      .ok (.expression (evaluatorOf (element (.int n)) table))) :
    Yields (Reader.ofSymbol bound .interpreter .readAny (.expr (element (.int n))))
      (.ok (.expression (evaluatorOf (element (.int n)) table))) := by
  obtain ⟨layoutAt, hanswered, hl⟩ := laidOut.answeredBy none
  rw [ofSymbol_of_observed (b := bound) hanswered hl (isPlainSymbol_element n).key?_eq hroles hd rfl]
  refine hcompile.bind_ok ?_
  rw [hreader]
  exact yields_lift _

lemma planFor_request : Yields (Factory.planFor .interpreter bound .readAny request)
    (.ok (.getter reader)) := by
  have hfirst := ofSymbol_element (n := 0) rfl rfl compile_first rfl
  have hsecond := ofSymbol_element (n := 1) rfl rfl compile_second rfl
  have hlast : Yields (Reader.ofRequests bound .interpreter .readAny
      [.symbol "A[1]" (.expr (element (.int 1)))])
      (.ok [.expression (evaluatorOf (element (.int 1)) secondTable)]) :=
    hsecond.bind_ok ((yields_pure []).bind_ok (yields_pure _))
  have helements : Yields (Reader.ofRequests bound .interpreter .readAny
      [.symbol "A[0]" (.expr (element (.int 0))), .symbol "A[1]" (.expr (element (.int 1)))])
      (.ok [.expression (evaluatorOf (element (.int 0)) firstTable),
        .expression (evaluatorOf (element (.int 1)) secondTable)]) :=
    hfirst.bind_ok (hlast.bind_ok (yields_pure _))
  have hreader : Yields (Reader.ofRequest bound .interpreter .readAny request) (.ok reader) :=
    helements.bind_ok (yields_pure _)
  exact hreader.bind_ok (yields_pure _)

end CrossedArray

/-- The getter of an array reads each element by its own definition, and the evaluator of the array
reads an element like its twin. -/
theorem getter_tells_twins_apart :
    CrossedArray.state.LaidOut CrossedArray.world (.ofLayout Twins.crossed none) none Twins.crossed ∧
      CrossedArray.vector.HasPlainSymbols ∧
      CrossedArray.system.isTimeDependent none = .ok false ∧
      ∃ a f, CrossedArray.system.accessor 0 .none .readAny (.expr CrossedArray.vector) .none = .ok a ∧
        CrossedArray.system.evaluator (.expr CrossedArray.vector) .none = .ok f ∧
        a.get CrossedArray.system = .ok (.numbers .int64 [2] [.int 10, .int 1]) ∧
        f.call CrossedArray.state.states CrossedArray.state.parameters .none =
          .ok (.numbers .int64 [2] [.int 10, .int 10]) := by
  refine ⟨CrossedArray.laidOut, Expr.hasPlainSymbols_of_array rfl, rfl,
    ⟨0, .getter CrossedArray.reader, CrossedArray.request, none⟩,
    CrossedArray.evaluatorOf CrossedArray.vector CrossedArray.firstTable, ?_, ?_, ?_, ?_⟩
  · exact System.accessor_of_plan rfl rfl rfl CrossedArray.planFor_request
  · exact System.evaluator_of_compile rfl CrossedArray.compile_vector
  · rfl
  · rfl

end ProblemState
end NamedSlots
