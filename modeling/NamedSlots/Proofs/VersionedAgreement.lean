import Mathlib.Logic.Relation
import NamedSlots.Proofs.Fleet
import NamedSlots.Proofs.KeyEquality
import NamedSlots.Proofs.SystemAgreement

/-!
# A versioned layout at one version

A version keeps the tables that it was added with, whatever is added before and after it and
whichever version is current. At that version the versioned layout answers every question, and
binds every expression, as the layout with the same tables does.
-/

namespace NamedSlots

namespace Route

/-- The route that leaves the version out where a route spells it out. -/
def unversioned : Route → Route
  | resolver isVersioned => resolver (isVersioned.map (!·))
  | route => route

lemma ask_resolver (isVersioned : Bool) (s : System) (version : Option Value) (q : Question) :
    (resolver (some isVersioned)).ask s version q =
      if takes (resolver (some isVersioned)) q then extra isVersioned version >>= q.answer s
      else failWith .missingAttribute := by
  cases q <;> rfl

lemma ask_resolver_none {s : System} {isConstant : Bool} (h : s.isConstant = .ok isConstant)
    (version : Option Value) (q : Question) :
    (resolver none).ask s version q = (resolver (some !isConstant)).ask s version q := by
  unfold ask
  rw [h]
  cases q <;> rfl

end Route

namespace VersionedLayout

/-- One change of a versioned layout: a version is added, or one of its versions made current. -/
inductive Changes (l l' : VersionedLayout) : Prop
  | add (version states parameters : Value) :
      l.addVersion version states parameters = .ok l' → Changes l l'
  | current (version : Value) : l.setCurrent version = .ok l' → Changes l l'

/-- A versioned layout as a system: it answers for itself. -/
def system (l : VersionedLayout) (identity : Option Nat) : System :=
  ⟨.ofVersionedLayout l identity, .ofVersionedLayout l identity⟩

variable {l l' : VersionedLayout}

lemma answeredBy_system (l : VersionedLayout) (identity : Option Nat) :
    (l.system identity).AnsweredBy (Interface.withVersion l.layoutAt) where
  predicate := rfl
  index := rfl
  symbols := rfl
  definitions := rfl
  ownProvider := rfl
  provider := rfl

lemma isConstant_system (l : VersionedLayout) (identity : Option Nat) :
    (l.system identity).isConstant = .ok false := rfl

lemma build_ok {independent observed : Value}
    (hl : VersionedLayout.build independent observed = .ok l) :
    SlotTable.independent independent = .ok l.independent ∧
      DefinitionTable.ofValue observed = .ok l.observed ∧ l.structures = [] ∧ l.current = .none := by
  have htables : (do
      let independent ← SlotTable.independent independent
      return (⟨[], independent, ← DefinitionTable.ofValue observed, .none⟩ : VersionedLayout)) =
        .ok l := by
    unfold VersionedLayout.build at hl
    cases observed with
    | none => exact hl
    | dict entries => exact hl
    | _ => cases hl
  obtain ⟨i, hi, htables⟩ := Except.eq_ok_of_bind htables
  obtain ⟨o, ho, htables⟩ := Except.eq_ok_of_bind htables
  cases htables
  exact ⟨hi, ho, rfl, rfl⟩

lemma Changes.extends (h : l.Changes l') : l.Extends l' := by
  cases h with
  | add _ _ _ h => exact (addVersion_eq_ok h).2.2
  | current _ h => exact (setCurrent_eq_ok h).2.2

lemma Changes.shared (h : l.Changes l') :
    l'.independent = l.independent ∧ l'.observed = l.observed := by
  cases h with
  | add _ _ _ h =>
    obtain ⟨_, _, _, _, _, rfl⟩ := addVersion_eq_ok_iff.1 h
    exact ⟨rfl, rfl⟩
  | current _ h =>
    obtain ⟨_, rfl⟩ := setCurrent_eq_ok_iff.1 h
    exact ⟨rfl, rfl⟩

/-- The run of changes keeps the tables of every version. -/
lemma extends_of_changes (h : Relation.ReflTransGen Changes l l') : l.Extends l' := by
  induction h with
  | refl => exact .refl l
  | tail _ hstep ih => exact ih.trans hstep.extends

/-- The run of changes keeps what all versions share. -/
lemma shared_of_changes (h : Relation.ReflTransGen Changes l l') :
    l'.independent = l.independent ∧ l'.observed = l.observed := by
  induction h with
  | refl => exact ⟨rfl, rfl⟩
  | tail _ hstep ih =>
    have hshared := hstep.shared
    exact ⟨hshared.1.trans ih.1, hshared.2.trans ih.2⟩

/-- What equals a version as a key finds the tables that the version was added with, and these are
the tables of the layout with the same declarations. -/
lemma exists_layout_of_addVersion {version states parameters independent observed : Value}
    {l₀ : VersionedLayout} (hbuild : VersionedLayout.build independent observed = .ok l₀)
    (hbefore : Relation.ReflTransGen Changes l₀ l)
    (hadd : l.addVersion version states parameters = .ok l') :
    ∃ layout, Layout.build states parameters independent observed = .ok layout ∧
      ∀ v, checkVersion v = .ok () → (version == v) = true → l'.layoutAt v = .ok layout := by
  obtain ⟨hindependent₀, hobserved₀, _⟩ := build_ok hbuild
  obtain ⟨hindependent, hobserved⟩ := shared_of_changes hbefore
  obtain ⟨_, hnew, s, hs, hp, rfl⟩ := addVersion_eq_ok_iff.1 hadd
  refine ⟨⟨s.states, s.parameters, l.independent, l.observed⟩, ?_, fun v hcheck hv => ?_⟩
  · exact Layout.build_of_tables hs hp (by rw [hindependent₀, hindependent])
      (by rw [hobserved₀, hobserved])
  · have hfind : Assoc.find? v (l.structures ++ [(version, s)]) = some s := by
      have hnone : Assoc.find? v l.structures = none := by
        refine Assoc.find?_eq_none_iff.2 fun entry hentry => Bool.eq_false_iff.2 fun hkey => ?_
        have hne := Assoc.find?_eq_none_iff.1 hnew entry hentry
        rw [BEq.trans hkey (BEq.symm hv)] at hne
        cases hne
      rw [Assoc.find?_append_of_none hnone]
      exact if_pos hv
    exact layoutAt_eq_ok_iff.2 ⟨hcheck, s, hfind, rfl⟩

/-- The layout that the tables of a version make is the one found at that version. A version is
found again only if it equals itself as a key. -/
lemma layoutAt_of_history {states parameters independent observed version : Value} {layout : Layout}
    {l₀ l₁ l₂ : VersionedLayout}
    (hlayout : Layout.build states parameters independent observed = .ok layout)
    (hbuild : VersionedLayout.build independent observed = .ok l₀)
    (hbefore : Relation.ReflTransGen Changes l₀ l₁)
    (hadd : l₁.addVersion version states parameters = .ok l₂)
    (hafter : Relation.ReflTransGen Changes l₂ l) (hself : (version == version) = true) :
    l.layoutAt version = .ok layout := by
  obtain ⟨layout', hlayout', hat⟩ := exists_layout_of_addVersion hbuild hbefore hadd
  have hcheck := (addVersion_eq_ok_iff.1 hadd).1
  cases hlayout.symm.trans hlayout'
  exact extends_of_changes hafter version layout (hat version hcheck hself)

lemma isHashableClass_of_layoutAt {version : Value} {layout : Layout}
    (h : l.layoutAt version = .ok layout) : version.isHashableClass = true :=
  isHashableClass_of_checkVersion (layoutAt_eq_ok_iff.1 h).1

lemma bound_of_system {version : Value} (hversion : version ≠ .none)
    (hclass : version.isHashableClass = true) (identity : Option Nat) :
    Bound.of (l.system identity) version = .ok ⟨l.system identity, some version⟩ := by
  unfold Bound.of
  rw [hclass, isConstant_system]
  cases version <;> first | rfl | exact absurd rfl hversion

lemma ask_eq_of_agrees {version : Value} {layout : Layout} {identity identity' : Option Nat}
    (hagrees : (l.system identity).Agrees (some version) (layout.system identity') none)
    (hversion : version ≠ .none) (hclass : version.isHashableClass = true) (route : Route)
    (q : Question) :
    route.ask (l.system identity) (some version) q =
      route.unversioned.ask (layout.system identity') none q := by
  have hanswer := hagrees.answer_eq q
  have hbound := l.bound_of_system hversion hclass identity
  have hextra : Route.extra true (some version) = .ok (some version) := by
    unfold Route.extra
    simp only [hclass, if_true]
    rfl
  have hresolver : (Route.resolver (some true)).ask (l.system identity) (some version) q =
      (Route.resolver (some false)).ask (layout.system identity') none q := by
    rw [Route.ask_resolver, Route.ask_resolver, hextra]
    cases q <;> first | exact hanswer | rfl
  cases route with
  | direct =>
    change Bound.of (l.system identity) version >>= _ = _
    rw [hbound]
    exact hanswer
  | bound =>
    change Bound.of (l.system identity) version >>= _ = _
    rw [hbound]
    cases q <;> first | exact hanswer | rfl
  | resolver isVersioned =>
    cases isVersioned with
    | none =>
      change (Route.resolver none).ask _ _ q = (Route.resolver none).ask _ _ q
      rw [Route.ask_resolver_none (l.isConstant_system identity),
        Route.ask_resolver_none (layout.isConstant_system identity')]
      exact hresolver
    | some isVersioned =>
      cases isVersioned with
      | true => exact hresolver
      | false => cases q <;> rfl

/-- A version that was added with the symbols of a layout answers every question as that layout
does, by every route, and compiles every expression to the same tables, or fails in the same way.
It does not matter which versions were added before and after it, or which one is current. As a
key, a version has to equal itself, as everything does that holds no NaN. -/
theorem answers_as_layout {states parameters independent observed version : Value} {layout : Layout}
    {l₀ l₁ l₂ : VersionedLayout}
    (hlayout : Layout.build states parameters independent observed = .ok layout)
    (hbuild : VersionedLayout.build independent observed = .ok l₀)
    (hbefore : Relation.ReflTransGen Changes l₀ l₁)
    (hadd : l₁.addVersion version states parameters = .ok l₂)
    (hafter : Relation.ReflTransGen Changes l₂ l) (hversion : version ≠ .none)
    (hself : (version == version) = true) (identity identity' : Option Nat) :
    (∀ route q, Route.ask route (l.system identity) (some version) q =
        route.unversioned.ask (layout.system identity') none q) ∧
      ∀ v backend,
        (fun e => (e.table.bindings, e.table.inlined)) <$>
            Evaluator.ofValue (l.system identity) v version backend =
          (fun e => (e.table.bindings, e.table.inlined)) <$>
            Evaluator.ofValue (layout.system identity') v .none backend := by
  have hat := layoutAt_of_history hlayout hbuild hbefore hadd hafter hself
  have hclass := isHashableClass_of_layoutAt hat
  have hagrees : (l.system identity).Agrees (some version) (layout.system identity') none :=
    (l.answeredBy_system identity).agrees (layout.answeredBy_system identity') hat
  refine ⟨fun route q => ask_eq_of_agrees hagrees hversion hclass route q, fun v backend => ?_⟩
  unfold Evaluator.ofValue
  rw [bound_of_system hversion hclass, layout.bound_of_system]
  simp only [map_bind]
  change ((liftM v.toExpr : Traced Expr) >>= _) = (liftM v.toExpr : Traced Expr) >>= _
  congr
  funext e
  rw [hagrees.compile_eq e backend, ← comp_map]
  rfl

namespace Regrowth

def version (n : Int) : Value := .number (.int n)

def states : Value := .list [.text "x", .text "y"]

def observed : Value :=
  .dict [(.text "e", .expr (.binary .add (.symbol (some "x")) (.symbol (some "y"))))]

def definitions : DefinitionTable :=
  ⟨[("e", .text "e", .binary .add (.symbol (some "x")) (.symbol (some "y")))]⟩

/-- Two states, the time, and an observed sum of the states. -/
def layout : Layout where
  states := ⟨[("x", .text "x"), ("y", .text "y")]⟩
  independent := ⟨[("t", .text "t")]⟩
  observed := definitions

lemma build_layout : Layout.build states .none (.text "t") observed = .ok layout := rfl

def empty : VersionedLayout := ⟨[], ⟨[("t", .text "t")]⟩, definitions, .none⟩

/-- A version in which y has the first slot. -/
def first : VersionedLayout :=
  { empty with
    structures := [(version 0, ⟨⟨[("y", .text "y")]⟩, {}⟩)]
    current := version 0 }

def grown : VersionedLayout :=
  { first with
    structures := first.structures ++ [(version 1, ⟨layout.states, {}⟩)]
    current := version 1 }

/-- Both versions, with the first one current again. -/
def returned : VersionedLayout := { grown with current := version 0 }

lemma changes_first : Relation.ReflTransGen Changes empty first :=
  .single (.add (version 0) (.text "y") .none rfl)

lemma changes_returned : Relation.ReflTransGen Changes grown returned :=
  .single (.current (version 0) rfl)

end Regrowth

/-- A version added after another one, which is current again, puts y where the layout puts it. -/
theorem answers_as_layout_regrowth :
    Route.direct.ask (Regrowth.returned.system none) (some (Regrowth.version 1))
        (.locate (.text "y")) =
      Route.direct.ask (Regrowth.layout.system none) none (.locate (.text "y")) ∧
    Route.direct.ask (Regrowth.layout.system none) none (.locate (.text "y")) =
      .ok (.index (.int 1)) := by
  refine ⟨?_, rfl⟩
  have hadd : Regrowth.first.addVersion (Regrowth.version 1) Regrowth.states .none =
      .ok Regrowth.grown := rfl
  have hanswers := answers_as_layout Regrowth.build_layout rfl Regrowth.changes_first hadd
    Regrowth.changes_returned nofun rfl none none
  exact hanswers.1 .direct (.locate (.text "y"))

end VersionedLayout
end NamedSlots
