import NamedSlots.Proofs.SessionRun
import NamedSlots.Proofs.VersionedAgreement

/-!
# Versioned layouts as stores of versions

A versioned layout of a session is changed by calls that add versions and make them current. Such
calls may fail, when they are made and half way through the tables of a new version. Over every run
of them the layout lists what was added, its current version is one of these, and a version answers
from the tables that it was added with.
-/

namespace NamedSlots

namespace Query

/-- The queries that resolution makes. -/
def IsResolution : Query → Prop
  | predicate _ | index _ | symbols _ | definition => True
  | _ => False

end Query

namespace Interface

section Call

variable {l : VersionedLayout} {version : Value} {layout : Layout}
  (h : l.layoutAt version = .ok layout) (identity identity' : Option Nat) (args : List Value)
include h

lemma call_predicate (role : Role) :
    (ofVersionedLayout l identity).call (.predicate role) (args ++ [version]) =
      (ofLayout layout identity').call (.predicate role) args := by
  cases role with
  | unknown => rfl
  | _ =>
    rcases args with _ | ⟨symbol, _ | ⟨extra, _ | ⟨other, args⟩⟩⟩
    · rfl
    · change ((l.layoutAt version >>= fun t => pure (t.has _ symbol)) >>= fun b =>
        pure (Value.bool b)) = _
      rw [h]
      rfl
    · rfl
    · rfl

lemma call_index (role : Role) :
    (ofVersionedLayout l identity).call (.index role) (args ++ [version]) =
      (ofLayout layout identity').call (.index role) args := by
  have hplace (role : Role) (symbol : Value) :
      (l.layoutAt version >>= fun t =>
        pure (((t.place? role symbol).map fun (n : Nat) => Value.int n).getD .none)) =
        .ok (((layout.place? role symbol).map fun (n : Nat) => Value.int n).getD .none) := by
    rw [h]
    rfl
  cases role with
  | state | parameter =>
    rcases args with _ | ⟨symbol, _ | ⟨extra, _ | ⟨other, args⟩⟩⟩
    · rfl
    · exact hplace _ symbol
    · rfl
    · rfl
  | _ => rfl

lemma call_symbols (role : Role) :
    (ofVersionedLayout l identity).call (.symbols role) (args ++ [version]) =
      (ofLayout layout identity').call (.symbols role) args := by
  have hsymbols (role : Role) : (l.layoutAt version >>= fun t => pure (.list (t.symbols role))) =
      .ok (Value.list (layout.symbols role)) := by
    rw [h]
    rfl
  cases role with
  | unknown => rfl
  | _ =>
    rcases args with _ | ⟨extra, _ | ⟨other, args⟩⟩
    · exact hsymbols _
    · rfl
    · rfl

lemma call_definition :
    (ofVersionedLayout l identity).call .definition (args ++ [version]) =
      (ofLayout layout identity').call .definition args := by
  rcases args with _ | ⟨symbol, _ | ⟨extra, _ | ⟨other, args⟩⟩⟩
  · rfl
  · change (((l.layoutAt version >>= fun t =>
      pure (t.observed.definitions.map fun entry => (entry.1, Value.expr entry.2))) >>=
        fun entries => pure (symbol.key?.bind fun text => Assoc.find? text entries)) >>=
          fun found => pure (found.getD .none)) = _
    rw [h]
    rfl
  · rfl
  · rfl

/-- At a version, a versioned layout answers what resolution asks as the layout of that version. -/
lemma call_ofVersionedLayout {q : Query} (hq : q.IsResolution) :
    (ofVersionedLayout l identity).call q (args ++ [version]) =
      (ofLayout layout identity').call q args := by
  cases q with
  | predicate role => exact call_predicate h identity identity' args role
  | index role => exact call_index h identity identity' args role
  | symbols role => exact call_symbols h identity identity' args role
  | definition => exact call_definition h identity identity' args
  | _ => cases hq

end Call

end Interface

namespace VersionedLayout

variable {l l' : VersionedLayout} {version : Value}

/-- No version stands twice, and the current one is none of them exactly while there are none. -/
structure Consistent (l : VersionedLayout) : Prop where
  distinct : l.versions.Pairwise fun a b => (a == b) = false
  empty : l.versions = [] → l.current = .none
  current : l.versions ≠ [] → l.current ≠ .none ∧
    ∃ k ∈ l.versions, k = l.current ∨ (k == l.current) = true
  isHashableClass : l.current.isHashableClass = true

lemma Consistent.addVersion (hl : l.Consistent) {states parameters : Value}
    (hversion : version ≠ .none) (h : l.addVersion version states parameters = .ok l') :
    l'.Consistent ∧ l'.versions = l.versions ++ [version] := by
  obtain ⟨hcheck, hnew, s, _, _, rfl⟩ := addVersion_eq_ok_iff.1 h
  have hversions : versions ⟨l.structures ++ [(version, s)], l.independent, l.observed, version⟩ =
      l.versions ++ [version] := List.map_append
  refine ⟨⟨?_, ?_, ?_, isHashableClass_of_checkVersion hcheck⟩, hversions⟩
  · rw [hversions, List.pairwise_append]
    refine ⟨hl.distinct, List.pairwise_singleton _ _, fun k hk v hv => ?_⟩
    cases List.mem_singleton.1 hv
    obtain ⟨s', hs'⟩ := Assoc.exists_mem_of_mem_keys hk
    exact Assoc.find?_eq_none_iff.1 hnew (k, s') hs'
  · intro hempty
    rw [hversions] at hempty
    simp at hempty
  · intro _
    rw [hversions]
    exact ⟨hversion, version, List.mem_append_right _ List.mem_cons_self, .inl rfl⟩

lemma Consistent.setCurrent (hl : l.Consistent) (hversion : version ≠ .none)
    (h : l.setCurrent version = .ok l') : l'.Consistent ∧ l'.versions = l.versions := by
  obtain ⟨⟨t, ht⟩, rfl⟩ := setCurrent_eq_ok_iff.1 h
  obtain ⟨hcheck, s, hs, _⟩ := layoutAt_eq_ok_iff.1 ht
  obtain ⟨k, hk, hkey⟩ := Assoc.mem_of_find? hs
  have hmem : k ∈ l.versions := Assoc.mem_keys_of_mem hk
  refine ⟨⟨hl.distinct, ?_, ?_, isHashableClass_of_checkVersion hcheck⟩, rfl⟩
  · intro hempty
    change l.versions = [] at hempty
    rw [hempty] at hmem
    cases hmem
  · exact fun _ => ⟨hversion, k, hmem, .inr hkey⟩

lemma consistent_of_build {independent observed : Value}
    (h : VersionedLayout.build independent observed = .ok l) : l.Consistent ∧ l.versions = [] := by
  obtain ⟨_, _, hstructures, hcurrent⟩ := build_ok h
  have hversions : l.versions = [] := congrArg Assoc.keys hstructures
  refine ⟨⟨?_, fun _ => hcurrent, fun hne => absurd hversions hne, ?_⟩, hversions⟩
  · rw [hversions]
    exact .nil
  · rw [hcurrent]
    rfl

end VersionedLayout

namespace Move

/-- A call that changes a versioned layout, with a version that is not none. -/
def ChangesLayout : Move → Prop
  | addVersion version _ | setCurrent version => version ≠ .none
  | _ => False

/-- The version that a move adds when it succeeds. -/
def versions : Move → List Value
  | addVersion version _ => [version]
  | _ => []

/-- What a move makes of a versioned layout. Tables that are left out are empty. -/
inductive Makes (l l' : VersionedLayout) : Move → Prop
  | addVersion (version : Value) (tables : List Value) :
      l.addVersion version (tables.getD 0 .none) (tables.getD 1 .none) = .ok l' →
        Makes l l' (.addVersion version tables)
  | setCurrent (version : Value) : l.setCurrent version = .ok l' → Makes l l' (.setCurrent version)

variable {l l' : VersionedLayout} {m : Move}

lemma Makes.changes (h : m.Makes l l') : l.Changes l' := by
  cases h with
  | addVersion version tables h => exact .add version _ _ h
  | setCurrent version h => exact .current version h

lemma Makes.consistent (h : m.Makes l l') (hm : m.ChangesLayout) (hl : l.Consistent) :
    l'.Consistent ∧ l'.versions = l.versions ++ m.versions := by
  cases h with
  | addVersion version tables h => exact hl.addVersion hm h
  | setCurrent version h =>
    obtain ⟨hconsistent, hversions⟩ := hl.setCurrent hm h
    exact ⟨hconsistent, hversions.trans (List.append_nil _).symm⟩

end Move

namespace Session

/-- What an object answers when one of its methods is called. -/
def answer (s : Session) (object : Value) (name : String) (args : List Value) :
    Except Failure Value := ((Step.callMethod object name args).run.run s).1

/-- Whether a move succeeds, or the failure that it raises. -/
def outcome (container : Value) (s : Session) (m : Move) : Except Failure Unit :=
  ((m.step container).run.run s).1

/-- The versions that the moves of a run add, in order; a move that fails adds none. -/
def added (container : Value) (s : Session) : List Move → List Value
  | [] => []
  | m :: ms =>
    let rest := added container (s.move container m) ms
    match s.outcome container m with
    | .ok _ => m.versions ++ rest
    | .error _ => rest

/-- A handle refers to a versioned layout. -/
def Stores (s : Session) (container : Handle) (l : VersionedLayout) : Prop :=
  Assoc.find? container.identity s.objects = some (.versioned l)

namespace Stores

variable {s : Session} {container : Handle} {l : VersionedLayout}

lemma changed (hs : s.Stores container l) (l' : VersionedLayout) :
    Stores { s with objects := s.objects.update container.identity fun _ => .versioned l' }
      container l' := by
  have hfind := Assoc.find?_map
    (fun k object => if k = container.identity then SystemObject.versioned l' else object)
    container.identity s.objects
  have hupdate : (s.objects.map fun entry => (entry.1,
      if entry.1 = container.identity then SystemObject.versioned l' else entry.2)) =
        s.objects.update container.identity fun _ => .versioned l' := by
    refine List.map_congr_left fun entry _ => ?_
    obtain ⟨k, object⟩ := entry
    dsimp only
    split <;> rfl
  rw [hupdate] at hfind
  unfold Stores at hs ⊢
  rw [hfind, hs]
  simp

lemma move_of_call (hs : s.Stores container l) {m : Move} {name : String} {args : List Value}
    (hstep : m.step (.handle container) = do
      let _ ← Step.callMethod (.handle container) name args)
    (hquery : Query.named? name = none) (hprovider : (name == Query.provider.name) = false)
    (hversions : (name == "versions") = false) {result : Except Failure VersionedLayout}
    (hresult : SystemObject.changeLayout l name args = some result)
    (hmakes : ∀ l', result = .ok l' → m.Makes l l') :
    (∃ e, s.outcome (.handle container) m = .error e ∧ s.move (.handle container) m = s) ∨
      ∃ l', s.outcome (.handle container) m = .ok () ∧ m.Makes l l' ∧
        (s.move (.handle container) m).Stores container l' := by
  unfold Session.outcome Session.move
  rw [hstep, discard_run, Step.callMethod_change hs hquery hprovider hversions, hresult]
  cases result with
  | error e => exact .inl ⟨e, rfl, rfl⟩
  | ok l' => exact .inr ⟨l', rfl, hmakes l' rfl, hs.changed l'⟩

/-- A move changes the layout and succeeds, or it fails and leaves the session as it is. -/
lemma move (hs : s.Stores container l) {m : Move} (hm : m.ChangesLayout) :
    (∃ e, s.outcome (.handle container) m = .error e ∧ s.move (.handle container) m = s) ∨
      ∃ l', s.outcome (.handle container) m = .ok () ∧ m.Makes l l' ∧
        (s.move (.handle container) m).Stores container l' := by
  cases m with
  | addVersion version tables =>
    rcases tables with _ | ⟨states, _ | ⟨parameters, _ | ⟨other, tables⟩⟩⟩
    · exact hs.move_of_call rfl rfl rfl rfl rfl fun _ h => .addVersion version _ h
    · exact hs.move_of_call rfl rfl rfl rfl rfl fun _ h => .addVersion version _ h
    · exact hs.move_of_call rfl rfl rfl rfl rfl fun _ h => .addVersion version _ h
    · exact hs.move_of_call rfl rfl rfl rfl rfl nofun
  | setCurrent version => exact hs.move_of_call rfl rfl rfl rfl rfl fun _ h => .setCurrent version h
  | _ => cases hm

/-- The calls of a run keep the layout consistent, and it lists what they add. -/
lemma moves (hs : s.Stores container l) (hl : l.Consistent) {ms : List Move}
    (hms : ∀ m ∈ ms, m.ChangesLayout) :
    ∃ l', (s.moves (.handle container) ms).Stores container l' ∧ l'.Consistent ∧
      Relation.ReflTransGen VersionedLayout.Changes l l' ∧
        l'.versions = l.versions ++ s.added (.handle container) ms := by
  induction ms generalizing s l with
  | nil => exact ⟨l, hs, hl, .refl, (List.append_nil _).symm⟩
  | cons m ms ih =>
    have hm := hms m List.mem_cons_self
    have hrest : ∀ m ∈ ms, m.ChangesLayout := fun m h => hms m (List.mem_cons_of_mem _ h)
    rw [moves_cons, added]
    obtain ⟨e, houtcome, hsame⟩ | ⟨l', houtcome, hmakes, hs'⟩ := hs.move hm
    · rw [houtcome, hsame]
      exact ih hs hl hrest
    · obtain ⟨hl', hversions⟩ := hmakes.consistent hm hl
      obtain ⟨l'', hs'', hl'', hchanges, hversions'⟩ := ih hs' hl' hrest
      refine ⟨l'', hs'', hl'', .head hmakes.changes hchanges, ?_⟩
      rw [houtcome, hversions', hversions, List.append_assoc]

/-! ### Answers of the layout -/

lemma interfaceAt_eq (hs : s.Stores container l) :
    s.objects.interfaceAt container.identity = .ofVersionedLayout l (some container.identity) := by
  obtain ⟨world, hinterface⟩ := Objects.interfaceAt_of_find? hs
  exact hinterface

/-- What the layout answers does not depend on the session. -/
lemma answer_eq (hs : s.Stores container l) (name : String) (args : List Value) :
    s.answer (.handle container) name args =
      (SystemObject.call (.ofVersionedLayout l (some container.identity)) (.versioned l) name
        args).map (·.2) := by
  have hnotice (i : Interface) : ∃ t, (Step.notice i name args).run.run s = (.ok (), t) := by
    unfold Step.notice
    split <;> exact ⟨_, rfl⟩
  have hbehind : Session.behind? s.objects (.handle container) = some (.versioned l) := hs
  unfold answer Step.callMethod
  rw [run_bind_ok (rfl : (get : Step Session).run.run s = (.ok s, s))]
  dsimp only
  rw [hbehind]
  dsimp only
  obtain ⟨t, ht⟩ := hnotice (s.objects.interfaceAt container.identity)
  rw [run_bind_ok ht, hs.interfaceAt_eq]
  rcases SystemObject.call _ _ name args with e | ⟨object, v⟩ <;> rfl

lemma answer_query (hs : s.Stores container l) {name : String} {q : Query}
    (hq : Query.named? name = some q) (args : List Value) :
    s.answer (.handle container) name args =
      (Interface.ofVersionedLayout l (some container.identity)).call q args := by
  rw [hs.answer_eq]
  unfold SystemObject.call
  rw [hq]
  dsimp only
  cases (Interface.ofVersionedLayout l (some container.identity)).call q args <;> rfl

lemma answer_versions (hs : s.Stores container l) :
    s.answer (.handle container) "versions" [] = .ok (.list l.versions) := by
  rw [hs.answer_eq]
  rfl

lemma answer_currentVersion (hs : s.Stores container l)
    (hclass : l.current.isHashableClass = true) :
    s.answer (.handle container) "current_version" [] = .ok l.current := by
  have hquery : Query.named? "current_version" = some .currentVersion := by decide
  rw [hs.answer_query hquery]
  change (if l.current.isHashableClass then _ else _) = _
  rw [hclass]
  rfl

lemma move_of_error (hs : s.Stores container l) {m : Move} (hm : m.ChangesLayout) {e : Failure}
    (h : s.outcome (.handle container) m = .error e) : s.move (.handle container) m = s := by
  obtain ⟨_, _, hsame⟩ | ⟨_, hok, _⟩ := hs.move hm
  · exact hsame
  · rw [hok] at h
    cases h

/-- A version that was added is answered for by the layout of its own tables, whatever is added or
made current after it. -/
lemma exists_layout_of_ok {independent observed version : Value} {tables : List Value}
    {l₀ : VersionedLayout} (hbuild : VersionedLayout.build independent observed = .ok l₀)
    (hs : s.Stores container l) (hl : l.Consistent)
    (hchanges : Relation.ReflTransGen VersionedLayout.Changes l₀ l) (hversion : version ≠ .none)
    (h : s.outcome (.handle container) (.addVersion version tables) = .ok ()) :
    ∃ layout, Layout.build (tables.getD 0 .none) (tables.getD 1 .none) independent observed =
        .ok layout ∧
      ∀ {after : List Move}, (∀ m ∈ after, m.ChangesLayout) →
        ∀ {v}, VersionedLayout.checkVersion v = .ok () → (version == v) = true →
          ∀ {name q}, Query.named? name = some q → q.IsResolution → ∀ args,
            ((s.move (.handle container) (.addVersion version tables)).moves (.handle container)
                after).answer (.handle container) name (args ++ [v]) =
              (Interface.ofLayout layout none).call q args := by
  obtain ⟨_, herror, _⟩ | ⟨l', _, hmakes, hs'⟩ := hs.move (m := .addVersion version tables) hversion
  · rw [herror] at h
    cases h
  have hl' := (hmakes.consistent hversion hl).1
  cases hmakes with
  | addVersion _ _ hadd =>
    obtain ⟨layout, hlayout, hat⟩ :=
      VersionedLayout.exists_layout_of_addVersion hbuild hchanges hadd
    refine ⟨layout, hlayout, fun hafter v hcheck hv name q hname hq args => ?_⟩
    obtain ⟨l'', hs'', _, hchanges', _⟩ := hs'.moves hl' hafter
    have hat'' := VersionedLayout.extends_of_changes hchanges' v layout (hat v hcheck hv)
    rw [hs''.answer_query hname]
    exact Interface.call_ofVersionedLayout hat'' _ _ args hq

end Stores

/-- A versioned layout of a session, from when it is made, over every run of calls that add versions
and make them current. It lists the versions that were added, in order and none of them twice. Its
current version is none as long as there are none, and otherwise one of them. A call that fails
leaves the whole session as it is. From the call that adds it on, a version answers what resolution
asks as the layout with the same declarations does, whatever else is called. As a key, it is found
by what equals it. -/
theorem version_store {s : Session} {container : Handle} {independent observed : Value}
    {l₀ : VersionedLayout} (hbuild : VersionedLayout.build independent observed = .ok l₀)
    (hs : s.Stores container l₀) {before : List Move} (hbefore : ∀ m ∈ before, m.ChangesLayout) :
    let t := s.moves (.handle container) before
    let versions := s.added (.handle container) before
    (t.answer (.handle container) "versions" [] = .ok (.list versions) ∧
        versions.Pairwise fun a b => (a == b) = false) ∧
      (∃ current, t.answer (.handle container) "current_version" [] = .ok current ∧
        (current = .none ↔ versions = []) ∧
          (current ≠ .none → ∃ k ∈ versions, k = current ∨ (k == current) = true)) ∧
      (∀ m e, m.ChangesLayout → t.outcome (.handle container) m = .error e →
        t.move (.handle container) m = t) ∧
      ∀ version tables, version ≠ .none →
        t.outcome (.handle container) (.addVersion version tables) = .ok () →
          ∃ layout, Layout.build (tables.getD 0 .none) (tables.getD 1 .none) independent observed =
              .ok layout ∧
            ∀ after : List Move, (∀ m ∈ after, m.ChangesLayout) →
              ∀ v, VersionedLayout.checkVersion v = .ok () → (version == v) = true →
                ∀ name q, Query.named? name = some q → q.IsResolution → ∀ args,
                  (s.moves (.handle container) (before ++ .addVersion version tables :: after)).answer
                      (.handle container) name (args ++ [v]) =
                    (Interface.ofLayout layout none).call q args := by
  intro t versions
  obtain ⟨hl₀, hnone⟩ := VersionedLayout.consistent_of_build hbuild
  obtain ⟨l, ht, hl, hchanges, hversions⟩ := hs.moves hl₀ hbefore
  have hlisted : l.versions = versions := by
    rw [hversions, hnone, List.nil_append]
  refine ⟨⟨?_, ?_⟩, ⟨l.current, ht.answer_currentVersion hl.isHashableClass, ?_, ?_⟩, ?_, ?_⟩
  · rw [← hlisted]
    exact ht.answer_versions
  · rw [← hlisted]
    exact hl.distinct
  · rw [← hlisted]
    exact ⟨fun hcurrent => by_contra fun hne => (hl.current hne).1 hcurrent, hl.empty⟩
  · intro hcurrent
    rw [← hlisted]
    exact (hl.current fun hempty => hcurrent (hl.empty hempty)).2
  · exact fun m e hm => ht.move_of_error hm
  · intro version tables hversion houtcome
    obtain ⟨layout, hlayout, hanswers⟩ :=
      ht.exists_layout_of_ok hbuild hl hchanges hversion houtcome
    refine ⟨layout, hlayout, fun after hafter v hcheck hv name q hname hq args => ?_⟩
    rw [moves_append, moves_cons]
    exact hanswers hafter hcheck hv hname hq args

namespace Store

def container : Handle := ⟨0, "VersionedSymbolCache", ""⟩

def version (n : Int) : Value := .number (.int n)

def empty : VersionedLayout := ⟨[], ⟨[("t", .text "t")]⟩, {}, .none⟩

lemma build_empty : VersionedLayout.build (.text "t") .none = .ok empty := rfl

/-- A session in which a versioned layout with a time has just been made. -/
def session : Session where
  objects := [(0, .versioned empty)]
  nextIdentity := 1

lemma stores_empty : session.Stores container empty := rfl

/-- A version with one state, and a second one that fails because it names a state twice. -/
def before : List Move :=
  [.addVersion (version 0) [.text "x"],
    .addVersion (version 1) [.list [.text "y", .text "y"]]]

/-- A version with two states. -/
def grow : Move := .addVersion (version 1) [.list [.text "x", .text "y"]]

/-- A version that exists, one that does not, and a return to the first one. -/
def after : List Move :=
  [.addVersion (version 1) [.text "z"], .setCurrent (version 7), .setCurrent (version 0)]

lemma changesLayout_moves : ∀ m ∈ before ++ grow :: after, m.ChangesLayout := by
  simp [before, grow, after, Move.ChangesLayout, version]

end Store

/-- The second version is listed after the first, and has its second state while the first one is
current again. -/
theorem version_store_growth :
    (Store.session.moves (.handle Store.container) (Store.before ++ Store.grow :: Store.after)).answer
        (.handle Store.container) "versions" [] = .ok (.list [Store.version 0, Store.version 1]) ∧
      (Store.session.moves (.handle Store.container)
        (Store.before ++ Store.grow :: Store.after)).answer (.handle Store.container) "variable_index"
          [.text "y", Store.version 1] = .ok (Store.version 1) := by
  have hmoves := Store.changesLayout_moves
  constructor
  · exact (version_store Store.build_empty Store.stores_empty hmoves).1.1
  · have hbefore : ∀ m ∈ Store.before, m.ChangesLayout :=
      fun m hm => hmoves m (List.mem_append_left _ hm)
    have hafter : ∀ m ∈ Store.after, m.ChangesLayout :=
      fun m hm => hmoves m (List.mem_append_right _ (List.mem_cons_of_mem _ hm))
    obtain ⟨layout, hlayout, hanswers⟩ :=
      (version_store Store.build_empty Store.stores_empty hbefore).2.2.2
        (Store.version 1) [.list [.text "x", .text "y"]] nofun rfl
    have hindex := hanswers Store.after hafter (Store.version 1) rfl rfl "variable_index"
      (.index .state) (by decide) trivial [.text "y"]
    cases hlayout
    exact hindex

end Session
end NamedSlots
