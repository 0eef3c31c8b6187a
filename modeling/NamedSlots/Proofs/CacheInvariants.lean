import Mathlib.Data.List.Induction
import NamedSlots.Proofs.FactoryStep
import NamedSlots.Proofs.KeyEquality
import NamedSlots.System.Object

/-!
# Invariants of the cache

A run is a list of builds, each on the system that its object is at that time. Whatever the run,
a build that fails adds no entry, and a build touches the entries of its own object only. The
entries of an object of constant structure stay, one for each key that was built; of an object that
reports a current version, a build keeps the entries of that version alone.
-/

namespace NamedSlots

namespace Factory

variable {f : Factory} {s : System} {c : Build} {v : Value}

/-! ### One build -/

/-- The entries of an object. -/
def entriesOf (v : Value) (f : Factory) : List (CacheKey × Accessor) :=
  f.cache.filter fun entry => entry.1.system.isObject v

lemma entriesOf_congr {g : Factory} (h : f.cache = g.cache) : f.entriesOf v = g.entriesOf v := by
  unfold entriesOf
  rw [h]

/-- A build fails before it looks for an entry, finds one, fails to make an accessor, or makes one
that it keeps. -/
lemma nextOn_cases (hcaching : f.isCaching = true) (s : System) (c : Build) :
    (∃ e, f.accessorOn s c = .error e ∧ (f.nextOn s c).cache = f.cache) ∨
      ∃ key b current, f.keyedOn s c = .ok (key, b) ∧ s.reported key.version = .ok current ∧
        ((∃ e, f.accessorOn s c = .error e ∧
            (f.nextOn s c).cache = (f.forget c.system current).cache) ∨
          (∃ a, f.accessorOn s c = .ok a ∧
            Assoc.find? key (f.forget c.system current).cache = some a ∧
            (f.nextOn s c).cache = (f.forget c.system current).cache) ∨
          ∃ a, f.accessorOn s c = .ok a ∧ f.withoutCache.accessorOn s c = .ok a ∧
            Assoc.find? key (f.forget c.system current).cache = none ∧
            (f.nextOn s c).cache = (f.forget c.system current).cache ++ [(key, a)]) := by
  have hnext := congrArg Prod.fst (requestOn_eq s f c)
  have hanswer := congrArg Prod.snd (requestOn_eq s f c)
  change f.nextOn s c = _ at hnext
  change f.accessorOn s c = _ at hanswer
  rw [hnext, hanswer]
  cases hkeyed : f.keyedOn s c with
  | error e => exact .inl ⟨e, rfl, rfl⟩
  | ok keyed =>
    obtain ⟨key, b⟩ := keyed
    cases hreported : s.reported key.version with
    | error e => simp only [hreported]; exact .inl ⟨e, rfl, trivial⟩
    | ok current =>
      refine .inr ⟨key, b, current, rfl, hreported, ?_⟩
      have hlookup : (f.forget c.system current).lookup? key =
          Assoc.find? key (f.forget c.system current).cache := by
        unfold lookup?
        rw [isCaching_forget, hcaching]
        rfl
      rw [accessorOn_withoutCache_of_reported hkeyed hreported]
      simp only [hreported, hlookup, hcaching, Bool.true_and, if_true]
      cases Extra.isHashable key.version with
      | false => exact .inl ⟨_, rfl, rfl⟩
      | true =>
        simp only [Bool.not_true, Bool.false_eq_true, if_false]
        cases hfind : Assoc.find? key (f.forget c.system current).cache with
        | some a => exact .inr (.inl ⟨a, rfl, rfl, rfl⟩)
        | none =>
          cases hmade : f.made c key b current with
          | error e => exact .inl ⟨e, rfl, rfl⟩
          | ok a => exact .inr (.inr ⟨a, rfl, rfl, rfl, rfl⟩)

/-- A build that fails adds no entry. -/
lemma mem_of_error (hcaching : f.isCaching = true) {e : Failure}
    (h : f.accessorOn s c = .error e) {entry : CacheKey × Accessor}
    (hentry : entry ∈ (f.nextOn s c).cache) : entry ∈ f.cache := by
  rcases nextOn_cases hcaching s c with ⟨_, _, hcache⟩ |
    ⟨key, b, current, _, _, ⟨_, _, hcache⟩ | ⟨a, ha, _⟩ | ⟨a, ha, _⟩⟩
  · rwa [hcache] at hentry
  · rw [hcache] at hentry
    exact mem_forget hentry
  · rw [h] at ha
    cases ha
  · rw [h] at ha
    cases ha

lemma entriesOf_forget (hother : c.system.isObject v = false) (current : Option Value) :
    (f.forget c.system current).entriesOf v = f.entriesOf v := by
  cases current with
  | none => rfl
  | some current =>
    unfold entriesOf
    change (f.cache.filter _).filter _ = _
    rw [List.filter_filter]
    refine List.filter_congr fun ⟨key, a⟩ _ => ?_
    cases hv : key.system.isObject v with
    | false => rfl
    | true =>
      cases hc : key.system.isObject c.system with
      | false => simp only [hc, Bool.false_and, Bool.not_false, Bool.and_self]
      | true =>
        rw [Value.isObject_trans (Value.isObject_symm hc) hv] at hother
        cases hother

/-- A build leaves the entries of other objects as they are. -/
lemma entriesOf_nextOn (hcaching : f.isCaching = true) (hother : c.system.isObject v = false) :
    (f.nextOn s c).entriesOf v = f.entriesOf v := by
  rcases nextOn_cases hcaching s c with ⟨_, _, hcache⟩ |
    ⟨key, b, current, hkeyed, _, ⟨_, _, hcache⟩ | ⟨a, _, _, hcache⟩ | ⟨a, _, _, _, hcache⟩⟩
  · exact entriesOf_congr hcache
  · exact (entriesOf_congr hcache).trans (entriesOf_forget hother current)
  · exact (entriesOf_congr hcache).trans (entriesOf_forget hother current)
  · have hnew : key.system.isObject v = false := by rw [(bound_of_keyedOn hkeyed).1, hother]
    refine Eq.trans ?_ (entriesOf_forget hother current)
    unfold entriesOf
    rw [hcache, List.filter_append, List.filter_singleton, hnew]
    exact List.append_nil _

/-! ### Objects of constant structure -/

lemma version_of_isConstant (hconstant : s.isConstant = .ok true) {key : CacheKey} {b : Bound}
    (hkeyed : f.keyedOn s c = .ok (key, b)) : key.version = none := by
  obtain ⟨hkey, _, hb⟩ := keyedOn_eq_ok hkeyed
  obtain ⟨_, rfl⟩ | ⟨hno, _⟩ := Bound.of_eq_ok hb
  · rw [hkey]
  · rw [hconstant] at hno
    cases hno

/-- On an object of constant structure nothing is dropped. -/
lemma nextOn_cases_of_isConstant (hcaching : f.isCaching = true)
    (hconstant : s.isConstant = .ok true) (c : Build) :
    ((f.nextOn s c).cache = f.cache ∧ ∀ a, f.accessorOn s c = .ok a →
        ∃ key b, f.keyedOn s c = .ok (key, b) ∧ Assoc.find? key f.cache = some a) ∨
      ∃ key b a, f.keyedOn s c = .ok (key, b) ∧ f.accessorOn s c = .ok a ∧
        Assoc.find? key f.cache = none ∧ (f.nextOn s c).cache = f.cache ++ [(key, a)] := by
  rcases nextOn_cases hcaching s c with ⟨e, he, hcache⟩ | ⟨key, b, current, hkeyed, hreported, h⟩
  · exact .inl ⟨hcache, fun a ha => by rw [he] at ha; cases ha⟩
  · rw [version_of_isConstant hconstant hkeyed] at hreported
    cases hreported
    rcases h with ⟨e, he, hcache⟩ | ⟨a, ha, hfind, hcache⟩ | ⟨a, ha, _, hfind, hcache⟩
    · exact .inl ⟨hcache, fun a ha => by rw [he] at ha; cases ha⟩
    · refine .inl ⟨hcache, fun a' ha' => ?_⟩
      rw [ha] at ha'
      cases ha'
      exact ⟨key, b, hkeyed, hfind⟩
    · exact .inr ⟨key, b, a, hkeyed, ha, hfind, hcache⟩

lemma isPrefix_nextOn (hcaching : f.isCaching = true)
    (hconstant : c.system.isObject v = true → s.isConstant = .ok true) :
    f.entriesOf v <+: (f.nextOn s c).entriesOf v := by
  cases hv : c.system.isObject v with
  | false => rw [entriesOf_nextOn hcaching hv]
  | true =>
    unfold entriesOf
    rcases nextOn_cases_of_isConstant hcaching (hconstant hv) c with
      ⟨hcache, _⟩ | ⟨_, _, _, _, _, _, hcache⟩
    · rw [hcache]
    · rw [hcache, List.filter_append]
      exact List.prefix_append _ _

/-! ### Distinct keys -/

/-- No two entries have equal keys. -/
def HasDistinctKeys (f : Factory) : Prop :=
  f.cache.Pairwise fun entry later => (entry.1 == later.1) = false

lemma HasDistinctKeys.forget (h : f.HasDistinctKeys) (system : Value) (current : Option Value) :
    (f.forget system current).HasDistinctKeys := by
  cases current with
  | none => exact h
  | some current => exact List.Pairwise.filter _ h

lemma HasDistinctKeys.nextOn (hcaching : f.isCaching = true) (h : f.HasDistinctKeys) (s : System)
    (c : Build) : (f.nextOn s c).HasDistinctKeys := by
  unfold HasDistinctKeys
  rcases nextOn_cases hcaching s c with ⟨_, _, hcache⟩ |
    ⟨key, b, current, _, _, ⟨_, _, hcache⟩ | ⟨a, _, _, hcache⟩ | ⟨a, _, _, hfind, hcache⟩⟩
  · rw [hcache]
    exact h
  · rw [hcache]
    exact h.forget c.system current
  · rw [hcache]
    exact h.forget c.system current
  · rw [hcache, List.pairwise_append]
    refine ⟨h.forget c.system current, List.pairwise_singleton _ _, fun entry hentry later hlater => ?_⟩
    rw [List.mem_singleton.1 hlater]
    exact Assoc.find?_eq_none_iff.1 hfind entry hentry

/-- Where keys are distinct, an entry is the only one with a key equal to a given one. -/
lemma filter_eq_singleton {entries : List (CacheKey × Accessor)}
    (h : entries.Pairwise fun entry later => (entry.1 == later.1) = false)
    {entry : CacheKey × Accessor} (hentry : entry ∈ entries) {key : CacheKey}
    (hkey : (entry.1 == key) = true) : entries.filter (fun entry => entry.1 == key) = [entry] := by
  have hnone {later : CacheKey × Accessor} {k : CacheKey} (hlater : (k == later.1) = false)
      (hk : (k == key) = true) : (later.1 == key) = false :=
    Bool.eq_false_iff.2 fun hsame => Bool.false_ne_true
      (hlater.symm.trans (PartialEquivBEq.trans hk (PartialEquivBEq.symm hsame)))
  induction entries with
  | nil => cases hentry
  | cons first rest ih =>
    rw [List.pairwise_cons] at h
    rcases List.mem_cons.1 hentry with rfl | hentry
    · rw [List.filter_cons, if_pos hkey, List.filter_eq_nil_iff.2]
      intro later hlater
      rw [hnone (h.1 later hlater) hkey]
      exact Bool.false_ne_true
    · have hfirst : ¬ (first.1 == key) = true := fun hsame => Bool.false_ne_true
        ((hnone (h.1 entry hentry) hsame).symm.trans hkey)
      rw [List.filter_cons, if_neg hfirst]
      exact ih h.2 hentry

lemma find?_eq_some_of_filter {entries : List (CacheKey × Accessor)} {key : CacheKey}
    {entry : CacheKey × Accessor}
    (h : entries.filter (fun entry => entry.1 == key) = [entry]) :
    Assoc.find? key entries = some entry.2 := by
  induction entries with
  | nil => cases h
  | cons first rest ih =>
    rw [Assoc.find?]
    by_cases hfirst : (first.1 == key) = true
    · rw [List.filter_cons, if_pos hfirst] at h
      injection h with h _
      rw [if_pos hfirst, h]
    · rw [List.filter_cons, if_neg hfirst] at h
      rw [if_neg hfirst]
      exact ih h

/-! ### Runs -/

/-- The factory after a run of builds, each on the system that its object is at that time. -/
def runOn (f : Factory) (run : List (System × Build)) : Factory :=
  run.foldl (fun f turn => f.nextOn turn.1 turn.2) f

/-- A build of a run gave an accessor for a key. -/
def Gave (f : Factory) (run : List (System × Build)) (key : CacheKey) (a : Accessor) : Prop :=
  ∃ before s c later b, run = before ++ (s, c) :: later ∧ f.keyedOn s c = .ok (key, b) ∧
    (f.runOn before).accessorOn s c = .ok a

/-- An object is of constant structure whenever something is built for it. -/
def IsConstantThrough (run : List (System × Build)) (v : Value) : Prop :=
  ∀ turn ∈ run, turn.2.system.isObject v = true → turn.1.isConstant = .ok true

/-- Nothing that is built has a constant that is a NaN. -/
def IsNaNFree (f : Factory) (run : List (System × Build)) : Prop :=
  ∀ turn ∈ run, ∀ key b, f.keyedOn turn.1 turn.2 = .ok (key, b) → key.request.NaNFree

section Run

variable {run : List (System × Build)}

lemma runOn_append (f : Factory) (run : List (System × Build)) (s : System) (c : Build) :
    f.runOn (run ++ [(s, c)]) = (f.runOn run).nextOn s c := List.foldl_append

lemma options_runOn (f : Factory) (run : List (System × Build)) :
    (f.runOn run).isCaching = f.isCaching ∧ (f.runOn run).withoutCache = f.withoutCache := by
  induction run using List.reverseRecOn with
  | nil => exact ⟨rfl, rfl⟩
  | append_singleton run turn ih =>
    rw [runOn_append]
    have hnext := options_nextOn turn.1 (f.runOn run) turn.2
    exact ⟨hnext.1.trans ih.1, hnext.2.trans ih.2⟩

lemma keyedOn_runOn (f : Factory) (run : List (System × Build)) (s : System) (c : Build) :
    (f.runOn run).keyedOn s c = f.keyedOn s c := by
  have hkeyed (g : Factory) : g.keyedOn s c = g.withoutCache.keyedOn s c := rfl
  rw [hkeyed, (options_runOn f run).2, ← hkeyed]

/-- What a run with one build more gave, it gave before, or that build gave it. -/
lemma gave_append_iff {key : CacheKey} {a : Accessor} :
    f.Gave (run ++ [(s, c)]) key a ↔
      f.Gave run key a ∨
        ∃ b, f.keyedOn s c = .ok (key, b) ∧ (f.runOn run).accessorOn s c = .ok a := by
  constructor
  · rintro ⟨before, s', c', later, b, hrun, hkeyed, ha⟩
    rcases List.eq_nil_or_concat later with rfl | ⟨later, last, rfl⟩
    · obtain ⟨rfl, heq⟩ := List.append_inj' hrun rfl
      cases heq
      exact .inr ⟨b, hkeyed, ha⟩
    · rw [List.concat_eq_append, ← List.cons_append, ← List.append_assoc] at hrun
      obtain ⟨rfl, _⟩ := List.append_inj' hrun rfl
      exact .inl ⟨before, s', c', later, b, rfl, hkeyed, ha⟩
  · rintro (⟨before, s', c', later, b, rfl, hkeyed, ha⟩ | ⟨b, hkeyed, ha⟩)
    · exact ⟨before, s', c', later ++ [(s, c)], b, by simp, hkeyed, ha⟩
    · exact ⟨run, s, c, [], b, rfl, hkeyed, ha⟩

variable (hcaching : f.isCaching = true)
include hcaching

lemma hasDistinctKeys_runOn (hempty : f.cache = []) : (f.runOn run).HasDistinctKeys := by
  induction run using List.reverseRecOn with
  | nil =>
    change f.cache.Pairwise _
    rw [hempty]
    exact List.Pairwise.nil
  | append_singleton run turn ih =>
    rw [runOn_append]
    exact ih.nextOn ((options_runOn f run).1.trans hcaching) turn.1 turn.2

/-- Every entry of an object of constant structure is what a build of the run gave for its key. -/
lemma gave_of_mem (hempty : f.cache = []) (hconstant : IsConstantThrough run v) {entry : CacheKey × Accessor}
    (hentry : entry ∈ (f.runOn run).entriesOf v) : f.Gave run entry.1 entry.2 := by
  induction run using List.reverseRecOn with
  | nil =>
    change entry ∈ f.cache.filter _ at hentry
    rw [hempty] at hentry
    cases hentry
  | append_singleton run turn ih =>
    obtain ⟨s, c⟩ := turn
    have hbefore : IsConstantThrough run v := fun turn hturn =>
      hconstant turn (List.mem_append_left _ hturn)
    have hrun := (options_runOn f run).1.trans hcaching
    rw [runOn_append] at hentry
    cases hv : c.system.isObject v with
    | false =>
      rw [entriesOf_nextOn hrun hv] at hentry
      exact gave_append_iff.2 (.inl (ih hbefore hentry))
    | true =>
      have hs : s.isConstant = .ok true :=
        hconstant (s, c) (List.mem_append_right _ (List.mem_singleton_self _)) hv
      obtain ⟨hmem, hobject⟩ := List.mem_filter.1 hentry
      rcases nextOn_cases_of_isConstant hrun hs c with
        ⟨hcache, _⟩ | ⟨key, b, a, hkeyed, ha, _, hcache⟩
      · rw [hcache] at hmem
        exact gave_append_iff.2 (.inl (ih hbefore (List.mem_filter.2 ⟨hmem, hobject⟩)))
      · rw [hcache] at hmem
        rcases List.mem_append.1 hmem with hmem | hmem
        · exact gave_append_iff.2 (.inl (ih hbefore (List.mem_filter.2 ⟨hmem, hobject⟩)))
        · cases List.mem_singleton.1 hmem
          rw [keyedOn_runOn] at hkeyed
          exact gave_append_iff.2 (.inr ⟨b, hkeyed, ha⟩)

/-- What a build gave for an object of constant structure is kept. -/
lemma mem_of_gave (hconstant : IsConstantThrough run v) (hnan : f.IsNaNFree run) {key : CacheKey}
    {a : Accessor} (hgave : f.Gave run key a) (hkey : key.system.isObject v = true) :
    ∃ k, (k, a) ∈ (f.runOn run).cache ∧ (k == key) = true := by
  induction run using List.reverseRecOn with
  | nil =>
    obtain ⟨before, _, _, _, _, hrun, _⟩ := hgave
    cases before <;> cases hrun
  | append_singleton run turn ih =>
    obtain ⟨s, c⟩ := turn
    have hbefore : IsConstantThrough run v := fun turn hturn =>
      hconstant turn (List.mem_append_left _ hturn)
    have hnanBefore : f.IsNaNFree run := fun turn hturn =>
      hnan turn (List.mem_append_left _ hturn)
    have hlast : (s, c) ∈ run ++ [(s, c)] := List.mem_append_right _ (List.mem_singleton_self _)
    have hrun := (options_runOn f run).1.trans hcaching
    rw [runOn_append]
    rcases gave_append_iff.1 hgave with hgave | ⟨b, hkeyed, ha⟩
    · obtain ⟨k, hk, hsame⟩ := ih hbefore hnanBefore hgave
      have hobject : k.system.isObject v = true :=
        Value.isObject_trans (CacheKey.beq_iff.1 hsame).1 hkey
      have hkept := (isPrefix_nextOn (s := s) (c := c) (v := v) hrun fun hv =>
        hconstant (s, c) hlast hv).subset (List.mem_filter.2 ⟨hk, hobject⟩)
      exact ⟨k, (List.mem_filter.1 hkept).1, hsame⟩
    · have hsystem := (bound_of_keyedOn hkeyed).1
      have hs : s.isConstant = .ok true := hconstant (s, c) hlast (hsystem ▸ hkey)
      rcases nextOn_cases_of_isConstant hrun hs c with
        ⟨hcache, hfound⟩ | ⟨key', b', a', hkeyed', ha', _, hcache⟩
      · obtain ⟨key', b', hkeyed', hfind⟩ := hfound a ha
        rw [keyedOn_runOn] at hkeyed'
        cases hkeyed.symm.trans hkeyed'
        rw [hcache]
        exact Assoc.mem_of_find? hfind
      · rw [keyedOn_runOn] at hkeyed'
        cases hkeyed.symm.trans hkeyed'
        cases ha.symm.trans ha'
        rw [hcache]
        refine ⟨key, List.mem_append_right _ (List.mem_singleton_self _), ?_⟩
        refine CacheKey.beq_iff.2 ⟨Value.isObject_trans hkey (Value.isObject_symm hkey), rfl,
          Request.same_self _ (hnan (s, c) hlast key b hkeyed), .inl ?_⟩
        have hversion := version_of_isConstant hs hkeyed
        exact ⟨hversion, hversion⟩

/-- A build for an object of constant structure, with a key for which an accessor was given, gives
that very accessor and changes nothing. -/
lemma repeated (hconstant : IsConstantThrough (run ++ [(s, c)]) v)
    {key key' : CacheKey} {a : Accessor} {b' : Bound} (hkey : key.system.isObject v = true)
    (hfilter : ∃ k, (f.runOn run).cache.filter (fun entry => entry.1 == key) = [(k, a)])
    (hkeyed : f.keyedOn s c = .ok (key', b')) (hsame : (key == key') = true) :
    (f.runOn run).accessorOn s c = .ok a ∧
      ((f.runOn run).nextOn s c).cache = (f.runOn run).cache := by
  have hrun := (options_runOn f run).1.trans hcaching
  have hobject : c.system.isObject v = true := by
    rw [← (bound_of_keyedOn hkeyed).1]
    exact Value.isObject_trans (Value.isObject_symm (CacheKey.beq_iff.1 hsame).1) hkey
  have hs : s.isConstant = .ok true :=
    hconstant (s, c) (List.mem_append_right _ (List.mem_singleton_self _)) hobject
  have hversion := version_of_isConstant hs hkeyed
  have hkeyed' : (f.runOn run).keyedOn s c = .ok (key', b') := by rw [keyedOn_runOn, hkeyed]
  obtain ⟨k, hfilter⟩ := hfilter
  have hequal : (f.runOn run).cache.filter (fun entry => entry.1 == key') = [(k, a)] := by
    rw [← hfilter]
    refine List.filter_congr fun entry _ => Bool.eq_iff_iff.2 ⟨fun h => ?_, fun h => ?_⟩
    · exact PartialEquivBEq.trans h (PartialEquivBEq.symm hsame)
    · exact PartialEquivBEq.trans h hsame
  have hfind := find?_eq_some_of_filter hequal
  have hreported : s.reported key'.version = .ok none := by
    rw [hversion]
    rfl
  constructor
  · rw [accessorOn_of_reported hrun hkeyed' hreported, hversion]
    simp only [forget, hfind]
    rfl
  · rcases nextOn_cases_of_isConstant hrun hs c with ⟨hcache, _⟩ | ⟨key'', _, _, hkeyed'', _, hnone, _⟩
    · exact hcache
    · cases hkeyed'.symm.trans hkeyed''
      rw [hfind] at hnone
      cases hnone

end Run

/-! ### Objects that report a current version -/

lemma ne_none_of_reported {version : Extra} {current : Value}
    (h : s.reported version = .ok (some current)) : current ≠ .none := by
  cases version with
  | none => cases h
  | some version =>
    obtain ⟨v, _, h⟩ := Except.eq_ok_of_bind h
    split at h
    · cases h
    · rename_i hne
      cases h
      exact hne

section Reported

variable {key : CacheKey} {b : Bound} {current : Value}
  (hreported : s.reported key.version = .ok (some current))
include hreported

lemma exists_version_of_mem_forget {entry : CacheKey × Accessor}
    (hentry : entry ∈ (f.forget c.system (some current)).entriesOf c.system) :
    ∃ w, entry.1.version = some w ∧ (w == current) = true := by
  obtain ⟨hmem, hobject⟩ := List.mem_filter.1 hentry
  have hversion := version_of_mem_forget hmem hobject
  cases hw : entry.1.version with
  | none =>
    rw [hw] at hversion
    exact absurd (Value.eq_none_of_beq hversion) (ne_none_of_reported hreported)
  | some w =>
    rw [hw] at hversion
    exact ⟨w, rfl, hversion⟩

/-- After a build that succeeds, the entries of its object are of the version that is reported or
of the version of the build. -/
lemma version_of_mem_nextOn (hcaching : f.isCaching = true)
    (hkeyed : f.keyedOn s c = .ok (key, b)) {a : Accessor} (ha : f.accessorOn s c = .ok a)
    {entry : CacheKey × Accessor} (hentry : entry ∈ (f.nextOn s c).entriesOf c.system) :
    ∃ w, entry.1.version = some w ∧ ((w == current) = true ∨ key.version = some w) := by
  obtain ⟨hmem, hobject⟩ := List.mem_filter.1 hentry
  have hforget (hmem : entry ∈ (f.forget c.system (some current)).cache) :
      ∃ w, entry.1.version = some w ∧ ((w == current) = true ∨ key.version = some w) := by
    obtain ⟨w, hw, hcurrent⟩ :=
      exists_version_of_mem_forget hreported (List.mem_filter.2 ⟨hmem, hobject⟩)
    exact ⟨w, hw, .inl hcurrent⟩
  rcases nextOn_cases hcaching s c with ⟨e, he, _⟩ | ⟨key', b', current', hkeyed', hreported', h⟩
  · rw [ha] at he
    cases he
  · cases hkeyed.symm.trans hkeyed'
    cases hreported.symm.trans hreported'
    rcases h with ⟨_, _, hcache⟩ | ⟨_, _, _, hcache⟩ | ⟨a', _, _, _, hcache⟩
    · rw [hcache] at hmem
      exact hforget hmem
    · rw [hcache] at hmem
      exact hforget hmem
    · rw [hcache] at hmem
      rcases List.mem_append.1 hmem with hmem | hmem
      · exact hforget hmem
      · cases List.mem_singleton.1 hmem
        cases hw : key.version with
        | none =>
          rw [hw] at hreported
          cases hreported
        | some w => exact ⟨w, rfl, .inr rfl⟩

/-- A build at another version than the one that is reported is not answered from an entry. -/
lemma beq_eq_false_of_version (hkeyed : f.keyedOn s c = .ok (key, b)) {w : Value}
    (hversion : key.version = some w)
    (hother : (w == current) = false) :
    ∀ entry ∈ (f.forget c.system (some current)).cache, (entry.1 == key) = false := by
  intro entry hentry
  rw [Bool.eq_false_iff]
  intro hsame
  obtain ⟨hsystem, _, _, hversions⟩ := CacheKey.beq_iff.1 hsame
  rw [(bound_of_keyedOn hkeyed).1] at hsystem
  obtain ⟨w', hw', hcurrent⟩ := exists_version_of_mem_forget hreported
    (List.mem_filter.2 ⟨hentry, hsystem⟩)
  rcases hversions with ⟨hnone, _⟩ | ⟨x, y, hx, hy, hxy⟩
  · rw [hw'] at hnone
    cases hnone
  · cases hw'.symm.trans hx
    cases hversion.symm.trans hy
    rw [PartialEquivBEq.trans (PartialEquivBEq.symm hxy) hcurrent] at hother
    cases hother

end Reported

/-- In every run on a factory that keeps accessors, a build that fails adds no entry, and a build
leaves the entries of other objects. On an object of constant structure entries stay, there is one
for each key that was built, and a build that is repeated gives the very same accessor. After a
build for an object that reports a current version, its entries are of that version or of the one
built at, and a build at another version than the current one gives a new accessor. -/
theorem cache_invariants {f : Factory} (hcaching : f.isCaching = true) (hempty : f.cache = [])
    {run : List (System × Build)} (hnan : f.IsNaNFree run) (s : System) (c : Build) :
    ((∃ e, (f.runOn run).accessorOn s c = .error e) →
      ∀ entry ∈ ((f.runOn run).nextOn s c).cache, entry ∈ (f.runOn run).cache) ∧
    (∀ v, c.system.isObject v = false →
      ((f.runOn run).nextOn s c).entriesOf v = (f.runOn run).entriesOf v) ∧
    (∀ v, IsConstantThrough (run ++ [(s, c)]) v →
      (f.runOn run).entriesOf v <+: ((f.runOn run).nextOn s c).entriesOf v ∧
      (∀ entry ∈ (f.runOn run).entriesOf v, f.Gave run entry.1 entry.2) ∧
      ∀ key a, f.Gave run key a → key.system.isObject v = true →
        (∃ k, (f.runOn run).cache.filter (fun entry => entry.1 == key) = [(k, a)]) ∧
        ∀ key' b', f.keyedOn s c = .ok (key', b') → (key == key') = true →
          (f.runOn run).accessorOn s c = .ok a ∧
            ((f.runOn run).nextOn s c).cache = (f.runOn run).cache) ∧
    ∀ key b current a, f.keyedOn s c = .ok (key, b) →
      s.reported key.version = .ok (some current) → (f.runOn run).accessorOn s c = .ok a →
        (∀ entry ∈ ((f.runOn run).nextOn s c).entriesOf c.system,
          ∃ w, entry.1.version = some w ∧ ((w == current) = true ∨ key.version = some w)) ∧
        ∀ w, key.version = some w → (w == current) = false →
          (∀ entry ∈ ((f.runOn run).forget c.system (some current)).cache,
            (entry.1 == key) = false) ∧
          f.withoutCache.accessorOn s c = .ok a ∧ a.identity = c.identity := by
  have hrun := (options_runOn f run).1.trans hcaching
  refine ⟨fun ⟨e, he⟩ entry hentry => mem_of_error hrun he hentry,
    fun v hother => entriesOf_nextOn hrun hother, fun v hconstant => ?_,
    fun key b current a hkeyed hreported ha => ?_⟩
  · have hbefore : IsConstantThrough run v := fun turn hturn =>
      hconstant turn (List.mem_append_left _ hturn)
    have hlast := hconstant (s, c) (List.mem_append_right _ (List.mem_singleton_self _))
    refine ⟨isPrefix_nextOn hrun hlast, fun entry hentry => gave_of_mem hcaching hempty hbefore hentry,
      fun key a hgave hkey => ?_⟩
    obtain ⟨k, hk, hsame⟩ := mem_of_gave hcaching hbefore hnan hgave hkey
    have hone := filter_eq_singleton (hasDistinctKeys_runOn hcaching hempty) hk hsame
    exact ⟨⟨k, hone⟩, fun key' b' hkeyed hequal =>
      repeated hcaching hconstant hkey ⟨k, hone⟩ hkeyed hequal⟩
  · have hkeyed' : (f.runOn run).keyedOn s c = .ok (key, b) := by rw [keyedOn_runOn, hkeyed]
    refine ⟨fun entry hentry => version_of_mem_nextOn hreported hrun hkeyed' ha hentry,
      fun w hw hother => ?_⟩
    have hnone := beq_eq_false_of_version hreported hkeyed' hw hother
    have hnew : f.withoutCache.accessorOn s c = .ok a := by
      rw [accessorOn_of_reported hrun hkeyed' hreported, (options_runOn f run).2,
        Assoc.find?_eq_none_iff.2 hnone] at ha
      split at ha
      · exact ha
      · cases ha
    exact ⟨hnone, hnew, identity_of_accessorOn hnew⟩

namespace TwoSystems

def symbol : Expr := .symbol (some "x")

def table : SlotTable := ⟨[("x", .expr symbol)]⟩

def layout (identity : Nat) : Value := .handle ⟨identity, "layout", "layout"⟩

def state (identity : Nat) : Value := .handle ⟨identity, "state", "state"⟩

/-- A problem state over a layout, and one over a layout with two versions. -/
def objects : Objects :=
  [(3, .state ⟨layout 2, .list [.int 5], .list [], .none, .none⟩),
    (2, .versioned ⟨[(.int 1, ⟨table, {}⟩), (.int 2, ⟨table, {}⟩)], {}, {}, .int 1⟩),
    (1, .state ⟨layout 0, .list [.int 5], .list [], .none, .none⟩),
    (0, .layout { states := table })]

def system (v : Value) : System := System.of objects.world v

def getter (identity : Nat) (v version : Value) : Build :=
  ⟨identity, v, .readAny, .expr symbol, version⟩

def accessor (identity : Nat) (version : Extra) : Accessor :=
  ⟨identity, .getter (.state (.int 0)), .symbol "x" (.expr symbol), version⟩

def key (v : Value) (version : Extra) : CacheKey :=
  ⟨v, .readAny, .symbol "x" (.expr symbol), version⟩

def run : List (System × Build) := [(system (state 1), getter 4 (state 1) .none)]

lemma keyedOn_constant (identity : Nat) :
    ({} : Factory).keyedOn (system (state 1)) (getter identity (state 1) .none) =
      .ok (key (state 1) none, ⟨system (state 1), none⟩) := rfl

lemma runOn_run :
    ({} : Factory).runOn run = { cache := [(key (state 1) none, accessor 4 none)] } := by
  rfl

lemma keyedOn_versioned :
    (({} : Factory).runOn run).keyedOn (system (state 3)) (getter 6 (state 3) (.int 2)) =
      .ok (key (state 3) (some (.int 2)), ⟨system (state 3), some (.int 2)⟩) := by
  rfl

lemma reported_versioned :
    (system (state 3)).reported (some (.int 2)) = .ok (some (.int 1)) := by
  rfl

lemma made_versioned :
    ({} : Factory).made (getter 6 (state 3) (.int 2)) (key (state 3) (some (.int 2)))
        ⟨system (state 3), some (.int 2)⟩ (some (.int 1)) =
      .ok (accessor 6 (some (.int 2))) := by
  unfold made
  generalize noteTrace _ _ = t
  rfl

lemma gave_run : ({} : Factory).Gave run (key (state 1) none) (accessor 4 none) :=
  ⟨[], _, _, [], _, rfl, keyedOn_constant 4, rfl⟩

lemma isConstantThrough :
    IsConstantThrough (run ++ [(system (state 1), getter 5 (state 1) .none)]) (state 1) := by
  intro turn hturn _
  rcases List.mem_cons.1 hturn with rfl | hturn
  · rfl
  · rw [List.mem_singleton.1 hturn]
    rfl

lemma isNaNFree : ({} : Factory).IsNaNFree run := by
  intro turn hturn key' b hkeyed
  rw [List.mem_singleton.1 hturn] at hkeyed
  cases (keyedOn_constant 4).symm.trans hkeyed
  trivial

end TwoSystems

/-- A getter that is built again on a layout is the one that was kept, and a getter at the second
of two versions is new. -/
theorem cache_invariants_two_systems :
    (({} : Factory).runOn TwoSystems.run).accessorOn (TwoSystems.system (TwoSystems.state 1))
        (TwoSystems.getter 5 (TwoSystems.state 1) .none) = .ok (TwoSystems.accessor 4 none) ∧
      ({} : Factory).withoutCache.accessorOn (TwoSystems.system (TwoSystems.state 3))
        (TwoSystems.getter 6 (TwoSystems.state 3) (.int 2)) =
          .ok (TwoSystems.accessor 6 (some (.int 2))) := by
  obtain ⟨_, _, hconstant, _⟩ := cache_invariants rfl rfl TwoSystems.isNaNFree
    (TwoSystems.system (TwoSystems.state 1)) (TwoSystems.getter 5 (TwoSystems.state 1) .none)
  obtain ⟨_, _, _, hversions⟩ := cache_invariants rfl rfl TwoSystems.isNaNFree
    (TwoSystems.system (TwoSystems.state 3)) (TwoSystems.getter 6 (TwoSystems.state 3) (.int 2))
  obtain ⟨_, _, hgiven⟩ := hconstant _ TwoSystems.isConstantThrough
  refine ⟨((hgiven _ _ TwoSystems.gave_run rfl).2 _ _ (TwoSystems.keyedOn_constant 5) rfl).1, ?_⟩
  have ha : (({} : Factory).runOn TwoSystems.run).accessorOn
      (TwoSystems.system (TwoSystems.state 3))
      (TwoSystems.getter 6 (TwoSystems.state 3) (.int 2)) =
        .ok (TwoSystems.accessor 6 (some (.int 2))) := by
    rw [accessorOn_of_reported rfl TwoSystems.keyedOn_versioned TwoSystems.reported_versioned,
      TwoSystems.runOn_run]
    exact TwoSystems.made_versioned
  have hnew := (hversions _ _ (.int 1) _ TwoSystems.keyedOn_versioned
    TwoSystems.reported_versioned ha).2 _ rfl (by decide)
  exact hnew.2.1

end Factory
end NamedSlots
