import Mathlib.Data.List.Nodup
import NamedSlots.Proofs.LayoutAnswer
import NamedSlots.Proofs.VersionedAgreement

/-!
# Tables as they are built

A table is filled one symbol at a time, and a name that stands there already is refused. So the
symbols of a table that could be built stand under their own names and no name stands twice, which
makes places and names inverse to each other. Layouts and versioned layouts hold such tables, and
keep them.
-/

namespace NamedSlots

/-- Symbols under their own names, and no name twice. -/
structure NamedOnce (entries : List (String × Value)) : Prop where
  key? (entry : String × Value) : entry ∈ entries → entry.2.key? = some entry.1
  nodup : (entries.map Prod.fst).Nodup

lemma namedOnce_nil : NamedOnce [] := ⟨nofun, .nil⟩

lemma NamedOnce.append_singleton {entries : List (String × Value)} (h : NamedOnce entries)
    {name : String} {symbol : Value} (hkey : symbol.key? = some name)
    (hnew : name ∉ entries.map Prod.fst) : NamedOnce (entries ++ [(name, symbol)]) where
  key? entry hentry := by
    rcases List.mem_append.1 hentry with hentry | hentry
    · exact h.key? entry hentry
    · cases List.mem_singleton.1 hentry
      exact hkey
  nodup := by
    rw [List.map_append, List.nodup_append_comm]
    exact List.nodup_cons.2 ⟨hnew, h.nodup⟩

/-- What each step keeps, a run of steps that succeeds keeps. -/
lemma foldlM_preserves {σ α : Type} {P : σ → Prop} {f : σ → α → Except Failure σ}
    (hf : ∀ s a s', P s → f s a = .ok s' → P s') {as : List α} {s s' : σ} (hs : P s)
    (h : as.foldlM f s = .ok s') : P s' := by
  induction as generalizing s with
  | nil =>
    cases h
    exact hs
  | cons a as ih =>
    rw [List.foldlM_cons] at h
    obtain ⟨t, ht, h⟩ := Except.eq_ok_of_bind h
    exact ih (hf s a t hs ht) h

namespace SlotTable

variable {t t' : SlotTable} {table : String}

lemma place?_eq_none_iff {name : String} : t.place? name = none ↔ name ∉ t.names := by
  unfold place?
  rw [List.findIdx?_eq_none_iff]
  constructor
  · intro h hmem
    have hne := h name hmem
    simp at hne
  · intro h other hother
    rw [beq_eq_false_iff_ne]
    rintro rfl
    exact h hother

lemma place?_eq_some_iff (ht : t.names.Nodup) {name : String} {n : Nat} :
    t.place? name = some n ↔ t.names[n]? = some name := by
  unfold place?
  rw [List.findIdx?_eq_some_iff_getElem]
  constructor
  · rintro ⟨hlt, heq, _⟩
    rw [List.getElem?_eq_getElem hlt, beq_iff_eq.1 heq]
  · intro h
    obtain ⟨hlt, heq⟩ := List.getElem?_eq_some_iff.1 h
    refine ⟨hlt, beq_iff_eq.2 heq, fun m hm hsame => ?_⟩
    have hindex : m = n := ht.getElem_inj_iff.1 ((beq_iff_eq.1 hsame).trans heq.symm)
    omega

lemma insert_of_not_mem (table : String) {leaf : Value} {name : String}
    (hkey : leaf.key? = some name) (hnew : name ∉ t.names) :
    t.insert table leaf = .ok ⟨t.entries ++ [(name, leaf)]⟩ := by
  unfold insert
  rw [hkey]
  simp only [place?_eq_none_iff.2 hnew]
  rfl

lemma insert_of_mem (table : String) {leaf : Value} {name : String}
    (hkey : leaf.key? = some name) (hmem : name ∈ t.names) :
    t.insert table leaf = .error (.duplicateEntry table name) := by
  have hplace : (t.place? name).isSome = true := by
    rw [Option.isSome_iff_ne_none]
    exact fun hnone => place?_eq_none_iff.1 hnone hmem
  unfold insert
  rw [hkey]
  simp only [hplace, if_true]
  rfl

lemma namedOnce_insert (ht : NamedOnce t.entries) {leaf : Value}
    (h : t.insert table leaf = .ok t') : NamedOnce t'.entries := by
  cases hkey : leaf.key? with
  | none =>
    unfold insert at h
    rw [hkey] at h
    cases h
  | some name =>
    by_cases hmem : name ∈ t.names
    · rw [insert_of_mem table hkey hmem] at h
      cases h
    · rw [insert_of_not_mem table hkey hmem] at h
      cases h
      exact ht.append_singleton hkey hmem

lemma namedOnce_insertAll (ht : NamedOnce t.entries) {symbol : Value}
    (h : t.insertAll table symbol = .ok t') : NamedOnce t'.entries := by
  obtain ⟨leaves, _, h⟩ := Except.eq_ok_of_bind h
  exact foldlM_preserves (P := fun t => NamedOnce t.entries)
    (fun _ _ _ hs hinsert => namedOnce_insert hs hinsert) ht h

lemma namedOnce_ofSymbols {symbols : List Value} (h : ofSymbols table symbols = .ok t) :
    NamedOnce t.entries :=
  foldlM_preserves (P := fun t => NamedOnce t.entries)
    (fun _ _ _ hs hinsert => namedOnce_insertAll hs hinsert) namedOnce_nil h

lemma namedOnce_independent {v : Value} (h : SlotTable.independent v = .ok t) :
    NamedOnce t.entries := by
  obtain ⟨built, hbuilt, h⟩ := Except.eq_ok_of_bind h
  split at h
  · cases h
  · cases h
    exact namedOnce_ofSymbols hbuilt

end SlotTable

namespace DefinitionTable

variable {t t' : DefinitionTable}

/-- The symbols of a table under their names, without the definitions. -/
def named (t : DefinitionTable) : List (String × Value) :=
  t.entries.map fun (name, symbol, _) => (name, symbol)

lemma names_named (t : DefinitionTable) : t.named.map Prod.fst = Assoc.keys t.definitions := by
  unfold named Assoc.keys definitions
  rw [List.map_map, List.map_map]
  rfl

/-- A definition is added under the name of its symbol, which had none before. -/
lemma insert_ok {pair : Value × Value} (h : t.insert pair = .ok t') :
    ∃ name e, pair.1.key? = some name ∧ pair.2.toExpr = .ok e ∧
      Assoc.find? name t.definitions = none ∧ t' = ⟨t.entries ++ [(name, pair.1, e)]⟩ := by
  unfold insert at h
  split at h
  · cases h
  · rename_i name hkey
    split at h
    · cases h
    · rename_i hnew
      obtain ⟨e, he, h⟩ := Except.eq_ok_of_bind h
      cases h
      exact ⟨name, e, hkey, he, by simpa using hnew, rfl⟩

lemma namedOnce_insert (ht : NamedOnce t.named) {pair : Value × Value}
    (h : t.insert pair = .ok t') : NamedOnce t'.named := by
  obtain ⟨name, e, hkey, _, hnone, rfl⟩ := insert_ok h
  have happend : named ⟨t.entries ++ [(name, pair.1, e)]⟩ = t.named ++ [(name, pair.1)] :=
    List.map_append
  rw [happend]
  refine ht.append_singleton hkey fun hmem => ?_
  rw [names_named] at hmem
  obtain ⟨other, hother⟩ := Assoc.exists_mem_of_mem_keys hmem
  have hne := Assoc.find?_eq_none_iff.1 hnone (name, other) hother
  simp at hne

lemma definitions_append (t : DefinitionTable) (name : String) (symbol : Value) (e : Expr) :
    definitions ⟨t.entries ++ [(name, symbol, e)]⟩ = t.definitions ++ [(name, e)] :=
  List.map_append

/-- A definition that stands in a table is not replaced. -/
lemma find?_of_foldlM {pairs : List (Value × Value)} (h : pairs.foldlM insert t = .ok t')
    {name : String} {e : Expr} (he : Assoc.find? name t.definitions = some e) :
    Assoc.find? name t'.definitions = some e := by
  refine foldlM_preserves (P := fun t => Assoc.find? name t.definitions = some e)
    (fun s pair s' hs hinsert => ?_) he h
  obtain ⟨other, e', _, _, _, rfl⟩ := insert_ok hinsert
  rw [definitions_append]
  exact Assoc.find?_append hs _

/-- Every definition that is given stands in the table, under the name of its symbol. -/
lemma exists_find?_of_foldlM {pairs : List (Value × Value)} (h : pairs.foldlM insert t = .ok t')
    {v w : Value} (hmem : (v, w) ∈ pairs) :
    ∃ name e, v.key? = some name ∧ w.toExpr = .ok e ∧
      Assoc.find? name t'.definitions = some e := by
  induction pairs generalizing t with
  | nil => cases hmem
  | cons pair pairs ih =>
    rw [List.foldlM_cons] at h
    obtain ⟨t₁, ht₁, h⟩ := Except.eq_ok_of_bind h
    rcases List.mem_cons.1 hmem with rfl | hmem
    · obtain ⟨name, e, hkey, he, hnone, rfl⟩ := insert_ok ht₁
      refine ⟨name, e, hkey, he, find?_of_foldlM h ?_⟩
      rw [definitions_append, Assoc.find?_append_of_none hnone]
      exact if_pos (beq_self_eq_true name)
    · exact ih h hmem

lemma namedOnce_ofValue {v : Value} (h : ofValue v = .ok t) : NamedOnce t.named := by
  cases v with
  | none =>
    cases h
    exact namedOnce_nil
  | dict pairs =>
    exact foldlM_preserves (P := fun t => NamedOnce t.named)
      (fun _ _ _ hs hinsert => namedOnce_insert hs hinsert) namedOnce_nil h
  | _ => cases h

end DefinitionTable

namespace Layout

variable {l : Layout}

/-- The symbols of a role under their names. -/
def entries (l : Layout) : Role → List (String × Value)
  | .observed => l.observed.named
  | role => ((l.table? role).map SlotTable.entries).getD []

def names (l : Layout) (role : Role) : List String := (l.entries role).map Prod.fst

/-- In every role, symbols stand under their own names and no name stands twice. -/
def WellFormed (l : Layout) : Prop := ∀ role, NamedOnce (l.entries role)

lemma symbols_eq (l : Layout) (role : Role) : l.symbols role = (l.entries role).map Prod.snd := by
  cases role with
  | observed =>
    change l.observed.entries.map _ = (l.observed.entries.map _).map _
    rw [List.map_map]
    rfl
  | _ => rfl

lemma wellFormed_of_tables (hs : NamedOnce l.states.entries) (hp : NamedOnce l.parameters.entries)
    (hi : NamedOnce l.independent.entries) (ho : NamedOnce l.observed.named) : l.WellFormed := by
  intro role
  cases role with
  | state => exact hs
  | parameter => exact hp
  | independent => exact hi
  | observed => exact ho
  | unknown => exact namedOnce_nil

lemma wellFormed_of_build {states parameters independent observed : Value}
    (hl : Layout.build states parameters independent observed = .ok l) : l.WellFormed := by
  obtain ⟨hs, hp, hi, ho⟩ := build_ok hl
  exact wellFormed_of_tables (SlotTable.namedOnce_ofSymbols hs) (SlotTable.namedOnce_ofSymbols hp)
    (SlotTable.namedOnce_independent hi) (DefinitionTable.namedOnce_ofValue ho)

/-- A layout has the symbols whose names it lists. -/
lemma has_iff {role : Role} {v : Value} :
    l.has role v = true ↔ ∃ name, v.key? = some name ∧ name ∈ l.names role := by
  have hslot (t : SlotTable) :
      t.contains v = true ↔ ∃ name, v.key? = some name ∧ name ∈ t.names := by
    unfold SlotTable.contains SlotTable.find?
    rw [Option.isSome_iff_exists]
    constructor
    · rintro ⟨n, hn⟩
      obtain ⟨name, hkey, hplace⟩ := Option.bind_eq_some_iff.1 hn
      refine ⟨name, hkey, by_contra fun hnew => ?_⟩
      rw [SlotTable.place?_eq_none_iff.2 hnew] at hplace
      cases hplace
    · rintro ⟨name, hkey, hmem⟩
      rw [hkey]
      refine Option.ne_none_iff_exists'.1 fun hnone => ?_
      exact SlotTable.place?_eq_none_iff.1 hnone hmem
  cases role with
  | state => exact hslot l.states
  | parameter => exact hslot l.parameters
  | independent => exact hslot l.independent
  | unknown => exact ⟨nofun, nofun⟩
  | observed =>
    change (v.key?.bind fun name => Assoc.find? name l.observed.definitions).isSome = true ↔
      ∃ name, v.key? = some name ∧ name ∈ l.observed.named.map Prod.fst
    rw [DefinitionTable.names_named, Option.isSome_iff_exists]
    constructor
    · rintro ⟨e, he⟩
      obtain ⟨name, hkey, hfind⟩ := Option.bind_eq_some_iff.1 he
      obtain ⟨k, hk, hname⟩ := Assoc.mem_of_find? hfind
      rw [beq_iff_eq] at hname
      exact ⟨name, hkey, hname ▸ Assoc.mem_keys_of_mem hk⟩
    · rintro ⟨name, hkey, hmem⟩
      rw [hkey]
      refine Option.ne_none_iff_exists'.1 fun hnone => ?_
      obtain ⟨e, he⟩ := Assoc.exists_mem_of_mem_keys hmem
      have hne := Assoc.find?_eq_none_iff.1 hnone (name, e) he
      simp at hne

lemma has_iff_mem {role : Role} {v : Value} {name : String} (hkey : v.key? = some name) :
    l.has role v = true ↔ name ∈ l.names role := by
  rw [has_iff]
  constructor
  · rintro ⟨other, hother, hmem⟩
    cases hkey.symm.trans hother
    exact hmem
  · exact fun hmem => ⟨name, hkey, hmem⟩

lemma not_has_iff {role : Role} {v : Value} {name : String} (hkey : v.key? = some name) :
    l.has role v = false ↔ name ∉ l.names role := by
  rw [← has_iff_mem hkey, Bool.not_eq_true]

/-- The role of a symbol is the only one that lists its name. -/
lemma rolesOf_of_name {role : Role} {v : Value} {name : String} (hkey : v.key? = some name)
    (hmem : name ∈ l.names role) (hother : ∀ other, other ≠ role → name ∉ l.names other) :
    l.rolesOf v = [role] :=
  rolesOf_of_has ((has_iff_mem hkey).2 hmem) fun other hne => (not_has_iff hkey).2 (hother other hne)

lemma rolesOf_of_no_name {v : Value} {name : String} (hkey : v.key? = some name)
    (h : ∀ role, name ∉ l.names role) : l.rolesOf v = [] :=
  List.filter_eq_nil_iff.2 fun role _ hhas => h role ((has_iff_mem hkey).1 hhas)

lemma WellFormed.keys (hl : l.WellFormed) (role : Role) :
    (l.symbols role).map Value.key? = (l.names role).map some := by
  rw [symbols_eq]
  unfold names
  rw [List.map_map, List.map_map]
  exact List.map_congr_left fun entry hentry => (hl role).key? entry hentry

/-- The place of a symbol is the position of its name. -/
lemma place?_eq_some_iff (hl : l.WellFormed) {role : Role} (hstored : Interface.isStored role = true)
    {v : Value} {n : Nat} :
    l.place? role v = some n ↔ ∃ name, v.key? = some name ∧ (l.names role)[n]? = some name := by
  have hslot {t : SlotTable} (ht : t.names.Nodup) :
      t.find? v = some n ↔ ∃ name, v.key? = some name ∧ t.names[n]? = some name := by
    unfold SlotTable.find?
    rw [Option.bind_eq_some_iff]
    simp only [SlotTable.place?_eq_some_iff ht]
  cases role with
  | state => exact hslot (hl .state).nodup
  | parameter => exact hslot (hl .parameter).nodup
  | _ => cases hstored

end Layout

namespace VersionedLayout

variable {l l' : VersionedLayout}

/-- Every version has tables in which symbols stand under their own names and no name twice. -/
def WellFormed (l : VersionedLayout) : Prop :=
  (∀ entry ∈ l.structures, NamedOnce entry.2.states.entries ∧ NamedOnce entry.2.parameters.entries) ∧
    NamedOnce l.independent.entries ∧ NamedOnce l.observed.named

lemma WellFormed.layoutAt (hl : l.WellFormed) {version : Value} {layout : Layout}
    (h : l.layoutAt version = .ok layout) : layout.WellFormed := by
  obtain ⟨_, s, hs, rfl⟩ := layoutAt_eq_ok_iff.1 h
  obtain ⟨k, hk, _⟩ := Assoc.mem_of_find? hs
  obtain ⟨hstates, hparameters⟩ := hl.1 (k, s) hk
  exact Layout.wellFormed_of_tables hstates hparameters hl.2.1 hl.2.2

lemma wellFormed_of_build {independent observed : Value}
    (h : VersionedLayout.build independent observed = .ok l) : l.WellFormed := by
  obtain ⟨hi, ho, hstructures, _⟩ := build_ok h
  refine ⟨fun entry hentry => ?_, SlotTable.namedOnce_independent hi,
    DefinitionTable.namedOnce_ofValue ho⟩
  rw [hstructures] at hentry
  cases hentry

lemma WellFormed.changes (hl : l.WellFormed) (h : l.Changes l') : l'.WellFormed := by
  cases h with
  | add version states parameters h =>
    obtain ⟨_, _, s, hs, hp, rfl⟩ := addVersion_eq_ok_iff.1 h
    refine ⟨fun entry hentry => ?_, hl.2⟩
    rcases List.mem_append.1 hentry with hentry | hentry
    · exact hl.1 entry hentry
    · cases List.mem_singleton.1 hentry
      exact ⟨SlotTable.namedOnce_ofSymbols hs, SlotTable.namedOnce_ofSymbols hp⟩
  | current version h =>
    obtain ⟨_, rfl⟩ := setCurrent_eq_ok_iff.1 h
    exact hl

end VersionedLayout
end NamedSlots
