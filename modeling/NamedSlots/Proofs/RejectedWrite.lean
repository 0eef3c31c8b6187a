import NamedSlots.Proofs.StoredAccess

/-!
# Writes that are rejected

A setter checks counts level by level, and writes the items before a level that does not fit. A
value with a wrong count is always rejected with a value failure. Storage stays as it is for a
request without levels inside levels; otherwise it stays exactly if the items that were written
before the rejection are there already.
-/

namespace NamedSlots

namespace Request

mutual

/-- A value has a sequence wherever a request has one. -/
def HasSequences : Request → Value → Prop
  | symbol _ _, _ => True
  | array shape elements, v =>
    match Writer.arrayItems shape v with
    | .ok vs => AllHaveSequences elements vs
    | .error _ => True
  | sequence items _, v =>
    match v.iterate with
    | .ok vs => AllHaveSequences items vs
    | .error _ => False
  | expression _, _ => True

def AllHaveSequences : List Request → List Value → Prop
  | q :: qs, v :: vs => HasSequences q v ∧ AllHaveSequences qs vs
  | _, _ => True

end

/-- A request without levels inside levels: a symbol, or symbols side by side. -/
def IsFlat : Request → Prop
  | symbol _ _ => True
  | array _ elements => ∀ q ∈ elements, ∃ name s, q = symbol name s
  | sequence items _ => ∀ q ∈ items, ∃ name s, q = symbol name s
  | expression _ => False

lemma exists_assignAll?_of_symbols {qs : List Request}
    (h : ∀ q ∈ qs, ∃ name s, q = symbol name s) {vs : List Value} (hlength : vs.length = qs.length) :
    ∃ pairs, assignAll? qs vs = some pairs := by
  induction qs generalizing vs with
  | nil =>
    cases vs with
    | nil => exact ⟨[], rfl⟩
    | cons v vs => cases hlength
  | cons q qs ih =>
    cases vs with
    | nil => cases hlength
    | cons v vs =>
      obtain ⟨name, s, rfl⟩ := h q List.mem_cons_self
      obtain ⟨pairs, hpairs⟩ := ih (fun q hq => h q (List.mem_cons_of_mem _ hq))
        (Nat.succ.inj hlength)
      exact ⟨(s, v) :: pairs, by rw [assignAll?, hpairs]; rfl⟩

/-- The only count of a flat request is checked before anything is assigned. -/
lemma IsFlat.assignBefore {q : Request} (hq : q.IsFlat) {v : Value} (h : q.assign? v = none) :
    q.assignBefore v = [] := by
  have hparts {qs : List Request} (hqs : ∀ q ∈ qs, ∃ name s, q = symbol name s) {vs : List Value}
      (h : assignAll? qs vs = none) :
      (if vs.length = qs.length then assignAllBefore qs vs else []) = [] := by
    refine if_neg fun hlength => ?_
    obtain ⟨pairs, hpairs⟩ := exists_assignAll?_of_symbols hqs hlength
    rw [h] at hpairs
    cases hpairs
  cases q with
  | symbol name s => cases h
  | array shape elements =>
    rw [assign?] at h
    rw [Request.assignBefore]
    split
    · rename_i vs hvs
      rw [hvs] at h
      exact hparts hq h
    · rfl
  | sequence items isTuple =>
    rw [assign?] at h
    rw [Request.assignBefore]
    split
    · rename_i vs hvs
      rw [hvs] at h
      exact hparts hq h
    · rfl
  | expression e => exact hq.elim

end Request

namespace Writer

lemma kind_of_assemble {v : Value} {f : Failure} (h : v.assemble = .error f) :
    f.kind = .wrongValue := by
  unfold Value.assemble at h
  split at h
  · cases h
  · cases h
  · cases h
  · dsimp only at h
    split at h
    · cases h
    · cases h
      rfl

lemma kind_of_arrayItems {shape : List Index} {v : Value} {f : Failure}
    (h : arrayItems shape v = .error f) : f.kind = .wrongValue := by
  unfold arrayItems at h
  cases hv : v.assemble with
  | error f' =>
    rw [hv] at h
    cases h
    exact kind_of_assemble hv
  | ok grid =>
    rw [hv] at h
    dsimp only [bind, Except.bind] at h
    split at h
    · cases h
      rfl
    · cases h

lemma failure_append {p q : WritePlan} {f : Failure} (h : (p.append q).failure = some f) :
    p.failure = some f ∨ q.failure = some f := by
  unfold WritePlan.append at h
  split at h
  · exact .inl h
  · exact .inr h

variable {tables : Except Failure Layout}

mutual

/-- Values that have all sequences are rejected with a value failure only. -/
lemma kind_of_failure (q : Request) (w : Writer) (hw : w.Serves tables q) {v : Value}
    (hv : q.HasSequences v) {f : Failure} (h : (w.plan v).failure = some f) :
    f.kind = .wrongValue := by
  match q with
  | .symbol _ s =>
    obtain ⟨role, i, rfl, _⟩ := hw
    cases h
  | .array shape elements =>
    obtain ⟨ws, rfl, hw⟩ := hw
    rw [Request.HasSequences] at hv
    rw [plan_array] at h
    rcases failure_planItems h with hf | ⟨vs, hvs, rfl | h⟩
    · exact kind_of_arrayItems hf
    · rfl
    · rw [hvs] at hv
      exact kind_of_failures elements ws hw hv h
  | .sequence items _ =>
    obtain ⟨ws, rfl, hw⟩ := hw
    rw [Request.HasSequences] at hv
    rw [plan_vector] at h
    rcases failure_planItems h with hf | ⟨vs, hvs, rfl | h⟩
    · rw [hf] at hv
      exact hv.elim
    · rfl
    · rw [hvs] at hv
      exact kind_of_failures items ws hw hv h
  | .expression e => exact hw.elim

lemma kind_of_failures (qs : List Request) (ws : List Writer) (hws : AllServe tables qs ws)
    {vs : List Value} (hvs : Request.AllHaveSequences qs vs) {f : Failure}
    (h : (planAll ws vs).failure = some f) : f.kind = .wrongValue := by
  match qs, vs with
  | [], _ =>
    cases hws
    cases h
  | q :: qs, [] =>
    obtain ⟨w, rest, rfl, _⟩ := hws
    cases h
  | q :: qs, v :: vs =>
    obtain ⟨w, rest, rfl, hw, hrest⟩ := hws
    rw [planAll] at h
    rcases failure_append h with h | h
    · exact kind_of_failure q w hw hvs.1 h
    · exact kind_of_failures qs rest hrest hvs.2 h

end

end Writer

namespace ProblemState

variable {l : Layout} {q : Request} {request : Value}

/-- A value with a wrong count at some level is rejected with a value failure, after the items
that come before that level have been written. Storage is as before exactly if each cell written
so far already held the last item for it; so it is for every request without levels inside
levels. -/
theorem set_rejected (hq : Request.ofValue .standard request = .ok q) (hstored : q.Stored l)
    (s : ProblemState) (world : World) (k identity : Option Nat) (n : Nat) (object : Value) :
    ∃ setter,
      (s.overLayout world k l identity).accessor n object .writeAny request .none = .ok setter ∧
      ∀ c : Cells, c.Covers l → ∀ v, q.HasSequences v → q.assign? v = none →
        ∃ f c', f.kind = .wrongValue ∧ c' = c.setAll (l.writes (q.assignBefore v)) ∧
          setter.set ((s.withCells c).overLayout world k l identity) v = (c'.storage, some f) ∧
          (c' = c ↔ ∀ before cell y after,
            l.writes (q.assignBefore v) = before ++ (cell, y) :: after →
              cell ∉ after.map Prod.fst → c.get? cell = some y) ∧
          (q.IsFlat → c' = c) := by
  obtain ⟨w, hsetter, hw⟩ := exists_setter s world k identity hq hstored n object
  refine ⟨_, hsetter, fun c hc v hv hnone => ?_⟩
  have hfails : (w.plan v).failure.isNone = false := by
    rw [(Writer.plan_of_serves q w hw v).2, hnone]
    rfl
  obtain ⟨f, hf⟩ : ∃ f, (w.plan v).failure = some f := by
    cases h : (w.plan v).failure with
    | none =>
      rw [h] at hfails
      cases hfails
    | some f => exact ⟨f, rfl⟩
  have hin : ∀ cell ∈ (l.writes (q.assignBefore v)).map Prod.fst, (c.get? cell).isSome :=
    fun cell hmem => hc.isSome_of_mem_writes hmem
  have hunchanged := Cells.setAll_eq_self_iff hin
  refine ⟨f, _, Writer.kind_of_failure q w hw hv hf, rfl, ?_, hunchanged, ?_⟩
  · rw [set_overLayout hw hc, hf]
  · intro hflat
    rw [hflat.assignBefore hnone]
    rfl

namespace NestedPair

def x : Value := .text "x"

def y : Value := .text "y"

def z : Value := .text "z"

def layout : Layout where
  states := ⟨[("x", x), ("y", y), ("z", z)]⟩

def flat : Request := .sequence [.symbol "y" y, .symbol "z" z] false

def nested : Request := .sequence [.symbol "x" x, flat] false

def state : ProblemState := ⟨.none, .none, .none, .none, .none⟩

def cells : Cells := ⟨[.int 1, .int 2, .int 3], []⟩

def system : System :=
  (state.withCells cells).overLayout (fun _ => { className := "object" }) none layout none

lemma ofValue_flat : Request.ofValue .standard (.list [y, z]) = .ok flat := rfl

lemma stored_flat : flat.Stored layout := ⟨⟨rfl, .inl rfl⟩, ⟨rfl, .inl rfl⟩, trivial⟩

lemma covers_cells : cells.Covers layout := ⟨Nat.le_refl 3, Nat.le_refl 0⟩

lemma isFlat_flat : flat.IsFlat := by
  intro q hq
  rcases List.mem_cons.1 hq with rfl | hq
  · exact ⟨"y", y, rfl⟩
  · cases List.mem_singleton.1 hq
    exact ⟨"z", z, rfl⟩

end NestedPair

/-- One item for a list of two symbols is rejected, and storage stays as it is. -/
theorem set_rejected_flat : ∃ setter : Accessor, ∃ f : Failure,
    NestedPair.system.accessor 0 .none .writeAny (.list [NestedPair.y, NestedPair.z]) .none =
        .ok setter ∧
      f.kind = .wrongValue ∧
      setter.set NestedPair.system (.list [.int 20]) = (NestedPair.cells.storage, some f) := by
  obtain ⟨setter, hsetter, h⟩ := set_rejected NestedPair.ofValue_flat NestedPair.stored_flat
    NestedPair.state (fun _ => { className := "object" }) none none 0 .none
  obtain ⟨f, c, hkind, -, hset, -, hflat⟩ :=
    h NestedPair.cells NestedPair.covers_cells (.list [.int 20]) ⟨trivial, trivial⟩ rfl
  rw [hflat NestedPair.isFlat_flat] at hset
  exact ⟨setter, f, hsetter, hkind, hset⟩

/-- One item for the inner list of two symbols is rejected after the symbol before that list has
been written. -/
theorem not_unchanged_nested : ∃ setter : Accessor, ∃ f : Failure, ∃ c : Cells,
    NestedPair.system.accessor 0 .none .writeAny
        (.list [NestedPair.x, .list [NestedPair.y, NestedPair.z]]) .none = .ok setter ∧
      NestedPair.nested.HasSequences (.list [.int 10, .list [.int 20]]) ∧
      NestedPair.nested.assign? (.list [.int 10, .list [.int 20]]) = none ∧
      setter.set NestedPair.system (.list [.int 10, .list [.int 20]]) =
        (c.storage, some f) ∧
      c.get? (.state 0) = some (.int 10) ∧ NestedPair.cells.get? (.state 0) = some (.int 1) ∧
      c ≠ NestedPair.cells := by
  refine ⟨⟨0, .setter (.vector [.slot .state (.int 0),
    .vector [.slot .state (.int 1), .slot .state (.int 2)]]), NestedPair.nested, none⟩,
    .wrongCount 2 1, ⟨[.int 10, .int 2, .int 3], []⟩, rfl, ⟨trivial, ⟨trivial, trivial⟩, trivial⟩,
    rfl, rfl, rfl, rfl, ?_⟩
  intro h
  injection h with hstates _
  injection hstates with hfirst _
  injection hfirst with hnumber
  injection hnumber with hint
  exact absurd hint (by decide)

end ProblemState
end NamedSlots
