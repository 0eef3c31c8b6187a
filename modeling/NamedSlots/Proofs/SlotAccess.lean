import NamedSlots.Proofs.LeafEntries
import NamedSlots.Proofs.ServedPlan

/-!
# The slots that a call reads and writes

A plan lists its slots. What a reader gets from a problem state depends on the items in its slots
and on the time, and a writer writes to its slots only. The slots of a plan that serves a request
are those that the layout assigns to the symbols which the request refers to.
-/

namespace NamedSlots

abbrev Slot := Role × Index

/-! ### The slots of a request -/

namespace Request

mutual

/-- A symbol stands in a request, or is reached from it through expressions and definitions. -/
def Refers (l : Layout) (s : Value) : Request → Prop
  | symbol _ v => s = v ∨ ∃ e x, v.toExpr = .ok e ∧ l.Reached e x ∧ s = .expr x
  | expression e => ∃ x, l.Reached e x ∧ s = .expr x
  | sequence items _ => AnyRefers l s items
  | array _ elements => AnyRefers l s elements

def AnyRefers (l : Layout) (s : Value) : List Request → Prop
  | [] => False
  | q :: qs => Refers l s q ∨ AnyRefers l s qs

end

/-- A slot that the layout assigns to a symbol which a request refers to. -/
def Uses (tables : Except Failure Layout) (q : Request) (slot : Slot) : Prop :=
  ∃ l s, tables = .ok l ∧ q.Refers l s ∧ Assigns tables slot.1 s slot.2

def AnyUses (tables : Except Failure Layout) (qs : List Request) (slot : Slot) : Prop :=
  ∃ l s, tables = .ok l ∧ AnyRefers l s qs ∧ Assigns tables slot.1 s slot.2

variable {tables : Except Failure Layout} {q : Request} {qs : List Request} {slot : Slot}

lemma anyUses_of_head (h : q.Uses tables slot) : AnyUses tables (q :: qs) slot := by
  obtain ⟨l, s, hl, hrefers, hassigns⟩ := h
  exact ⟨l, s, hl, .inl hrefers, hassigns⟩

lemma anyUses_of_tail (h : AnyUses tables qs slot) : AnyUses tables (q :: qs) slot := by
  obtain ⟨l, s, hl, hrefers, hassigns⟩ := h
  exact ⟨l, s, hl, .inr hrefers, hassigns⟩

end Request

/-! ### The slots of a plan -/

/-- The slots that the leaves of an evaluator are bound to. -/
def Evaluator.slots (f : Evaluator) : List Slot :=
  f.table.bindings.filterMap fun (_, s) => s.index?.map fun i => (s.role, i)

namespace Reader

mutual

/-- The slots that a reader looks at. -/
def slots : Reader → List Slot
  | state i => [(.state, i)]
  | parameter i => [(.parameter, i)]
  | time => []
  | gather role ks => ks.map fun i => (role, i)
  | provider _ _ => []
  | expression f => f.slots
  | vector rs => allSlots rs
  | sequence inner _ => slots inner
  | array inner _ => slots inner

def allSlots : List Reader → List Slot
  | [] => []
  | r :: rs => slots r ++ allSlots rs

end

lemma eq_map_of_mapM {f : Reader → Option Index} {g : Index → Reader}
    (hf : ∀ r i, f r = some i → r = g i) {rs : List Reader} {ks : List Index}
    (h : rs.mapM f = some ks) : rs = ks.map g := by
  induction rs generalizing ks with
  | nil =>
    cases h
    rfl
  | cons r rs ih =>
    rw [List.mapM_cons] at h
    obtain ⟨i, hi, h⟩ := Option.bind_eq_some_iff.1 h
    obtain ⟨is, his, h⟩ := Option.bind_eq_some_iff.1 h
    cases h
    rw [hf r i hi, ih his]
    rfl

/-- Readers one after the other are gathered from states, gathered from parameters, or kept. -/
lemma ofItems_cases (rs : List Reader) :
    (∃ ks, rs = ks.map state ∧ ofItems rs = gather .state ks) ∨
      (∃ ks, rs = ks.map parameter ∧ ofItems rs = gather .parameter ks) ∨
        ofItems rs = vector rs := by
  unfold ofItems
  split
  · exact .inr (.inr rfl)
  · split
    · rename_i ks hks
      refine .inl ⟨ks, eq_map_of_mapM ?_ hks, rfl⟩
      intro r i hi
      cases r <;> cases hi
      rfl
    · rename_i ks _ hks
      refine .inr (.inl ⟨ks, eq_map_of_mapM ?_ hks, rfl⟩)
      intro r i hi
      cases r <;> cases hi
      rfl
    · exact .inr (.inr rfl)

lemma slots_ofItems (rs : List Reader) : slots (ofItems rs) = allSlots rs := by
  have hmap (role : Role) (f : Index → Reader) (hf : ∀ i, slots (f i) = [(role, i)])
      (ks : List Index) : (ks.map fun i => (role, i)) = allSlots (ks.map f) := by
    induction ks with
    | nil => rfl
    | cons i ks ih => rw [List.map_cons, List.map_cons, allSlots, hf, ih, List.singleton_append]
  rcases ofItems_cases rs with ⟨ks, rfl, h⟩ | ⟨ks, rfl, h⟩ | h
  · rw [h, slots]
    exact hmap .state state (fun i => rfl) ks
  · rw [h, slots]
    exact hmap .parameter parameter (fun i => rfl) ks
  · rw [h, slots]

end Reader

section Serve

variable {tables : Except Failure Layout}

lemma Layout.assigns_of_meaningOf {l : Layout} {x : Expr} {src : Source} {i : Index}
    (hl : tables = .ok l) (hm : l.meaningOf x = some (.source src)) (hi : src.index? = some i) :
    Assigns tables src.role (.expr x) i := by
  unfold Layout.meaningOf at hm
  split at hm
  · rename_i hroles
    obtain ⟨n, hn, heq⟩ := Option.map_eq_some_iff.1 hm
    cases heq
    cases hi
    exact ⟨l, n, hl, hroles, hn, rfl⟩
  · rename_i hroles
    obtain ⟨n, hn, heq⟩ := Option.map_eq_some_iff.1 hm
    cases heq
    cases hi
    exact ⟨l, n, hl, hroles, hn, rfl⟩
  · cases hm
    cases hi
  · obtain ⟨d, _, heq⟩ := Option.map_eq_some_iff.1 hm
    cases heq
  · cases hm

lemma Evaluator.Serves.uses {e : Expr} {f : Evaluator} (h : f.Serves tables e) {slot : Slot}
    (hslot : slot ∈ f.slots) :
    ∃ l x, tables = .ok l ∧ l.Reached e x ∧ Assigns tables slot.1 (.expr x) slot.2 := by
  obtain ⟨⟨x, src⟩, hmem, heq⟩ := List.mem_filterMap.1 hslot
  obtain ⟨i, hi, rfl⟩ := Option.map_eq_some_iff.1 heq
  obtain ⟨l, hl, hreached, hm⟩ := h.2 x _ (LeafTable.mem_bindings.1 hmem)
  exact ⟨l, x, hl, hreached, Layout.assigns_of_meaningOf hl hm hi⟩

lemma Reader.ServesSymbol.uses {name : String} {symbol : Value} {r : Reader}
    (h : r.ServesSymbol tables symbol) {slot : Slot} (hslot : slot ∈ r.slots) :
    (Request.symbol name symbol).Uses tables slot := by
  cases r with
  | state i =>
    cases List.mem_singleton.1 hslot
    obtain ⟨l, n, hl, hassigns⟩ := h
    exact ⟨l, symbol, hl, .inl rfl, l, n, hl, hassigns⟩
  | parameter i =>
    cases List.mem_singleton.1 hslot
    obtain ⟨l, n, hl, hassigns⟩ := h
    exact ⟨l, symbol, hl, .inl rfl, l, n, hl, hassigns⟩
  | expression f =>
    obtain ⟨_, e, _, _, he, hf⟩ := h
    obtain ⟨l, x, hl, hreached, hassigns⟩ := hf.uses hslot
    exact ⟨l, .expr x, hl, .inr ⟨e, x, he, hreached, rfl⟩, hassigns⟩
  | time => cases hslot
  | _ => exact h.elim

mutual

/-- The slots of a reader are those that the request uses. -/
lemma Reader.Serves.uses (q : Request) (r : Reader) (h : r.Serves tables q) {slot : Slot}
    (hslot : slot ∈ r.slots) : q.Uses tables slot := by
  match q with
  | .symbol _ symbol => exact Reader.ServesSymbol.uses h hslot
  | .expression e =>
    obtain ⟨f, rfl, hf⟩ := h
    obtain ⟨l, x, hl, hreached, hassigns⟩ := hf.uses hslot
    exact ⟨l, .expr x, hl, ⟨x, hreached, rfl⟩, hassigns⟩
  | .sequence items isTuple =>
    obtain ⟨rs, rfl, h⟩ := h
    rw [Reader.slots, Reader.slots_ofItems] at hslot
    exact Reader.AllServe.uses items rs h hslot
  | .array shape elements =>
    obtain ⟨rs, rfl, h⟩ := h
    rw [Reader.slots, Reader.slots_ofItems] at hslot
    exact Reader.AllServe.uses elements rs h hslot

lemma Reader.AllServe.uses (qs : List Request) (rs : List Reader)
    (h : Reader.AllServe tables qs rs) {slot : Slot} (hslot : slot ∈ Reader.allSlots rs) :
    Request.AnyUses tables qs slot := by
  match qs with
  | [] =>
    cases h
    cases hslot
  | q :: qs =>
    obtain ⟨r, rest, rfl, hr, h⟩ := h
    rcases List.mem_append.1 hslot with hslot | hslot
    · exact Request.anyUses_of_head (Reader.Serves.uses q r hr hslot)
    · exact Request.anyUses_of_tail (Reader.AllServe.uses qs rest h hslot)

end

end Serve

/-! ### Planned writes -/

section Write

variable {tables : Except Failure Layout}

lemma WritePlan.mem_append {p q : WritePlan} {write : SlotWrite}
    (h : write ∈ (p.append q).writes) : write ∈ p.writes ∨ write ∈ q.writes := by
  unfold WritePlan.append at h
  split at h
  · exact .inl h
  · exact List.mem_append.1 h

namespace Writer

/-- The plan for the items of a value, which are counted before any of them is planned. -/
def planItems (ws : List Writer) : Except Failure (List Value) → WritePlan
  | .error f => .fail f
  | .ok vs =>
    if vs.length ≠ ws.length then .fail (.wrongCount ws.length vs.length) else planAll ws vs

lemma plan_vector (ws : List Writer) (v : Value) : (vector ws).plan v = planItems ws v.iterate := by
  rw [plan]
  rfl

lemma plan_array (ws : List Writer) (shape : List Index) (v : Value) :
    (array ws shape).plan v = planItems ws (arrayItems shape v) := by
  rw [plan]
  rfl

lemma mem_writes_planItems {ws : List Writer} {items : Except Failure (List Value)}
    {write : SlotWrite} (h : write ∈ (planItems ws items).writes) :
    ∃ vs, write ∈ (planAll ws vs).writes := by
  unfold planItems at h
  split at h
  · cases h
  · split at h
    · cases h
    · exact ⟨_, h⟩

/-- There are no items, there is another number of them, or one of them is not planned. -/
lemma failure_planItems {ws : List Writer} {items : Except Failure (List Value)} {f : Failure}
    (h : (planItems ws items).failure = some f) :
    items = .error f ∨ ∃ vs, items = .ok vs ∧
      (f = .wrongCount ws.length vs.length ∨ (planAll ws vs).failure = some f) := by
  unfold planItems at h
  split at h
  · cases h
    exact .inl rfl
  · rename_i vs
    refine .inr ⟨vs, rfl, ?_⟩
    split at h
    · cases h
      exact .inl rfl
    · exact .inr h

end Writer

mutual

/-- A writer that serves a request writes only to slots that the request uses. -/
lemma Writer.Serves.uses (q : Request) (w : Writer) (h : w.Serves tables q) (v : Value)
    {write : SlotWrite} (hwrite : write ∈ (w.plan v).writes) :
    q.Uses tables (write.role, write.index) := by
  match q with
  | .symbol _ symbol =>
    obtain ⟨role, i, rfl, _, l, n, hl, hassigns⟩ := h
    cases List.mem_singleton.1 hwrite
    exact ⟨l, symbol, hl, .inl rfl, l, n, hl, hassigns⟩
  | .expression e => exact h.elim
  | .sequence items isTuple =>
    obtain ⟨ws, rfl, h⟩ := h
    rw [Writer.plan_vector] at hwrite
    obtain ⟨vs, hwrite⟩ := Writer.mem_writes_planItems hwrite
    exact Writer.AllServe.uses items ws h vs hwrite
  | .array shape elements =>
    obtain ⟨ws, rfl, h⟩ := h
    rw [Writer.plan_array] at hwrite
    obtain ⟨vs, hwrite⟩ := Writer.mem_writes_planItems hwrite
    exact Writer.AllServe.uses elements ws h vs hwrite

lemma Writer.AllServe.uses (qs : List Request) (ws : List Writer)
    (h : Writer.AllServe tables qs ws) (vs : List Value) {write : SlotWrite}
    (hwrite : write ∈ (Writer.planAll ws vs).writes) :
    Request.AnyUses tables qs (write.role, write.index) := by
  match qs with
  | [] =>
    cases h
    cases hwrite
  | q :: qs =>
    obtain ⟨w, rest, rfl, hw, h⟩ := h
    cases vs with
    | nil => cases hwrite
    | cons v vs =>
      rw [Writer.planAll] at hwrite
      rcases WritePlan.mem_append hwrite with hwrite | hwrite
      · exact Request.anyUses_of_head (Writer.Serves.uses q w hw v hwrite)
      · exact Request.anyUses_of_tail (Writer.AllServe.uses qs rest h vs hwrite)

end

end Write

end NamedSlots
