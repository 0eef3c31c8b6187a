import NamedSlots.Proofs.ServedPlan
import NamedSlots.Proofs.SlotReading
import NamedSlots.Proofs.StorageCells

/-!
# Requests for stored symbols

A request for stored symbols is made of scalar states and parameters by arrays, lists and tuples
of any depth. Each symbol has one cell of storage, and symbols of different names have different
cells. A value that fits the request assigns an item to every symbol, from left to right; a value
that does not fit assigns the items that come before the first level of the wrong count.
-/

namespace NamedSlots

/-! ### The cells of a layout -/

namespace Layout

/-- The cell of a symbol that is a state or a parameter and nothing else. -/
def cell? (l : Layout) (symbol : Value) : Option Cell :=
  match l.rolesOf symbol with
  | [.state] => (l.place? .state symbol).map Cell.state
  | [.parameter] => (l.place? .parameter symbol).map Cell.parameter
  | _ => none

/-- A scalar symbol that is a state or a parameter and nothing else. -/
structure Stores (l : Layout) (symbol : Value) : Prop where
  form : Classifier.standard.form symbol = .scalar
  role : l.rolesOf symbol = [.state] ∨ l.rolesOf symbol = [.parameter]

variable {l : Layout} {s s' : Value} {cell : Cell}

lemma cell?_eq_some_iff :
    l.cell? s = some cell ↔ l.rolesOf s = [cell.role] ∧ l.place? cell.role s = some cell.place := by
  unfold cell?
  constructor
  · intro h
    split at h
    · obtain ⟨n, hn, rfl⟩ := Option.map_eq_some_iff.1 h
      exact ⟨by assumption, hn⟩
    · obtain ⟨n, hn, rfl⟩ := Option.map_eq_some_iff.1 h
      exact ⟨by assumption, hn⟩
    · cases h
  · rintro ⟨hrole, hplace⟩
    cases cell with
    | state n =>
      have hplace' : l.place? .state s = some n := hplace
      rw [hrole]
      simp only [Cell.role, hplace', Option.map_some]
    | parameter n =>
      have hplace' : l.place? .parameter s = some n := hplace
      rw [hrole]
      simp only [Cell.role, hplace', Option.map_some]

lemma isStored_role (cell : Cell) : Interface.isStored cell.role = true := by
  cases cell <;> rfl

lemma Stores.exists_cell (h : l.Stores s) : ∃ cell, l.cell? s = some cell := by
  have hcell (role : Role) (hstored : Interface.isStored role = true) (hrole : l.rolesOf s = [role])
      (make : Nat → Cell) (hmake : ∀ n, (make n).role = role ∧ (make n).place = n) :
      ∃ cell, l.cell? s = some cell := by
    obtain ⟨n, hn⟩ := exists_place? hstored (has_of_rolesOf hrole)
    refine ⟨make n, cell?_eq_some_iff.2 ?_⟩
    rw [(hmake n).1, (hmake n).2]
    exact ⟨hrole, hn⟩
  rcases h.role with hrole | hrole
  · exact hcell .state rfl hrole Cell.state fun _ => ⟨rfl, rfl⟩
  · exact hcell .parameter rfl hrole Cell.parameter fun _ => ⟨rfl, rfl⟩

lemma cell?_of_assigns {role : Role} {i : Index} (h : Assigns (.ok l) role s i)
    (hstored : Interface.isStored role = true) :
    ∃ cell, l.cell? s = some cell ∧ cell.role = role ∧ i = .int cell.place := by
  obtain ⟨l', n, hl, hrole, hplace, rfl⟩ := h
  cases hl
  cases role with
  | state => exact ⟨.state n, cell?_eq_some_iff.2 ⟨hrole, hplace⟩, rfl, rfl⟩
  | parameter => exact ⟨.parameter n, cell?_eq_some_iff.2 ⟨hrole, hplace⟩, rfl, rfl⟩
  | independent => cases hstored
  | observed => cases hstored
  | unknown => cases hstored

lemma find?_table {t : SlotTable} {n : Nat} (h : t.find? s = some n) :
    s.key? = t.names[n]? ∧ n < t.size := by
  obtain ⟨name, hname, hplace⟩ := Option.bind_eq_some_iff.1 h
  obtain ⟨hlt, heq, _⟩ := List.findIdx?_eq_some_iff_getElem.1 hplace
  have hlength : t.names.length = t.size := List.length_map _
  refine ⟨?_, hlength ▸ hlt⟩
  rw [hname, List.getElem?_eq_getElem hlt, beq_iff_eq.1 heq]

/-- Symbols that share a cell have one name. -/
lemma key?_eq_of_cell? (h : l.cell? s = some cell) (h' : l.cell? s' = some cell) :
    s.key? = s'.key? := by
  have hplace := (cell?_eq_some_iff.1 h).2
  have hplace' := (cell?_eq_some_iff.1 h').2
  cases cell with
  | state n => exact (find?_table hplace).1.trans (find?_table hplace').1.symm
  | parameter n => exact (find?_table hplace).1.trans (find?_table hplace').1.symm

end Layout

/-- Storage has a cell for every place of the tables of a layout. -/
def Cells.Covers (c : Cells) (l : Layout) : Prop :=
  l.states.size ≤ c.states.length ∧ l.parameters.size ≤ c.parameters.length

lemma Cells.Covers.isSome_get? {c : Cells} {l : Layout} (h : c.Covers l) {s : Value} {cell : Cell}
    (hcell : l.cell? s = some cell) : (c.get? cell).isSome := by
  have hplace := (Layout.cell?_eq_some_iff.1 hcell).2
  cases cell with
  | state n =>
    have hlt : n < l.states.size := (Layout.find?_table hplace).2
    have hcover := h.1
    simp only [Cells.get?, isSome_getElem?]
    omega
  | parameter n =>
    have hlt : n < l.parameters.size := (Layout.find?_table hplace).2
    have hcover := h.2
    simp only [Cells.get?, isSome_getElem?]
    omega

namespace Request

/-- A symbol with a name is a request under that name. -/
lemma ofValue_of_key? {v : Value} {name : String} (hkey : v.key? = some name) :
    Request.ofValue .standard v = .ok (.symbol name v) := by
  have hform := Value.form_of_key? hkey
  have hname : Classifier.standard.name? v = some name := by
    rw [← hkey, Value.key?, if_pos hform]
  rw [Request.ofValue.eq_def]
  simp only [hform, ofScalar, hname]
  rfl

mutual

/-- The symbols of a request from left to right. -/
def symbols : Request → List Value
  | symbol _ s => [s]
  | array _ elements => allSymbols elements
  | sequence items _ => allSymbols items
  | expression _ => []

def allSymbols : List Request → List Value
  | [] => []
  | q :: qs => symbols q ++ allSymbols qs

end

mutual

/-- A request made of stored symbols only. -/
def Stored (l : Layout) : Request → Prop
  | symbol _ s => l.Stores s
  | array _ elements => AllStored l elements
  | sequence items _ => AllStored l items
  | expression _ => False

def AllStored (l : Layout) : List Request → Prop
  | [] => True
  | q :: qs => Stored l q ∧ AllStored l qs

end

mutual

/-- The items that a value has for the symbols of a request, from left to right; none if it has
the wrong count of items anywhere. -/
def assign? : Request → Value → Option (List (Value × Value))
  | symbol _ s, v => some [(s, v)]
  | array shape elements, v =>
    match Writer.arrayItems shape v with
    | .ok vs => assignAll? elements vs
    | .error _ => none
  | sequence items _, v =>
    match v.iterate with
    | .ok vs => assignAll? items vs
    | .error _ => none
  | expression _, _ => none

def assignAll? : List Request → List Value → Option (List (Value × Value))
  | [], [] => some []
  | q :: qs, v :: vs => do return (← assign? q v) ++ (← assignAll? qs vs)
  | _, _ => none

end

mutual

/-- The items for the symbols that come before the first level where a value does not fit. -/
def assignBefore : Request → Value → List (Value × Value)
  | symbol _ s, v => [(s, v)]
  | array shape elements, v =>
    match Writer.arrayItems shape v with
    | .ok vs => if vs.length = elements.length then assignAllBefore elements vs else []
    | .error _ => []
  | sequence items _, v =>
    match v.iterate with
    | .ok vs => if vs.length = items.length then assignAllBefore items vs else []
    | .error _ => []
  | expression _, _ => []

def assignAllBefore : List Request → List Value → List (Value × Value)
  | q :: qs, v :: vs =>
    match assign? q v with
    | some pairs => pairs ++ assignAllBefore qs vs
    | none => assignBefore q v
  | _, _ => []

end

variable {q : Request} {qs : List Request} {v : Value} {vs : List Value}
  {pairs : List (Value × Value)}

lemma assignAll?_cons_eq_some (h : assignAll? (q :: qs) (v :: vs) = some pairs) :
    ∃ first rest, assign? q v = some first ∧ assignAll? qs vs = some rest ∧
      pairs = first ++ rest := by
  rw [assignAll?] at h
  obtain ⟨first, hfirst, h⟩ := Option.bind_eq_some_iff.1 h
  obtain ⟨rest, hrest, h⟩ := Option.bind_eq_some_iff.1 h
  cases h
  exact ⟨first, rest, hfirst, hrest, rfl⟩

lemma length_of_assignAll? (h : assignAll? qs vs = some pairs) : vs.length = qs.length := by
  induction qs generalizing vs pairs with
  | nil =>
    cases vs with
    | nil => rfl
    | cons v vs => cases h
  | cons q qs ih =>
    cases vs with
    | nil => cases h
    | cons v vs =>
      obtain ⟨_, rest, _, hrest, _⟩ := assignAll?_cons_eq_some h
      rw [List.length_cons, List.length_cons, ih hrest]

mutual

/-- A value that fits assigns an item to every symbol, in the order of the symbols. -/
lemma symbols_of_assign? (q : Request) {v : Value} {pairs : List (Value × Value)}
    (h : q.assign? v = some pairs) : pairs.map Prod.fst = q.symbols := by
  match q with
  | symbol _ s =>
    cases h
    rfl
  | array shape elements =>
    rw [assign?] at h
    split at h
    · exact symbols_of_assignAll? elements h
    · cases h
  | sequence items _ =>
    rw [assign?] at h
    split at h
    · exact symbols_of_assignAll? items h
    · cases h
  | expression e => cases h

lemma symbols_of_assignAll? (qs : List Request) {vs : List Value} {pairs : List (Value × Value)}
    (h : assignAll? qs vs = some pairs) : pairs.map Prod.fst = allSymbols qs := by
  match qs, vs with
  | [], [] =>
    cases h
    rfl
  | [], _ :: _ => cases h
  | _ :: _, [] => cases h
  | q :: qs, v :: vs =>
    obtain ⟨first, rest, hfirst, hrest, rfl⟩ := assignAll?_cons_eq_some h
    have hq := symbols_of_assign? q hfirst
    have hqs := symbols_of_assignAll? qs hrest
    rw [List.map_append, hq, hqs]
    rfl

end

mutual

/-- Nothing is left out before the end if the value fits. -/
lemma assignBefore_of_assign? (q : Request) {v : Value} {pairs : List (Value × Value)}
    (h : q.assign? v = some pairs) : q.assignBefore v = pairs := by
  match q with
  | symbol _ s =>
    cases h
    rfl
  | array shape elements =>
    rw [assign?] at h
    rw [assignBefore]
    split at h
    · rw [if_pos (length_of_assignAll? h)]
      exact assignAllBefore_of_assignAll? elements h
    · cases h
  | sequence items _ =>
    rw [assign?] at h
    rw [assignBefore]
    split at h
    · rw [if_pos (length_of_assignAll? h)]
      exact assignAllBefore_of_assignAll? items h
    · cases h
  | expression e => cases h

lemma assignAllBefore_of_assignAll? (qs : List Request) {vs : List Value}
    {pairs : List (Value × Value)} (h : assignAll? qs vs = some pairs) :
    assignAllBefore qs vs = pairs := by
  match qs, vs with
  | [], [] =>
    cases h
    rfl
  | [], _ :: _ => cases h
  | _ :: _, [] => cases h
  | q :: qs, v :: vs =>
    obtain ⟨first, rest, hfirst, hrest, rfl⟩ := assignAll?_cons_eq_some h
    have hqs := assignAllBefore_of_assignAll? qs hrest
    rw [assignAllBefore, hfirst, hqs]

end

mutual

/-- Every symbol of a stored request is stored. -/
lemma Stored.stores {l : Layout} (q : Request) (h : q.Stored l) {x : Value} (hx : x ∈ q.symbols) :
    l.Stores x := by
  match q with
  | symbol _ s =>
    cases List.mem_singleton.1 hx
    exact h
  | array _ elements => exact AllStored.stores elements h hx
  | sequence items _ => exact AllStored.stores items h hx
  | expression e => exact h.elim

lemma AllStored.stores {l : Layout} (qs : List Request) (h : AllStored l qs) {x : Value}
    (hx : x ∈ allSymbols qs) : l.Stores x := by
  match qs with
  | [] => cases hx
  | q :: qs =>
    rcases List.mem_append.1 hx with hx | hx
    · exact Stored.stores q h.1 hx
    · exact AllStored.stores qs h.2 hx

end

end Request

/-! ### Writers of stored requests -/

/-- Items go to the cells of their symbols. -/
def Layout.writes (l : Layout) (pairs : List (Value × Value)) : List (Cell × Value) :=
  pairs.filterMap fun (s, v) => (l.cell? s).map fun cell => (cell, v)

lemma Layout.exists_symbol_of_mem_writes (l : Layout) {pairs : List (Value × Value)} {cell : Cell}
    (h : cell ∈ (l.writes pairs).map Prod.fst) :
    ∃ s ∈ pairs.map Prod.fst, l.cell? s = some cell := by
  obtain ⟨⟨_, _⟩, hmem, rfl⟩ := List.mem_map.1 h
  obtain ⟨pair, hpair, heq⟩ := List.mem_filterMap.1 hmem
  obtain ⟨cell, hcell, heq⟩ := Option.map_eq_some_iff.1 heq
  cases heq
  exact ⟨pair.1, List.mem_map.2 ⟨pair, hpair, rfl⟩, hcell⟩

lemma Cells.Covers.isSome_of_mem_writes {c : Cells} {l : Layout} (h : c.Covers l)
    {pairs : List (Value × Value)} {cell : Cell} (hmem : cell ∈ (l.writes pairs).map Prod.fst) :
    (c.get? cell).isSome := by
  obtain ⟨s, _, hcell⟩ := l.exists_symbol_of_mem_writes hmem
  exact h.isSome_get? hcell

namespace Writer

variable {l : Layout}

lemma length_of_allServe {qs : List Request} {ws : List Writer} (h : AllServe (.ok l) qs ws) :
    ws.length = qs.length := by
  induction qs generalizing ws with
  | nil =>
    cases h
    rfl
  | cons q qs ih =>
    obtain ⟨w, rest, rfl, _, h⟩ := h
    rw [List.length_cons, List.length_cons, ih h]

/-- What a plan writes, and whether it fails. -/
def Plans (l : Layout) (plan : WritePlan) (before : List (Value × Value))
    (all : Option (List (Value × Value))) : Prop :=
  plan.writes = (l.writes before).map (fun (cell, v) => cell.write v) ∧
    plan.failure.isNone = all.isSome

/-- The items of a value are planned once there are as many as writers. -/
lemma plans_parts {qs : List Request} {ws : List Writer} (hlength : ws.length = qs.length)
    (hall : ∀ vs : List Value, vs.length = qs.length →
      Plans l (planAll ws vs) (Request.assignAllBefore qs vs) (Request.assignAll? qs vs))
    (parts : Except Failure (List Value)) :
    Plans l (planItems ws parts)
      (match parts with
        | .ok vs => if vs.length = qs.length then Request.assignAllBefore qs vs else []
        | .error _ => [])
      (match parts with
        | .ok vs => Request.assignAll? qs vs
        | .error _ => none) := by
  cases parts with
  | error f => exact ⟨rfl, rfl⟩
  | ok vs =>
    by_cases hvs : vs.length = qs.length
    · simp only [planItems, hlength, hvs, ne_eq, not_true_eq_false, if_false, if_true]
      exact hall vs hvs
    · have hnone : Request.assignAll? qs vs = none := by
        cases hpairs : Request.assignAll? qs vs with
        | none => rfl
        | some pairs => exact absurd (Request.length_of_assignAll? hpairs) hvs
      simp only [planItems, hlength, hvs, ne_eq, not_false_eq_true, if_true, if_false, hnone]
      exact ⟨rfl, rfl⟩

lemma Plans.append {plan rest : WritePlan} {pairs restBefore : List (Value × Value)}
    {restAll : Option (List (Value × Value))} (hplan : Plans l plan pairs (some pairs))
    (hrest : Plans l rest restBefore restAll) :
    Plans l (plan.append rest) (pairs ++ restBefore) (restAll.map (pairs ++ ·)) := by
  have hfailure : plan.failure = none := by simpa using hplan.2
  unfold WritePlan.append
  rw [hfailure]
  refine ⟨?_, ?_⟩
  · simp only [hplan.1, hrest.1, Layout.writes, List.filterMap_append, List.map_append]
  · rw [hrest.2, Option.isSome_map]

lemma Plans.append_of_none {plan : WritePlan} {before : List (Value × Value)}
    (hplan : Plans l plan before none) (rest : WritePlan) :
    Plans l (plan.append rest) before none := by
  have hfailure : plan.failure.isNone = false := hplan.2
  unfold WritePlan.append
  cases hf : plan.failure with
  | none =>
    rw [hf] at hfailure
    cases hfailure
  | some f => exact hplan

mutual

/-- A writer that serves a request writes the items that come before the first level that does not
fit, and fails exactly if there is one. -/
lemma plan_of_serves (q : Request) (w : Writer) (h : w.Serves (.ok l) q) (v : Value) :
    Plans l (w.plan v) (q.assignBefore v) (q.assign? v) := by
  match q with
  | .symbol _ s =>
    obtain ⟨role, i, rfl, hstored, h⟩ := h
    obtain ⟨cell, hcell, rfl, rfl⟩ := Layout.cell?_of_assigns h hstored
    refine ⟨?_, rfl⟩
    simp only [Writer.plan, Request.assignBefore, Layout.writes, List.filterMap_cons, hcell]
    rfl
  | .array shape elements =>
    obtain ⟨ws, rfl, h⟩ := h
    rw [plan_array, Request.assignBefore, Request.assign?]
    exact plans_parts (length_of_allServe h) (planAll_of_allServe elements ws h) _
  | .sequence items isTuple =>
    obtain ⟨ws, rfl, h⟩ := h
    rw [plan_vector, Request.assignBefore, Request.assign?]
    exact plans_parts (length_of_allServe h) (planAll_of_allServe items ws h) _
  | .expression e => exact h.elim

lemma planAll_of_allServe (qs : List Request) (ws : List Writer) (h : AllServe (.ok l) qs ws)
    (vs : List Value) (hlength : vs.length = qs.length) :
    Plans l (planAll ws vs) (Request.assignAllBefore qs vs) (Request.assignAll? qs vs) := by
  match qs, vs with
  | [], [] =>
    cases h
    exact ⟨rfl, rfl⟩
  | q :: qs, v :: vs =>
    obtain ⟨w, rest, rfl, hw, h⟩ := h
    have hlength : vs.length = qs.length := by simpa using hlength
    have hfirst := plan_of_serves q w hw v
    have hrest := planAll_of_allServe qs rest h vs hlength
    rw [planAll, Request.assignAllBefore, Request.assignAll?]
    cases hpairs : q.assign? v with
    | none =>
      rw [hpairs] at hfirst
      exact hfirst.append_of_none _
    | some pairs =>
      rw [hpairs, Request.assignBefore_of_assign? q hpairs] at hfirst
      have hplans := hfirst.append hrest
      cases hall : Request.assignAll? qs vs <;> rw [hall] at hplans <;> exact hplans

end

end Writer

end NamedSlots
