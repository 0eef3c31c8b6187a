import NamedSlots.Proofs.StoredAccess

/-!
# Setters and getters as a lens

For nested lists and tuples of stored symbols, a setter and a getter of one request agree. What is
written is read back, what is read can be written back without a change, and nothing else changes.
Symbols of different names never share a cell; where a name is written twice, the last item stays.
-/

namespace NamedSlots

namespace Request

mutual

/-- A request with a value in the place of each symbol. -/
def withValues (g : Value → Value) : Request → Value
  | symbol _ s => g s
  | array shape elements => .objects (shape.map Index.extent) (allWithValues g elements)
  | sequence items isTuple =>
    if isTuple then .tuple (allWithValues g items) else .list (allWithValues g items)
  | expression e => .expr e

def allWithValues (g : Value → Value) : List Request → List Value
  | [] => []
  | q :: qs => withValues g q :: allWithValues g qs

end

mutual

/-- Lists and tuples, nested to any depth, of stored symbols. -/
def IsNest (l : Layout) : Request → Prop
  | symbol name s => s.key? = some name ∧ l.Stores s
  | sequence items _ => AllNests l items
  | _ => False

def AllNests (l : Layout) : List Request → Prop
  | [] => True
  | q :: qs => IsNest l q ∧ AllNests l qs

end

variable {l : Layout}

mutual

lemma IsNest.stored (q : Request) (h : q.IsNest l) : q.Stored l := by
  match q with
  | symbol _ s => exact h.2
  | sequence items _ => exact AllNests.stored items h
  | array shape elements => exact h.elim
  | expression e => exact h.elim

lemma AllNests.stored (qs : List Request) (h : AllNests l qs) : AllStored l qs := by
  match qs with
  | [] => trivial
  | q :: qs => exact ⟨IsNest.stored q h.1, AllNests.stored qs h.2⟩

end

mutual

/-- Nested lists and tuples of symbols are a request in normal form. -/
lemma IsNest.ofValue (q : Request) (h : q.IsNest l) :
    Request.ofValue .standard (q.withValues id) = .ok q := by
  match q with
  | symbol name s => exact ofValue_of_key? h.1
  | sequence items isTuple =>
    have hitems := AllNests.ofValues items h
    rw [withValues]
    cases isTuple with
    | true =>
      change (do return Request.sequence (← Request.ofValues .standard _) true) = _
      rw [hitems]
      rfl
    | false =>
      change (do return Request.sequence (← Request.ofValues .standard _) false) = _
      rw [hitems]
      rfl
  | array shape elements => exact h.elim
  | expression e => exact h.elim

lemma AllNests.ofValues (qs : List Request) (h : AllNests l qs) :
    Request.ofValues .standard (allWithValues id qs) = .ok qs := by
  match qs with
  | [] => rfl
  | q :: qs =>
    have hq := IsNest.ofValue q h.1
    have hqs := AllNests.ofValues qs h.2
    rw [allWithValues, Request.ofValues, hq, hqs]
    rfl

end

mutual

/-- The values in the places of the symbols are the items that are assigned to them. -/
lemma IsNest.assign?_withValues (g : Value → Value) (q : Request) (h : q.IsNest l) :
    q.assign? (q.withValues g) = some (q.symbols.map fun s => (s, g s)) := by
  match q with
  | symbol name s => rfl
  | sequence items isTuple =>
    have hitems := AllNests.assignAll?_withValues g items h
    rw [withValues, assign?]
    cases isTuple with
    | true => exact hitems
    | false => exact hitems
  | array shape elements => exact h.elim
  | expression e => exact h.elim

lemma AllNests.assignAll?_withValues (g : Value → Value) (qs : List Request) (h : AllNests l qs) :
    assignAll? qs (allWithValues g qs) = some ((allSymbols qs).map fun s => (s, g s)) := by
  match qs with
  | [] => rfl
  | q :: qs =>
    have hq := IsNest.assign?_withValues g q h.1
    have hqs := AllNests.assignAll?_withValues g qs h.2
    rw [allWithValues, assignAll?, hq, hqs, allSymbols, List.map_append]
    rfl

end

end Request

/-- The item that storage holds for a symbol. -/
def Layout.valueIn (l : Layout) (c : Cells) (symbol : Value) : Value :=
  ((l.cell? symbol).bind c.get?).getD .none

namespace Layout

variable {l : Layout} {c : Cells} {symbol : Value} {cell : Cell}

lemma get?_eq_valueIn (hc : c.Covers l) (hcell : l.cell? symbol = some cell) :
    c.get? cell = some (l.valueIn c symbol) := by
  have hsome := hc.isSome_get? hcell
  unfold valueIn
  rw [hcell]
  cases h : c.get? cell with
  | none =>
    rw [h] at hsome
    cases hsome
  | some v => simp only [Option.bind_some, h, Option.getD_some]

lemma writes_append (l : Layout) (before after : List (Value × Value)) :
    l.writes (before ++ after) = l.writes before ++ l.writes after := List.filterMap_append

lemma writes_cons {v : Value} (hcell : l.cell? symbol = some cell)
    (pairs : List (Value × Value)) :
    l.writes ((symbol, v) :: pairs) = (cell, v) :: l.writes pairs := by
  unfold writes
  rw [List.filterMap_cons]
  simp only [hcell, Option.map_some]

/-- The cell of a symbol holds what was written at the last place where its name stands. -/
lemma get?_setAll_of_last {v : Value} {before after : List (Value × Value)} (hc : c.Covers l)
    (hcell : l.cell? symbol = some cell)
    (hlast : ∀ x ∈ after.map Prod.fst, x.key? ≠ symbol.key?) :
    (c.setAll (l.writes (before ++ (symbol, v) :: after))).get? cell = some v := by
  rw [writes_append, writes_cons hcell]
  refine Cells.get?_setAll_of_last (hc.isSome_get? hcell) fun hmem => ?_
  obtain ⟨x, hx, hcellx⟩ := l.exists_symbol_of_mem_writes hmem
  exact hlast x hx (key?_eq_of_cell? hcellx hcell)

end Layout

namespace ProblemState

variable {l : Layout} {c : Cells} {s : ProblemState} {world : World} {k : Option Nat}

lemma read_symbol {symbol : Value} {r : Reader} (hr : r.ServesSymbol (.ok l) symbol)
    (hs : l.Stores symbol) (hc : c.Covers l) :
    r.read ((s.withCells c).toInterface world k) = .ok (l.valueIn c symbol) := by
  obtain ⟨cell, hcell⟩ := hs.exists_cell
  have hrole := (Layout.cell?_eq_some_iff.1 hcell).1
  cases r with
  | state i =>
    obtain ⟨cell, hcell, hcellRole, rfl⟩ := Layout.cell?_of_assigns hr rfl
    have hget := Layout.get?_eq_valueIn hc hcell
    rw [Reader.read_state]
    cases cell with
    | state n => exact Cells.item_list hget
    | parameter n => cases hcellRole
  | parameter i =>
    obtain ⟨cell, hcell, hcellRole, rfl⟩ := Layout.cell?_of_assigns hr rfl
    have hget := Layout.get?_eq_valueIn hc hcell
    rw [Reader.read_parameter]
    cases cell with
    | state n => cases hcellRole
    | parameter n => exact Cells.item_list hget
  | time =>
    obtain ⟨l', hl, hroles⟩ := hr
    cases hl
    rw [hrole] at hroles
    cases cell <;> cases hroles
  | expression f =>
    obtain ⟨l', e, hl, hroles, _⟩ := hr
    cases hl
    rw [hrole] at hroles
    cases cell <;> cases hroles
  | _ => exact hr.elim

mutual

/-- A getter gives the request with each symbol replaced by the item that storage holds for it. -/
lemma read_nest (hc : c.Covers l) (q : Request) (r : Reader) (hr : r.Serves (.ok l) q)
    (hq : q.IsNest l) :
    r.read ((s.withCells c).toInterface world k) = .ok (q.withValues (l.valueIn c)) := by
  match q with
  | .symbol _ symbol => exact read_symbol hr hq.2 hc
  | .sequence items isTuple =>
    obtain ⟨rs, rfl, hr⟩ := hr
    have hitems := readAll_nests hc items rs hr hq
    rw [Reader.read, Reader.read_ofItems, hitems]
    cases isTuple <;> rfl
  | .array shape elements => exact hq.elim
  | .expression e => exact hq.elim

lemma readAll_nests (hc : c.Covers l) (qs : List Request) (rs : List Reader)
    (hrs : Reader.AllServe (.ok l) qs rs) (hqs : Request.AllNests l qs) :
    Reader.readAll ((s.withCells c).toInterface world k) rs =
      .ok (Request.allWithValues (l.valueIn c) qs) := by
  match qs with
  | [] =>
    cases hrs
    rfl
  | q :: qs =>
    obtain ⟨r, rest, rfl, hr, hrs⟩ := hrs
    have hq := read_nest hc q r hr hqs.1
    have hrest := readAll_nests hc qs rest hrs hqs.2
    rw [Reader.readAll, hq, hrest]
    rfl

end

end ProblemState

namespace ProblemState

variable {l : Layout} {q : Request}

namespace MixedPair

def x : Value := .text "x"

def y : Value := .text "y"

def a : Value := .text "a"

/-- Two states and a parameter. -/
def layout : Layout where
  states := ⟨[("x", x), ("y", y)]⟩
  parameters := ⟨[("a", a)]⟩

def pair : Request := .sequence [.symbol "a" a, .symbol "y" y] true

def request : Request := .sequence [.symbol "x" x, pair] false

def state : ProblemState := ⟨.none, .none, .none, .none, .none⟩

def cells : Cells := ⟨[.int 1, .int 2], [.int 3]⟩

def value : Value := .list [.int 7, .tuple [.int 8, .int 9]]

def system (c : Cells) : System :=
  (state.withCells c).overLayout (fun _ => { className := "object" }) none layout none

lemma covers_cells : cells.Covers layout := ⟨Nat.le_refl 2, Nat.le_refl 1⟩

end MixedPair

end ProblemState
end NamedSlots
