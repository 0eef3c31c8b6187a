import NamedSlots.Proofs.StoredRequest
import NamedSlots.Proofs.UncachedBuild

/-!
# Accessors of stored requests

A getter and a setter can be built for every request for stored symbols, over a problem state of a
layout. Carried out on list storage that is long enough, the plan of the setter writes the cells of
the symbols one after the other.
-/

namespace NamedSlots

open Traced

/-- The reader of a cell. -/
def Cell.reader : Cell → Reader
  | state n => .state (.int n)
  | parameter n => .parameter (.int n)

section Bound

variable {b : Bound} {l : Layout} {s : ProblemState} {world : World} {k : Option Nat}
  (hb : b.AnsweredBy l) (hown : b.system.own = s.toInterface world k)
include hb hown

lemma exists_writerOfSymbol {symbol : Value} (h : l.Stores symbol) :
    ∃ w, Writer.ofSymbol b .writeAny symbol = .ok w := by
  obtain ⟨cell, hcell⟩ := h.exists_cell
  obtain ⟨hrole, hplace⟩ := Layout.cell?_eq_some_iff.1 hcell
  have hclassify := hb.classify_of_rolesOf h.form hrole
  have hlocate := hb.locate_of_rolesOf h.form hrole (Layout.isStored_role cell) hplace
  refine ⟨.slot cell.role (.int cell.place), ?_⟩
  rw [Writer.ofSymbol_eq, hclassify]
  change Writer.ofRole b .writeAny symbol cell.role = _
  unfold Writer.ofRole
  rw [hown, hlocate]
  cases cell <;> rfl

/-- A symbol with a cell is read from that cell. -/
lemma readerOfSymbol_of_cell {symbol : Value} {cell : Cell}
    (hform : Classifier.standard.form symbol = .scalar) (hcell : l.cell? symbol = some cell)
    (backend : Backend) : Yields (Reader.ofSymbol b backend .readAny symbol) (.ok cell.reader) := by
  obtain ⟨hrole, hplace⟩ := Layout.cell?_eq_some_iff.1 hcell
  have hclassify := hb.classify_of_rolesOf hform hrole
  have hlocate := hb.locate_of_rolesOf hform hrole (Layout.isStored_role cell) hplace
  rw [Reader.ofSymbol_eq]
  refine yields_lift_bind hclassify ?_
  cases cell with
  | state n =>
    unfold Cell.role Reader.ofRole
    rw [hown, hlocate]
    exact fun t => rfl
  | parameter n =>
    unfold Cell.role Reader.ofRole
    rw [hown, hlocate]
    exact fun t => rfl

end Bound

section Requests

variable {b : Bound} {l : Layout} {s : ProblemState} {world : World} {k : Option Nat}

mutual

lemma exists_writer (hb : b.AnsweredBy l) (hown : b.system.own = s.toInterface world k)
    (q : Request) (h : q.Stored l) : ∃ w, Writer.ofRequest b .writeAny q = .ok w := by
  match q with
  | .symbol _ symbol => exact exists_writerOfSymbol hb hown h
  | .array shape elements =>
    obtain ⟨ws, hws⟩ := exists_writers hb hown elements h
    exact ⟨.array ws shape, by rw [Writer.ofRequest, hws]; rfl⟩
  | .sequence items isTuple =>
    obtain ⟨ws, hws⟩ := exists_writers hb hown items h
    exact ⟨.vector ws, by rw [Writer.ofRequest, hws]; rfl⟩
  | .expression e => exact h.elim

lemma exists_writers (hb : b.AnsweredBy l) (hown : b.system.own = s.toInterface world k)
    (qs : List Request) (h : Request.AllStored l qs) :
    ∃ ws, Writer.ofRequests b .writeAny qs = .ok ws := by
  match qs with
  | [] => exact ⟨[], rfl⟩
  | q :: qs =>
    obtain ⟨w, hw⟩ := exists_writer hb hown q h.1
    obtain ⟨ws, hws⟩ := exists_writers hb hown qs h.2
    exact ⟨w :: ws, by rw [Writer.ofRequests, hw, hws]; rfl⟩

end

mutual

lemma exists_reader (hb : b.AnsweredBy l) (hown : b.system.own = s.toInterface world k)
    (backend : Backend) (q : Request) (h : q.Stored l) :
    ∃ r, Yields (Reader.ofRequest b backend .readAny q) (.ok r) := by
  match q with
  | .symbol _ symbol =>
    obtain ⟨cell, hcell⟩ := Layout.Stores.exists_cell h
    exact ⟨_, readerOfSymbol_of_cell hb hown h.form hcell backend⟩
  | .array shape elements =>
    obtain ⟨rs, hrs⟩ := exists_readers hb hown backend elements h
    exact ⟨_, hrs.bind_ok (yields_pure _)⟩
  | .sequence items isTuple =>
    obtain ⟨rs, hrs⟩ := exists_readers hb hown backend items h
    exact ⟨_, hrs.bind_ok (yields_pure _)⟩
  | .expression e => exact h.elim

lemma exists_readers (hb : b.AnsweredBy l) (hown : b.system.own = s.toInterface world k)
    (backend : Backend) (qs : List Request) (h : Request.AllStored l qs) :
    ∃ rs, Yields (Reader.ofRequests b backend .readAny qs) (.ok rs) := by
  match qs with
  | [] => exact ⟨[], yields_pure []⟩
  | q :: qs =>
    obtain ⟨r, hr⟩ := exists_reader hb hown backend q h.1
    obtain ⟨rs, hrs⟩ := exists_readers hb hown backend qs h.2
    exact ⟨r :: rs, hr.bind_ok (hrs.bind_ok (yields_pure _))⟩

end

end Requests

namespace ProblemState

variable {l : Layout} {world : World} {k identity : Option Nat} {q : Request} {request : Value}

/-- A problem state of a layout. -/
def overLayout (s : ProblemState) (world : World) (k : Option Nat) (l : Layout)
    (identity : Option Nat) : System :=
  s.systemOver world k (.ofLayout l identity)

lemma answeredBy_overLayout (s : ProblemState) (world : World) (k : Option Nat) (l : Layout)
    (identity : Option Nat) :
    (s.overLayout world k l identity).AnsweredBy (Interface.withoutVersion l) where
  predicate := rfl
  index := rfl
  symbols := rfl
  definitions := rfl
  ownProvider := rfl
  provider := rfl

lemma bound_overLayout (s : ProblemState) (world : World) (k : Option Nat) (l : Layout)
    (identity : Option Nat) :
    Bound.of (s.overLayout world k l identity) .none =
      .ok ⟨s.overLayout world k l identity, none⟩ := rfl

lemma answeredBy_bound (s : ProblemState) (world : World) (k : Option Nat) (l : Layout)
    (identity : Option Nat) :
    Bound.AnsweredBy ⟨s.overLayout world k l identity, none⟩ l :=
  .of_layoutAt (s.answeredBy_overLayout world k l identity) rfl

/-- A setter can be built for stored symbols, and its plan serves the request. -/
lemma exists_setter (s : ProblemState) (world : World) (k identity : Option Nat)
    (hq : Request.ofValue .standard request = .ok q) (hstored : q.Stored l) (n : Nat)
    (object : Value) :
    ∃ w, (s.overLayout world k l identity).accessor n object .writeAny request .none =
        .ok ⟨n, .setter w, q, none⟩ ∧ w.Serves (.ok l) q := by
  have hb := s.answeredBy_bound world k l identity
  obtain ⟨w, hw⟩ := exists_writer (s := s) hb rfl q hstored
  have hplan : Yields (Factory.planFor .interpreter ⟨s.overLayout world k l identity, none⟩
      .writeAny q) (.ok (.setter w)) := yields_lift_bind hw (yields_pure _)
  have hserves := serves_of_writer (s.answeredBy_overLayout world k l identity) .writeAny q w hw
  refine ⟨w, ?_, hserves⟩
  rw [System.accessor_of_plan (s.bound_overLayout world k l identity) hq rfl hplan]
  rfl

/-- A getter can be built for stored symbols, and its plan serves the request. -/
lemma exists_getter (s : ProblemState) (world : World) (k identity : Option Nat)
    (hq : Request.ofValue .standard request = .ok q) (hstored : q.Stored l) (n : Nat)
    (object : Value) :
    ∃ r, (s.overLayout world k l identity).accessor n object .readAny request .none =
        .ok ⟨n, .getter r, q, none⟩ ∧ r.Serves (.ok l) q := by
  have hb := s.answeredBy_bound world k l identity
  obtain ⟨r, hr⟩ := exists_reader (s := s) hb rfl .interpreter q hstored
  have hplan : Yields (Factory.planFor .interpreter ⟨s.overLayout world k l identity, none⟩
      .readAny q) (.ok (.getter r)) := hr.bind_ok (yields_pure _)
  have hreturns : Returns (Reader.ofRequest ⟨s.overLayout world k l identity, none⟩ .interpreter
      .readAny q) r := ⟨{}, {}, hr {}⟩
  have hserves := serves_of_reader (s.answeredBy_overLayout world k l identity) .interpreter
    .readAny q r hreturns
  refine ⟨r, ?_, hserves⟩
  rw [System.accessor_of_plan (s.bound_overLayout world k l identity) hq rfl hplan]
  rfl

/-- A problem state whose storage is made of cells. -/
def withCells (s : ProblemState) (c : Cells) : ProblemState :=
  { s with states := .list c.states, parameters := .list c.parameters }

/-- A setter writes the items that come before the first level that does not fit. -/
lemma set_overLayout {w : Writer} (hw : w.Serves (.ok l) q) {c : Cells} (hc : c.Covers l)
    (s : ProblemState) (world : World) (k identity : Option Nat) (n : Nat) (v : Value) :
    Accessor.set ⟨n, .setter w, q, none⟩ ((s.withCells c).overLayout world k l identity) v =
      ((c.setAll (l.writes (q.assignBefore v))).storage, (w.plan v).failure) := by
  have hin : ∀ cell ∈ (l.writes (q.assignBefore v)).map Prod.fst, (c.get? cell).isSome :=
    fun cell hmem => hc.isSome_of_mem_writes hmem
  have hwritten : c.storage.writeAll (w.plan v).writes =
      ((c.setAll (l.writes (q.assignBefore v))).storage, none) := by
    rw [(Writer.plan_of_serves q w hw v).1]
    exact Cells.writeAll_storage hin
  change ((c.storage.writeAll (w.plan v).writes).1,
    (c.storage.writeAll (w.plan v).writes).2 <|> (w.plan v).failure) = _
  rw [hwritten]
  rfl

end ProblemState
end NamedSlots
