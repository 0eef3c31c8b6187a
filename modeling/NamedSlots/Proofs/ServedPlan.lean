import NamedSlots.Proofs.ServedTable

/-!
# Plans that serve a request

The plan of an accessor serves its request if every symbol of the request, in its place, is read
from or written to the slot that the layout assigns to it, and every symbol that is referenced
through an expression or a definition is bound to the slot that the layout assigns to it. A plan
that is made serves its request.
-/

namespace NamedSlots

open Traced

/-- An evaluator of an expression with its leaves bound as the layout that is found says. -/
def Evaluator.Serves (tables : Except Failure Layout) (e : Expr) (f : Evaluator) : Prop :=
  f.expr = e ∧ f.table.Follows tables e

namespace Reader

variable (tables : Except Failure Layout)

/-- A reader gets a symbol from its slot, from the time or through its definition. -/
def ServesSymbol (symbol : Value) : Reader → Prop
  | state i => Assigns tables .state symbol i
  | parameter i => Assigns tables .parameter symbol i
  | time => ∃ l, tables = .ok l ∧ l.rolesOf symbol = [.independent]
  | expression f => ∃ l e, tables = .ok l ∧ l.rolesOf symbol = [.observed] ∧
      symbol.toExpr = .ok e ∧ f.Serves tables e
  | _ => False

mutual

/-- A reader gets every part of a request from where the layout puts it. -/
def Serves : Request → Reader → Prop
  | .symbol _ symbol, r => r.ServesSymbol tables symbol
  | .expression e, r => ∃ f, r = expression f ∧ f.Serves tables e
  | .sequence items isTuple, r => ∃ rs, r = sequence (ofItems rs) isTuple ∧ AllServe items rs
  | .array shape elements, r => ∃ rs, r = array (ofItems rs) shape ∧ AllServe elements rs

def AllServe : List Request → List Reader → Prop
  | [], rs => rs = []
  | q :: qs, rs => ∃ r rest, rs = r :: rest ∧ Serves q r ∧ AllServe qs rest

end

end Reader

namespace Writer

variable (tables : Except Failure Layout)

mutual

/-- A writer puts every part of a value into the slot of the symbol in its place. -/
def Serves : Request → Writer → Prop
  | .symbol _ symbol, w =>
    ∃ role i, w = slot role i ∧ Interface.isStored role = true ∧ Assigns tables role symbol i
  | .expression _, _ => False
  | .sequence items _, w => ∃ ws, w = vector ws ∧ AllServe items ws
  | .array shape elements, w => ∃ ws, w = array ws shape ∧ AllServe elements ws

def AllServe : List Request → List Writer → Prop
  | [], ws => ws = []
  | q :: qs, ws => ∃ w rest, ws = w :: rest ∧ Serves q w ∧ AllServe qs rest

end

end Writer

def AccessPlan.Serves (tables : Except Failure Layout) (q : Request) : AccessPlan → Prop
  | .getter r => r.Serves tables q
  | .setter w => w.Serves tables q

/-! ### Layouts that are found later -/

section Mono

variable {tables tables' : Except Failure Layout} (hmono : ∀ l, tables = .ok l → tables' = .ok l)
include hmono

lemma Assigns.mono {role : Role} {symbol : Value} {i : Index} (h : Assigns tables role symbol i) :
    Assigns tables' role symbol i := by
  obtain ⟨l, n, hl, h⟩ := h
  exact ⟨l, n, hmono l hl, h⟩

lemma Evaluator.Serves.mono {e : Expr} {f : Evaluator} (h : f.Serves tables e) :
    f.Serves tables' e := by
  refine ⟨h.1, fun leaf m hmem => ?_⟩
  obtain ⟨l, hl, h⟩ := h.2 leaf m hmem
  exact ⟨l, hmono l hl, h⟩

lemma Reader.ServesSymbol.mono {symbol : Value} {r : Reader} (h : r.ServesSymbol tables symbol) :
    r.ServesSymbol tables' symbol := by
  cases r with
  | state i => exact Assigns.mono hmono h
  | parameter i => exact Assigns.mono hmono h
  | time =>
    obtain ⟨l, hl, h⟩ := h
    exact ⟨l, hmono l hl, h⟩
  | expression f =>
    obtain ⟨l, e, hl, hroles, he, h⟩ := h
    exact ⟨l, e, hmono l hl, hroles, he, h.mono hmono⟩
  | _ => exact h.elim

end Mono

mutual

lemma Reader.Serves.mono {tables tables' : Except Failure Layout}
    (hmono : ∀ l, tables = .ok l → tables' = .ok l) (q : Request) (r : Reader)
    (h : r.Serves tables q) : r.Serves tables' q := by
  match q with
  | .symbol _ symbol => exact Reader.ServesSymbol.mono hmono h
  | .expression e =>
    obtain ⟨f, hr, hf⟩ := h
    exact ⟨f, hr, hf.mono hmono⟩
  | .sequence items isTuple =>
    obtain ⟨rs, hr, h⟩ := h
    exact ⟨rs, hr, Reader.AllServe.mono hmono items rs h⟩
  | .array shape elements =>
    obtain ⟨rs, hr, h⟩ := h
    exact ⟨rs, hr, Reader.AllServe.mono hmono elements rs h⟩

lemma Reader.AllServe.mono {tables tables' : Except Failure Layout}
    (hmono : ∀ l, tables = .ok l → tables' = .ok l) (qs : List Request) (rs : List Reader)
    (h : Reader.AllServe tables qs rs) : Reader.AllServe tables' qs rs := by
  match qs with
  | [] => exact h
  | q :: qs =>
    obtain ⟨r, rest, hrs, hr, h⟩ := h
    have hr' := Reader.Serves.mono hmono q r hr
    have hrest := Reader.AllServe.mono hmono qs rest h
    exact ⟨r, rest, hrs, hr', hrest⟩

end

mutual

lemma Writer.Serves.mono {tables tables' : Except Failure Layout}
    (hmono : ∀ l, tables = .ok l → tables' = .ok l) (q : Request) (w : Writer)
    (h : w.Serves tables q) : w.Serves tables' q := by
  match q with
  | .symbol _ symbol =>
    obtain ⟨role, i, hw, hstored, h⟩ := h
    exact ⟨role, i, hw, hstored, h.mono hmono⟩
  | .expression e => exact h
  | .sequence items isTuple =>
    obtain ⟨ws, hw, h⟩ := h
    exact ⟨ws, hw, Writer.AllServe.mono hmono items ws h⟩
  | .array shape elements =>
    obtain ⟨ws, hw, h⟩ := h
    exact ⟨ws, hw, Writer.AllServe.mono hmono elements ws h⟩

lemma Writer.AllServe.mono {tables tables' : Except Failure Layout}
    (hmono : ∀ l, tables = .ok l → tables' = .ok l) (qs : List Request) (ws : List Writer)
    (h : Writer.AllServe tables qs ws) : Writer.AllServe tables' qs ws := by
  match qs with
  | [] => exact h
  | q :: qs =>
    obtain ⟨w, rest, hws, hw, h⟩ := h
    have hw' := Writer.Serves.mono hmono q w hw
    have hrest := Writer.AllServe.mono hmono qs rest h
    exact ⟨w, rest, hws, hw', hrest⟩

end

lemma AccessPlan.Serves.mono {tables tables' : Except Failure Layout}
    (hmono : ∀ l, tables = .ok l → tables' = .ok l) {q : Request} {plan : AccessPlan}
    (h : plan.Serves tables q) : plan.Serves tables' q := by
  cases plan with
  | getter r => exact Reader.Serves.mono hmono q r h
  | setter w => exact Writer.Serves.mono hmono q w h

/-! ### Plans that are made -/

section Plan

variable {b : Bound} {layoutAt : Extra → Except Failure Layout}

lemma serves_of_compile (hb : b.system.AnsweredBy layoutAt) {e : Expr} {backend : Backend}
    {f : Evaluator} (h : Returns (Evaluator.compile b e backend) f) :
    f.Serves (layoutAt b.version) e := by
  obtain ⟨hexpr, _, _, htable, _⟩ := Evaluator.of_compile h
  exact ⟨hexpr, Bound.bind_follows hb htable⟩

lemma eq_of_ofEvaluator {f : Evaluator} {r : Reader}
    (h : Returns (liftM (Reader.ofEvaluator b f) : Traced Reader) r) : r = .expression f := by
  obtain ⟨_, _, h⟩ := Except.eq_ok_of_bind h.of_lift
  cases h
  rfl

lemma servesSymbol_of_reader (hb : b.system.AnsweredBy layoutAt) {backend : Backend}
    {p : Permission} {symbol : Value} {r : Reader}
    (h : Returns (Reader.ofSymbol b backend p symbol) r) :
    r.ServesSymbol (layoutAt b.version) symbol := by
  cases Reader.madeFor_of_symbol h with
  | state hrole _ _ hplace => exact Bound.assigns_of_locate hb hrole rfl hplace
  | parameter hrole _ _ hplace => exact Bound.assigns_of_locate hb hrole rfl hplace
  | time hrole =>
    obtain ⟨l, hl, _, _, hroles⟩ := Bound.rolesOf_of_classify hb hrole (by simp)
    exact ⟨l, hl, hroles⟩
  | provider _ _ hprovider =>
    rw [Bound.provider_eq hb.ownProvider hb.provider] at hprovider
    cases hprovider.of_pure
  | definition hrole _ _ _ hexpr hcompile =>
    obtain ⟨l, hl, _, _, hroles⟩ := Bound.rolesOf_of_classify hb hrole (by simp)
    exact ⟨l, _, hl, hroles, hexpr, serves_of_compile hb hcompile⟩

lemma serves_of_writerSymbol (hb : b.system.AnsweredBy layoutAt) {p : Permission}
    {symbol : Value} {w : Writer} (h : Writer.ofSymbol b p symbol = .ok w) :
    ∃ role i, w = .slot role i ∧ Interface.isStored role = true ∧
      Assigns (layoutAt b.version) role symbol i := by
  obtain ⟨role, i, rfl, hstored, hrole, hplace, _⟩ := Writer.eq_slot_of_symbol h
  exact ⟨role, i, rfl, hstored, Bound.assigns_of_locate hb hrole hstored hplace⟩

mutual

lemma serves_of_reader (hb : b.system.AnsweredBy layoutAt) (backend : Backend) (p : Permission)
    (q : Request) (r : Reader) (h : Returns (Reader.ofRequest b backend p q) r) :
    r.Serves (layoutAt b.version) q := by
  match q with
  | .symbol _ symbol => exact servesSymbol_of_reader hb h
  | .expression e =>
    obtain ⟨f, hf, h⟩ := h.bind
    obtain ⟨_, _, h⟩ := h.bind
    exact ⟨f, eq_of_ofEvaluator h, serves_of_compile hb hf⟩
  | .sequence items isTuple =>
    obtain ⟨rs, hrs, h⟩ := h.bind
    cases h.of_pure
    exact ⟨rs, rfl, allServe_of_readers hb backend p items rs hrs⟩
  | .array shape elements =>
    obtain ⟨rs, hrs, h⟩ := h.bind
    cases h.of_pure
    exact ⟨rs, rfl, allServe_of_readers hb backend p elements rs hrs⟩

lemma allServe_of_readers (hb : b.system.AnsweredBy layoutAt) (backend : Backend) (p : Permission)
    (qs : List Request) (rs : List Reader) (h : Returns (Reader.ofRequests b backend p qs) rs) :
    Reader.AllServe (layoutAt b.version) qs rs := by
  match qs with
  | [] => exact h.of_pure.symm
  | q :: qs =>
    obtain ⟨r, hr, h⟩ := h.bind
    obtain ⟨rest, hrest, h⟩ := h.bind
    have hserves := serves_of_reader hb backend p q r hr
    have hrestServe := allServe_of_readers hb backend p qs rest hrest
    exact ⟨r, rest, h.of_pure.symm, hserves, hrestServe⟩

end

mutual

lemma serves_of_writer (hb : b.system.AnsweredBy layoutAt) (p : Permission) (q : Request)
    (w : Writer) (h : Writer.ofRequest b p q = .ok w) : w.Serves (layoutAt b.version) q := by
  match q with
  | .symbol _ symbol => exact serves_of_writerSymbol hb h
  | .expression e => cases h
  | .sequence items isTuple =>
    obtain ⟨ws, hws, h⟩ := Except.eq_ok_of_bind h
    cases h
    exact ⟨ws, rfl, allServe_of_writers hb p items ws hws⟩
  | .array shape elements =>
    obtain ⟨ws, hws, h⟩ := Except.eq_ok_of_bind h
    cases h
    exact ⟨ws, rfl, allServe_of_writers hb p elements ws hws⟩

lemma allServe_of_writers (hb : b.system.AnsweredBy layoutAt) (p : Permission) (qs : List Request)
    (ws : List Writer) (h : Writer.ofRequests b p qs = .ok ws) :
    Writer.AllServe (layoutAt b.version) qs ws := by
  match qs with
  | [] =>
    cases h
    rfl
  | q :: qs =>
    obtain ⟨w, hw, h⟩ := Except.eq_ok_of_bind h
    obtain ⟨rest, hrest, h⟩ := Except.eq_ok_of_bind h
    cases h
    have hserves := serves_of_writer hb p q w hw
    have hrestServe := allServe_of_writers hb p qs rest hrest
    exact ⟨w, rest, rfl, hserves, hrestServe⟩

end

/-- A plan that is made serves its request. -/
lemma serves_of_planFor (hb : b.system.AnsweredBy layoutAt) {backend : Backend} {p : Permission}
    {q : Request} {plan : AccessPlan} (h : Returns (Factory.planFor backend b p q) plan) :
    plan.Serves (layoutAt b.version) q := by
  rcases Factory.planFor_cases h with ⟨_, w, hw, rfl⟩ | ⟨_, r, hr, rfl⟩
  · exact serves_of_writer hb p q w hw
  · exact serves_of_reader hb backend p q r hr

end Plan

end NamedSlots
