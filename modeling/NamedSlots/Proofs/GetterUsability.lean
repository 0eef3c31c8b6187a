import NamedSlots.Proofs.ArrayStorage
import NamedSlots.Proofs.GridShape

/-!
# Getters that return

The getter of a request for stored symbols is built whatever the request looks like, but the arrays
in it are only assembled when it is called. The call returns exactly if the elements of every array
have one shape and fit the dimensions of the array; all else is a wrong value, or a wrong type where
an array is given a truth value as a dimension. Arrays of symbols always fit.
-/

namespace NamedSlots

namespace Request

/-! ### The shape of what is read -/

mutual

/-- The shape that the value of a request has as a part of a nested sequence, told from the request
alone. -/
def gridShape? : Request → Option (List Nat)
  | symbol _ _ => some []
  | array shape elements => (Shape.stack? (gridShapes elements)).bind fun s =>
    (Shape.resolve? (Shape.size s) shape).map Shape.visible
  | sequence items _ => Shape.stack? (gridShapes items)
  | expression _ => none

def gridShapes : List Request → List (Option (List Nat))
  | [] => []
  | q :: qs => gridShape? q :: gridShapes qs

end

mutual

/-- Every array in a request has elements of one shape, which fit its dimensions. -/
def IsReadable : Request → Prop
  | symbol _ _ => True
  | array shape elements => ∃ dims, gridShape? (array shape elements) = some dims
  | sequence items _ => AllReadable items
  | expression _ => False

def AllReadable : List Request → Prop
  | [] => True
  | q :: qs => IsReadable q ∧ AllReadable qs

end

mutual

/-- The arrays in a request are given integers as their dimensions. -/
def HasDimensions : Request → Prop
  | symbol _ _ => True
  | array shape elements => Shape.areDimensions shape = true ∧ AllHaveDimensions elements
  | sequence items _ => AllHaveDimensions items
  | expression _ => True

def AllHaveDimensions : List Request → Prop
  | [] => True
  | q :: qs => HasDimensions q ∧ AllHaveDimensions qs

end

mutual

/-- The arrays in a request hold symbols only, one for each position of their shape. -/
def HasFlatArrays : Request → Prop
  | symbol _ _ => True
  | array shape elements => Shape.areDimensions shape = true ∧ (∀ d ∈ shape, 0 ≤ d.toInt) ∧
    elements.length = Shape.size (shape.map Index.extent) ∧
    ∀ q ∈ elements, ∃ name s, q = symbol name s
  | sequence items _ => AllFlatArrays items
  | expression _ => False

def AllFlatArrays : List Request → Prop
  | [] => True
  | q :: qs => HasFlatArrays q ∧ AllFlatArrays qs

end

mutual

/-- Symbols that are declared as states or as parameters, in arrays, lists and tuples. -/
def IsDeclared (l : Layout) : Request → Prop
  | symbol _ s => l.has .state s = true ∨ l.has .parameter s = true
  | array _ elements => AllDeclared l elements
  | sequence items _ => AllDeclared l items
  | expression _ => False

def AllDeclared (l : Layout) : List Request → Prop
  | [] => True
  | q :: qs => IsDeclared l q ∧ AllDeclared l qs

end

variable {l : Layout} {q : Request} {qs : List Request} {shape : List Index}

lemma gridShapes_eq_map (qs : List Request) : gridShapes qs = qs.map gridShape? := by
  induction qs with
  | nil => rfl
  | cons q qs ih => rw [gridShapes, ih, List.map_cons]

mutual

/-- Where the shape can be told, all arrays fit. -/
lemma isReadable_of_gridShape? (q : Request) (h : q.gridShape?.isSome) : q.IsReadable := by
  match q with
  | symbol _ _ => trivial
  | array shape elements => exact Option.isSome_iff_exists.1 h
  | sequence items isTuple =>
    obtain ⟨dims, hdims⟩ := Option.isSome_iff_exists.1 h
    exact allReadable_of_gridShapes items (Shape.isSome_of_stack? hdims)
  | expression e => cases h

lemma allReadable_of_gridShapes (qs : List Request) (h : ∀ s ∈ gridShapes qs, s.isSome) :
    AllReadable qs := by
  match qs with
  | [] => trivial
  | q :: qs =>
    obtain ⟨hq, hqs⟩ := List.forall_mem_cons.1 h
    exact ⟨isReadable_of_gridShape? q hq, allReadable_of_gridShapes qs hqs⟩

end

/-- An array with one element for each position is readable exactly if it is empty or its elements
have one shape, of a single item. -/
lemma isReadable_array_iff (hdims : Shape.areDimensions shape = true)
    (hshape : ∀ d ∈ shape, 0 ≤ d.toInt)
    (hcount : qs.length = Shape.size (shape.map Index.extent)) :
    (array shape qs).IsReadable ↔
      qs = [] ∨ ∃ s, (∀ q ∈ qs, q.gridShape? = some s) ∧ Shape.size s = 1 := by
  have hresolve (total : Nat) :
      (∃ dims, (Shape.resolve? total shape).map Shape.visible = some dims) ↔ qs.length = total := by
    rw [hcount, Shape.resolve?, if_pos hdims, Shape.fill?_eq hshape]
    split
    · exact ⟨fun _ => by assumption, fun _ => ⟨_, rfl⟩⟩
    · refine ⟨?_, fun h => absurd h (by assumption)⟩
      rintro ⟨_, hdims⟩
      cases hdims
  rw [IsReadable, gridShape?, gridShapes_eq_map]
  cases qs with
  | nil => exact ⟨fun _ => .inl rfl, fun _ => (hresolve 0).2 rfl⟩
  | cons q qs =>
    have hstack (s : List Nat) :
        Shape.stack? ((q :: qs).map gridShape?) = some ((qs.length + 1) :: s) ↔
          ∀ q' ∈ q :: qs, q'.gridShape? = some s := by
      rw [List.map_cons, Shape.stack?_cons_eq_some_iff, List.forall_mem_cons]
      constructor
      · rintro ⟨s', hq, hqs, heq⟩
        obtain ⟨_, rfl⟩ := List.cons.inj heq
        exact ⟨hq, List.forall_mem_map.1 hqs⟩
      · rintro ⟨hq, hqs⟩
        exact ⟨s, hq, List.forall_mem_map.2 hqs, by rw [List.length_map]⟩
    have hsize (s : List Nat) :
        (q :: qs).length = Shape.size ((qs.length + 1) :: s) ↔ Shape.size s = 1 := by
      rw [List.length_cons, Shape.size]
      exact ⟨fun h => (Nat.mul_eq_left (Nat.succ_ne_zero _)).1 h.symm,
        fun h => by rw [h, Nat.mul_one]⟩
    constructor
    · rintro ⟨dims, h⟩
      obtain ⟨all, hall, hdims⟩ := Option.bind_eq_some_iff.1 h
      obtain ⟨s, _, _, rfl⟩ := Shape.stack?_cons_eq_some_iff.1 hall
      rw [List.length_map] at hall hdims
      exact .inr ⟨s, (hstack s).1 hall, (hsize s).1 ((hresolve _).1 ⟨dims, hdims⟩)⟩
    · rintro (h | ⟨s, hall, hs⟩)
      · cases h
      · rw [(hstack s).2 hall]
        exact (hresolve _).2 ((hsize s).2 hs)

mutual

/-- Arrays of symbols are readable in every nesting of lists and tuples. -/
lemma HasFlatArrays.isReadable (q : Request) (h : q.HasFlatArrays) : q.IsReadable := by
  match q with
  | symbol _ _ => trivial
  | array shape elements =>
    obtain ⟨hdims, hshape, hcount, hsymbols⟩ := h
    refine (isReadable_array_iff hdims hshape hcount).2 (.inr ⟨[], fun q hq => ?_, rfl⟩)
    obtain ⟨name, s, rfl⟩ := hsymbols q hq
    rfl
  | sequence items isTuple => exact AllFlatArrays.allReadable items h
  | expression e => exact h.elim

lemma AllFlatArrays.allReadable (qs : List Request) (h : AllFlatArrays qs) : AllReadable qs := by
  match qs with
  | [] => trivial
  | q :: qs => exact ⟨HasFlatArrays.isReadable q h.1, AllFlatArrays.allReadable qs h.2⟩

end

/-! ### Declared symbols -/

mutual

/-- A request that is served from declared symbols is made of stored symbols: each has one role. -/
lemma IsDeclared.stored (q : Request) (h : q.IsDeclared l) (r : Reader) (hr : r.Serves (.ok l) q) :
    q.Stored l := by
  match q with
  | symbol _ s =>
    have hkey : ∃ role, l.has role s = true := h.elim (fun h => ⟨_, h⟩) fun h => ⟨_, h⟩
    obtain ⟨_, hhas⟩ := hkey
    obtain ⟨name, hname, _⟩ := Layout.has_iff.1 hhas
    refine ⟨Value.form_of_key? hname, ?_⟩
    have hother (role : Role) (hrole : l.rolesOf s = [role])
        (hne : Role.state ≠ role ∧ Role.parameter ≠ role) : False := by
      have hstate := Layout.not_has_of_rolesOf hrole (by simp : Role.state ∈ _) hne.1
      have hparameter := Layout.not_has_of_rolesOf hrole (by simp : Role.parameter ∈ _) hne.2
      rw [IsDeclared, hstate, hparameter] at h
      simp at h
    cases r with
    | state i =>
      obtain ⟨_, _, hl, hrole, _⟩ := hr
      cases hl
      exact .inl hrole
    | parameter i =>
      obtain ⟨_, _, hl, hrole, _⟩ := hr
      cases hl
      exact .inr hrole
    | time =>
      obtain ⟨_, hl, hrole⟩ := hr
      cases hl
      exact (hother _ hrole (by simp)).elim
    | expression f =>
      obtain ⟨_, _, hl, hrole, _⟩ := hr
      cases hl
      exact (hother _ hrole (by simp)).elim
    | _ => exact hr.elim
  | array shape elements =>
    obtain ⟨rs, _, hrs⟩ := hr
    exact AllDeclared.stored elements h rs hrs
  | sequence items isTuple =>
    obtain ⟨rs, _, hrs⟩ := hr
    exact AllDeclared.stored items h rs hrs
  | expression e => exact h.elim

lemma AllDeclared.stored (qs : List Request) (h : AllDeclared l qs) (rs : List Reader)
    (hrs : Reader.AllServe (.ok l) qs rs) : AllStored l qs := by
  match qs with
  | [] => trivial
  | q :: qs =>
    obtain ⟨r, rest, _, hr, hrest⟩ := hrs
    exact ⟨IsDeclared.stored q h.1 r hr, AllDeclared.stored qs h.2 rest hrest⟩

end

end Request

/-! ### What is read -/

/-- Storage that holds floating numbers. -/
def Cells.AreFloats (c : Cells) : Prop :=
  ∀ v ∈ c.states ++ c.parameters, ∃ x : Float, v = .real x

lemma Cells.AreFloats.gridShape?_of_get? {c : Cells} (h : c.AreFloats) {cell : Cell} {v : Value}
    (hv : c.get? cell = some v) : v.gridShape? = some [] := by
  have hmem : v ∈ c.states ++ c.parameters := by
    cases cell with
    | state n => exact List.mem_append_left _ (List.mem_of_getElem? hv)
    | parameter n => exact List.mem_append_right _ (List.mem_of_getElem? hv)
  obtain ⟨x, rfl⟩ := h v hmem
  rfl

namespace Request

/-- A failure is a wrong value, unless some array is given what is no dimension. -/
def Refuses (hasDimensions : Prop) (f : Failure) : Prop :=
  f.kind = .wrongValue ∨ ¬ hasDimensions ∧ f.kind = .wrongType

lemma Refuses.mono {p p' : Prop} {f : Failure} (h : Refuses p f) (hp : p' → p) : Refuses p' f :=
  h.imp_right (And.imp_left (mt hp))

/-- A readable request is read as a value of its shape; any other is refused. -/
inductive ReadsAs (q : Request) : Except Failure Value → Prop
  | value {v : Value} : q.IsReadable → v.gridShape? = q.gridShape? → ReadsAs q (.ok v)
  | failure {f : Failure} : ¬ q.IsReadable → Refuses q.HasDimensions f → ReadsAs q (.error f)

/-- The same for requests one after the other. -/
inductive AllReadAs (qs : List Request) : Except Failure (List Value) → Prop
  | values {vs : List Value} : AllReadable qs → vs.map Value.gridShape? = gridShapes qs →
    AllReadAs qs (.ok vs)
  | failure {f : Failure} : ¬ AllReadable qs → Refuses (AllHaveDimensions qs) f →
    AllReadAs qs (.error f)

lemma AllReadAs.sequence {qs : List Request} {x : Except Failure (List Value)} (h : AllReadAs qs x)
    (isTuple : Bool) : (sequence qs isTuple).ReadsAs (do
      Reader.asSequence isTuple (.list (← x))) := by
  cases h with
  | failure hnot hf => exact .failure hnot hf
  | @values vs hqs hshapes =>
    have hlist : (Value.list vs).gridShape? = (Request.sequence qs isTuple).gridShape? := by
      rw [Value.gridShape?_list, hshapes]
      rfl
    cases isTuple with
    | false => exact .value hqs hlist
    | true => exact .value hqs ((Value.gridShape?_tuple vs).trans hlist)

lemma AllReadAs.array {qs : List Request} {x : Except Failure (List Value)} (h : AllReadAs qs x)
    (shape : List Index) : (array shape qs).ReadsAs (do
      (← (Value.list (← x)).assemble).reshape shape) := by
  cases h with
  | failure hnot hf =>
    refine .failure (fun ⟨dims, hdims⟩ => hnot ?_) (hf.mono And.right)
    obtain ⟨s, hs, _⟩ := Option.bind_eq_some_iff.1 hdims
    exact allReadable_of_gridShapes qs (Shape.isSome_of_stack? hs)
  | @values vs hqs hshapes =>
    have hassembled := Value.assemble_reshape vs shape
    rw [hshapes] at hassembled
    change ReadsAs _ ((Value.list vs).assemble >>= fun grid => grid.reshape shape)
    cases hdims : (Request.array shape qs).gridShape? with
    | none =>
      rw [gridShape?] at hdims
      rw [hdims] at hassembled
      obtain ⟨f, hfailure, hf⟩ := hassembled
      rw [hfailure]
      refine .failure (fun ⟨dims, h⟩ => ?_) (Refuses.mono hf And.left)
      rw [gridShape?, hdims] at h
      cases h
    | some dims =>
      obtain ⟨v, hv, hshape⟩ : Value.AssemblesTo vs shape (some dims) := by
        rw [← hdims]
        exact hassembled
      rw [hv]
      exact .value ⟨dims, hdims⟩ (hshape.trans hdims.symm)

end Request

namespace ProblemState

variable {l : Layout} {c : Cells} {q : Request} {request : Value}

section Read

variable {s : ProblemState} {world : World} {k : Option Nat}

mutual

/-- Reading follows the request: symbols give numbers, sequences keep their shape, arrays are
assembled or fail. -/
lemma readsAs (hc : c.Covers l) (hfloats : c.AreFloats) (q : Request) (r : Reader)
    (hr : r.Serves (.ok l) q) (hq : q.Stored l) :
    q.ReadsAs (r.read ((s.withCells c).toInterface world k)) := by
  match q with
  | .symbol _ symbol =>
    obtain ⟨cell, hcell⟩ := Layout.Stores.exists_cell hq
    rw [read_symbol hr hq hc]
    exact .value trivial (hfloats.gridShape?_of_get? (Layout.get?_eq_valueIn hc hcell))
  | .sequence items isTuple =>
    obtain ⟨rs, rfl, hrs⟩ := hr
    rw [Reader.read, Reader.read_ofItems, bind_assoc]
    exact (allReadAs hc hfloats items rs hrs hq).sequence isTuple
  | .array shape elements =>
    obtain ⟨rs, rfl, hrs⟩ := hr
    rw [Reader.read, Reader.read_ofItems, bind_assoc]
    exact (allReadAs hc hfloats elements rs hrs hq).array shape
  | .expression e => exact hq.elim

lemma allReadAs (hc : c.Covers l) (hfloats : c.AreFloats) (qs : List Request) (rs : List Reader)
    (hrs : Reader.AllServe (.ok l) qs rs) (hqs : Request.AllStored l qs) :
    Request.AllReadAs qs (Reader.readAll ((s.withCells c).toInterface world k) rs) := by
  match qs with
  | [] =>
    cases hrs
    exact .values trivial rfl
  | q :: qs =>
    obtain ⟨r, rest, rfl, hr, hrest⟩ := hrs
    have hfirst := readsAs hc hfloats q r hr hqs.1
    have hrest := allReadAs hc hfloats qs rest hrest hqs.2
    rw [Reader.readAll]
    generalize r.read ((s.withCells c).toInterface world k) = x at hfirst ⊢
    generalize Reader.readAll ((s.withCells c).toInterface world k) rest = xs at hrest ⊢
    cases hfirst with
    | failure hnot hf => exact .failure (fun h => hnot h.1) (hf.mono And.left)
    | value hq hshape =>
      cases hrest with
      | failure hnot hf => exact .failure (fun h => hnot h.2) (hf.mono And.right)
      | values hqs hshapes => exact .values ⟨hq, hqs⟩ (congrArg₂ List.cons hshape hshapes)

end

end Read

lemma eq_none_of_bound {s : ProblemState} {world : World} {k identity : Option Nat}
    {version : Value} {b : Bound}
    (h : Bound.of (s.overLayout world k l identity) version = .ok b) :
    b = ⟨s.overLayout world k l identity, none⟩ := by
  have hhash := System.isHashableClass_of_bound h
  unfold Bound.of at h
  rw [hhash] at h
  cases h
  rfl

/-- A getter that was built serves the normal form of its request. -/
lemma serves_of_getter {s : ProblemState} {world : World} {k identity : Option Nat} {n : Nat}
    {object version : Value} {getter : Accessor}
    (hrequest : Request.ofValue .standard request = .ok q)
    (hgetter : (s.overLayout world k l identity).accessor n object .readAny request version =
      .ok getter) :
    ∃ r, getter = ⟨n, .getter r, q, none⟩ ∧ r.Serves (.ok l) q := by
  obtain ⟨b, q', plan, hb, hq', hplan, rfl⟩ := System.exists_plan_of_accessor hgetter
  cases hrequest.symm.trans hq'
  cases eq_none_of_bound hb
  have hserves := serves_of_planFor (s.answeredBy_overLayout world k l identity) hplan
  unfold Factory.planFor at hplan
  obtain ⟨r, _, hplan⟩ := hplan.bind
  cases hplan.of_pure
  exact ⟨r, rfl, hserves⟩

/-- A getter can be built for declared symbols, in any nesting, exactly if none of them has two
roles. Once it is built, its calls return a value exactly if the request is readable, that is, the
elements of every array in it have one shape and fit its dimensions; a call that does not return
raises a wrong value, or a wrong type where an array is given a truth value as a dimension. Arrays
that hold symbols only are always readable. -/
theorem getter_returns_iff (hrequest : Request.ofValue .standard request = .ok q)
    (hq : q.IsDeclared l) (s : ProblemState) (world : World) (k identity : Option Nat) (n : Nat)
    (object : Value) :
    ((∃ getter, (s.overLayout world k l identity).accessor n object .readAny request .none =
        .ok getter) ↔ q.Stored l) ∧
      (q.HasFlatArrays → q.IsReadable) ∧
      ∀ version getter, (s.overLayout world k l identity).accessor n object .readAny request
          version = .ok getter →
        ∀ c : Cells, c.Covers l → c.AreFloats →
          ((∃ v, getter.get ((s.withCells c).overLayout world k l identity) = .ok v) ↔
              q.IsReadable) ∧
            (¬ q.IsReadable → ∃ f,
              (f.kind = .wrongValue ∨ ¬ q.HasDimensions ∧ f.kind = .wrongType) ∧
              getter.get ((s.withCells c).overLayout world k l identity) = .error f) := by
  refine ⟨⟨?_, fun hstored => ?_⟩, Request.HasFlatArrays.isReadable q, ?_⟩
  · rintro ⟨getter, hgetter⟩
    obtain ⟨r, _, hr⟩ := serves_of_getter hrequest hgetter
    exact Request.IsDeclared.stored q hq r hr
  · obtain ⟨r, hgetter, _⟩ := exists_getter s world k identity hrequest hstored n object
    exact ⟨_, hgetter⟩
  · intro version getter hgetter c hc hfloats
    obtain ⟨r, rfl, hr⟩ := serves_of_getter hrequest hgetter
    have hreads : q.ReadsAs (r.read ((s.withCells c).toInterface world k)) :=
      readsAs hc hfloats q r hr (Request.IsDeclared.stored q hq r hr)
    have hget : Accessor.get ⟨n, .getter r, q, none⟩
        ((s.withCells c).overLayout world k l identity) =
          r.read ((s.withCells c).toInterface world k) := rfl
    rw [hget]
    generalize r.read ((s.withCells c).toInterface world k) = x at hreads ⊢
    cases hreads with
    | value hreadable _ =>
      exact ⟨⟨fun _ => hreadable, fun _ => ⟨_, rfl⟩⟩, fun hnot => absurd hreadable hnot⟩
    | failure hnot hf =>
      exact ⟨⟨nofun, fun hreadable => absurd hreadable hnot⟩, fun _ => ⟨_, hf, rfl⟩⟩

namespace ObjectArrays

def x : Value := .text "x"

def y : Value := .text "y"

def z : Value := .text "z"

def layout : Layout where
  states := ⟨[("x", x), ("y", y)]⟩
  parameters := ⟨[("z", z)]⟩

def cells : Cells := ⟨[.real 1.0, .real 2.0], [.real 3.0]⟩

def state : ProblemState := ⟨.none, .none, .none, .none, .none⟩

def system : System :=
  (state.withCells cells).overLayout (fun _ => { className := "object" }) none layout none

def lists (first second : List Request) : Request :=
  .array [.int 2] [.sequence first false, .sequence second false]

/-- An array of two lists, of one symbol each, in a tuple. -/
def even : Request :=
  .sequence [lists [.symbol "x" x] [.symbol "z" z], .symbol "y" y] true

/-- An array of two lists, of two symbols and of one. -/
def ragged : Request := lists [.symbol "x" x, .symbol "y" y] [.symbol "z" z]

lemma covers_cells : cells.Covers layout := ⟨Nat.le_refl 2, Nat.le_refl 1⟩

lemma areFloats_cells : cells.AreFloats := by
  intro v hv
  change v ∈ [_, _, _] at hv
  simp only [List.mem_cons, List.not_mem_nil, or_false] at hv
  rcases hv with rfl | rfl | rfl <;> exact ⟨_, rfl⟩

lemma isDeclared_even : even.IsDeclared layout :=
  ⟨⟨⟨.inl rfl, trivial⟩, ⟨.inr rfl, trivial⟩, trivial⟩, .inl rfl, trivial⟩

lemma isDeclared_ragged : ragged.IsDeclared layout :=
  ⟨⟨.inl rfl, .inl rfl, trivial⟩, ⟨.inr rfl, trivial⟩, trivial⟩

end ObjectArrays

/-- An array of lists of one symbol each is read. -/
theorem getter_returns_even : ∃ (getter : Accessor) (v : Value),
    ObjectArrays.system.accessor 0 .none .readAny (.tuple [.objects [2]
      [.list [ObjectArrays.x], .list [ObjectArrays.z]], ObjectArrays.y]) .none = .ok getter ∧
      getter.get ObjectArrays.system = .ok v := by
  have hrequest : Request.ofValue .standard (.tuple [.objects [2] [.list [ObjectArrays.x],
      .list [ObjectArrays.z]], ObjectArrays.y]) = .ok ObjectArrays.even := rfl
  obtain ⟨hbuild, _, hget⟩ := getter_returns_iff hrequest ObjectArrays.isDeclared_even
    (ObjectArrays.state.withCells ObjectArrays.cells) (fun _ => { className := "object" })
    none none 0 .none
  obtain ⟨getter, hgetter⟩ := hbuild.2 ⟨⟨⟨⟨rfl, .inl rfl⟩, trivial⟩, ⟨⟨rfl, .inr rfl⟩, trivial⟩,
    trivial⟩, ⟨rfl, .inl rfl⟩, trivial⟩
  obtain ⟨v, hv⟩ := (hget .none getter hgetter ObjectArrays.cells ObjectArrays.covers_cells
    ObjectArrays.areFloats_cells).1.2 ⟨⟨_, rfl⟩, trivial, trivial⟩
  exact ⟨getter, v, hgetter, hv⟩

/-- A getter of an array of lists of different lengths is built and fails when it is called. -/
theorem not_usable_ragged : ∃ (getter : Accessor) (f : Failure),
    ObjectArrays.ragged.IsDeclared ObjectArrays.layout ∧
      ObjectArrays.cells.Covers ObjectArrays.layout ∧ ObjectArrays.cells.AreFloats ∧
      ObjectArrays.system.accessor 0 .none .readAny (.objects [2]
        [.list [ObjectArrays.x, ObjectArrays.y], .list [ObjectArrays.z]]) .none = .ok getter ∧
      getter.get ObjectArrays.system = .error f ∧ f.kind = .wrongValue :=
  ⟨⟨0, .getter (.array (.vector [.sequence (.gather .state [.int 0, .int 1]) false,
      .sequence (.gather .parameter [.int 0]) false]) [.int 2]), ObjectArrays.ragged, none⟩,
    .fault .wrongValue, ObjectArrays.isDeclared_ragged, ObjectArrays.covers_cells,
    ObjectArrays.areFloats_cells, rfl, rfl, rfl⟩

end ProblemState
end NamedSlots
