import NamedSlots.Proofs.BuiltTables
import NamedSlots.Proofs.StoredAccess

/-!
# The order of storage

The variables of a layout are declared as texts, symbols, and array or matrix symbols, which stand
for their elements. Their leaves have the places of storage in the order of declaration, and an
element of an array comes as far behind the first one as the row-major offset of its indices says.
-/

namespace NamedSlots

/-! ### Row-major positions -/

namespace Shape

/-- In blocks of one length, a position is found by the number of its block. -/
lemma getElem?_flatMap {α β : Type} {f : α → List β} {n : Nat} (hf : ∀ a, (f a).length = n)
    (as : List α) (i : Nat) {k : Nat} (hk : k < n) :
    (as.flatMap f)[i * n + k]? = as[i]?.bind fun a => (f a)[k]? := by
  induction as generalizing i with
  | nil => rfl
  | cons a as ih =>
    rw [List.flatMap_cons]
    cases i with
    | zero =>
      rw [List.getElem?_append_left (by rw [hf]; omega)]
      simp
    | succ i =>
      rw [List.getElem?_append_right (by rw [hf, Nat.succ_mul]; omega), hf]
      have hrest : (i + 1) * n + k - n = i * n + k := by
        rw [Nat.succ_mul]
        omega
      rw [hrest, ih i, List.getElem?_cons_succ]

lemma offset_lt_size {shape p : List Nat} (h : List.Forall₂ (· < ·) p shape) :
    offset shape p < size shape := by
  induction h with
  | nil => exact Nat.one_pos
  | @cons i d is ds hi _ ih =>
    calc i * size ds + offset ds is < i * size ds + size ds := Nat.add_lt_add_left ih _
      _ = (i + 1) * size ds := (Nat.succ_mul i _).symm
      _ ≤ d * size ds := Nat.mul_le_mul_right _ hi

/-- A position stands at its row-major offset. -/
lemma getElem?_offset {shape p : List Nat} (h : List.Forall₂ (· < ·) p shape) :
    (positions shape)[offset shape p]? = some p := by
  induction h with
  | nil => rfl
  | @cons i d is ds hi his ih =>
    have hlength (i : Nat) : ((positions ds).map (i :: ·)).length = size ds := by
      rw [List.length_map, length_positions]
    rw [positions, offset, getElem?_flatMap hlength _ _ (offset_lt_size his),
      List.getElem?_range hi, Option.bind_some, List.getElem?_map, ih]
    rfl

end Shape

/-- Whether an index is in range in a dimension. -/
def Index.IsIn (i d : Index) : Prop :=
  0 ≤ i.toInt ∧ i.toInt < d.toInt

namespace Expr

lemma outOfBounds?_eq_none_iff {p shape : List Index} (hlength : p.length = shape.length)
    (dimension : Nat) : outOfBounds? dimension p shape = none ↔ List.Forall₂ Index.IsIn p shape := by
  induction p generalizing shape dimension with
  | nil =>
    cases List.length_eq_zero_iff.1 hlength.symm
    exact ⟨fun _ => .nil, fun _ => rfl⟩
  | cons i p ih =>
    obtain _ | ⟨d, ds⟩ := shape
    · cases hlength
    · rw [outOfBounds?, List.forall₂_cons, ← ih (Nat.succ.inj hlength) (dimension + 1), Index.IsIn]
      split
      · rename_i hout
        exact ⟨nofun, fun h => by omega⟩
      · rename_i hin
        exact ⟨fun h => ⟨by omega, h⟩, fun h => h.2⟩

/-- An array has the elements whose indices are in range, and they are named after these. -/
lemma element_eq_ok_iff {e x : Expr} {p : List Index} (he : e.kind = .array) :
    e.element p = .ok x ↔
      List.Forall₂ Index.IsIn p e.label.shape ∧ x = symbol e.label.name p := by
  unfold element
  rw [if_neg (not_not.2 he)]
  dsimp only
  by_cases hlength : p.length = e.label.shape.length
  · rw [if_neg (not_not.2 hlength), ← outOfBounds?_eq_none_iff hlength 0]
    cases outOfBounds? 0 p e.label.shape with
    | none => exact ⟨fun h => ⟨rfl, (Except.ok.inj h).symm⟩, fun h => congrArg Except.ok h.2.symm⟩
    | some out => exact ⟨nofun, fun h => nomatch h.1⟩
  · rw [if_pos hlength]
    exact ⟨nofun, fun h => absurd h.1.length_eq hlength⟩

lemma kind_of_element {e x : Expr} {p : List Index} (h : e.element p = .ok x) : e.kind = .array := by
  by_contra hkind
  rw [element, if_pos hkind] at h
  cases h

/-- The indices of an element are in range, and it is named after them. -/
lemma element_eq_ok {e x : Expr} {p : List Nat}
    (h : e.element (p.map fun (i : Nat) => .int i) = .ok x) :
    e.kind = .array ∧ List.Forall₂ (· < ·) p (e.label.shape.map Index.extent) ∧
      x = symbol e.label.name (p.map fun (i : Nat) => .int i) := by
  have hkind := kind_of_element h
  obtain ⟨hin, rfl⟩ := (element_eq_ok_iff hkind).1 h
  rw [List.forall₂_map_left_iff] at hin
  refine ⟨hkind, List.forall₂_map_right_iff.2 (hin.imp fun i d hi => ?_), rfl⟩
  obtain ⟨-, hlt⟩ := hi
  unfold Index.extent
  change (i : Int) < d.toInt at hlt
  omega

end Expr

/-! ### Leaves of declarations -/

namespace Value

/-- The scalar symbols that a declaration stands for. -/
def leaves (v : Value) : List Value :=
  match Classifier.standard.expand v with
  | .ok leaves => leaves
  | .error _ => []

/-- The names of these symbols. -/
def leafNames (v : Value) : List String := v.leaves.filterMap key?

/-- The names of the leaves of all that is declared, in order. -/
def declaredNames (v : Value) : List String := v.declared.flatMap leafNames

/-- The declarations of named variables: texts, scalar and array symbols of expressions, symbols and
matrix symbols of terms, and elements of these. -/
inductive IsVariable : Value → Prop
  | text (s : String) (isElement : Bool) : IsVariable (.string s isElement)
  | symbol {e : Expr} : e.kind = .symbol → IsVariable (.expr e)
  | array {e : Expr} : e.kind = .array → IsVariable (.expr e)
  | termSymbol (name : String) : IsVariable (.term (.symbol name))
  | termElement (name : String) (rows cols i j : Int) :
      IsVariable (.term (.element name rows cols i j))
  | matrix (name : String) (rows cols : Int) : IsVariable (.term (.matrix name rows cols))

lemma leaves_array {e : Expr} (he : e.kind = .array) :
    (Value.expr e).leaves = e.elements.map Value.expr := by
  obtain ⟨kind, cs, l⟩ := e
  cases he
  rfl

/-- An element of an array stands among its leaves at the row-major offset of its indices. -/
lemma getElem?_leaves_array {e x : Expr} {p : List Nat}
    (h : e.element (p.map fun (i : Nat) => .int i) = .ok x) :
    (Value.expr e).leaves[Shape.offset (e.label.shape.map Index.extent) p]? = some (.expr x) := by
  obtain ⟨hkind, hp, rfl⟩ := Expr.element_eq_ok h
  rw [leaves_array hkind]
  unfold Expr.elements Shape.indexPositions
  rw [List.getElem?_map, List.getElem?_map, List.getElem?_map, Shape.getElem?_offset hp]
  rfl

lemma leaves_matrix (name : String) (rows cols : Int) :
    (Value.term (.matrix name rows cols)).leaves =
      (Shape.positions [rows.toNat, cols.toNat]).filterMap fun
        | [i, j] => some (.term (.element name rows cols i j))
        | _ => Option.none := rfl

/-- The elements of a matrix row by row. -/
lemma leaves_matrix_eq (name : String) (rows cols : Int) :
    (Value.term (.matrix name rows cols)).leaves =
      (List.range rows.toNat).flatMap fun (i : Nat) => (List.range cols.toNat).map fun (j : Nat) =>
        .term (.element name rows cols i j) := by
  rw [leaves_matrix]
  simp only [Shape.positions, List.map_cons, List.map_nil, List.filterMap_flatMap,
    List.filterMap_map]
  simp only [List.map_eq_flatMap]
  rfl

lemma getElem?_leaves_matrix (name : String) (rows cols : Int) {i j : Nat} (hi : i < rows.toNat)
    (hj : j < cols.toNat) :
    (Value.term (.matrix name rows cols)).leaves[i * cols.toNat + j]? =
      some (.term (.element name rows cols i j)) := by
  rw [leaves_matrix_eq, Shape.getElem?_flatMap (n := cols.toNat) (by simp) _ _ hj,
    List.getElem?_range hi, Option.bind_some, List.getElem?_map, List.getElem?_range hj]
  rfl

lemma IsVariable.expand_eq {v : Value} (h : v.IsVariable) :
    Classifier.standard.expand v = .ok v.leaves := by
  cases h with
  | symbol he =>
    rename_i e
    obtain ⟨kind, cs, l⟩ := e
    cases he
    rfl
  | array he =>
    rename_i e
    obtain ⟨kind, cs, l⟩ := e
    cases he
    rfl
  | _ => rfl

lemma IsVariable.isSome_key? {v : Value} (h : v.IsVariable) {leaf : Value} (hleaf : leaf ∈ v.leaves) :
    leaf.key?.isSome := by
  cases h with
  | symbol he =>
    rename_i e
    obtain ⟨kind, cs, l⟩ := e
    cases he
    cases List.mem_singleton.1 hleaf
    rfl
  | array he =>
    rw [leaves_array he] at hleaf
    obtain ⟨x, hx, rfl⟩ := List.mem_map.1 hleaf
    obtain ⟨p, _, rfl⟩ := List.mem_map.1 hx
    rfl
  | matrix name rows cols =>
    rw [leaves_matrix] at hleaf
    obtain ⟨p, _, hp⟩ := List.mem_filterMap.1 hleaf
    split at hp
    · cases hp
      rfl
    · cases hp
  | _ =>
    cases List.mem_singleton.1 hleaf
    rfl

lemma map_some_filterMap {α β : Type} {f : α → Option β} {as : List α}
    (h : ∀ a ∈ as, (f a).isSome) : (as.filterMap f).map some = as.map f := by
  induction as with
  | nil => rfl
  | cons a as ih =>
    obtain ⟨b, hb⟩ := Option.isSome_iff_exists.1 (h a List.mem_cons_self)
    rw [List.filterMap_cons_some hb, List.map_cons, List.map_cons, hb,
      ih fun a ha => h a (List.mem_cons_of_mem _ ha)]

section Declared

variable {v : Value} (hv : ∀ w ∈ v.declared, w.IsVariable)
include hv

lemma isSome_key?_of_mem {leaf : Value} (hleaf : leaf ∈ v.declared.flatMap leaves) :
    leaf.key?.isSome := by
  obtain ⟨w, hw, hleaf⟩ := List.mem_flatMap.1 hleaf
  exact (hv w hw).isSome_key? hleaf

omit hv in
lemma declaredNames_eq (v : Value) :
    v.declaredNames = (v.declared.flatMap leaves).filterMap key? := List.filterMap_flatMap.symm

/-- A leaf of a declaration comes behind the leaves of the declarations before it. -/
lemma getElem?_declaredNames {before after : List Value} {w leaf : Value} {k : Nat}
    (hsplit : v.declared = before ++ w :: after) (hleaf : w.leaves[k]? = some leaf) :
    v.declaredNames[(before.flatMap leaves).length + k]? = leaf.key? := by
  have hkeys := map_some_filterMap fun leaf h => isSome_key?_of_mem hv h
  rw [← declaredNames_eq] at hkeys
  have hat : (v.declared.flatMap leaves)[(before.flatMap leaves).length + k]? = some leaf := by
    obtain ⟨hlt, _⟩ := List.getElem?_eq_some_iff.1 hleaf
    rw [hsplit, List.flatMap_append, List.flatMap_cons,
      List.getElem?_append_right (Nat.le_add_right _ _), Nat.add_sub_cancel_left,
      List.getElem?_append_left hlt, hleaf]
  have hname := congrArg (·[(before.flatMap leaves).length + k]?) hkeys
  simp only [List.getElem?_map, hat, Option.map_some] at hname
  cases hd : v.declaredNames[(before.flatMap leaves).length + k]? with
  | none =>
    rw [hd] at hname
    cases hname
  | some name =>
    rw [hd] at hname
    exact Option.some.inj hname

end Declared

end Value

/-! ### Tables of variables -/

namespace SlotTable

/-- Named leaves are put into a table one after the other, up to a name that stands there. -/
lemma foldlM_insert (table : String) {leaves : List Value} (hnamed : ∀ leaf ∈ leaves, leaf.key?.isSome)
    (t : SlotTable) (ht : t.names.Nodup) :
    ((t.names ++ leaves.filterMap Value.key?).Nodup →
        ∃ t', leaves.foldlM (insert table) t = .ok t' ∧
          t'.names = t.names ++ leaves.filterMap Value.key?) ∧
      (¬ (t.names ++ leaves.filterMap Value.key?).Nodup →
        ∃ name, leaves.foldlM (insert table) t = .error (.duplicateEntry table name)) := by
  induction leaves generalizing t with
  | nil =>
    rw [List.filterMap_nil, List.append_nil]
    exact ⟨fun _ => ⟨t, rfl, rfl⟩, fun h => absurd ht h⟩
  | cons leaf rest ih =>
    obtain ⟨name, hkey⟩ := Option.isSome_iff_exists.1 (hnamed leaf List.mem_cons_self)
    have hrest : ∀ leaf ∈ rest, leaf.key?.isSome := fun leaf h => hnamed leaf (List.mem_cons_of_mem _ h)
    rw [List.filterMap_cons_some hkey, List.foldlM_cons]
    by_cases hmem : name ∈ t.names
    · rw [insert_of_mem table hkey hmem]
      refine ⟨fun h => ?_, fun _ => ⟨name, rfl⟩⟩
      exact absurd rfl ((List.nodup_append.1 h).2.2 name hmem name List.mem_cons_self)
    · rw [insert_of_not_mem table hkey hmem]
      have hnames : names ⟨t.entries ++ [(name, leaf)]⟩ = t.names ++ [name] := List.map_append
      have hnodup : (t.names ++ [name]).Nodup :=
        List.nodup_append_comm.2 (List.nodup_cons.2 ⟨hmem, ht⟩)
      have hinsert := ih hrest ⟨t.entries ++ [(name, leaf)]⟩ (hnames ▸ hnodup)
      rw [hnames, List.append_assoc] at hinsert
      exact hinsert

lemma foldlM_insertAll (table : String) {vs : List Value} (hvs : ∀ v ∈ vs, v.IsVariable)
    (t : SlotTable) :
    vs.foldlM (insertAll table) t = (vs.flatMap Value.leaves).foldlM (insert table) t := by
  induction vs generalizing t with
  | nil => rfl
  | cons v vs ih =>
    have hrest : ∀ v ∈ vs, v.IsVariable := fun v h => hvs v (List.mem_cons_of_mem _ h)
    rw [List.flatMap_cons, List.foldlM_cons, List.foldlM_append]
    unfold insertAll
    rw [(hvs v List.mem_cons_self).expand_eq, Except.ok_bind]
    congr 1
    funext t
    exact ih hrest t

/-- A table of variables can be made exactly if the names of their leaves differ, and then it has
these names in order. -/
lemma ofSymbols_variables (table : String) {v : Value} (hv : ∀ w ∈ v.declared, w.IsVariable) :
    (v.declaredNames.Nodup →
        ∃ t, ofSymbols table v.declared = .ok t ∧ t.names = v.declaredNames) ∧
      (¬ v.declaredNames.Nodup →
        ∃ name, ofSymbols table v.declared = .error (.duplicateEntry table name)) := by
  have hinsert := foldlM_insert table (fun leaf h => Value.isSome_key?_of_mem hv h) {} .nil
  rw [← Value.declaredNames_eq, ← foldlM_insertAll table hv] at hinsert
  exact hinsert

end SlotTable

/-! ### The layout of storage -/

namespace Layout

variable {l rest : Layout} {states parameters independent observed : Value}

/-- What is made of states and parameters, when the rest of a layout can be made. -/
lemma build_eq (hrest : Layout.build .none .none independent observed = .ok rest)
    (states parameters : Value) :
    Layout.build states parameters independent observed = (do
      let s ← SlotTable.ofSymbols "variable" states.declared
      let p ← SlotTable.ofSymbols "parameter" parameters.declared
      return ⟨s, p, rest.independent, rest.observed⟩) := by
  obtain ⟨_, _, hi, ho⟩ := build_ok hrest
  unfold Layout.build
  rw [hi, ho]
  cases observed <;> first | rfl | cases ho

/-- The places of a role, as its declaration has them: no leaf has the name of another one, the
place of a symbol is the position of its name among those of the leaves, an element of an array or
a matrix is as far behind the leaves that come before as its row-major offset, and what is read for
a symbol that no other role claims is the item of storage at its place. -/
structure Follows (l : Layout) (role : Role) (declaration : Value) : Prop where
  nodup : declaration.declaredNames.Nodup
  index (v : Value) (k : Nat) : (Interface.ofLayout l none).call (.index role) [v] = .ok (.int k) ↔
    ∃ name, v.key? = some name ∧ declaration.declaredNames[k]? = some name
  array (before after : List Value) (e x : Expr) (p : List Nat) :
    declaration.declared = before ++ .expr e :: after →
      e.element (p.map fun (i : Nat) => .int i) = .ok x →
        (Interface.ofLayout l none).call (.index role) [.expr x] =
          .ok (.int ((before.flatMap Value.leaves).length +
            Shape.offset (e.label.shape.map Index.extent) p : Nat))
  matrix (before after : List Value) (name : String) (rows cols i j : Nat) :
    declaration.declared = before ++ .term (.matrix name rows cols) :: after → i < rows → j < cols →
      (Interface.ofLayout l none).call (.index role) [.term (.element name rows cols i j)] =
        .ok (.int ((before.flatMap Value.leaves).length + (i * cols + j) : Nat))
  read (v : Value) (k : Nat) : (Interface.ofLayout l none).call (.index role) [v] = .ok (.int k) →
    (∀ other, other ≠ role → l.has other v = false) →
      (∀ identity, (l.system identity).locate none v = .ok (.int k)) ∧
        ∀ (s : ProblemState) world n identity m object, ∃ getter,
          (s.overLayout world n l identity).accessor m object .readAny v .none = .ok getter ∧
            getter.get (s.overLayout world n l identity) = (s.storage role).item (.int k)

lemma call_index_eq_ok_iff {role : Role} (hstored : Interface.isStored role = true) {v : Value}
    {k : Nat} : (Interface.ofLayout l none).call (.index role) [v] = .ok (.int k) ↔
      l.place? role v = some k := by
  have hcall : (Interface.ofLayout l none).call (.index role) [v] =
      .ok (((l.place? role v).map fun (n : Nat) => Value.int n).getD .none) := by
    cases role <;> first | rfl | cases hstored
  rw [hcall]
  cases l.place? role v with
  | none => exact ⟨nofun, nofun⟩
  | some n => simp

/-- A symbol of one role is located at its place, and read from there. -/
lemma read_of_place? {role : Role} (hstored : Interface.isStored role = true) {v : Value} {k : Nat}
    (hplace : l.place? role v = some k) (hother : ∀ other, other ≠ role → l.has other v = false) :
    (∀ identity, (l.system identity).locate none v = .ok (.int k)) ∧
      ∀ (s : ProblemState) world n identity m object, ∃ getter,
        (s.overLayout world n l identity).accessor m object .readAny v .none = .ok getter ∧
          getter.get (s.overLayout world n l identity) = (s.storage role).item (.int k) := by
  have hhas : l.has role v = true := by
    cases role <;> first | exact Option.isSome_of_eq_some hplace | cases hstored
  have hroles := rolesOf_of_has hhas hother
  obtain ⟨name, hkey, _⟩ := has_iff.1 hhas
  have hform := Value.form_of_key? hkey
  refine ⟨fun identity => (l.answeredBy identity).locate_of_rolesOf hform hroles hstored hplace,
    fun s world n identity m object => ?_⟩
  have hgetter {cell : Cell} (hcell : l.cell? v = some cell) :
      (s.overLayout world n l identity).accessor m object .readAny v .none =
        .ok ⟨m, .getter cell.reader, .symbol name v, none⟩ := by
    have hreader := readerOfSymbol_of_cell (s.answeredBy_bound world n l identity) rfl hform hcell
      .interpreter
    have hplan : Traced.Yields (Factory.planFor .interpreter ⟨s.overLayout world n l identity, none⟩
        .readAny (.symbol name v)) (.ok (.getter cell.reader)) :=
      hreader.bind_ok (Traced.yields_pure _)
    exact System.accessor_of_plan (s.bound_overLayout world n l identity)
      (Request.ofValue_of_key? hkey) rfl hplan
  cases role with
  | state =>
    have hcell : l.cell? v = some (.state k) := cell?_eq_some_iff.2 ⟨hroles, hplace⟩
    have hread : (Cell.state k).reader.read (s.toInterface world n) =
        (s.storage .state).item (.int k) := Reader.read_state (.int k)
    exact ⟨_, hgetter hcell, hread⟩
  | parameter =>
    have hcell : l.cell? v = some (.parameter k) := cell?_eq_some_iff.2 ⟨hroles, hplace⟩
    have hread : (Cell.parameter k).reader.read (s.toInterface world n) =
        (s.storage .parameter).item (.int k) := Reader.read_parameter (.int k)
    exact ⟨_, hgetter hcell, hread⟩
  | _ => cases hstored

lemma follows_of_names (hl : l.WellFormed) {role : Role} (hstored : Interface.isStored role = true)
    {declaration : Value} (hv : ∀ w ∈ declaration.declared, w.IsVariable)
    (hnames : l.names role = declaration.declaredNames) : l.Follows role declaration := by
  have hindex (v : Value) (k : Nat) :
      (Interface.ofLayout l none).call (.index role) [v] = .ok (.int k) ↔
        ∃ name, v.key? = some name ∧ declaration.declaredNames[k]? = some name := by
    rw [call_index_eq_ok_iff hstored, place?_eq_some_iff hl hstored, hnames]
  have hleaf {before after : List Value} {w leaf : Value} {k : Nat}
      (hsplit : declaration.declared = before ++ w :: after) (hat : w.leaves[k]? = some leaf) :
      (Interface.ofLayout l none).call (.index role) [leaf] =
        .ok (.int ((before.flatMap Value.leaves).length + k : Nat)) := by
    have hmem : leaf ∈ declaration.declared.flatMap Value.leaves := by
      refine List.mem_flatMap.2 ⟨w, ?_, List.mem_of_getElem? hat⟩
      rw [hsplit]
      exact List.mem_append_right _ List.mem_cons_self
    obtain ⟨name, hname⟩ := Option.isSome_iff_exists.1 (Value.isSome_key?_of_mem hv hmem)
    refine (hindex leaf _).2 ⟨name, hname, ?_⟩
    rw [Value.getElem?_declaredNames hv hsplit hat, hname]
  refine ⟨hnames ▸ (hl role).nodup, hindex, ?_, ?_, ?_⟩
  · intro before after e x p hsplit hx
    exact hleaf hsplit (Value.getElem?_leaves_array hx)
  · intro before after name rows cols i j hsplit hi hj
    exact hleaf hsplit (Value.getElem?_leaves_matrix name rows cols hi hj)
  · intro v k hcall hother
    exact read_of_place? hstored ((call_index_eq_ok_iff hstored).1 hcall) hother

/-- A layout of named variables can be made unless two leaves of its states, or two leaves of its
parameters, have one name, which is a wrong value. Its places follow the declarations. The
independent variable and the observed symbols are any that can be declared. -/
theorem storage_follows_declaration
    (hrest : Layout.build .none .none independent observed = .ok rest)
    (hs : ∀ v ∈ states.declared, v.IsVariable) (hp : ∀ v ∈ parameters.declared, v.IsVariable) :
    ((∃ e, Layout.build states parameters independent observed = .error e ∧ e.kind = .wrongValue) ↔
        ¬ states.declaredNames.Nodup ∨ ¬ parameters.declaredNames.Nodup) ∧
      ((¬ ∃ e, Layout.build states parameters independent observed = .error e ∧
          e.kind = .wrongValue) →
        ∃ l, Layout.build states parameters independent observed = .ok l ∧
          l.Follows .state states ∧ l.Follows .parameter parameters) := by
  obtain ⟨hstates, hstates'⟩ := SlotTable.ofSymbols_variables "variable" hs
  obtain ⟨hparameters, hparameters'⟩ := SlotTable.ofSymbols_variables "parameter" hp
  have hbuild := build_eq hrest states parameters
  by_cases hsn : states.declaredNames.Nodup
  · obtain ⟨s, hs', hsnames⟩ := hstates hsn
    rw [hs', Except.ok_bind] at hbuild
    by_cases hpn : parameters.declaredNames.Nodup
    · obtain ⟨p, hp', hpnames⟩ := hparameters hpn
      rw [hp', Except.ok_bind] at hbuild
      refine ⟨⟨?_, ?_⟩, fun _ => ⟨_, hbuild, ?_, ?_⟩⟩
      · rintro ⟨e, he, _⟩
        rw [hbuild] at he
        cases he
      · rintro (h | h)
        · exact absurd hsn h
        · exact absurd hpn h
      · exact follows_of_names (wellFormed_of_build hbuild) rfl hs hsnames
      · exact follows_of_names (wellFormed_of_build hbuild) rfl hp hpnames
    · obtain ⟨name, hname⟩ := hparameters' hpn
      rw [hname] at hbuild
      have herror : ∃ e, Layout.build states parameters independent observed = .error e ∧
          e.kind = .wrongValue := ⟨_, hbuild, rfl⟩
      exact ⟨⟨fun _ => .inr hpn, fun _ => herror⟩, fun hfine => absurd herror hfine⟩
  · obtain ⟨name, hname⟩ := hstates' hsn
    rw [hname] at hbuild
    have herror : ∃ e, Layout.build states parameters independent observed = .error e ∧
        e.kind = .wrongValue := ⟨_, hbuild, rfl⟩
    exact ⟨⟨fun _ => .inl hsn, fun _ => herror⟩, fun hfine => absurd herror hfine⟩

namespace Mixed

def array : Expr := .array (some "a") [.int 2, .int 3]

def last : Expr := .symbol (some "a") [.int 1, .int 2]

/-- A text, an array symbol and a matrix symbol. -/
def declaration : Value := .list [.text "x", .expr array, .term (.matrix "m" 2 2)]

lemma isVariable_declaration : ∀ v ∈ declaration.declared, v.IsVariable := by
  intro v hv
  change v ∈ [_, _, _] at hv
  simp only [List.mem_cons, List.not_mem_nil, or_false] at hv
  rcases hv with rfl | rfl | rfl
  · exact .text "x" false
  · exact .array rfl
  · exact .matrix "m" 2 2

lemma nodup_declaration : declaration.declaredNames.Nodup := by decide +kernel

/-- Storage with one item for each leaf. -/
def state : ProblemState where
  system := .none
  states := .list ((List.range 11).map fun (n : Nat) => .int n)
  parameters := .list []

end Mixed

/-- The last element of the array comes behind the text and five other elements, and the third one
of the matrix behind all of these; a getter of the former reads the item at its place. -/
theorem storage_follows_declaration_mixed : ∃ l,
    Layout.build Mixed.declaration .none (.text "t") .none = .ok l ∧
      (Interface.ofLayout l none).call (.index .state) [.expr Mixed.last] = .ok (.int 6) ∧
      (Interface.ofLayout l none).call (.index .state) [.term (.element "m" 2 2 1 0)] =
        .ok (.int 9) ∧
      ∃ getter,
        (Mixed.state.overLayout (fun _ => .ofLayout l none) none l none).accessor 0 .none .readAny
            (.expr Mixed.last) .none = .ok getter ∧
          getter.get (Mixed.state.overLayout (fun _ => .ofLayout l none) none l none) =
            .ok (.int 6) := by
  have hrest : Layout.build .none .none (.text "t") .none =
      .ok { independent := ⟨[("t", .text "t")]⟩ } := rfl
  have hparameters : ∀ v ∈ Value.none.declared, v.IsVariable := nofun
  obtain ⟨hwrong, hfine⟩ :=
    storage_follows_declaration hrest Mixed.isVariable_declaration hparameters
  have hbuilt : ¬ ∃ e, Layout.build Mixed.declaration .none (.text "t") .none = .error e ∧
      e.kind = .wrongValue := by
    rw [hwrong, not_or, not_not, not_not]
    exact ⟨Mixed.nodup_declaration, .nil⟩
  obtain ⟨l, hl, hstates, _⟩ := hfine hbuilt
  have hlast : (Interface.ofLayout l none).call (.index .state) [.expr Mixed.last] =
      .ok (.int 6) := hstates.array [.text "x"] [.term (.matrix "m" 2 2)] Mixed.array _ [1, 2] rfl rfl
  refine ⟨l, hl, hlast, ?_, ?_⟩
  · exact hstates.matrix [.text "x", .expr Mixed.array] [] "m" 2 2 1 0 rfl (by decide) (by decide)
  · have hother : ∀ other, other ≠ .state → l.has other (.expr Mixed.last) = false := by
      obtain ⟨_, hp, hi, ho⟩ := build_ok hl
      obtain ⟨s, p, i, o⟩ := l
      cases hp
      cases hi
      cases ho
      intro other hne
      cases other with
      | state => exact absurd rfl hne
      | _ => rfl
    exact (hstates.read (.expr Mixed.last) 6 hlast hother).2 Mixed.state _ none none 0 .none

end Layout
end NamedSlots
