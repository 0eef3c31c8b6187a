import NamedSlots.Proofs.BuiltTables
import NamedSlots.Proofs.SymbolUnion

/-!
# Classification and enumeration

The predicates, the places and the enumerations of a layout are read from four tables that are
filled separately. They tell one story: the role of a symbol is the only role under which its name
is enumerated, its place is its position there, and the enumeration of all symbols is refused
exactly if some symbol has no single role.
-/

namespace NamedSlots

namespace Role

end Role

namespace Layout

variable {l : Layout} {roles : List Role}

/-- The symbols of some roles, each with its role. -/
def grouped (l : Layout) (roles : List Role) : List (Role × Value) :=
  roles.flatMap fun role => (l.symbols role).map fun symbol => (role, symbol)

lemma disjoint_of_nodup (hnodup : (roles.flatMap l.names).Nodup) {role other : Role}
    (hrole : role ∈ roles) (hother : other ∈ roles) (hne : role ≠ other) :
    (l.names role).Disjoint (l.names other) := by
  have hsymm : Std.Symm (Function.onFun List.Disjoint l.names) := ⟨fun _ _ h => h.symm⟩
  exact (List.nodup_flatMap.1 hnodup).2.forall hrole hother hne

/-- All names differ exactly if no two roles share one. -/
lemma WellFormed.nodup_iff (hl : l.WellFormed) (hroles : roles.Nodup) :
    (roles.flatMap l.names).Nodup ↔
      ∀ role ∈ roles, ∀ other ∈ roles, role ≠ other → (l.names role).Disjoint (l.names other) := by
  constructor
  · exact fun h role hrole other hother => disjoint_of_nodup h hrole hother
  · intro h
    exact List.nodup_flatMap.2 ⟨fun role _ => (hl role).nodup, hroles.pairwise_of_forall_ne h⟩

lemma WellFormed.mem_keys (hl : l.WellFormed) {role : Role} {name : String} :
    some name ∈ (l.symbols role).map Value.key? ↔ name ∈ l.names role := by
  rw [hl.keys, List.mem_map_of_injective (Option.some_injective _)]

lemma WellFormed.isSome_key? (hl : l.WellFormed) {role : Role} {v : Value}
    (hv : v ∈ l.symbols role) : v.key?.isSome := by
  have hkey : v.key? ∈ (l.symbols role).map Value.key? := List.mem_map_of_mem hv
  rw [hl.keys] at hkey
  obtain ⟨name, _, hname⟩ := List.mem_map.1 hkey
  rw [← hname]
  rfl

end Layout

/-! ### Systems that answer from declared tables -/

namespace System

/-- A layout, or a versioned layout at one of its versions, that was made by its declarations. -/
inductive IsDeclared : System → Extra → Prop
  | layout {states parameters independent observed : Value} {l : Layout}
      (hbuild : Layout.build states parameters independent observed = .ok l)
      (identity : Option Nat) : IsDeclared (l.system identity) none
  | versioned {independent observed version : Value} {l₀ l : VersionedLayout} {layout : Layout}
      (hbuild : VersionedLayout.build independent observed = .ok l₀)
      (hchanges : Relation.ReflTransGen VersionedLayout.Changes l₀ l)
      (hversion : l.layoutAt version = .ok layout) (identity : Option Nat) :
      IsDeclared (l.system identity) (some version)

variable {s : System} {extra : Extra}

section Answers

variable {layoutAt : Extra → Except Failure Layout} {l : Layout} (h : s.AnsweredBy layoutAt)
  (hl : layoutAt extra = .ok l)
include h hl

lemma AnsweredBy.enumerate_eq {role : Role} (hrole : role ≠ .unknown) :
    s.enumerate extra role = .ok (l.symbols role) := by
  have hqueried : Interface.isQueried role = true := by
    cases role <;> first | rfl | exact absurd rfl hrole
  have hmethod : (s.container.symbols role).method? =
      some fun extra => do return .list ((← layoutAt extra).symbols role) := by
    rw [h.symbols]
    simp only [Interface.ofLayoutAt, hqueried, if_true]
    rfl
  unfold enumerate
  rw [if_neg hrole, hmethod]
  change ((layoutAt extra >>= fun l => pure (Value.list (l.symbols role))) >>= Value.iterate) = _
  rw [hl]
  rfl

lemma AnsweredBy.enumerate_of_mem {roles : List Role} (hroles : .unknown ∉ roles) :
    ∀ role ∈ roles, s.enumerate extra role = .ok (l.symbols role) := fun _ hrole =>
  h.enumerate_eq hl (ne_of_mem_of_not_mem hrole hroles)

lemma AnsweredBy.allSolvable_eq :
    s.allSolvable extra = disjointUnion [] (l.grouped [.state, .observed]) :=
  allSolvable_eq_of_enumerate (h.enumerate_of_mem hl (by decide))

lemma AnsweredBy.allSymbols_eq :
    s.allSymbols extra = disjointUnion [] (l.grouped Role.enumerated) :=
  allSymbols_eq_of_enumerate (h.enumerate_of_mem hl (by decide))

variable {v : Value} {name : String} (hkey : v.key? = some name)
include hkey

end Answers

namespace Overlap

/-- Two states, one of which has the name of a parameter. -/
def layout : Layout where
  states := ⟨[("x", .text "x"), ("y", .text "y")]⟩
  parameters := ⟨[("y", .text "y")]⟩

end Overlap

end System
end NamedSlots
