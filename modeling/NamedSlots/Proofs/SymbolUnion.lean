import Mathlib.Data.List.Nodup
import Mathlib.Tactic.Push
import NamedSlots.Proofs.Repeats
import NamedSlots.System.Host
import NamedSlots.System.Resolution

/-!
# Unions of enumerations

A system may enumerate the symbols of a role in any order and with any repeats. The union of its
enumerations is refused exactly if a name stands under two roles; otherwise it is their
concatenation without the symbols whose name stands before them.
-/

namespace NamedSlots

namespace Role

/-- The roles whose symbols are enumerated, in order. -/
def enumerated : List Role := [.state, .observed, .parameter, .independent]

end Role

namespace Value

/-- Whether two symbols have one name. -/
def sameName (v w : Value) : Bool := v.key? == w.key?

lemma isSymbol_iff {a b : Value} (hb : b.key?.isSome) : a.isSymbol b = true ↔ a.key? = b.key? := by
  obtain ⟨name, hname⟩ := Option.isSome_iff_exists.1 hb
  unfold isSymbol
  rw [hname]
  cases a.key? with
  | none => exact ⟨nofun, nofun⟩
  | some other => simp

end Value

/-! ### The union of symbols with their roles -/

/-- Symbols of one name have one role. -/
def HaveOneRole (groups : List (Role × Value)) : Prop :=
  ∀ g ∈ groups, ∀ g' ∈ groups, g.2.key? = g'.2.key? → g.1 = g'.1

instance (groups : List (Role × Value)) : Decidable (HaveOneRole groups) :=
  inferInstanceAs (Decidable (∀ g ∈ groups, ∀ g' ∈ groups, g.2.key? = g'.2.key? → g.1 = g'.1))

section Union

variable {seen groups rest : List (Role × Value)} {role : Role} {symbol : Value}

lemma HaveOneRole.of_subset (h : HaveOneRole groups) (hsubset : rest ⊆ groups) :
    HaveOneRole rest := fun g hg g' hg' => h g (hsubset hg) g' (hsubset hg')

lemma HaveOneRole.cons (h : HaveOneRole seen)
    (hrole : ∀ g ∈ seen, g.2.key? = symbol.key? → g.1 = role) :
    HaveOneRole ((role, symbol) :: seen) := by
  intro g hg g' hg' hkey
  rcases List.mem_cons.1 hg with rfl | hg <;> rcases List.mem_cons.1 hg' with rfl | hg'
  · rfl
  · exact (hrole g' hg' hkey.symm).symm
  · exact hrole g hg hkey
  · exact h g hg g' hg' hkey

/-- A name that was seen is found, at the first symbol that has it. -/
lemma exists_find?_isSymbol (hnamed : symbol.key?.isSome)
    (hmem : symbol.key? ∈ seen.map fun g => g.2.key?) :
    ∃ g ∈ seen, g.2.key? = symbol.key? ∧ (seen.find? fun g => g.2.isSymbol symbol) = some g := by
  obtain ⟨g, hg, hkey⟩ := List.mem_map.1 hmem
  have hfound : (seen.find? fun g => g.2.isSymbol symbol).isSome := by
    rw [List.find?_isSome]
    exact ⟨g, hg, (Value.isSymbol_iff hnamed).2 hkey⟩
  obtain ⟨first, hfind⟩ := Option.isSome_iff_exists.1 hfound
  have hsame : first.2.isSymbol symbol = true :=
    List.find?_some (p := fun g : Role × Value => g.2.isSymbol symbol) hfind
  exact ⟨first, List.mem_of_find?_eq_some hfind, (Value.isSymbol_iff hnamed).1 hsame, hfind⟩

/-- The first symbol of a union is refused if it was enumerated before, as a part of another role. -/
lemma disjointUnion_cons_of_mem (hnamed : symbol.key?.isSome)
    (hroles : ∀ g ∈ seen, g.2.key? = symbol.key? → g.1 ≠ role)
    (hmem : symbol.key? ∈ seen.map fun g => g.2.key?) (rest : List (Role × Value)) :
    ∃ first, disjointUnion seen ((role, symbol) :: rest) =
      .error (.ambiguousSymbol symbol [first, role]) := by
  obtain ⟨g, hg, hkey, hfind⟩ := exists_find?_isSymbol hnamed hmem
  refine ⟨g.1, ?_⟩
  rw [disjointUnion, hfind]
  exact if_neg (hroles g hg hkey)

lemma disjointUnion_cons_of_not_mem (hnamed : symbol.key?.isSome)
    (hnew : symbol.key? ∉ seen.map fun g => g.2.key?) (rest : List (Role × Value)) :
    disjointUnion seen ((role, symbol) :: rest) =
      (disjointUnion ((role, symbol) :: seen) rest).map (symbol :: ·) := by
  have hfind : (seen.find? fun g => g.2.isSymbol symbol) = none := by
    rw [List.find?_eq_none]
    intro g hg hsame
    exact hnew (List.mem_map.2 ⟨g, hg, (Value.isSymbol_iff hnamed).1 hsame⟩)
  rw [disjointUnion, hfind]
  dsimp only
  cases disjointUnion ((role, symbol) :: seen) rest <;> rfl

/-- A symbol that was enumerated before as a part of the same role is dropped. -/
lemma disjointUnion_cons_of_repeat (hnamed : symbol.key?.isSome)
    (hrole : ∀ g ∈ seen, g.2.key? = symbol.key? → g.1 = role)
    (hmem : symbol.key? ∈ seen.map fun g => g.2.key?) :
    disjointUnion seen ((role, symbol) :: rest) = disjointUnion seen rest := by
  obtain ⟨g, hg, hkey, hfind⟩ := exists_find?_isSymbol hnamed hmem
  rw [disjointUnion, hfind]
  exact if_pos (hrole g hg hkey)

/-- Whether no symbol that was seen has the name of a symbol. -/
def isNew (seen : List (Role × Value)) (v : Value) : Bool := !seen.any fun g => v.sameName g.2

lemma isNew_eq_true_iff {v : Value} :
    isNew seen v = true ↔ v.key? ∉ seen.map fun g => g.2.key? := by
  rw [isNew, Bool.not_eq_true', List.any_eq_false, List.mem_map]
  constructor
  · rintro h ⟨g, hg, hkey⟩
    exact h g hg (beq_iff_eq.2 hkey.symm)
  · exact fun h g hg hkey => h ⟨g, hg, (eq_of_beq hkey).symm⟩

/-- If every name has one role, the union lists the symbols whose names are new, each name once. -/
lemma disjointUnion_of_haveOneRole (hnamed : ∀ g ∈ groups, g.2.key?.isSome)
    (h : HaveOneRole (seen ++ groups)) :
    disjointUnion seen groups =
      .ok (((groups.map Prod.snd).filter (isNew seen)).eraseDupsBy Value.sameName) := by
  induction groups generalizing seen with
  | nil => rfl
  | cons g rest ih =>
    obtain ⟨role, symbol⟩ := g
    have hsymbol := hnamed _ List.mem_cons_self
    have hrest : ∀ g ∈ rest, g.2.key?.isSome := fun g hg => hnamed g (List.mem_cons_of_mem _ hg)
    by_cases hmem : symbol.key? ∈ seen.map fun g => g.2.key?
    · have hrole : ∀ g ∈ seen, g.2.key? = symbol.key? → g.1 = role := fun g hg hkey =>
        h g (List.mem_append_left _ hg) _ (List.mem_append_right _ List.mem_cons_self) hkey
      have hfewer : seen ++ rest ⊆ seen ++ (role, symbol) :: rest :=
        ((List.sublist_cons_self _ rest).append_left seen).subset
      have hold : ¬ isNew seen symbol = true := fun hnew => isNew_eq_true_iff.1 hnew hmem
      rw [disjointUnion_cons_of_repeat hsymbol hrole hmem, ih hrest (h.of_subset hfewer),
        List.map_cons, List.filter_cons_of_neg hold]
    · have hmoved : (role, symbol) :: seen ++ rest ⊆ seen ++ (role, symbol) :: rest :=
        List.perm_middle.symm.subset
      rw [disjointUnion_cons_of_not_mem hsymbol hmem, ih hrest (h.of_subset hmoved),
        List.map_cons, List.filter_cons_of_pos (isNew_eq_true_iff.2 hmem), List.eraseDupsBy_cons,
        List.filter_filter]
      refine congrArg (fun vs => Except.ok (symbol :: List.eraseDupsBy Value.sameName vs)) ?_
      refine List.filter_congr fun v _ => ?_
      rw [isNew, isNew, List.any_cons, Bool.not_or, Bool.decide_eq_false]

/-- If some name has two roles, the union is refused at a symbol of another role than its name had
before. -/
lemma disjointUnion_of_not_haveOneRole (hnamed : ∀ g ∈ groups, g.2.key?.isSome)
    (hseen : HaveOneRole seen) (h : ¬ HaveOneRole (seen ++ groups)) :
    ∃ symbol roles, disjointUnion seen groups = .error (.ambiguousSymbol symbol roles) := by
  induction groups generalizing seen with
  | nil =>
    rw [List.append_nil] at h
    exact absurd hseen h
  | cons g rest ih =>
    obtain ⟨role, symbol⟩ := g
    have hsymbol := hnamed _ List.mem_cons_self
    have hrest : ∀ g ∈ rest, g.2.key?.isSome := fun g hg => hnamed g (List.mem_cons_of_mem _ hg)
    have hmoved : seen ++ (role, symbol) :: rest ⊆ (role, symbol) :: seen ++ rest :=
      List.perm_middle.subset
    by_cases hrole : ∀ g ∈ seen, g.2.key? = symbol.key? → g.1 = role
    · by_cases hmem : symbol.key? ∈ seen.map fun g => g.2.key?
      · -- a repeat within its role adds nothing to what has been seen
        have hfewer : ¬ HaveOneRole (seen ++ rest) := by
          obtain ⟨first, hfirst, hkey⟩ := List.mem_map.1 hmem
          intro hone
          refine h ((hone.cons fun g hg hg' => ?_).of_subset hmoved)
          rw [← hrole first hfirst hkey]
          exact hone g hg first (List.mem_append_left _ hfirst) (hg'.trans hkey.symm)
        rw [disjointUnion_cons_of_repeat hsymbol hrole hmem]
        exact ih hrest hseen hfewer
      · have hmore : ¬ HaveOneRole ((role, symbol) :: seen ++ rest) :=
          fun hone => h (hone.of_subset hmoved)
        obtain ⟨other, roles, herror⟩ := ih hrest (hseen.cons hrole) hmore
        refine ⟨other, roles, ?_⟩
        rw [disjointUnion_cons_of_not_mem hsymbol hmem, herror]
        rfl
    · push Not at hrole
      obtain ⟨first, hfirst, hkey, hne⟩ := hrole
      have hother : ∀ g ∈ seen, g.2.key? = symbol.key? → g.1 ≠ role := by
        intro g hg hg' heq
        exact hne ((hseen first hfirst g hg (hkey.trans hg'.symm)).trans heq)
      have hmem : symbol.key? ∈ seen.map fun g => g.2.key? := List.mem_map.2 ⟨first, hfirst, hkey⟩
      obtain ⟨claim, herror⟩ := disjointUnion_cons_of_mem hsymbol hother hmem rest
      exact ⟨symbol, _, herror⟩

end Union

/-! ### The union of the enumerations of some roles -/

/-- Some name is enumerated under two roles. -/
def ShareName (symbols : Role → List Value) (roles : List Role) : Prop :=
  ∃ role ∈ roles, ∃ other ∈ roles, role ≠ other ∧
    ∃ name, some name ∈ (symbols role).map Value.key? ∧ some name ∈ (symbols other).map Value.key?

/-- What becomes of the enumerations of some roles: they are ambiguous if two of them share a name,
and else they are listed one after the other without the later repeats of a name, so that names
differ, none is lost and the order of first appearance is kept. -/
structure UnitedFrom (symbols : Role → List Value) (roles : List Role)
    (union : Except Failure (List Value)) : Prop where
  ambiguous : (∃ symbol claims, union = .error (.ambiguousSymbol symbol claims)) ↔
    ShareName symbols roles
  united : ¬ ShareName symbols roles → ∃ vs, union = .ok vs ∧
    vs = (roles.flatMap symbols).eraseDupsBy Value.sameName ∧
    (vs.map Value.key?).Nodup ∧
    (∀ name, some name ∈ vs.map Value.key? ↔ some name ∈ (roles.flatMap symbols).map Value.key?) ∧
    vs.Sublist (roles.flatMap symbols)

/-- The symbols of some roles, each with its role. -/
def groupedBy (symbols : Role → List Value) (roles : List Role) : List (Role × Value) :=
  roles.flatMap fun role => (symbols role).map fun symbol => (role, symbol)

section Grouped

variable {symbols : Role → List Value} {roles : List Role}

lemma mem_groupedBy {g : Role × Value} :
    g ∈ groupedBy symbols roles ↔ g.1 ∈ roles ∧ g.2 ∈ symbols g.1 := by
  unfold groupedBy
  rw [List.mem_flatMap]
  constructor
  · rintro ⟨role, hrole, hg⟩
    obtain ⟨symbol, hsymbol, rfl⟩ := List.mem_map.1 hg
    exact ⟨hrole, hsymbol⟩
  · rintro ⟨hrole, hsymbol⟩
    exact ⟨g.1, hrole, List.mem_map.2 ⟨g.2, hsymbol, rfl⟩⟩

lemma map_snd_groupedBy : (groupedBy symbols roles).map Prod.snd = roles.flatMap symbols := by
  unfold groupedBy
  rw [List.map_flatMap]
  simp only [List.map_map, Function.comp_def, List.map_id']

variable (hnamed : ∀ role ∈ roles, ∀ v ∈ symbols role, v.key?.isSome)
include hnamed

lemma haveOneRole_groupedBy_iff :
    HaveOneRole (groupedBy symbols roles) ↔ ¬ ShareName symbols roles := by
  constructor
  · rintro h ⟨role, hrole, other, hother, hne, name, hname, hname'⟩
    obtain ⟨v, hv, hkey⟩ := List.mem_map.1 hname
    obtain ⟨w, hw, hkey'⟩ := List.mem_map.1 hname'
    exact hne (h (role, v) (mem_groupedBy.2 ⟨hrole, hv⟩) (other, w)
      (mem_groupedBy.2 ⟨hother, hw⟩) (hkey.trans hkey'.symm))
  · intro h g hg g' hg' hkey
    obtain ⟨hrole, hv⟩ := mem_groupedBy.1 hg
    obtain ⟨hother, hw⟩ := mem_groupedBy.1 hg'
    obtain ⟨name, hname⟩ := Option.isSome_iff_exists.1 (hnamed g.1 hrole g.2 hv)
    by_contra hne
    exact h ⟨g.1, hrole, g'.1, hother, hne, name, List.mem_map.2 ⟨g.2, hv, hname⟩,
      List.mem_map.2 ⟨g'.2, hw, hkey.symm.trans hname⟩⟩

lemma disjointUnion_groupedBy :
    UnitedFrom symbols roles (disjointUnion [] (groupedBy symbols roles)) := by
  have hsymbols : ∀ g ∈ groupedBy symbols roles, g.2.key?.isSome := fun g hg =>
    hnamed g.1 (mem_groupedBy.1 hg).1 g.2 (mem_groupedBy.1 hg).2
  have hall : (roles.flatMap symbols).filter (isNew []) = roles.flatMap symbols :=
    List.filter_eq_self.2 fun _ _ => rfl
  have hunited (h : ¬ ShareName symbols roles) : disjointUnion [] (groupedBy symbols roles) =
      .ok ((roles.flatMap symbols).eraseDupsBy Value.sameName) := by
    rw [disjointUnion_of_haveOneRole hsymbols ((haveOneRole_groupedBy_iff hnamed).2 h),
      map_snd_groupedBy, hall]
  have hkeys : ((roles.flatMap symbols).eraseDupsBy Value.sameName).map Value.key? =
      ((roles.flatMap symbols).map Value.key?).eraseDups := map_eraseDupsBy Value.key? _
  refine ⟨⟨?_, fun h => ?_⟩, fun h => ⟨_, hunited h, rfl, ?_, fun name => ?_, ?_⟩⟩
  · rintro ⟨symbol, claims, herror⟩
    by_contra h
    rw [hunited h] at herror
    cases herror
  · have htwo : ¬ HaveOneRole ([] ++ groupedBy symbols roles) := fun hone =>
      (haveOneRole_groupedBy_iff hnamed).1 hone h
    exact disjointUnion_of_not_haveOneRole hsymbols nofun htwo
  · rw [hkeys]
    exact nodup_eraseDups _
  · rw [hkeys, List.mem_eraseDups]
  · exact eraseDupsBy_sublist _ _

end Grouped

namespace System

section Enumerate

variable {s : System} {extra : Extra} {symbols : Role → List Value}

lemma group_eq_of_enumerate {role : Role} (h : s.enumerate extra role = .ok (symbols role)) :
    s.group extra role = .ok (groupedBy symbols [role]) := by
  unfold group
  rw [h]
  exact congrArg Except.ok (List.append_nil _).symm

lemma allSymbols_eq_of_enumerate
    (h : ∀ role ∈ Role.enumerated, s.enumerate extra role = .ok (symbols role)) :
    s.allSymbols extra = disjointUnion [] (groupedBy symbols Role.enumerated) := by
  unfold allSymbols
  rw [group_eq_of_enumerate (h .state (by decide)), group_eq_of_enumerate (h .observed (by decide)),
    group_eq_of_enumerate (h .parameter (by decide)),
    group_eq_of_enumerate (h .independent (by decide))]
  change disjointUnion [] (groupedBy symbols [.state] ++ groupedBy symbols [.observed] ++
    groupedBy symbols [.parameter] ++ groupedBy symbols [.independent]) = _
  simp only [groupedBy, Role.enumerated, List.flatMap_cons, List.flatMap_nil, List.append_nil,
    List.append_assoc]

lemma allSolvable_eq_of_enumerate
    (h : ∀ role ∈ [Role.state, .observed], s.enumerate extra role = .ok (symbols role)) :
    s.allSolvable extra = disjointUnion [] (groupedBy symbols [.state, .observed]) := by
  unfold allSolvable
  rw [group_eq_of_enumerate (h .state (by decide)), group_eq_of_enumerate (h .observed (by decide))]
  change disjointUnion [] (groupedBy symbols [.state] ++ groupedBy symbols [.observed]) = _
  simp only [groupedBy, List.flatMap_cons, List.flatMap_nil, List.append_nil]

end Enumerate

/-- A system enumerates named symbols under some roles. -/
def Enumerates (s : System) (extra : Extra) (symbols : Role → List Value) (roles : List Role) :
    Prop :=
  ∀ role ∈ roles, s.enumerate extra role = .ok (symbols role) ∧ ∀ v ∈ symbols role, v.key?.isSome

/-- Whatever named symbols a system enumerates, in any order and with any repeats: all symbols are
the union of its states, observed symbols, parameters and independent variables, and those that are
solved for the union of its states and observed symbols. -/
theorem enumerations_united (s : System) (extra : Extra) (symbols : Role → List Value) :
    (s.Enumerates extra symbols Role.enumerated →
        UnitedFrom symbols Role.enumerated (s.allSymbols extra)) ∧
      (s.Enumerates extra symbols [.state, .observed] →
        UnitedFrom symbols [.state, .observed] (s.allSolvable extra)) := by
  constructor
  · intro h
    rw [allSymbols_eq_of_enumerate fun role hrole => (h role hrole).1]
    exact disjointUnion_groupedBy fun role hrole => (h role hrole).2
  · intro h
    rw [allSolvable_eq_of_enumerate fun role hrole => (h role hrole).1]
    exact disjointUnion_groupedBy fun role hrole => (h role hrole).2

namespace Relisting

/-- A symbol without indices. -/
def named (name : String) : Value := .expr (.symbol (some name))

def x : Value := named "x"

def y : Value := named "y"

def e : Value := named "e"

/-- The states are listed with a repeat, and one of them is a parameter as well. -/
def listed : Role → List Value
  | .state => [x, y, x]
  | .observed => [e]
  | .parameter => [y]
  | _ => []

def host : Host where
  attributes := [Role.state, .observed, .parameter].map fun role =>
    (.symbols role, .method (.listing (.always (.list (listed role)))))

def system : System := ⟨host.toInterface none, host.toInterface none⟩

lemma enumerates (roles : List Role) (h : .unknown ∉ roles) :
    system.Enumerates none listed roles := by
  intro role hrole
  cases role with
  | unknown => exact absurd hrole h
  | _ => exact ⟨rfl, by decide⟩

theorem enumerations_united_relisting :
    system.Enumerates none listed Role.enumerated ∧
      system.Enumerates none listed [.state, .observed] ∧
      (∃ symbol claims, system.allSymbols none = .error (.ambiguousSymbol symbol claims)) ∧
      system.allSolvable none = .ok [x, y, e] := by
  have hall := enumerates Role.enumerated (by decide)
  have hsolvable := enumerates [.state, .observed] (by decide)
  have hshared : ShareName listed Role.enumerated :=
    ⟨.state, by decide, .parameter, by decide, by decide, "y", by decide, by decide⟩
  have hapart : ¬ ShareName listed [.state, .observed] :=
    (haveOneRole_groupedBy_iff (by decide)).1 (by decide)
  obtain ⟨vs, hvs, hdeduplicated, -⟩ :=
    ((enumerations_united system none listed).2 hsolvable).united hapart
  refine ⟨hall, hsolvable, ((enumerations_united system none listed).1 hall).ambiguous.2 hshared, ?_⟩
  rw [hvs, hdeduplicated]
  rfl

end Relisting

end System
end NamedSlots
