import NamedSlots.Proofs.BuiltTables

/-!
# Symbols that stand for one

Layouts know a symbol by its name, and other layouts with the same names in the same places answer
alike. So two symbols of one form and one name have the same role and the same place, or the
question fails for both with the same kind of failure.
-/

namespace NamedSlots

/-- Two computations that both succeed, with related results, or that both fail and are reported
as failures of one kind. -/
inductive Agree {α β : Type} (R : α → β → Prop) : Except Failure α → Except Failure β → Prop
  | ok {a : α} {b : β} : R a b → Agree R (.ok a) (.ok b)
  | error {f g : Failure} : f.report.1 = g.report.1 → Agree R (.error f) (.error g)

namespace Agree

variable {α β γ δ : Type} {R : α → β → Prop} {S : γ → δ → Prop}

lemma refl (x : Except Failure α) : Agree Eq x x := by
  cases x with
  | error f => exact .error rfl
  | ok a => exact .ok rfl

lemma imp {R' : α → β → Prop} {x : Except Failure α} {y : Except Failure β} (h : Agree R x y)
    (himp : ∀ a b, R a b → R' a b) : Agree R' x y := by
  cases h with
  | ok h => exact .ok (himp _ _ h)
  | error h => exact .error h

lemma bind {x : Except Failure α} {y : Except Failure β} {f : α → Except Failure γ}
    {g : β → Except Failure δ} (h : Agree R x y) (hfg : ∀ a b, R a b → Agree S (f a) (g b)) :
    Agree S (x >>= f) (y >>= g) := by
  cases h with
  | ok h => exact hfg _ _ h
  | error h => exact .error h

/-- Steps that keep two states related on related items run alike over lists of these. -/
lemma foldlM {f : γ → α → Except Failure γ} {g : δ → β → Except Failure δ}
    (hstep : ∀ s t a b, S s t → R a b → Agree S (f s a) (g t b)) {as : List α} {bs : List β}
    (h : List.Forall₂ R as bs) {s : γ} {t : δ} (hst : S s t) :
    Agree S (as.foldlM f s) (bs.foldlM g t) := by
  induction h generalizing s t with
  | nil => exact .ok hst
  | @cons a b as bs hab _ ih =>
    rw [List.foldlM_cons, List.foldlM_cons]
    exact (hstep s t a b hst hab).bind fun s' t' hst' => ih hst'

end Agree

/-! ### Reports -/

namespace Failure

lemma report_of_text {f : Failure} (hf : ∀ kind, f ≠ .fault kind) :
    f.report.1 = if f.text?.isSome then f.kind else .outOfRange := by
  unfold report
  split
  · rename_i kind
    exact absurd rfl (hf kind)
  · split
    · rename_i htext
      rw [htext]
      rfl
    · rename_i htext
      rw [htext]
      rfl

lemma isSome_do {α : Type} (o : Option α) (g : α → String) :
    (do let a ← o; return g a : Option String).isSome = o.isSome := by
  cases o <;> rfl

/-- Failures of one kind are reported alike when both of their texts can be written or neither. -/
lemma report_congr {f g : Failure} (hf : ∀ kind, f ≠ .fault kind) (hg : ∀ kind, g ≠ .fault kind)
    (hkind : f.kind = g.kind) (htext : f.text?.isSome = g.text?.isSome) :
    f.report.1 = g.report.1 := by
  rw [report_of_text hf, report_of_text hg, hkind, htext]

end Failure

/-! ### Symbols and layouts with the same names -/

/-- Symbols of one form and one name, of which both have a text or neither. -/
structure Value.SameSymbol (v w : Value) : Prop where
  key : v.key? = w.key?
  form : Classifier.standard.form v = Classifier.standard.form w
  text : v.text?.isSome = w.text?.isSome

namespace Value.SameSymbol

variable {v w : Value}

lemma refl (v : Value) : v.SameSymbol v := ⟨rfl, rfl, rfl⟩

lemma symm (h : v.SameSymbol w) : w.SameSymbol v := ⟨h.key.symm, h.form.symm, h.text.symm⟩

lemma report_unexpandedArray (h : v.SameSymbol w) :
    (Failure.unexpandedArray v).report.1 = (Failure.unexpandedArray w).report.1 := by
  refine Failure.report_congr nofun nofun rfl ?_
  rw [Failure.text?, Failure.text?, Option.isSome_map, Option.isSome_map, h.text]

lemma report_unnamedEntry (h : v.SameSymbol w) (table : String) :
    (Failure.unnamedEntry table v).report.1 = (Failure.unnamedEntry table w).report.1 := by
  refine Failure.report_congr nofun nofun rfl ?_
  rw [Failure.text?, Failure.text?, Option.isSome_map, Option.isSome_map, h.text]

lemma report_unnamedObserved (h : v.SameSymbol w) :
    (Failure.unnamedObserved v).report.1 = (Failure.unnamedObserved w).report.1 := by
  refine Failure.report_congr nofun nofun rfl ?_
  rw [Failure.text?, Failure.text?, Option.isSome_map, Option.isSome_map, h.text]

lemma report_ambiguousSymbol (h : v.SameSymbol w) (roles : List Role) :
    (Failure.ambiguousSymbol v roles).report.1 = (Failure.ambiguousSymbol w roles).report.1 := by
  refine Failure.report_congr nofun nofun rfl ?_
  exact (Failure.isSome_do _ _).trans (h.text.trans (Failure.isSome_do _ _).symm)

lemma report_unknownSymbol (h : v.SameSymbol w) (reason : String) :
    (Failure.unknownSymbol v reason).report.1 = (Failure.unknownSymbol w reason).report.1 := by
  refine Failure.report_congr nofun nofun rfl ?_
  exact (Failure.isSome_do _ _).trans (h.text.trans (Failure.isSome_do _ _).symm)

end Value.SameSymbol

namespace Layout

variable {l l' : Layout} {v w : Value}

/-- Layouts with the same names in the same places. -/
def SameNames (l l' : Layout) : Prop :=
  ∀ role, l.names role = l'.names role

lemma SameNames.has_eq (h : l.SameNames l') (hkey : v.key? = w.key?) (role : Role) :
    l.has role v = l'.has role w := by
  rw [Bool.eq_iff_iff, has_iff, has_iff, hkey, h role]

lemma SameNames.rolesOf_eq (h : l.SameNames l') (hkey : v.key? = w.key?) :
    l.rolesOf v = l'.rolesOf w := by
  unfold rolesOf
  exact List.filter_congr fun role _ => h.has_eq hkey role

lemma SameNames.place?_eq (h : l.SameNames l') (hkey : v.key? = w.key?) (role : Role) :
    l.place? role v = l'.place? role w := by
  have hslot {t t' : SlotTable} (hnames : t.names = t'.names) : t.find? v = t'.find? w := by
    unfold SlotTable.find?
    rw [hkey]
    refine Option.bind_congr fun name _ => ?_
    rw [SlotTable.place?, SlotTable.place?, hnames]
  cases role with
  | state => exact hslot (h .state)
  | parameter => exact hslot (h .parameter)
  | independent => exact hslot (h .independent)
  | observed => rfl
  | unknown => rfl

end Layout

namespace Bound.AnsweredBy

variable {b b' : Bound} {l l' : Layout} {v w : Value}

variable (h : b.AnsweredBy l) (h' : b'.AnsweredBy l') (hnames : l.SameNames l')
  (hvw : v.SameSymbol w)
include h h' hnames hvw

/-- Symbols that stand for one are classified alike. -/
lemma classify_agree : Agree Eq (b.classify v) (b'.classify w) := by
  cases hform : Classifier.standard.form v with
  | notSymbolic =>
    unfold Bound.classify System.classify
    rw [← hvw.form, hform]
    exact .ok rfl
  | array =>
    unfold Bound.classify System.classify
    rw [← hvw.form, hform]
    exact .error hvw.report_unexpandedArray
  | scalar =>
    rw [h.classify_eq hform, h'.classify_eq (hvw.form ▸ hform), hnames.rolesOf_eq hvw.key]
    rcases l'.rolesOf w with _ | ⟨role, _ | ⟨other, roles⟩⟩
    · exact .ok rfl
    · exact .ok rfl
    · exact .error (hvw.report_ambiguousSymbol _)

/-- Symbols that stand for one have the same place. -/
lemma locate_agree : Agree Eq (b.locate v) (b'.locate w) := by
  have hindex {role : Role} (hstored : Interface.isStored role = true) :
      Agree Eq (b.system.indexOf b.version role v) (b'.system.indexOf b'.version role w) := by
    rw [h.indexOf_eq_match hstored, h'.indexOf_eq_match hstored, hnames.place?_eq hvw.key]
    cases l'.place? role w with
    | some n => exact .ok rfl
    | none => exact .error (hvw.report_unknownSymbol _)
  refine (classify_agree h h' hnames hvw).bind fun role _ hrole => ?_
  cases hrole
  cases role with
  | state => exact hindex rfl
  | parameter => exact hindex rfl
  | independent => exact .error (hvw.report_unknownSymbol _)
  | observed => exact .error (hvw.report_unknownSymbol _)
  | unknown => exact .error (hvw.report_unknownSymbol _)

end Bound.AnsweredBy
end NamedSlots
