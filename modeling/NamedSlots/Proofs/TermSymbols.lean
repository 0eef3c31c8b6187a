import NamedSlots.Proofs.ArrayExpansion
import NamedSlots.Proofs.SymbolAgreement

/-!
# Symbols of terms and of expressions

A symbol, a matrix symbol or an element of one, as a term, has the name, the shape, the leaves and
the request of the expression that it converts to. So layouts that are declared with such terms and
with the converted expressions answer alike, whichever of the two forms a symbol is given in.
-/

namespace NamedSlots

/-- The terms that have a name. -/
inductive Term.IsNamed : Term → Prop
  | symbol (name : String) : IsNamed (.symbol name)
  | element (name : String) (rows cols i j : Int) : IsNamed (.element name rows cols i j)
  | matrix (name : String) (rows cols : Int) : IsNamed (.matrix name rows cols)

namespace Value

/-- A named term beside the expression that it converts to. -/
inductive Converts : Value → Value → Prop
  | term {t : Term} {e : Expr} : t.IsNamed → t.toExpr = .ok e → Converts (.term t) (.expr e)

/-- The rows and columns of the elements of a matrix, row by row. -/
def cells (rows cols : Int) : List (Nat × Nat) :=
  (List.range rows.toNat).product (List.range cols.toNat)

lemma leaves_matrix_cells (name : String) (rows cols : Int) :
    (Value.term (.matrix name rows cols)).leaves =
      (cells rows cols).map fun cell => .term (.element name rows cols cell.1 cell.2) := by
  rw [leaves_matrix_eq, cells, List.product, List.map_flatMap]
  simp only [List.map_map]
  rfl

lemma elements_array_cells (name : String) (rows cols : Int) :
    (Expr.array (some name) [rows, cols]).elements =
      (cells rows cols).map fun cell =>
        .symbol (some name) [.int (cell.1 : Nat), .int (cell.2 : Nat)] := by
  rw [Expr.elements_matrix rfl, cells, List.product, List.map_flatMap]
  simp only [List.map_map]
  rfl

namespace Converts

variable {v w : Value}

lemma symbol (name : String) :
    Converts (.term (.symbol name)) (.expr (.symbol (some name))) := .term (.symbol name) rfl

lemma element (name : String) (rows cols i j : Int) :
    Converts (.term (.element name rows cols i j)) (.expr (.symbol (some name) [.int i, .int j])) :=
  .term (.element name rows cols i j) rfl

lemma matrix (name : String) (rows cols : Int) :
    Converts (.term (.matrix name rows cols)) (.expr (.array (some name) [.int rows, .int cols])) :=
  .term (.matrix name rows cols) rfl

lemma name?_eq (h : v.Converts w) :
    Classifier.standard.name? v = Classifier.standard.name? w := by
  obtain ⟨hnamed, hexpr⟩ := h
  cases hnamed with
  | symbol name =>
    cases hexpr
    exact congrArg some (Text.IndexedName.format_nil name).symm
  | element name rows cols i j =>
    cases hexpr
    rfl
  | matrix name rows cols =>
    cases hexpr
    rfl

lemma form_eq (h : v.Converts w) : Classifier.standard.form v = Classifier.standard.form w := by
  obtain ⟨hnamed, hexpr⟩ := h
  cases hnamed <;> cases hexpr <;> rfl

lemma shapeOf_eq (h : v.Converts w) :
    Classifier.standard.shapeOf v = Classifier.standard.shapeOf w := by
  obtain ⟨hnamed, hexpr⟩ := h
  cases hnamed <;> cases hexpr <;> rfl

lemma isSome_text? (h : v.Converts w) : v.text?.isSome ∧ w.text?.isSome := by
  obtain ⟨hnamed, hexpr⟩ := h
  cases hnamed <;> cases hexpr <;> exact ⟨rfl, rfl⟩

lemma sameSymbol (h : v.Converts w) : v.SameSymbol w where
  key := by
    unfold Value.key?
    rw [h.form_eq, h.name?_eq]
  form := h.form_eq
  text := h.isSome_text?.1.trans h.isSome_text?.2.symm

/-- Symbols in either form have texts, and so have lists of them. -/
lemma isSome_texts {vs ws : List Value} (h : List.Forall₂ Converts vs ws) :
    (allTexts? vs).isSome ∧ (allTexts? ws).isSome := by
  have hcons {v : Value} {vs : List Value} (hv : v.text?.isSome) (hvs : (allTexts? vs).isSome) :
      (allTexts? (v :: vs)).isSome := by
    obtain ⟨text, htext⟩ := Option.isSome_iff_exists.1 hv
    obtain ⟨texts, htexts⟩ := Option.isSome_iff_exists.1 hvs
    rw [allTexts?, htext, htexts]
    rfl
  induction h with
  | nil => exact ⟨rfl, rfl⟩
  | cons hvw _ ih =>
    exact ⟨hcons hvw.isSome_text?.1 ih.1, hcons hvw.isSome_text?.2 ih.2⟩

lemma toExpr_eq {e : Expr} (h : v.Converts (.expr e)) : v.toExpr = .ok e := by
  cases h with
  | term _ hexpr => exact hexpr

/-- The leaves of a matrix correspond to the elements of its array, row by row. -/
lemma leaves_matrix_converts (name : String) (rows cols : Int) :
    List.Forall₂ Converts (Value.term (.matrix name rows cols)).leaves
      (Value.expr (.array (some name) [.int rows, .int cols])).leaves := by
  rw [leaves_matrix_cells, leaves_array rfl, elements_array_cells, List.map_map,
    List.forall₂_map_left_iff, List.forall₂_map_right_iff, List.forall₂_same]
  exact fun cell _ => element name rows cols cell.1 cell.2

/-- The leaves of both forms correspond, and the one convert to the other. -/
lemma exists_leaves (h : v.Converts w) : ∃ (leaves : List Value) (es : List Expr),
    Classifier.standard.expand v = .ok leaves ∧
      Classifier.standard.expand w = .ok (es.map Value.expr) ∧
      List.Forall₂ (fun leaf e => Converts leaf (.expr e)) leaves es := by
  obtain ⟨hnamed, hexpr⟩ := h
  cases hnamed with
  | symbol name =>
    cases hexpr
    exact ⟨_, [_], rfl, rfl, .cons (symbol name) .nil⟩
  | element name rows cols i j =>
    cases hexpr
    exact ⟨_, [_], rfl, rfl, .cons (element name rows cols i j) .nil⟩
  | matrix name rows cols =>
    cases hexpr
    have hleaves := leaves_matrix_converts name rows cols
    rw [leaves_array rfl, List.forall₂_map_right_iff] at hleaves
    exact ⟨_, _, rfl, rfl, hleaves⟩

/-- The names of converted leaves are requested alike. -/
lemma sameAll_ofNamed {vs ws : List Value} (h : List.Forall₂ Converts vs ws) :
    Request.sameAll (vs.map .ofNamed) (ws.map .ofNamed) = true := by
  induction h with
  | nil => rfl
  | cons hvw _ ih =>
    refine Bool.and_eq_true_iff.2 ⟨?_, ih⟩
    unfold Request.ofNamed
    rw [hvw.sameSymbol.key]
    exact beq_self_eq_true _

/-- Both forms have requests, and these are equal. -/
lemma exists_request (h : v.Converts w) : ∃ q r : Request,
    Request.ofValue Classifier.standard v = .ok q ∧
      Request.ofValue Classifier.standard w = .ok r ∧ (q == r) = true := by
  obtain ⟨hnamed, hexpr⟩ := h
  cases hnamed with
  | symbol name =>
    cases hexpr
    refine ⟨_, _, rfl, rfl, ?_⟩
    change (name == Text.IndexedName.format name []) = true
    rw [Text.IndexedName.format_nil]
    exact beq_self_eq_true name
  | element name rows cols i j =>
    cases hexpr
    exact ⟨_, _, rfl, rfl, beq_self_eq_true (Text.IndexedName.format name [i, j])⟩
  | matrix name rows cols =>
    cases hexpr
    have hkeys {u : Value} (hu : u.IsVariable) : ∀ x ∈ u.leaves, x.key?.isSome :=
      fun x hx => hu.isSome_key? hx
    refine ⟨_, _, Request.ofValue_leaves rfl rfl (hkeys (.matrix name rows cols)),
      Request.ofValue_leaves rfl rfl (hkeys (.array rfl)), ?_⟩
    exact Bool.and_eq_true_iff.2
      ⟨Index.beq_iff.2 rfl, sameAll_ofNamed (leaves_matrix_converts name rows cols)⟩

end Converts

/-- Definitions of named terms beside definitions of their conversions, which convert to the same
expressions. -/
inductive DefinitionsConvert : Value → Value → Prop
  | none : DefinitionsConvert .none .none
  | dict {ps qs : List (Value × Value)} :
      List.Forall₂ (fun p q => p.1.Converts q.1 ∧ p.2.toExpr = q.2.toExpr) ps qs →
        DefinitionsConvert (.dict ps) (.dict qs)

end Value

/-! ### Tables and layouts of both forms -/

lemma Failure.isSome_severalNames {vs : List Value} (h : (Value.allTexts? vs).isSome) :
    (Failure.severalIndependentNames vs).text?.isSome := by
  obtain ⟨texts, htexts⟩ := Option.isSome_iff_exists.1 h
  rw [Failure.text?, Value.text?, htexts]
  rfl

namespace SlotTable

/-- Tables with the same names, of symbols in both forms. -/
def Converts (t t' : SlotTable) : Prop :=
  List.Forall₂ (fun a b => a.1 = b.1 ∧ a.2.Converts b.2) t.entries t'.entries

variable {t t' : SlotTable} {v w : Value}

lemma Converts.names_eq (h : t.Converts t') : t.names = t'.names := by
  unfold names
  rw [← List.forall₂_eq_eq_eq, List.forall₂_map_left_iff, List.forall₂_map_right_iff]
  exact h.imp fun a b hab => hab.1

lemma Converts.symbols (h : t.Converts t') :
    List.Forall₂ Value.Converts t.symbols t'.symbols := by
  unfold SlotTable.symbols
  rw [List.forall₂_map_left_iff, List.forall₂_map_right_iff]
  exact h.imp fun a b hab => hab.2

lemma insert_agree (table : String) (ht : t.Converts t') (hvw : v.Converts w) :
    Agree Converts (t.insert table v) (t'.insert table w) := by
  have hsymbol := hvw.sameSymbol
  unfold insert
  rw [← hsymbol.key]
  cases v.key? with
  | none => exact .error (hsymbol.report_unnamedEntry table)
  | some name =>
    dsimp only
    rw [place?, place?, ht.names_eq]
    split
    · exact .error rfl
    · exact .ok (List.rel_append ht (.cons ⟨rfl, hvw⟩ .nil))

lemma insertAll_agree (table : String) (ht : t.Converts t') (hvw : v.Converts w) :
    Agree Converts (t.insertAll table v) (t'.insertAll table w) := by
  obtain ⟨leaves, es, hv, hw, hleaves⟩ := hvw.exists_leaves
  unfold insertAll
  rw [hv, hw, Except.ok_bind, Except.ok_bind]
  refine Agree.foldlM (R := Value.Converts) (fun _ _ _ _ hs hab => insert_agree table hs hab) ?_ ht
  exact List.forall₂_map_right_iff.2 hleaves

lemma ofSymbols_agree (table : String) {vs ws : List Value} (h : List.Forall₂ Value.Converts vs ws) :
    Agree Converts (ofSymbols table vs) (ofSymbols table ws) :=
  Agree.foldlM (R := Value.Converts) (fun _ _ _ _ hs hab => insertAll_agree table hs hab) h .nil

lemma independent_agree (h : List.Forall₂ Value.Converts v.declared w.declared) :
    Agree Converts (independent v) (independent w) := by
  refine (ofSymbols_agree "independent variable" h).bind fun t t' ht => ?_
  have hsize : t.size = t'.size := ht.length_eq
  rw [hsize]
  split
  · obtain ⟨hleft, hright⟩ := Value.Converts.isSome_texts ht.symbols
    exact .error (Failure.report_congr nofun nofun rfl
      ((Failure.isSome_severalNames hleft).trans (Failure.isSome_severalNames hright).symm))
  · exact .ok ht

end SlotTable

namespace DefinitionTable

lemma insert_agree {t t' : DefinitionTable} (ht : t.definitions = t'.definitions)
    {p q : Value × Value} (hkey : p.1.Converts q.1) (hexpr : p.2.toExpr = q.2.toExpr) :
    Agree (fun t t' => t.definitions = t'.definitions) (t.insert p) (t'.insert q) := by
  have hsymbol := hkey.sameSymbol
  unfold insert
  rw [← hsymbol.key, ← ht, ← hexpr]
  cases p.1.key? with
  | none => exact .error hsymbol.report_unnamedObserved
  | some name =>
    dsimp only
    split
    · exact .error rfl
    · refine (Agree.refl _).bind fun e _ he => ?_
      cases he
      refine .ok ?_
      change (t.entries ++ [_]).map _ = (t'.entries ++ [_]).map _
      rw [List.map_append, List.map_append]
      exact congrArg (· ++ [(name, e)]) ht

lemma ofValue_agree {v w : Value} (h : v.DefinitionsConvert w) :
    Agree (fun t t' => t.definitions = t'.definitions) (ofValue v) (ofValue w) := by
  cases h with
  | none => exact .ok rfl
  | dict h => exact Agree.foldlM (fun _ _ _ _ hs hpq => insert_agree hs hpq.1 hpq.2) h rfl

end DefinitionTable

namespace Layout

/-- Layouts that classify and locate every symbol alike, in either of its forms. -/
def AnswerAlike (l l' : Layout) : Prop :=
  ∀ (identity identity' : Option Nat) (v w : Value), v = w ∨ v.Converts w ∨ w.Converts v →
    Agree Eq ((l.bound identity).classify v) ((l'.bound identity').classify w) ∧
      Agree Eq ((l.bound identity).locate v) ((l'.bound identity').locate w)

lemma SameNames.answerAlike {l l' : Layout} (h : l.SameNames l') : l.AnswerAlike l' := by
  intro identity identity' v w hvw
  have hsymbol : v.SameSymbol w := by
    rcases hvw with rfl | hvw | hvw
    · exact .refl v
    · exact hvw.sameSymbol
    · exact hvw.sameSymbol.symm
  exact ⟨(l.answeredBy identity).classify_agree (l'.answeredBy identity') h hsymbol,
    (l.answeredBy identity).locate_agree (l'.answeredBy identity') h hsymbol⟩

/-- Declarations in both forms give layouts with the same names, or fail alike. -/
lemma build_agree {states states' parameters parameters' independent independent' observed
      observed' : Value}
    (hs : List.Forall₂ Value.Converts states.declared states'.declared)
    (hp : List.Forall₂ Value.Converts parameters.declared parameters'.declared)
    (hi : List.Forall₂ Value.Converts independent.declared independent'.declared)
    (ho : observed.DefinitionsConvert observed') :
    Agree SameNames (build states parameters independent observed)
      (build states' parameters' independent' observed') := by
  have htables : Agree SameNames
      (do
        let s ← SlotTable.ofSymbols "variable" states.declared
        let p ← SlotTable.ofSymbols "parameter" parameters.declared
        let i ← SlotTable.independent independent
        return (⟨s, p, i, ← DefinitionTable.ofValue observed⟩ : Layout))
      (do
        let s ← SlotTable.ofSymbols "variable" states'.declared
        let p ← SlotTable.ofSymbols "parameter" parameters'.declared
        let i ← SlotTable.independent independent'
        return (⟨s, p, i, ← DefinitionTable.ofValue observed'⟩ : Layout)) := by
    refine (SlotTable.ofSymbols_agree _ hs).bind fun s s' hss => ?_
    refine (SlotTable.ofSymbols_agree _ hp).bind fun p p' hpp => ?_
    refine (SlotTable.independent_agree hi).bind fun i i' hii => ?_
    refine (DefinitionTable.ofValue_agree ho).bind fun o o' hoo => .ok fun role => ?_
    cases role with
    | state => exact hss.names_eq
    | parameter => exact hpp.names_eq
    | independent => exact hii.names_eq
    | observed =>
      change o.named.map Prod.fst = o'.named.map Prod.fst
      rw [DefinitionTable.names_named, DefinitionTable.names_named, hoo]
    | unknown => rfl
  cases ho with
  | none => exact htables
  | dict _ => exact htables

end Layout

/-- A named term and the expression that it converts to have the same name, shape, request and
leaves. Layouts declared with the ones and with the others fail alike, or answer alike. -/
theorem term_symbols_interchangeable :
    (∀ t : Term, t.IsNamed → ∃ e : Expr, t.toExpr = .ok e ∧
      (Classifier.standard.name? (.term t)).isSome ∧
      Classifier.standard.name? (.term t) = Classifier.standard.name? (.expr e) ∧
      Classifier.standard.shapeOf (.term t) = Classifier.standard.shapeOf (.expr e) ∧
      (∃ q r : Request, Request.ofValue Classifier.standard (.term t) = .ok q ∧
        Request.ofValue Classifier.standard (.expr e) = .ok r ∧ (q == r) = true) ∧
      ∃ (leaves : List Value) (es : List Expr),
        Classifier.standard.expand (.term t) = .ok leaves ∧
        leaves.mapM Value.toExpr = .ok es ∧
        Classifier.standard.expand (.expr e) = .ok (es.map Value.expr)) ∧
    ∀ states states' parameters parameters' independent independent' observed observed' : Value,
      List.Forall₂ Value.Converts states.declared states'.declared →
      List.Forall₂ Value.Converts parameters.declared parameters'.declared →
      List.Forall₂ Value.Converts independent.declared independent'.declared →
      observed.DefinitionsConvert observed' →
        Agree Layout.AnswerAlike (Layout.build states parameters independent observed)
          (Layout.build states' parameters' independent' observed') := by
  refine ⟨fun t ht => ?_, fun _ _ _ _ _ _ _ _ hs hp hi ho =>
    (Layout.build_agree hs hp hi ho).imp fun l l' h => h.answerAlike⟩
  obtain ⟨e, he, hname⟩ : ∃ e, t.toExpr = .ok e ∧ (Classifier.standard.name? (.term t)).isSome := by
    cases ht <;> exact ⟨_, rfl, rfl⟩
  have hconverts : (Value.term t).Converts (.expr e) := .term ht he
  obtain ⟨leaves, es, hv, hw, hleaves⟩ := hconverts.exists_leaves
  have hes : leaves.mapM Value.toExpr = .ok es :=
    mapM_eq_ok_iff.2 (hleaves.imp fun leaf e h => h.toExpr_eq)
  exact ⟨e, he, hname, hconverts.name?_eq, hconverts.shapeOf_eq, hconverts.exists_request, leaves,
    es, hv, hes, hw⟩

namespace MixedForms

/-- A grid and a scalar as terms. -/
def terms : List Value := [.term (.matrix "A" 2 3), .term (.symbol "x")]

/-- The same grid and scalar as expressions. -/
def expressions : List Value :=
  [.expr (.array (some "A") [.int 2, .int 3]), .expr (.symbol (some "x"))]

lemma converts : List.Forall₂ Value.Converts terms expressions :=
  .cons (.matrix "A" 2 3) (.cons (.symbol "x") .nil)

theorem term_symbols_interchangeable_grid :
    (∃ e, (Term.matrix "A" 2 3).toExpr = .ok e ∧
      Classifier.standard.name? (.term (.matrix "A" 2 3)) = Classifier.standard.name? (.expr e)) ∧
    ∃ l l' : Layout, Layout.build (.list terms) .none .none .none = .ok l ∧
      Layout.build (.list expressions) .none .none .none = .ok l' ∧ l.AnswerAlike l' := by
  obtain ⟨e, he, _, hname, _⟩ := term_symbols_interchangeable.1 _ (.matrix "A" 2 3)
  refine ⟨⟨e, he, hname⟩, ?_⟩
  have hagree := term_symbols_interchangeable.2 (.list terms) (.list expressions) .none .none .none
    .none .none .none converts .nil .nil .none
  obtain ⟨l, hl⟩ : ∃ l, Layout.build (.list terms) .none .none .none = .ok l := ⟨_, rfl⟩
  generalize Layout.build (.list expressions) .none .none .none = r at hagree
  rw [hl] at hagree
  cases hagree with
  | ok h => exact ⟨l, _, hl, rfl, h⟩

end MixedForms

end NamedSlots
