import Mathlib.Data.List.TakeWhile
import NamedSlots.Expr.Basic
import NamedSlots.Proofs.ListRun
import NamedSlots.Proofs.NumeralText

/-!
# Names with indices

A name without an opening bracket and a list of integers are read back from the text that they
form, and reading a text gives such a pair or leaves the text whole. Two symbols with such names
are told apart by their texts.
-/

namespace NamedSlots

namespace Index

lemma not_mem_text {c : Char} (hc : c = ',' ∨ c = '[') (i : Index) : c ∉ i.text.toList := by
  cases i with
  | int n =>
    intro h
    rcases Text.Numeral.code_of_mem_toString h with rfl | h
    · revert hc
      decide
    · have hcode := Text.code_of_isDigit h
      rcases hc with rfl | rfl
      · exact absurd hcode (by decide)
      · exact absurd hcode (by decide)
  | flag b =>
    rcases hc with rfl | rfl <;> cases b <;> decide

lemma text_int_ne_text_flag (n : Int) (b : Bool) : (int n).text ≠ (flag b).text := by
  intro h
  have hlast : 'e' ∈ (int n).text.toList := by
    rw [h]
    cases b <;> decide
  rcases Text.Numeral.code_of_mem_toString hlast with h | h
  · exact absurd h (by decide)
  · exact absurd h (by decide)

lemma text_injective : Function.Injective text := by
  intro i j h
  cases i with
  | int n =>
    cases j with
    | int m => exact congrArg int (Text.Numeral.toString_injective h)
    | flag b => exact absurd h (text_int_ne_text_flag n b)
  | flag a =>
    cases j with
    | int m => exact absurd h.symm (text_int_ne_text_flag m a)
    | flag b =>
      revert h
      revert a b
      decide

/-- The texts between the brackets. -/
def inner (indices : List Index) : List Char :=
  [','].intercalate (indices.map fun i => i.text.toList)

lemma toList_bracketed {indices : List Index} (h : indices ≠ []) :
    (bracketed indices).toList = '[' :: (inner indices ++ [']']) := by
  rw [bracketed, if_neg (by simpa using h), String.toList_append, String.toList_append,
    String.toList_intercalate, List.map_map]
  rfl

/-- No index writes a comma, so that the commas between the brackets separate the indices. -/
lemma splitOn_inner {indices : List Index} (h : indices ≠ []) :
    (inner indices).splitOn ',' = indices.map fun i => i.text.toList := by
  refine List.splitOn_intercalate ',' ?_ (by simpa using h)
  intro l hl
  obtain ⟨i, -, rfl⟩ := List.mem_map.1 hl
  exact not_mem_text (.inl rfl) i

lemma bracketed_injective : Function.Injective bracketed := by
  intro is js h
  have hlists := congrArg String.toList h
  rcases eq_or_ne is [] with rfl | his
  · rcases eq_or_ne js [] with rfl | hjs
    · rfl
    · rw [toList_bracketed hjs] at hlists
      cases hlists
  · rcases eq_or_ne js [] with rfl | hjs
    · rw [toList_bracketed his] at hlists
      cases hlists
    · rw [toList_bracketed his, toList_bracketed hjs, List.cons.injEq,
        List.append_left_inj] at hlists
      have htexts := congrArg (List.splitOn ',') hlists.2
      rw [splitOn_inner his, splitOn_inner hjs] at htexts
      have hinjective : Function.Injective fun i : Index => i.text.toList :=
        fun i j hij => text_injective (String.toList_inj.1 hij)
      exact List.map_injective_iff.2 hinjective htexts

end Index

namespace Text.IndexedName

/-- A name that has no opening bracket of its own. -/
def IsBase (b : String) : Prop :=
  '[' ∉ b.toList

instance (b : String) : Decidable (IsBase b) :=
  inferInstanceAs (Decidable (_ ∉ _))

lemma IsBase.forall_ne {b : String} (hb : IsBase b) : ∀ c ∈ b.toList, (c != '[') = true := by
  intro c hc
  rw [bne_iff_ne]
  rintro rfl
  exact hb hc

lemma IsBase.takeWhile_append {b : String} (hb : IsBase b) (cs : List Char) :
    (b.toList ++ '[' :: cs).takeWhile (· != '[') = b.toList := by
  rw [List.takeWhile_append_of_pos hb.forall_ne, List.takeWhile_cons_of_neg (by decide), List.append_nil]

lemma IsBase.dropWhile_append {b : String} (hb : IsBase b) (cs : List Char) :
    (b.toList ++ '[' :: cs).dropWhile (· != '[') = '[' :: cs := by
  rw [List.dropWhile_append_of_pos hb.forall_ne]
  exact List.dropWhile_cons_of_neg (by decide)

lemma format_nil (b : String) : format b [] = b :=
  String.append_empty

lemma toList_format (b : String) {indices : List Index} (h : indices ≠ []) :
    (format b indices).toList = b.toList ++ '[' :: (Index.inner indices ++ [']']) := by
  rw [format, String.toList_append, Index.toList_bracketed h]

/-- A text whose base ends at the bracket that the text closes with is split at the commas between. -/
lemma parse_of_toList {s b : String} {inside : List Char} (hb : IsBase b)
    (hs : s.toList = b.toList ++ '[' :: (inside ++ [']'])) :
    parse s =
      match (inside.splitOn ',').mapM fun part => Numeral.integer? (String.ofList part) with
      | some indices => (b, indices)
      | none => (s, []) := by
  have hlast : s.toList.getLast? = some ']' := by
    rw [hs, ← List.cons_append, ← List.append_assoc]
    exact List.getLast?_concat
  rw [parse]
  simp only [hlast, if_true]
  rw [hs, hb.takeWhile_append, hb.dropWhile_append, String.ofList_toList]
  dsimp only
  rewrite [List.dropLast_concat, splitCommas]
  rfl

/-- A text that is not left whole is split in front of its first bracket. -/
lemma exists_of_parse_ne {s : String} (h : parse s ≠ (s, [])) :
    ∃ (b : String) (inside : List Char), IsBase b ∧
      s.toList = b.toList ++ '[' :: (inside ++ [']']) := by
  cases hrest : s.toList.dropWhile (· != '[') with
  | nil =>
    refine absurd ?_ h
    rw [parse]
    simp only [hrest]
  | cons c rest =>
    by_cases hlast : s.toList.getLast? = some ']'
    · obtain rfl : c = '[' := by
        have hhead := List.head_dropWhile_not (· != '[') (l := s.toList) (by rw [hrest]; simp)
        simpa only [hrest, List.head_cons, bne_eq_false_iff_eq] using hhead
      have hsplit : s.toList = s.toList.takeWhile (· != '[') ++ '[' :: rest := by
        rw [← hrest, List.takeWhile_append_dropWhile]
      have hbase : IsBase (String.ofList (s.toList.takeWhile (· != '['))) := by
        rw [IsBase, String.toList_ofList]
        intro hmem
        exact absurd (List.mem_takeWhile_imp hmem) (by decide)
      have hclose : rest.getLast? = some ']' := by
        rw [hsplit, List.getLast?_append_of_ne_nil _ (List.cons_ne_nil _ _)] at hlast
        cases rest with
        | nil => exact absurd hlast (by decide)
        | cons d rest => rwa [List.getLast?_cons_cons] at hlast
      refine ⟨_, rest.dropLast, hbase, ?_⟩
      rw [String.toList_ofList, List.dropLast_append_getLast? _ hclose]
      exact hsplit
    · refine absurd ?_ h
      rw [parse]
      simp only [hrest, if_neg hlast]

/-- Integers whose texts can be read stand again between the brackets that they were written in. -/
lemma parse_format {b : String} {indices : List Int} (hb : IsBase b) (hne : indices ≠ [])
    (hshort : ∀ n ∈ indices, Numeral.IsShort n) :
    parse (format b (indices.map Index.int)) = (b, indices) := by
  have hne' : indices.map Index.int ≠ [] := by simpa using hne
  have hread : (indices.map fun n => (toString n).toList).mapM
      (fun part => Numeral.integer? (String.ofList part)) = some indices := by
    rw [mapM_eq_some_iff, List.forall₂_map_left_iff, List.forall₂_same]
    intro n hn
    rw [String.ofList_toList]
    exact Numeral.integer?_toString (hshort n hn)
  rw [parse_of_toList hb (toList_format b hne'), Index.splitOn_inner hne', List.map_map]
  change (match (indices.map fun n => (toString n).toList).mapM
      (fun part => Numeral.integer? (String.ofList part)) with
    | some is => (b, is)
    | none => _) = _
  rw [hread]

/-- What reading a text gives: the text itself, or a base and short integers. -/
lemma parse_cases (s : String) :
    parse s = (s, []) ∨
      IsBase (parse s).1 ∧ (parse s).2 ≠ [] ∧ ∀ n ∈ (parse s).2, Numeral.IsShort n := by
  rw [or_iff_not_imp_left]
  intro h
  obtain ⟨b, inside, hb, hs⟩ := exists_of_parse_ne h
  rw [parse_of_toList hb hs] at h ⊢
  cases hread : (inside.splitOn ',').mapM fun part => Numeral.integer? (String.ofList part) with
  | none =>
    rw [hread] at h
    exact absurd rfl h
  | some indices =>
    have hparts := mapM_eq_some_iff.1 hread
    refine ⟨hb, ?_, ?_⟩
    · rintro rfl
      exact List.splitOn_ne_nil _ _ (List.forall₂_nil_right_iff.1 hparts)
    · intro n hn
      obtain ⟨k, hk, rfl⟩ := List.getElem_of_mem hn
      exact Numeral.isShort_of_integer? (hparts.get (hparts.length_eq ▸ hk) hk)

lemma IsBase.takeWhile_format {b : String} (hb : IsBase b) (indices : List Index) :
    (format b indices).toList.takeWhile (· != '[') = b.toList := by
  rcases eq_or_ne indices [] with rfl | hne
  · rw [format_nil, List.takeWhile_eq_self_iff]
    exact hb.forall_ne
  · rw [toList_format b hne, hb.takeWhile_append]

lemma format_left_inj {b b' : String} (hb : IsBase b) (hb' : IsBase b') {is js : List Index}
    (h : format b is = format b' js) : b = b' := by
  have hbases := congrArg (fun s => s.toList.takeWhile (· != '[')) h
  rw [hb.takeWhile_format, hb'.takeWhile_format] at hbases
  exact String.toList_inj.1 hbases

/-- Whatever the base, the indices can be told from the text. -/
lemma format_right_inj {b : String} {is js : List Index} (h : format b is = format b js) :
    is = js :=
  Index.bracketed_injective ((String.append_right_inj b).1 h)

/-- Reading is the inverse of writing on bases with short integers, what was read is written to a
text that reads as the same, and symbols with such bases have one text only when they are one
symbol. -/
theorem indexed_names_round_trip :
    (∀ (b : String) (indices : List Int), IsBase b → indices ≠ [] →
      (∀ n ∈ indices, Numeral.IsShort n) →
        parse (format b (indices.map Index.int)) = (b, indices)) ∧
    (∀ s : String,
      parse (format (parse s).1 ((parse s).2.map Index.int)) = parse s ∧
        ((parse s).2 = [] → (parse s).1 = s) ∧ ((parse s).2 ≠ [] → IsBase (parse s).1)) ∧
    ∀ (b b' : String) (is js : List Index), IsBase b → IsBase b' →
      (Expr.symbol (some b) is).indexedName = (Expr.symbol (some b') js).indexedName →
        Expr.symbol (some b) is = Expr.symbol (some b') js := by
  refine ⟨fun b indices => parse_format, fun s => ?_, ?_⟩
  · rcases parse_cases s with hself | ⟨hb, hne, hshort⟩
    · rw [hself, List.map_nil, format_nil, hself]
      exact ⟨rfl, fun _ => rfl, fun h => absurd rfl h⟩
    · exact ⟨parse_format hb hne hshort, fun h => absurd h hne, fun _ => hb⟩
  · intro b b' is js hb hb' h
    obtain rfl := format_left_inj hb hb' h
    have hindices : is = js := format_right_inj h
    rw [hindices]

theorem indexed_names_round_trip_signed :
    IsBase "pos" ∧ ([0, -12] : List Int) ≠ [] ∧ (∀ n ∈ ([0, -12] : List Int), Numeral.IsShort n) ∧
      parse (format "pos" [.int 0, .int (-12)]) = ("pos", [0, -12]) ∧
      parse "pos[+0,-0_12]" = ("pos", [0, -12]) ∧ IsBase (parse "pos[+0,-0_12]").1 :=
  have hbase : IsBase "pos" := by decide
  have hne : ([0, -12] : List Int) ≠ [] := by decide
  have hshort : ∀ n ∈ ([0, -12] : List Int), Numeral.IsShort n := by decide
  have hparse : parse "pos[+0,-0_12]" = ("pos", [0, -12]) := by decide
  ⟨hbase, hne, hshort, indexed_names_round_trip.1 "pos" [0, -12] hbase hne hshort, hparse,
    (indexed_names_round_trip.2.1 "pos[+0,-0_12]").2.2 (by rw [hparse]; exact hne)⟩

end Text.IndexedName
end NamedSlots
