import NamedSlots.Proofs.DefinedSymbol
import NamedSlots.Proofs.IndexedNames

/-!
# Texts and the symbols that they name

A text is a symbol of its own name. As an expression it is the symbol that is read off it, whose
name is written from a base and indices. The two have one name exactly if the text is canonical: it
has no indices, or it is what writing a base and integers gives. Then layouts answer alike for
both, and a text that is defined has the value of its definition.
-/

namespace NamedSlots

open Traced

namespace Text.IndexedName

/-- The texts without indices, and those that are written from a base and integers. -/
def IsCanonical (s : String) : Prop :=
  (parse s).2 = [] ∨ ∃ (b : String) (indices : List Int), IsBase b ∧ indices ≠ [] ∧
    (∀ n ∈ indices, Numeral.IsShort n) ∧ s = format b (indices.map Index.int)

end Text.IndexedName

namespace Expr

open Text.IndexedName

variable {s : String}

lemma isPlainSymbol_ofName (s : String) : (ofName s).IsPlainSymbol :=
  ⟨some (parse s).1, (parse s).2, rfl⟩

lemma indexedName_ofName (s : String) :
    (ofName s).indexedName = format (parse s).1 ((parse s).2.map Index.int) := rfl

/-- Reading a text and writing what was read changes the texts that are not canonical. -/
lemma indexedName_ofName_eq_iff : (ofName s).indexedName = s ↔ IsCanonical s := by
  rw [indexedName_ofName]
  constructor
  · intro h
    rcases parse_cases s with hself | ⟨hb, hne, hshort⟩
    · exact .inl (congrArg Prod.snd hself)
    · exact .inr ⟨_, _, hb, hne, hshort, h.symm⟩
  · rintro (h | ⟨b, indices, hb, hne, hshort, rfl⟩)
    · rcases parse_cases s with hself | ⟨_, hne, _⟩
      · rw [hself, List.map_nil, format_nil]
      · exact absurd h hne
    · rw [parse_format hb hne hshort]

end Expr

lemma Value.sameSymbol_ofName {s : String} (h : (Expr.ofName s).indexedName = s) :
    (text s).SameSymbol (.expr (.ofName s)) where
  key := by
    rw [(Expr.isPlainSymbol_ofName s).key?_eq, h]
    rfl
  form := rfl
  text := by
    have htext : (Value.expr (.ofName s)).text? = some (Expr.ofName s).indexedName :=
      (Expr.isPlainSymbol_ofName s).text?_eq
    have hquoted : (text s).text? = some (Text.Quoted.encode s) := rfl
    rw [htext, hquoted, Option.isSome_some, Option.isSome_some]

/-! ### Layouts in which a text and its symbol are apart -/

namespace Layout

variable {s : String}

/-- A text as the only state. -/
def holding (s : String) : Layout where
  states := ⟨[(s, .text s)]⟩

/-- The symbol that is read off a text as the only state, and a definition of the text itself. -/
def defining (s : String) (d : Expr) : Layout where
  states := ⟨[((Expr.ofName s).indexedName, .expr (.ofName s))]⟩
  observed := ⟨[(s, .text s, d)]⟩

lemma build_holding (s : String) : build (.text s) .none .none .none = .ok (holding s) := rfl

lemma build_defining (s : String) (d : Expr) :
    build (.expr (.ofName s)) .none .none (.dict [(.text s, .expr d)]) = .ok (defining s d) := rfl

section Apart

variable (hne : (Expr.ofName s).indexedName ≠ s) (d : Expr)
include hne

/-- A layout that knows the text does not know the symbol. -/
lemma not_classify_agree_holding (identity : Option Nat) :
    ¬ Agree Eq (((holding s).bound identity).classify (.text s))
      (((holding s).bound identity).classify (.expr (.ofName s))) := by
  have hx := Expr.isPlainSymbol_ofName s
  have htext : (holding s).rolesOf (.text s) = [.state] := by
    refine rolesOf_of_name rfl (List.mem_singleton_self s) fun other hother => ?_
    cases other with
    | state => exact absurd rfl hother
    | _ => exact nofun
  have hsymbol : (holding s).rolesOf (.expr (.ofName s)) = [] := by
    refine rolesOf_of_no_name hx.key?_eq fun role => ?_
    cases role with
    | state => exact fun hmem => hne (List.mem_singleton.1 hmem)
    | _ => exact nofun
  rw [((holding s).answeredBy identity).classify_of_rolesOf rfl htext,
    ((holding s).answeredBy identity).classify_eq hx.form_eq, hsymbol]
  intro h
  cases h with
  | ok h => cases h

lemma rolesOf_text_defining : (defining s d).rolesOf (.text s) = [.observed] := by
  refine rolesOf_of_name rfl (List.mem_singleton_self s) fun other hother => ?_
  cases other with
  | state => exact fun hmem => hne (List.mem_singleton.1 hmem).symm
  | observed => exact absurd rfl hother
  | _ => exact nofun

lemma rolesOf_symbol_defining : (defining s d).rolesOf (.expr (.ofName s)) = [.state] := by
  have hkey := (Expr.isPlainSymbol_ofName s).key?_eq
  refine rolesOf_of_name hkey (List.mem_singleton_self _) fun other hother => ?_
  cases other with
  | state => exact absurd rfl hother
  | observed => exact fun hmem => hne (List.mem_singleton.1 hmem)
  | _ => exact nofun

lemma meaningOf_defining :
    (defining s d).meaningOf (.ofName s) = some (.source (.state (.int 0))) := by
  have hplace : (defining s d).place? .state (.expr (.ofName s)) = some 0 := by
    rw [place?_eq_some_iff (wellFormed_of_build (build_defining s d)) rfl]
    exact ⟨_, (Expr.isPlainSymbol_ofName s).key?_eq, rfl⟩
  unfold meaningOf
  rw [rolesOf_symbol_defining hne d]
  dsimp only
  rw [hplace]
  rfl

end Apart
end Layout

/-! ### Getters of defined texts -/

namespace ProblemState

/-- A text has a getter exactly if it is observed and nothing else and its definition has an
evaluator, for which the state has the time if it is used; the getter then gives what the evaluator
gives. -/
def GetsDefinition (state : ProblemState) (sys : System) (l : Layout) (s : String) (d : Expr) :
    Prop :=
  ∀ (n : Nat) (object : Value),
    ((∃ a, sys.accessor n object .readAny (.text s) .none = .ok a) ↔
      l.rolesOf (.text s) = [.observed] ∧ ∃ f, sys.evaluator (.expr d) .none = .ok f ∧
        (f.usesTime = true → state.hasTime = true)) ∧
    ∀ a f, sys.accessor n object .readAny (.text s) .none = .ok a →
      sys.evaluator (.expr d) .none = .ok f →
        a.get sys = f.call state.states state.parameters (state.timeIf f.usesTime)

section Layout

variable {state : ProblemState} {world : World} {k identity : Option Nat} {l : Layout}

/-- A problem state over a layout, as it is bound for a build. -/
def boundOver (state : ProblemState) (world : World) (k identity : Option Nat) (l : Layout) :
    Bound := ⟨state.overLayout world k l identity, none⟩

lemma of_overLayout : Bound.of (state.overLayout world k l identity) .none =
    .ok (state.boundOver world k identity l) := rfl

lemma answeredBy_boundOver :
    (state.boundOver world k identity l).system.AnsweredBy (Interface.withoutVersion l) :=
  state.answeredBy_overLayout world k l identity

/-- A getter that was built for a layout gives what its evaluator gives. -/
lemma get_of_compile {e : Expr} {f : Evaluator} {q : Request} {n : Nat}
    (hf : Yields (Evaluator.compile (state.boundOver world k identity l) e .interpreter) (.ok f))
    (htime : f.usesTime = true → state.hasTime = true) :
    (⟨n, .getter (.expression f), q, none⟩ : Accessor).get (state.overLayout world k l identity) =
      f.call state.states state.parameters (state.timeIf f.usesTime) :=
  Reader.read_evaluator_used (serves_of_compile answeredBy_boundOver hf.returns) htime

/-- A text that is observed and nothing else is read through the symbol that it is read as. -/
lemma accessor_text_eq_ok_iff {s : String} {d : Expr} (hroles : l.rolesOf (.text s) = [.observed])
    (hd : l.definitionOf s = some d) {n : Nat} {object : Value} {a : Accessor} :
    (state.overLayout world k l identity).accessor n object .readAny (.text s) .none = .ok a ↔
      ∃ f, Yields (Evaluator.compile (state.boundOver world k identity l) (.ofName s) .interpreter)
          (.ok f) ∧
        (f.usesTime = true → state.hasTime = true) ∧
        a = ⟨n, .getter (.expression f), .symbol s (.text s), none⟩ :=
  System.accessor_eq_ok_iff_of_ofSymbol of_overLayout answeredBy_boundOver rfl rfl rfl
    (ofSymbol_of_observed answeredBy_boundOver rfl rfl hroles hd rfl)

/-- What has a definition and can be read is observed and nothing else. -/
lemma rolesOf_of_accessor {s : String} {d : Expr} (hd : l.definitionOf s = some d) {n : Nat}
    {object : Value} {a : Accessor}
    (ha : (state.overLayout world k l identity).accessor n object .readAny (.text s) .none =
      .ok a) : l.rolesOf (.text s) = [.observed] := by
  have hanswered : (state.boundOver world k identity l).AnsweredBy l :=
    .of_layoutAt answeredBy_boundOver rfl
  obtain ⟨b, q, hb, hq, hplan⟩ := System.returns_of_accessor ha
  cases of_overLayout.symm.trans hb
  cases hq
  obtain ⟨r, hr, _⟩ := hplan.bind
  replace hr : Returns (Reader.ofSymbol _ .interpreter .readAny (.text s)) r := hr
  obtain ⟨role, hclassify, hknown, _⟩ := (Reader.madeFor_of_symbol hr).exists_role
  have hroles := hanswered.rolesOf_of_classify rfl hknown hclassify
  have hobserved : Role.observed ∈ l.rolesOf (.text s) := by
    refine List.mem_filter.2 ⟨by simp, ?_⟩
    rw [Layout.has_observed]
    exact Option.isSome_iff_exists.2 ⟨d, hd⟩
  rw [hroles] at hobserved ⊢
  rw [List.mem_singleton.1 hobserved]

/-- A defined text with the name of its symbol gets the value of its definition. -/
lemma getsDefinition_of_name (hsize : l.independent.size ≤ 1) {s : String} {d : Expr}
    (hname : (Expr.ofName s).indexedName = s) (hd : l.definitionOf s = some d)
    (hplain : l.PlainThrough d) :
    state.GetsDefinition (state.overLayout world k l identity) l s d := by
  intro n object
  by_cases hroles : l.rolesOf (.text s) = [.observed]
  · have hb : (state.boundOver world k identity l).system.AnsweredBy _ := answeredBy_boundOver
    have hx := Expr.isPlainSymbol_ofName s
    have hxroles : l.rolesOf (.expr (.ofName s)) = [.observed] := by
      have hsame : l.rolesOf (.text s) = l.rolesOf (.expr (.ofName s)) :=
        Layout.SameNames.rolesOf_eq (fun _ => rfl) (Value.sameSymbol_ofName hname).key
      rw [← hsame, hroles]
    have hxd : l.definitionOf (Expr.ofName s).indexedName = some d := by rw [hname, hd]
    have hcompile := compile_defined_iff hb rfl hsize hx hxroles hxd hplain
    simp only [accessor_text_eq_ok_iff hroles hd, System.evaluator_eq_ok_iff of_overLayout hb]
    refine ⟨⟨?_, ?_⟩, ?_⟩
    · rintro ⟨a, f, hf, htime, _⟩
      obtain ⟨g, hg⟩ := hcompile.1 ⟨f, hf⟩
      have huses := usesTime_defined_eq hb rfl hsize hx hxroles hxd hplain hf hg
      exact ⟨hroles, g, hg, huses ▸ htime⟩
    · rintro ⟨_, g, hg, htime⟩
      obtain ⟨f, hf⟩ := hcompile.2 ⟨g, hg⟩
      have huses := usesTime_defined_eq hb rfl hsize hx hxroles hxd hplain hf hg
      exact ⟨_, f, hf, huses ▸ htime, rfl⟩
    · rintro a g ⟨f, hf, htime, rfl⟩ hg
      have huses := usesTime_defined_eq hb rfl hsize hx hxroles hxd hplain hf hg
      rw [get_of_compile hf htime]
      exact call_defined_eq hb rfl hsize hx hxroles hxd hplain hf hg (huses ▸ htime)
  · have hnone {a : Accessor} (ha : (state.overLayout world k l identity).accessor n object .readAny
        (.text s) .none = .ok a) : False :=
      hroles (rolesOf_of_accessor hd ha)
    exact ⟨⟨fun ⟨_, ha⟩ => (hnone ha).elim, fun ⟨h, _⟩ => absurd h hroles⟩,
      fun _ _ ha _ => (hnone ha).elim⟩

/-- A defined text whose symbol has another name gets the value of that symbol. -/
lemma exists_getter_defining {s : String} (hne : (Expr.ofName s).indexedName ≠ s) (d : Expr)
    {v : Value} (hv : state.states.item (.int 0) = .ok v) (n : Nat) (object : Value) :
    ∃ a, (state.overLayout world k (.defining s d) identity).accessor n object .readAny (.text s)
        .none = .ok a ∧
      a.get (state.overLayout world k (.defining s d) identity) = .ok v := by
  have hb : (state.boundOver world k identity (Layout.defining s d)).system.AnsweredBy _ :=
    answeredBy_boundOver
  have hsize : (Layout.defining s d).independent.size ≤ 1 := Nat.zero_le 1
  have hx := Expr.isPlainSymbol_ofName s
  have hd : (Layout.defining s d).definitionOf s = some d := if_pos (beq_self_eq_true s)
  have hf := compile_of_source hb rfl hsize hx (Layout.meaningOf_defining hne d)
  refine ⟨_, (accessor_text_eq_ok_iff (Layout.rolesOf_text_defining hne d) hd).2
    ⟨_, hf, nofun, rfl⟩, ?_⟩
  have hkeys : ∀ x ∈ [Expr.ofName s], x.IsPlainSymbol := by simpa using hx
  rw [get_of_compile hf nofun, call_of_checkTime hb rfl hsize hf.returns hkeys rfl,
    eval_plainSymbol hx]
  have hfind : Assoc.find? (Expr.ofName s)
      [(Expr.ofName s, Meaning.source (.state (.int 0)))] = some (.source (.state (.int 0))) :=
    if_pos hx.beq_self
  exact (LeafTable.valueIn_of_find? .numeric _ hfind).trans hv

/-- A constant has an evaluator that gives it. -/
lemma exists_evaluator_constant (hsize : l.independent.size ≤ 1) (c : Float) :
    ∃ f, (state.overLayout world k l identity).evaluator (.expr (.constant c)) .none = .ok f ∧
      f.usesTime = false ∧ ∀ u p : Value, f.call u p .none = .ok (.real c) := by
  have hb : (state.boundOver world k identity l).system.AnsweredBy _ := answeredBy_boundOver
  have hanswered : (state.boundOver world k identity l).AnsweredBy l := .of_layoutAt hb rfl
  have hf := Evaluator.compile_of_bind hanswered hsize (e := .constant c) Bound.bindAll_nil
  refine ⟨_, (System.evaluator_eq_ok_iff of_overLayout hb).2 hf, rfl, fun u p => ?_⟩
  exact call_of_checkTime hb rfl hsize hf.returns nofun rfl

end Layout

/-- A state with one slot, which holds an integer. -/
def oneSlot : ProblemState := ⟨.none, .list [.int 1], .list [], .none, .none⟩

/-- The state with one slot, over a layout that keeps a text and its symbol apart. -/
def apart (s : String) : System :=
  oneSlot.overLayout (fun _ => .ofLayout {} none) none (.defining s (.constant 5.0)) none

/-- The getter of the text gives the integer in the slot of its symbol, where the definition of the
text gives a floating number. -/
lemma exists_getter_apart {s : String} (hne : (Expr.ofName s).indexedName ≠ s) :
    ∃ a f, (apart s).accessor 0 .none .readAny (.text s) .none = .ok a ∧
      a.get (apart s) = .ok (.int 1) ∧
      (apart s).evaluator (.expr (.constant 5.0)) .none = .ok f ∧ f.usesTime = false ∧
      f.call oneSlot.states oneSlot.parameters .none = .ok (.real 5.0) := by
  have hslot : oneSlot.states.item (.int 0) = .ok (.int 1) := rfl
  have hsize : (Layout.defining s (.constant 5.0)).independent.size ≤ 1 := Nat.zero_le 1
  obtain ⟨a, ha, hget⟩ := exists_getter_defining hne (.constant 5.0) hslot 0 .none
  obtain ⟨f, hf, huses, hcall⟩ := exists_evaluator_constant hsize 5.0
  exact ⟨a, f, ha, hget, hf, huses, hcall _ _⟩

end ProblemState

lemma Layout.plainThrough_constant (l : Layout) (c : Float) : l.PlainThrough (.constant c) := by
  intro d hd
  rcases hd.cases_head with rfl | ⟨_, ⟨_, hmem, _⟩, _⟩
  · exact nofun
  · exact absurd hmem nofun

/-- Wherever a definition is given for a text, with plain integer indices in all that it leads to,
getters of the text give the value of just that definition. -/
def Layout.GetsDefinitions (s : String) : Prop :=
  ∀ (states parameters independent : Value) (pairs : List (Value × Value)) (l : Layout) (w : Value),
    build states parameters independent (.dict pairs) = .ok l → (.text s, w) ∈ pairs →
      ∃ d, w.toExpr = .ok d ∧ (l.PlainThrough d →
        ∀ (state : ProblemState) (world : World) (k identity : Option Nat),
          state.GetsDefinition (state.overLayout world k l identity) l s d)

namespace Text.IndexedName

/-- A text and the symbol that it is read as are one key exactly if the text is canonical. Just for
these texts does every layout answer alike for the text and for the symbol, and just these texts get
the definition that is given for them wherever one is given. -/
theorem isCanonical_iff_same_symbol (s : String) :
    ∃ e : Expr, (Value.text s).toExpr = .ok e ∧
      (IsCanonical s ↔ (Value.text s).key? = (Value.expr e).key?) ∧
      (IsCanonical s ↔ ∀ (states parameters independent observed : Value) (l : Layout),
        Layout.build states parameters independent observed = .ok l → ∀ identity : Option Nat,
          Agree Eq ((l.bound identity).classify (.text s)) ((l.bound identity).classify (.expr e)) ∧
          Agree Eq ((l.bound identity).locate (.text s)) ((l.bound identity).locate (.expr e))) ∧
      (IsCanonical s ↔ Layout.GetsDefinitions s) := by
  refine ⟨.ofName s, rfl, ?_, ?_, ?_⟩
  · rw [← Expr.indexedName_ofName_eq_iff, (Expr.isPlainSymbol_ofName s).key?_eq]
    exact ⟨fun h => congrArg some h.symm, fun h => (Option.some.inj h).symm⟩
  · rw [← Expr.indexedName_ofName_eq_iff]
    constructor
    · intro hname states parameters independent observed l _ identity
      have hsame := Value.sameSymbol_ofName hname
      have hl := l.answeredBy identity
      exact ⟨hl.classify_agree hl (fun _ => rfl) hsame, hl.locate_agree hl (fun _ => rfl) hsame⟩
    · intro h
      by_contra hne
      have hagree := (h _ _ _ _ _ (Layout.build_holding s) none).1
      exact Layout.not_classify_agree_holding hne none hagree
  · rw [← Expr.indexedName_ofName_eq_iff]
    constructor
    · intro hname states parameters independent pairs l w hl hmem
      obtain ⟨name, d, hkey, hd, hfind⟩ :=
        DefinitionTable.exists_find?_of_foldlM (Layout.build_ok hl).2.2.2 hmem
      cases hkey
      exact ⟨d, hd, fun hplain state world k identity => ProblemState.getsDefinition_of_name
        (Layout.independent_size hl) hname hfind hplain⟩
    · intro h
      by_contra hne
      obtain ⟨d, hd, hgets⟩ := h _ _ _ _ _ _ (Layout.build_defining s (.constant 5.0))
        (List.mem_singleton_self _)
      cases hd
      obtain ⟨a, f, ha, hget, hf, huses, hcall⟩ := ProblemState.exists_getter_apart hne
      have heq := (hgets (Layout.plainThrough_constant _ 5.0) ProblemState.oneSlot _ none none 0
        .none).2 a f ha hf
      rw [huses] at heq
      cases hget.symm.trans (heq.trans hcall)

/-- A text with a leading zero in an index and the symbol that it is read as are two keys. The text
is defined as a constant, but its getter gives the state that the symbol stands for. -/
theorem leading_zero_gets_other_symbol :
    (Value.text "x[01]").toExpr = .ok (.symbol (some "x") [.int 1]) ∧
      (Value.text "x[01]").key? ≠ (Value.expr (.symbol (some "x") [.int 1])).key? ∧
      ∃ (l : Layout) (a : Accessor) (f : Evaluator),
        Layout.build (.expr (.symbol (some "x") [.int 1])) .none .none
          (.dict [(.text "x[01]", .expr (.constant 5.0))]) = .ok l ∧
        ProblemState.apart "x[01]" =
          ProblemState.oneSlot.overLayout (fun _ => .ofLayout {} none) none l none ∧
        (ProblemState.apart "x[01]").accessor 0 .none .readAny (.text "x[01]") .none = .ok a ∧
        a.get (ProblemState.apart "x[01]") = .ok (.int 1) ∧
        (ProblemState.apart "x[01]").evaluator (.expr (.constant 5.0)) .none = .ok f ∧
        f.call ProblemState.oneSlot.states ProblemState.oneSlot.parameters .none =
          .ok (.real 5.0) := by
  have hparse : parse "x[01]" = ("x", [1]) := by decide
  have hread : Expr.ofName "x[01]" = .symbol (some "x") [.int 1] := by
    unfold Expr.ofName
    rw [hparse]
    rfl
  have hne : (Expr.ofName "x[01]").indexedName ≠ "x[01]" := by
    rw [Expr.indexedName_ofName, hparse]
    decide
  obtain ⟨a, f, ha, hget, hf, _, hcall⟩ := ProblemState.exists_getter_apart hne
  rw [← hread]
  refine ⟨rfl, ?_, Layout.defining "x[01]" (.constant 5.0), a, f, Layout.build_defining _ _, rfl,
    ha, hget, hf, hcall⟩
  rw [(Expr.isPlainSymbol_ofName _).key?_eq]
  exact fun h => hne (Option.some.inj h).symm

end Text.IndexedName
end NamedSlots
