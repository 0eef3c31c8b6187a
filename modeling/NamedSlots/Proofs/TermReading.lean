import NamedSlots.Proofs.ArrayStorage
import NamedSlots.Proofs.StateDependencies
import NamedSlots.Proofs.TermSupport

/-!
# The meaning of terms

Once every symbol of a term has a value, the term can be read directly: sums, products, extrema and
connectives from the left, a power with exponent one half as a square root, and a piecewise term
as its first branch whose condition holds. The expression that a term becomes evaluates to the
same, or fails in the same way, and so does its evaluator on storage that has all its symbols.
-/

namespace NamedSlots

namespace Term

section Reading

-- what the scalar symbols stand for, by name and indices
variable (ρ : String → List Index → Value)

mutual

/-- The value of a term, read off the term. -/
def reading : Term → Except Failure Value
  | symbol name => .ok (ρ name [])
  | integer n => .ok (.real (Number.doubleOfInt n))
  | rational p q =>
    .ok (.real (Number.doubleOfRatio (decide (p < 0) != decide (q < 0)) p.natAbs q.natAbs))
  | float x => .ok (.real x)
  | constant c =>
    match c.toFloat? with
    | some x => .ok (.real x)
    | none => .error (.unsupportedTerm c.className c.text)
  | matrix name rows cols => do
    let shape : List Index := [rows, cols]
    let elements ← (Value.list ((Shape.indexPositions shape).map (ρ name))).assemble
    elements.reshape shape
  | element name _ _ i j => .ok (ρ name [i, j])
  | piecewise branches => readingOfBranches branches
  | apply head args =>
    match operation? head, args with
    | some (.fold op), a :: as => do readingOfFold op (← a.reading) as
    | some (.binary op), [l, r] => do
      let x ← l.reading
      let y ← r.reading
      Value.applyBinary op x y
    | some .power, [base, power] => do
      let x ← base.reading
      if power.isHalf then Value.applyUnary .sqrt x
      else
        let y ← power.reading
        Value.applyBinary .pow x y
    | some (.unary op), [a] => do Value.applyUnary op (← a.reading)
    | _, _ => .error (.unsupportedTerm head (apply head args).text)

/-- Each argument in turn is combined with what was found so far. -/
def readingOfFold (op : BinaryOp) (x : Value) : List Term → Except Failure Value
  | [] => .ok x
  | a :: as => do
    let y ← a.reading
    let z ← Value.applyBinary op x y
    readingOfFold op z as

/-- The value of the first branch whose condition is literally true or is found to hold. -/
def readingOfBranches : List (Term × Term) → Except Failure Value
  | [] => .error .noDefaultBranch
  | (value, cond) :: rest =>
    if cond.isTrue then value.reading
    else do
      let c ← cond.reading
      if ← Value.truth c then value.reading else readingOfBranches rest

end

end Reading

/-! ### Expressions that mean what a term says -/

/-- What a scalar symbol stands for, as a leaf of an expression. -/
def assigned (ρ : String → List Index → Value) (s : Expr) : Except Failure Value :=
  .ok (ρ (s.label.name.getD "") s.label.indices)

/-- The expression has the value that is read off the term, whatever the symbols stand for. -/
structure Means (t : Term) (e : Expr) : Prop where
  plain : e.HasPlainSymbols
  eval (ρ : String → List Index → Value) : e.eval .numeric (assigned ρ) = t.reading ρ

section Means

variable {head : String} {args : List Term} {t l r : Term} {e x y : Expr}

lemma hasPlainSymbols_binary {op : BinaryOp} (hx : x.HasPlainSymbols) (hy : y.HasPlainSymbols) :
    (Expr.binary op x y).HasPlainSymbols :=
  Expr.hasPlainSymbols_node nofun nofun (by simp [hx, hy])

lemma hasPlainSymbols_unary {op : UnaryOp} (hx : x.HasPlainSymbols) :
    (Expr.unary op x).HasPlainSymbols :=
  Expr.hasPlainSymbols_node nofun nofun (by simp [hx])

lemma hasPlainSymbols_ifThenElse (he : e.HasPlainSymbols) (hx : x.HasPlainSymbols)
    (hy : y.HasPlainSymbols) : (Expr.ifThenElse e x y).HasPlainSymbols :=
  Expr.hasPlainSymbols_node nofun nofun (by simp [he, hx, hy])

lemma Means.number {number : Float} (h : ∀ ρ, t.reading ρ = .ok (.real number)) :
    Means t (.constant number) where
  plain := Expr.hasPlainSymbols_node nofun nofun nofun
  eval ρ := (h ρ).symm

lemma Means.symbol {name : String} (indices : List Int)
    (h : ∀ ρ, t.reading ρ = .ok (ρ name (indices.map Index.int))) :
    Means t (.symbol (some name) (indices.map Index.int)) where
  plain := Expr.IsPlainSymbol.hasPlainSymbols ⟨_, _, rfl⟩
  eval ρ := (h ρ).symm

lemma Means.matrix (name : String) (rows cols : Int) :
    Means (.matrix name rows cols) (.array (some name) [rows, cols]) where
  plain := Expr.hasPlainSymbols_of_array rfl
  eval ρ := by
    have hitems (ps : List (List Index)) :
        (ps.map fun p => Expr.symbol (some name) p).mapM (assigned ρ) = .ok (ps.map (ρ name)) := by
      induction ps with
      | nil => rfl
      | cons p ps ih =>
        rw [List.map_cons, List.mapM_cons, ih]
        rfl
    rw [reading]
    change (((Shape.indexPositions [.int rows, .int cols]).map fun p =>
      Expr.symbol (some name) p).mapM (assigned ρ) >>= _) = _
    rw [hitems]
    rfl

lemma Means.binary {op : BinaryOp} (ho : operation? head = some (.binary op)) (hx : Means l x)
    (hy : Means r y) : Means (.apply head [l, r]) (.binary op x y) where
  plain := hasPlainSymbols_binary hx.plain hy.plain
  eval ρ := by
    rw [reading.eq_def]
    simp only [ho, ← hx.eval, ← hy.eval]
    rfl

lemma Means.sqrt (ho : operation? head = some .power) (hhalf : r.isHalf = true) (hx : Means l x) :
    Means (.apply head [l, r]) (.unary .sqrt x) where
  plain := hasPlainSymbols_unary hx.plain
  eval ρ := by
    rw [reading.eq_def]
    simp only [ho, if_pos hhalf, ← hx.eval]
    rfl

lemma Means.pow (ho : operation? head = some .power) (hhalf : ¬ r.isHalf = true) (hx : Means l x)
    (hy : Means r y) : Means (.apply head [l, r]) (.binary .pow x y) where
  plain := hasPlainSymbols_binary hx.plain hy.plain
  eval ρ := by
    rw [reading.eq_def]
    simp only [ho, if_neg hhalf, ← hx.eval, ← hy.eval]
    rfl

lemma Means.unary {op : UnaryOp} (ho : operation? head = some (.unary op)) (hx : Means t x) :
    Means (.apply head [t]) (.unary op x) where
  plain := hasPlainSymbols_unary hx.plain
  eval ρ := by
    rw [reading.eq_def]
    simp only [ho, ← hx.eval]
    rfl

lemma forall₂_of_allToExpr {es : List Expr} (h : ∀ a ∈ args, ∀ e, a.toExpr = .ok e → Means a e)
    (hes : allToExpr args = .ok es) : List.Forall₂ Means args es := by
  induction args generalizing es with
  | nil =>
    cases hes
    exact .nil
  | cons a args ih =>
    rw [allToExpr] at hes
    obtain ⟨e, he, hes⟩ := Except.eq_ok_of_bind hes
    obtain ⟨rest, hrest, hes⟩ := Except.eq_ok_of_bind hes
    cases hes
    exact .cons (h a List.mem_cons_self e he)
      (ih (fun b hb => h b (List.mem_cons_of_mem _ hb)) hrest)

lemma eval_foldl {op : BinaryOp} {es : List Expr} (h : List.Forall₂ Means args es)
    (ρ : String → List Index → Value) (start : Expr) :
    (es.foldl (Expr.binary op) start).eval .numeric (assigned ρ) =
      start.eval .numeric (assigned ρ) >>= fun v => readingOfFold ρ op v args := by
  induction h generalizing start with
  | nil => exact (bind_pure (start.eval .numeric (assigned ρ))).symm
  | @cons a e args es hae _ ih =>
    have hbinary : (Expr.binary op start e).eval .numeric (assigned ρ) = (do
        let v ← start.eval .numeric (assigned ρ)
        let w ← a.reading ρ
        Value.applyBinary op v w) := by
      rw [← hae.eval]
      rfl
    rw [List.foldl_cons, ih, hbinary]
    simp only [bind_assoc]
    rfl

lemma hasPlainSymbols_foldl {op : BinaryOp} {es : List Expr} (h : List.Forall₂ Means args es)
    {start : Expr} (hstart : start.HasPlainSymbols) :
    (es.foldl (Expr.binary op) start).HasPlainSymbols := by
  induction h generalizing start with
  | nil => exact hstart
  | cons hae _ ih => exact ih (hasPlainSymbols_binary hstart hae.plain)

lemma Means.fold {op : BinaryOp} (ho : operation? head = some (.fold op)) {es : List Expr}
    (hx : Means t x) (h : List.Forall₂ Means args es) :
    Means (.apply head (t :: args)) (es.foldl (Expr.binary op) x) where
  plain := hasPlainSymbols_foldl h hx.plain
  eval ρ := by
    rw [eval_foldl h, reading.eq_def]
    simp only [ho, ← hx.eval]

lemma means_apply {o : Operation} (ho : operation? head = some o) (htakes : o.Takes args.length)
    (h : ∀ a ∈ args, ∀ e, a.toExpr = .ok e → Means a e) (he : (apply head args).toExpr = .ok e) :
    Means (.apply head args) e := by
  cases o with
  | fold op =>
    rw [toExpr_fold ho] at he
    obtain ⟨es, hes, he⟩ := Except.eq_ok_of_bind he
    cases forall₂_of_allToExpr h hes with
    | nil => cases he
    | cons hx hrest =>
      cases he
      exact .fold ho hx hrest
  | binary op =>
    obtain ⟨l, r, rfl⟩ := List.length_eq_two.1 htakes
    rw [toExpr_binary ho] at he
    obtain ⟨x, hx, he⟩ := Except.eq_ok_of_bind he
    obtain ⟨y, hy, he⟩ := Except.eq_ok_of_bind he
    cases he
    exact .binary ho (h l List.mem_cons_self x hx)
      (h r (List.mem_cons_of_mem _ List.mem_cons_self) y hy)
  | power =>
    obtain ⟨base, power, rfl⟩ := List.length_eq_two.1 htakes
    rw [toExpr_power ho] at he
    split at he
    · rename_i hhalf
      obtain ⟨x, hx, he⟩ := Except.eq_ok_of_bind he
      cases he
      exact .sqrt ho hhalf (h base List.mem_cons_self x hx)
    · rename_i hhalf
      obtain ⟨x, hx, he⟩ := Except.eq_ok_of_bind he
      obtain ⟨y, hy, he⟩ := Except.eq_ok_of_bind he
      cases he
      exact .pow ho hhalf (h base List.mem_cons_self x hx)
        (h power (List.mem_cons_of_mem _ List.mem_cons_self) y hy)
  | unary op =>
    obtain ⟨a, rfl⟩ := List.length_eq_one_iff.1 htakes
    rw [toExpr_unary ho] at he
    obtain ⟨x, hx, he⟩ := Except.eq_ok_of_bind he
    cases he
    exact .unary ho (h a List.mem_cons_self x hx)

lemma Means.piecewise {branches : List (Term × Term)}
    (h : ∀ p ∈ branchParts branches, ∀ e, p.toExpr = .ok e → Means p e)
    (he : branchesToExpr branches = .ok e) : Means (.piecewise branches) e := by
  induction branches generalizing e with
  | nil => cases he
  | cons branch rest ih =>
    obtain ⟨value, cond⟩ := branch
    rw [branchParts] at h
    rw [branchesToExpr] at he
    by_cases hcond : cond.isTrue = true
    · rw [if_pos hcond] at h he
      have hvalue := h value (List.mem_singleton_self value) e he
      refine ⟨hvalue.plain, fun ρ => ?_⟩
      rw [hvalue.eval, reading, readingOfBranches, if_pos hcond]
    · rw [if_neg hcond] at h he
      split at he
      · cases he
      obtain ⟨c, hc, he⟩ := Except.eq_ok_of_bind he
      obtain ⟨v, hv, he⟩ := Except.eq_ok_of_bind he
      obtain ⟨last, hlast, he⟩ := Except.eq_ok_of_bind he
      cases he
      have hcond' := h cond List.mem_cons_self c hc
      have hvalue := h value (List.mem_cons_of_mem _ List.mem_cons_self) v hv
      have hrest := ih (fun p hp => h p (List.mem_cons_of_mem _ (List.mem_cons_of_mem _ hp))) hlast
      refine ⟨hasPlainSymbols_ifThenElse hcond'.plain hvalue.plain hrest.plain, fun ρ => ?_⟩
      have hlater := hrest.eval ρ
      rw [reading] at hlater
      rw [reading, readingOfBranches, if_neg hcond, ← hcond'.eval, ← hvalue.eval, ← hlater]
      rfl

/-- The expression that a term becomes means what the term says. -/
theorem means_of_toExpr (t : Term) (harity : ∀ u, t.Visits u → u.HasArity) (he : t.toExpr = .ok e) :
    Means t e := by
  induction t using inductionOn_parts generalizing e with
  | step t ih =>
  have hparts : ∀ p ∈ t.parts, ∀ e, p.toExpr = .ok e → Means p e := fun p hp e =>
    ih p hp ((forall_visits.1 harity).2 p hp)
  cases t with
  | symbol name =>
    cases he
    exact .symbol [] fun ρ => rfl
  | integer n =>
    cases he
    exact .number fun ρ => rfl
  | rational p q =>
    cases he
    exact .number fun ρ => rfl
  | float x =>
    cases he
    exact .number fun ρ => rfl
  | constant c =>
    rw [toExpr] at he
    split at he
    · rename_i x hx
      cases he
      refine .number fun ρ => ?_
      rw [reading, hx]
    · cases he
  | matrix name rows cols =>
    cases he
    exact .matrix name rows cols
  | element name rows cols i j =>
    cases he
    exact .symbol [i, j] fun ρ => rfl
  | piecewise branches =>
    rw [toExpr] at he
    exact .piecewise hparts he
  | apply head args =>
    cases ho : operation? head with
    | none =>
      obtain ⟨text, htext⟩ := toExpr_unknown ho args
      rw [htext] at he
      cases he
    | some o => exact means_apply ho (harity _ .refl o ho) hparts he

end Means
end Term

/-! ### Expressions of stored symbols -/

namespace Evaluator

variable {f : Evaluator}

/-- An evaluator that only reads slots is called without a time. -/
lemma checkTime_of_slots (h : ∀ x src, (x, src) ∈ f.table.bindings → src.index?.isSome) :
    f.checkTime .none = .ok () := by
  have hrole (role : Role) (hrole : role = .independent ∨ role = .observed) :
      (f.table.bindings.any fun entry => entry.2.role == role) = false := by
    rw [List.any_eq_false]
    rintro ⟨x, src⟩ hmem heq
    have hslot := h x src hmem
    cases src with
    | state i => rcases hrole with rfl | rfl <;> cases heq
    | parameter i => rcases hrole with rfl | rfl <;> cases heq
    | time => cases hslot
    | provider p => cases hslot
  have huses : f.usesTime = false := by
    change ((f.table.bindings.any fun entry => entry.2.role == .independent) ||
      ((f.table.bindings.any fun entry => entry.2.role == .observed) && _)) = false
    rw [hrole _ (.inl rfl), hrole _ (.inr rfl)]
    rfl
  unfold checkTime
  rw [huses]
  rfl

end Evaluator

namespace Layout

variable {l : Layout} {e s : Expr}

/-- A stored symbol stands for a slot, which holds its value. -/
lemma meaningOf_of_stores (hs : l.Stores (.expr s)) {m : Meaning} (hm : l.meaningOf s = some m) :
    ∃ src, m = .source src ∧ src.index?.isSome ∧
      ∀ (isTimeDependent : Bool) (c : Cells) (t : Value), c.Covers l →
        src.read isTimeDependent (.list c.states) (.list c.parameters) t =
          .ok (l.valueIn c (.expr s)) := by
  obtain ⟨cell, hcell⟩ := hs.exists_cell
  obtain ⟨hrole, hplace⟩ := cell?_eq_some_iff.1 hcell
  unfold meaningOf at hm
  rw [hrole] at hm
  cases cell with
  | state n =>
    have hplace' : l.place? .state (.expr s) = some n := hplace
    simp only [Cell.role, hplace', Option.map_some] at hm
    cases hm
    exact ⟨_, rfl, rfl, fun _ c t hc => Cells.item_list (get?_eq_valueIn hc hcell)⟩
  | parameter n =>
    have hplace' : l.place? .parameter (.expr s) = some n := hplace
    simp only [Cell.role, hplace', Option.map_some] at hm
    cases hm
    exact ⟨_, rfl, rfl, fun _ c t hc => Cells.item_list (get?_eq_valueIn hc hcell)⟩

variable (he : e.HasPlainSymbols) (hstored : ∀ s ∈ e.scalarLeaves, l.Stores (.expr s))
include he hstored

lemma definitionOf_of_stored (hs : s ∈ e.scalarLeaves) : l.definitionOf s.indexedName = none := by
  have hplain := he.of_mem_scalarLeaves hs
  rcases (hstored s hs).role with hrole | hrole
  · exact definitionOf_eq_none hplain hrole nofun
  · exact definitionOf_eq_none hplain hrole nofun

lemma mem_of_reached (hs : l.Reached e s) : s ∈ e.scalarLeaves := by
  obtain ⟨t, ht, hts⟩ := (reached_iff_of_leaves fun t ht => he.of_mem_scalarLeaves ht).1 hs
  have hundefined := definitionOf_of_stored he hstored ht
  rw [(reached_iff_of_undefined (he.of_mem_scalarLeaves ht) hundefined).1 hts]
  exact ht

/-- What has all its symbols in storage leads nowhere else. -/
lemma unrolls_of_stored : l.Unrolls (fun d => d.HasPlainSymbols ∧ l.Knows d) e := by
  refine .intro ⟨he, fun s hs => ?_⟩ fun d hd => ?_
  · rcases (hstored s hs).role with hrole | hrole
    · rw [hrole]
      rfl
    · rw [hrole]
      rfl
  · obtain ⟨s, hs, hdef⟩ := mem_definitionsIn.1 hd
    rw [definitionOf_of_stored he hstored hs] at hdef
    cases hdef

/-- An expression of stored symbols is compiled to its value on storage. -/
lemma exists_evaluator_of_stored {states parameters independent observed : Value}
    (hl : Layout.build states parameters independent observed = .ok l) (identity : Option Nat) :
    ∃ f, (l.system identity).evaluator (.expr e) .none = .ok f ∧
      ∀ c : Cells, c.Covers l → f.call (.list c.states) (.list c.parameters) .none =
        e.eval .numeric fun s => .ok (l.valueIn c (.expr s)) := by
  have hanswered := l.answeredBy identity
  have hunrolls := unrolls_of_stored he hstored
  have hresolves := hunrolls.resolves
  obtain ⟨t, ht, hext⟩ := (bind_binds hanswered hresolves fun v =>
    size_of_has_independent hl).resolve_right fun ⟨_, _, hcycle⟩ => hunrolls.not_cyclicFrom hcycle
  have hmeaning (s : Expr) (m : Meaning) (hm : (s, m) ∈ t.entries) :=
    meaningOf_of_stores (hstored s (mem_of_reached he hstored
      (hext.settled.reached_of_mem_keys (Assoc.mem_keys_of_mem hm))))
      (hext.settled.meaningOf_of_mem hm)
  have hf := System.evaluator_of_compile (l.bound_of_system identity)
    (Evaluator.compile_of_bind hanswered (independent_size hl) ht)
  refine ⟨_, hf, fun c hc => ?_⟩
  have hslots (x : Expr) (src : Source) (hmem : (x, src) ∈ t.bindings) : src.index?.isSome := by
    obtain ⟨_, heq, hindex, _⟩ := hmeaning x _ (LeafTable.mem_bindings.1 hmem)
    cases heq
    exact hindex
  rw [Evaluator.call_eq rfl fun k hk =>
      (hext.settled.isPlainSymbol_of_mem_keys hresolves hk).kind_eq,
    Evaluator.checkTime_of_slots hslots]
  refine Expr.eval_congr _ fun s hs => ?_
  obtain ⟨m, hm⟩ := Assoc.exists_mem_of_mem_keys (hext.bound s ((Expr.mem_scalarLeaves he).2 hs))
  obtain ⟨src, rfl, _, hread⟩ := hmeaning s m hm
  rw [← hread l.isTimeDependent c .none hc]
  exact hext.settled.valueIn_of_source .numeric _ hresolves hm

end Layout

namespace Term

lemma evaluator_term {t : Term} {e : Expr} (he : t.toExpr = .ok e) (s : System) (version : Value) :
    s.evaluator (.term t) version = s.evaluator (.expr e) version := by
  have hvalue : (Value.term t).toExpr = (Value.expr e).toExpr := by
    change t.toExpr = _
    rw [he]
    rfl
  unfold System.evaluator Evaluator.ofValue
  rw [hvalue]

/-- A term whose functions have as many arguments as they take becomes an expression exactly if
every term that is visited is supported and every piecewise term that is visited has a branch with a
literally true condition, after which nothing is visited; otherwise it is not implemented. For
every assignment of values to scalar symbols, the expression evaluates to what is read off the
term. So does the evaluator of the term, on storage of a layout that has its symbols. -/
theorem toExpr_preserves_meaning (t : Term) (harity : ∀ u, t.Visits u → u.HasArity) :
    ((∃ e, t.toExpr = .ok e) ↔ ∀ u, t.Visits u → u.IsSupported ∧ u.HasDefault) ∧
      (∀ f, t.toExpr = .error f → f.kind = .notImplemented) ∧
      ∀ e, t.toExpr = .ok e →
        (∀ ρ : String → List Index → Value, e.eval .numeric (assigned ρ) = t.reading ρ) ∧
        ∀ (states parameters independent observed : Value) (l : Layout) (identity : Option Nat),
          Layout.build states parameters independent observed = .ok l →
          (∀ s ∈ e.scalarLeaves, l.Stores (.expr s)) →
          ∃ f, (l.system identity).evaluator (.term t) .none = .ok f ∧
            ∀ c : Cells, c.Covers l → f.call (.list c.states) (.list c.parameters) .none =
              t.reading fun name indices => l.valueIn c (.expr (.symbol (some name) indices)) := by
  have hreads := reads_toExpr t harity
  refine ⟨?_, fun f hf => hreads.kind_eq hf, fun e he => ?_⟩
  · rcases hreads with ⟨hok, hreadable⟩ | ⟨f, hf, _, p, hp, u, hu, hnot⟩
    · exact ⟨fun _ => hreadable t (List.mem_singleton_self t), fun _ => hok⟩
    · rw [List.mem_singleton.1 hp] at hu
      refine ⟨fun ⟨e, he⟩ => ?_, fun h => absurd (h u hu) hnot⟩
      rw [hf] at he
      cases he
  · have hmeans := means_of_toExpr t harity he
    refine ⟨hmeans.eval, fun states parameters independent observed l identity hl hstored => ?_⟩
    obtain ⟨f, hf, hcall⟩ := Layout.exists_evaluator_of_stored hmeans.plain hstored hl identity
    refine ⟨f, (evaluator_term he _ _).trans hf, fun c hc => ?_⟩
    rw [hcall c hc, ← hmeans.eval]
    refine Expr.eval_congr _ fun s hs => ?_
    obtain ⟨name, indices, rfl⟩ := hmeans.plain.of_mem_occurrences hs
    -- a symbol without a name is stored under the empty one
    have hcell : l.cell? (.expr (.symbol name (indices.map .int))) =
        l.cell? (.expr (.symbol (some (name.getD "")) (indices.map .int))) := by
      refine Layout.cell?_congr ?_
      rw [Expr.key?_of_kind rfl, Expr.key?_of_kind rfl]
      rfl
    unfold assigned Layout.valueIn
    rw [hcell]
    rfl

namespace Guarded

def x : Term := .symbol "x"

def y : Term := .symbol "y"

/-- The sum of three symbols where the first is below the second, and otherwise a root; what comes
after the branch that is always taken has no expression. -/
def term : Term :=
  .piecewise [(.apply "Add" [x, y, .element "A" 2 2 0 1], .apply "StrictLessThan" [x, y]),
    (.apply "Pow" [x, .rational 1 2], .constant .true), (.apply "gamma" [x], y)]

def layout : Layout where
  states := ⟨[("x", .text "x"), ("y", .text "y")]⟩
  parameters := ⟨[("A[0,1]", .text "A[0,1]")]⟩

lemma build_layout :
    Layout.build (.list [.text "x", .text "y"]) (.list [.text "A[0,1]"]) .none .none =
      .ok layout := rfl

def expr : Expr :=
  let x := Expr.symbol (some "x")
  let y := Expr.symbol (some "y")
  .ifThenElse (.binary .lt x y) (.binary .add (.binary .add x y) (.symbol (some "A") [.int 0, .int 1]))
    (.unary .sqrt x)

lemma toExpr_term : term.toExpr = .ok expr := rfl

lemma scalarLeaves_expr :
    expr.scalarLeaves = [.symbol (some "x"), .symbol (some "y"), .symbol (some "A") [.int 0, .int 1]] :=
  rfl

lemma stores_expr : ∀ s ∈ expr.scalarLeaves, layout.Stores (.expr s) := by
  rw [scalarLeaves_expr]
  intro s hs
  simp only [List.mem_cons, List.not_mem_nil, or_false] at hs
  rcases hs with rfl | rfl | rfl
  · exact ⟨rfl, .inl rfl⟩
  · exact ⟨rfl, .inl rfl⟩
  · exact ⟨rfl, .inr rfl⟩

lemma hasArity_apply {head : String} {args : List Term} {o : Operation}
    (ho : operation? head = some o) (htakes : o.Takes args.length)
    (hargs : ∀ a ∈ args, a.parts = [] ∧ a.HasArity) :
    ∀ u, (apply head args).Visits u → u.HasArity := by
  refine forall_visits.2 ⟨fun o' ho' => ?_, fun a ha => forall_visits.2 ⟨(hargs a ha).2, ?_⟩⟩
  · cases ho.symm.trans ho'
    exact htakes
  · rw [(hargs a ha).1]
    exact nofun

lemma hasArity_term : ∀ u, term.Visits u → u.HasArity := by
  refine forall_visits.2 ⟨trivial, fun p hp => ?_⟩
  have hp' : p ∈ [.apply "StrictLessThan" [x, y], .apply "Add" [x, y, .element "A" 2 2 0 1],
      .apply "Pow" [x, .rational 1 2]] := hp
  simp only [List.mem_cons, List.not_mem_nil, or_false] at hp'
  rcases hp' with rfl | rfl | rfl
  · exact hasArity_apply rfl rfl (by simp [x, y, parts, HasArity])
  · exact hasArity_apply (o := .fold .add) rfl (Nat.succ_pos 2) (by simp [x, y, parts, HasArity])
  · exact hasArity_apply rfl rfl (by simp [x, parts, HasArity])

end Guarded

/-- The guard holds for one and two, and then the three values are added. -/
theorem toExpr_preserves_meaning_guarded :
    (∀ u, Guarded.term.Visits u → u.IsSupported ∧ u.HasDefault) ∧
      ∃ f, (Guarded.layout.system none).evaluator (.term Guarded.term) .none = .ok f ∧
        f.call (.list [.int 1, .int 2]) (.list [.int 3]) .none = .ok (.int 6) := by
  obtain ⟨hiff, -, hmeans⟩ := toExpr_preserves_meaning Guarded.term Guarded.hasArity_term
  refine ⟨hiff.1 ⟨_, Guarded.toExpr_term⟩, ?_⟩
  obtain ⟨f, hf, hcall⟩ := (hmeans _ Guarded.toExpr_term).2 _ _ _ _ _ none Guarded.build_layout
    Guarded.stores_expr
  refine ⟨f, hf, (hcall ⟨[.int 1, .int 2], [.int 3]⟩ ⟨Nat.le_refl 2, Nat.le_refl 1⟩).trans ?_⟩
  rfl

end Term
end NamedSlots
