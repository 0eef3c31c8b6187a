import Mathlib.Data.List.Basic
import Mathlib.Logic.Relation
import Mathlib.Tactic.Lemma
import NamedSlots.Assoc
import NamedSlots.Proofs.AssocLookup
import NamedSlots.Proofs.TracedRun
import NamedSlots.Term.Conversion

/-!
# Terms that have an expression

A term becomes an expression node by node, and a piecewise term is looked at up to its first
branch whose condition is literally true. What is looked at decides whether there is an
expression: every function has to be one that is known, and every piecewise term has to have such
a branch.
-/

namespace NamedSlots.Term

open Relation

/-! ### Functions of terms -/

/-- What the head of a term says about its arguments. -/
inductive Operation
  | fold (op : BinaryOp)
  | binary (op : BinaryOp)
  | power
  | unary (op : UnaryOp)

/-- The functions that are known, by their names. -/
def operations : List (String × Operation) :=
  [("Add", .fold .add), ("Mul", .fold .mul), ("Min", .fold .min), ("Max", .fold .max),
   ("And", .fold .and), ("Or", .fold .or),
   ("StrictLessThan", .binary .lt), ("LessThan", .binary .le), ("StrictGreaterThan", .binary .gt),
   ("GreaterThan", .binary .ge), ("Equality", .binary .eq), ("Unequality", .binary .ne),
   ("atan2", .binary .atan2), ("Mod", .binary .mod), ("Pow", .power),
   ("sin", .unary .sin), ("cos", .unary .cos), ("tan", .unary .tan), ("asin", .unary .asin),
   ("acos", .unary .acos), ("atan", .unary .atan), ("exp", .unary .exp), ("log", .unary .log),
   ("Abs", .unary .abs), ("sign", .unary .sign), ("floor", .unary .floor),
   ("ceiling", .unary .ceil), ("sinh", .unary .sinh), ("cosh", .unary .cosh),
   ("tanh", .unary .tanh), ("Not", .unary .not)]

def operation? (head : String) : Option Operation := Assoc.find? head operations

namespace Operation

/-- How many arguments the function takes. -/
def Takes : Operation → Nat → Prop
  | fold _, n => 0 < n
  | binary _, n => n = 2
  | power, n => n = 2
  | unary _, n => n = 1

end Operation

/-- The conversion tells the function from the others. -/
def Operation.IsTold (head : String) : Operation → Prop
  | fold op => foldOp? head = some op
  | binary op => foldOp? head = none ∧ binaryOp? head = some op
  | power => foldOp? head = none ∧ binaryOp? head = none ∧ unaryOp? head = none ∧ head = "Pow"
  | unary op => foldOp? head = none ∧ binaryOp? head = none ∧ unaryOp? head = some op

lemma isTold_of_mem : ∀ entry ∈ operations, entry.2.IsTold entry.1 := by
  simp [operations, Operation.IsTold, foldOp?, binaryOp?, unaryOp?]

lemma isTold {head : String} {o : Operation} (h : operation? head = some o) : o.IsTold head := by
  obtain ⟨name, hmem, hname⟩ := Assoc.mem_of_find? h
  rw [eq_of_beq hname] at hmem
  exact isTold_of_mem _ hmem

lemma operation?_eq_none {head : String} (h : operation? head = none) :
    foldOp? head = none ∧ binaryOp? head = none ∧ unaryOp? head = none ∧ head ≠ "Pow" := by
  have hnot := Assoc.find?_eq_none_iff.1 h
  simp only [operations, List.forall_mem_cons, beq_eq_false_iff_ne] at hnot
  refine ⟨?_, ?_, ?_, ?_⟩
  · unfold foldOp?
    split <;> simp_all
  · unfold binaryOp?
    split <;> simp_all
  · unfold unaryOp?
    split <;> simp_all
  · rintro rfl
    simp at hnot

/-! ### What is looked at -/

/-- The conditions and the values of the branches, up to the first condition that is literally
true. -/
def branchParts : List (Term × Term) → List Term
  | [] => []
  | (value, cond) :: rest => if cond.isTrue then [value] else cond :: value :: branchParts rest

/-- The terms inside a term that its conversion looks at. -/
def parts : Term → List Term
  | apply _ args => args
  | piecewise branches => branchParts branches
  | _ => []

/-- The conversion of one term comes to the other. -/
def Visits : Term → Term → Prop := ReflTransGen fun t u => u ∈ t.parts

/-- A known function, or a constant that is a number. -/
def IsSupported : Term → Prop
  | apply head _ => (operation? head).isSome
  | constant c => c ≠ .complexInfinity ∧ c ≠ .imaginaryUnit
  | _ => True

/-- A piecewise term has a branch whose condition is literally true. -/
def HasDefault : Term → Prop
  | piecewise branches => ∃ branch ∈ branches, branch.2.isTrue = true
  | _ => True

/-- A term has as many arguments as its class takes. -/
def HasArity : Term → Prop
  | apply head args => ∀ o, operation? head = some o → o.Takes args.length
  | _ => True

lemma visits_iff {t u : Term} : t.Visits u ↔ u = t ∨ ∃ p ∈ t.parts, p.Visits u := by
  constructor
  · intro h
    rcases h.cases_head with rfl | ⟨p, hp, hu⟩
    · exact .inl rfl
    · exact .inr ⟨p, hp, hu⟩
  · rintro (rfl | ⟨p, hp, hu⟩)
    · exact .refl
    · exact hu.head hp

lemma forall_visits {t : Term} {P : Term → Prop} :
    (∀ u, t.Visits u → P u) ↔ P t ∧ ∀ p ∈ t.parts, ∀ u, p.Visits u → P u := by
  simp only [visits_iff (t := t), forall_eq_or_imp, forall_exists_index, and_imp]
  exact and_congr_right fun _ => forall_comm.trans (forall_congr' fun p => forall_comm)

lemma mem_branchParts {p : Term} {branches : List (Term × Term)} (h : p ∈ branchParts branches) :
    ∃ branch ∈ branches, p = branch.1 ∨ p = branch.2 := by
  induction branches with
  | nil => cases h
  | cons branch rest ih =>
    obtain ⟨value, cond⟩ := branch
    rw [branchParts] at h
    split at h
    · exact ⟨_, List.mem_cons_self, .inl (List.mem_singleton.1 h)⟩
    · rcases List.mem_cons.1 h with rfl | h
      · exact ⟨_, List.mem_cons_self, .inr rfl⟩
      rcases List.mem_cons.1 h with rfl | h
      · exact ⟨_, List.mem_cons_self, .inl rfl⟩
      obtain ⟨branch, hbranch, hp⟩ := ih h
      exact ⟨branch, List.mem_cons_of_mem _ hbranch, hp⟩

lemma sizeOf_lt_of_mem_parts {t p : Term} (h : p ∈ t.parts) : sizeOf p < sizeOf t := by
  cases t with
  | apply head args =>
    have hlt := List.sizeOf_lt_of_mem (show p ∈ args from h)
    simp only [apply.sizeOf_spec]
    omega
  | piecewise branches =>
    obtain ⟨⟨value, cond⟩, hbranch, hp⟩ := mem_branchParts h
    have hlt := List.sizeOf_lt_of_mem hbranch
    simp only [Prod.mk.sizeOf_spec] at hlt
    simp only [piecewise.sizeOf_spec]
    rcases hp with rfl | rfl <;> omega
  | _ => cases h

/-- To show something of every term, it is shown of a term whose parts have it. -/
theorem inductionOn_parts {motive : Term → Prop} (t : Term)
    (step : ∀ t, (∀ p ∈ t.parts, motive p) → motive t) : motive t :=
  step t fun p _ => inductionOn_parts p step
termination_by sizeOf t
decreasing_by exact sizeOf_lt_of_mem_parts (by assumption)

/-! ### Which terms are converted -/

/-- All that the conversion needs to know of a term: its function, or its last branch. -/
def IsReadable (t : Term) : Prop := t.IsSupported ∧ t.HasDefault

variable {α β : Type}

/-- A conversion that looks at some terms succeeds exactly if all that it visits there is readable,
and otherwise says that it does not know what to do. -/
def Reads (ps : List Term) (x : Except Failure α) : Prop :=
  ((∃ a, x = .ok a) ∧ ∀ p ∈ ps, ∀ u, p.Visits u → u.IsReadable) ∨
    ∃ f, x = .error f ∧ f.kind = .notImplemented ∧ ∃ p ∈ ps, ∃ u, p.Visits u ∧ ¬ u.IsReadable

lemma reads_ok (a : α) : Reads [] (.ok a) := .inl ⟨⟨a, rfl⟩, nofun⟩

lemma Reads.bind {ps qs : List Term} {x : Except Failure α} {f : α → Except Failure β}
    (hx : Reads ps x) (hf : ∀ a, x = .ok a → Reads qs (f a)) : Reads (ps ++ qs) (x >>= f) := by
  rcases hx with ⟨⟨a, rfl⟩, hps⟩ | ⟨e, rfl, hkind, p, hp, hu⟩
  · rcases hf a rfl with ⟨hb, hqs⟩ | ⟨e, he, hkind, q, hq, hu⟩
    · refine .inl ⟨hb, fun p hp => ?_⟩
      rcases List.mem_append.1 hp with hp | hp
      · exact hps p hp
      · exact hqs p hp
    · exact .inr ⟨e, he, hkind, q, List.mem_append_right _ hq, hu⟩
  · exact .inr ⟨e, rfl, hkind, p, List.mem_append_left _ hp, hu⟩

/-- What is visited from a term is the term and what is visited from its parts. -/
lemma Reads.of_parts {t : Term} {x : Except Failure α} (ht : t.IsReadable) (h : Reads t.parts x) :
    Reads [t] x := by
  rcases h with ⟨hx, hparts⟩ | ⟨f, hx, hkind, p, hp, u, hu, hnot⟩
  · refine .inl ⟨hx, fun p hp u hu => ?_⟩
    rw [List.mem_singleton.1 hp] at hu
    rcases visits_iff.1 hu with rfl | ⟨p, hp, hu⟩
    · exact ht
    · exact hparts p hp u hu
  · exact .inr ⟨f, hx, hkind, t, List.mem_singleton_self t, u,
      visits_iff.2 (.inr ⟨p, hp, hu⟩), hnot⟩

lemma Reads.of_not_isReadable {t : Term} {f : Failure} (ht : ¬ t.IsReadable)
    (hkind : f.kind = .notImplemented) : Reads [t] (.error f : Except Failure α) :=
  .inr ⟨f, rfl, hkind, t, List.mem_singleton_self t, t, .refl, ht⟩

lemma Reads.map_ok {ps : List Term} {a : α} (h : Reads ps (.ok a)) (b : β) :
    Reads ps (.ok b : Except Failure β) := by
  rcases h with ⟨_, hps⟩ | ⟨f, hf, _⟩
  · exact .inl ⟨⟨b, rfl⟩, hps⟩
  · cases hf

/-- A conversion that uses what another one found looks at nothing else. -/
lemma Reads.map {ps : List Term} {x : Except Failure α} (hx : Reads ps x) {g : α → Except Failure β}
    (hg : ∀ a, x = .ok a → ∃ b, g a = .ok b) : Reads ps (x >>= g) := by
  have h := hx.bind fun a ha => by
    obtain ⟨b, hb⟩ := hg a ha
    exact hb ▸ reads_ok b
  rwa [List.append_nil] at h

lemma Reads.kind_eq {ps : List Term} {x : Except Failure α} (h : Reads ps x) {f : Failure}
    (hx : x = .error f) : f.kind = .notImplemented := by
  rcases h with ⟨⟨a, ha⟩, _⟩ | ⟨f', hf', hkind, _⟩
  · rw [hx] at ha
    cases ha
  · rw [hx] at hf'
    cases hf'
    exact hkind

section Conversion

variable {head : String} {args : List Term}

lemma isSupported_constant (c : NamedConstant) : (constant c).IsSupported ↔ c.toFloat?.isSome := by
  cases c <;> simp [IsSupported, NamedConstant.toFloat?]

lemma exists_of_isHalf {t : Term} (h : t.isHalf = true) : ∃ x, t.toExpr = .ok (.constant x) := by
  unfold isHalf at h
  split at h
  · exact ⟨_, rfl⟩
  · cases h

lemma toExpr_fold {op : BinaryOp} (h : operation? head = some (.fold op)) :
    (apply head args).toExpr = allToExpr args >>= foldLeft op := by
  have hfold : foldOp? head = some op := isTold h
  rw [toExpr.eq_def]
  simp only [hfold]

lemma toExpr_binary {op : BinaryOp} (h : operation? head = some (.binary op)) (l r : Term) :
    (apply head [l, r]).toExpr = do
      let x ← l.toExpr
      let y ← r.toExpr
      return Expr.binary op x y := by
  obtain ⟨hfold, hbinary⟩ : foldOp? head = none ∧ binaryOp? head = some op := isTold h
  rw [toExpr.eq_def]
  simp only [hfold, hbinary]

lemma toExpr_power (h : operation? head = some .power) (base power : Term) :
    (apply head [base, power]).toExpr =
      if power.isHalf then do return Expr.unary .sqrt (← base.toExpr)
      else do
        let x ← base.toExpr
        let y ← power.toExpr
        return Expr.binary .pow x y := by
  obtain ⟨hfold, hbinary, hunary, hname⟩ : Operation.IsTold head .power := isTold h
  rw [toExpr.eq_def]
  simp only [hfold, hbinary, hunary, if_pos hname]

lemma toExpr_unary {op : UnaryOp} (h : operation? head = some (.unary op)) (a : Term) :
    (apply head [a]).toExpr = do return Expr.unary op (← a.toExpr) := by
  obtain ⟨hfold, hbinary, hunary⟩ : Operation.IsTold head (.unary op) := isTold h
  rw [toExpr.eq_def]
  simp only [hfold, hbinary, hunary]

lemma toExpr_unknown (h : operation? head = none) (args : List Term) :
    ∃ text, (apply head args).toExpr = .error (.unsupportedTerm head text) := by
  obtain ⟨hfold, hbinary, hunary, hpower⟩ := operation?_eq_none h
  rw [toExpr.eq_def]
  rcases args with _ | ⟨a, _ | ⟨b, _ | ⟨c, rest⟩⟩⟩ <;>
    exact ⟨_, by simp only [hfold, hbinary, hunary, if_neg hpower]; rfl⟩

lemma length_of_allToExpr {es : List Expr} (h : allToExpr args = .ok es) :
    es.length = args.length := by
  induction args generalizing es with
  | nil =>
    cases h
    rfl
  | cons a args ih =>
    rw [allToExpr] at h
    obtain ⟨e, _, h⟩ := Except.eq_ok_of_bind h
    obtain ⟨rest, hrest, h⟩ := Except.eq_ok_of_bind h
    cases h
    rw [List.length_cons, List.length_cons, ih hrest]

lemma reads_allToExpr (h : ∀ a ∈ args, Reads [a] a.toExpr) : Reads args (allToExpr args) := by
  induction args with
  | nil => exact reads_ok _
  | cons a args ih =>
    rw [allToExpr]
    refine Reads.bind (h a List.mem_cons_self) fun e _ => ?_
    exact (ih fun b hb => h b (List.mem_cons_of_mem _ hb)).map fun es _ => ⟨e :: es, rfl⟩

lemma foldLeft_cons {op : BinaryOp} (e : Expr) (es : List Expr) :
    foldLeft op (e :: es) = .ok (es.foldl (Expr.binary op) e) := rfl

/-- With as many arguments as it takes, a known function looks at all of them. -/
lemma reads_apply {o : Operation} (ho : operation? head = some o) (htakes : o.Takes args.length)
    (h : ∀ a ∈ args, Reads [a] a.toExpr) : Reads args (apply head args).toExpr := by
  cases o with
  | fold op =>
    rw [toExpr_fold ho]
    refine (reads_allToExpr h).map fun es hes => ?_
    have hlength : 0 < es.length := by
      rw [length_of_allToExpr hes]
      exact htakes
    obtain ⟨e, es, rfl⟩ := List.exists_cons_of_length_pos hlength
    exact ⟨_, foldLeft_cons e es⟩
  | binary op =>
    obtain ⟨l, r, rfl⟩ := List.length_eq_two.1 htakes
    rw [toExpr_binary ho]
    exact (h l List.mem_cons_self).bind fun x _ =>
      (h r (List.mem_cons_of_mem _ List.mem_cons_self)).map fun y _ => ⟨.binary op x y, rfl⟩
  | power =>
    obtain ⟨base, power, rfl⟩ := List.length_eq_two.1 htakes
    have hbase := h base List.mem_cons_self
    have hpower := h power (List.mem_cons_of_mem _ List.mem_cons_self)
    rw [toExpr_power ho]
    by_cases hhalf : power.isHalf = true
    · -- the exponent is not converted, but it is a number
      rw [if_pos hhalf]
      obtain ⟨x, hx⟩ := exists_of_isHalf hhalf
      rw [hx] at hpower
      exact hbase.bind fun e _ => hpower.map_ok _
    · rw [if_neg hhalf]
      exact hbase.bind fun x _ => hpower.map fun y _ => ⟨.binary .pow x y, rfl⟩
  | unary op =>
    obtain ⟨a, rfl⟩ := List.length_eq_one_iff.1 htakes
    rw [toExpr_unary ho]
    exact (h a List.mem_cons_self).map fun x _ => ⟨.unary op x, rfl⟩

variable {branches : List (Term × Term)}

lemma reads_branches (hdefault : ∃ branch ∈ branches, branch.2.isTrue = true)
    (h : ∀ p ∈ branchParts branches, Reads [p] p.toExpr) :
    Reads (branchParts branches) (branchesToExpr branches) := by
  induction branches with
  | nil =>
    obtain ⟨_, hmem, _⟩ := hdefault
    cases hmem
  | cons branch rest ih =>
    obtain ⟨value, cond⟩ := branch
    rw [branchParts] at h ⊢
    rw [branchesToExpr]
    by_cases hcond : cond.isTrue = true
    · rw [if_pos hcond] at h ⊢
      rw [if_pos hcond]
      exact h value (List.mem_singleton_self value)
    · rw [if_neg hcond] at h ⊢
      rw [if_neg hcond]
      have hrest : ∃ branch ∈ rest, branch.2.isTrue = true := by
        obtain ⟨branch, hmem, htrue⟩ := hdefault
        rcases List.mem_cons.1 hmem with rfl | hmem
        · exact absurd htrue hcond
        · exact ⟨branch, hmem, htrue⟩
      have hnonempty : ¬ rest.isEmpty = true := by
        obtain ⟨branch, hmem, _⟩ := hrest
        intro hempty
        rw [List.isEmpty_iff.1 hempty] at hmem
        cases hmem
      rw [if_neg hnonempty]
      have htail := ih hrest fun p hp => h p (List.mem_cons_of_mem _ (List.mem_cons_of_mem _ hp))
      refine (h cond List.mem_cons_self).bind fun c _ =>
        (h value (List.mem_cons_of_mem _ List.mem_cons_self)).bind fun v _ => ?_
      exact htail.map fun e _ => ⟨.ifThenElse c v e, rfl⟩

lemma kind_of_no_default (hdefault : ¬ ∃ branch ∈ branches, branch.2.isTrue = true)
    (h : ∀ p ∈ branchParts branches, Reads [p] p.toExpr) :
    ∃ f, branchesToExpr branches = .error f ∧ f.kind = .notImplemented := by
  induction branches with
  | nil => exact ⟨.noDefaultBranch, rfl, rfl⟩
  | cons branch rest ih =>
    obtain ⟨value, cond⟩ := branch
    have hcond : ¬ cond.isTrue = true := fun htrue => hdefault ⟨_, List.mem_cons_self, htrue⟩
    rw [branchParts, if_neg hcond] at h
    rw [branchesToExpr, if_neg hcond]
    split
    · exact ⟨.noDefaultBranch, rfl, rfl⟩
    obtain ⟨f, hf, hkind⟩ := ih
      (fun ⟨branch, hmem, htrue⟩ => hdefault ⟨branch, List.mem_cons_of_mem _ hmem, htrue⟩)
      fun p hp => h p (List.mem_cons_of_mem _ (List.mem_cons_of_mem _ hp))
    rw [hf]
    cases hc : cond.toExpr with
    | error f => exact ⟨f, rfl, (h cond List.mem_cons_self).kind_eq hc⟩
    | ok c =>
      cases hv : value.toExpr with
      | error f => exact ⟨f, rfl, (h value (List.mem_cons_of_mem _ List.mem_cons_self)).kind_eq hv⟩
      | ok v => exact ⟨f, rfl, hkind⟩

/-- A term becomes an expression exactly if all that its conversion visits is readable. -/
theorem reads_toExpr (t : Term) (harity : ∀ u, t.Visits u → u.HasArity) : Reads [t] t.toExpr := by
  induction t using inductionOn_parts with
  | step t ih =>
  have hparts : ∀ p ∈ t.parts, Reads [p] p.toExpr := fun p hp =>
    ih p hp ((forall_visits.1 harity).2 p hp)
  cases t with
  | constant c =>
    rw [toExpr]
    cases hx : c.toFloat? with
    | some x =>
      exact .of_parts ⟨(isSupported_constant c).2 (Option.isSome_of_eq_some hx), trivial⟩
        (reads_ok _)
    | none =>
      refine .of_not_isReadable (fun h => ?_) rfl
      have hsome := (isSupported_constant c).1 h.1
      rw [hx] at hsome
      cases hsome
  | piecewise branches =>
    rw [toExpr]
    by_cases hdefault : ∃ branch ∈ branches, branch.2.isTrue = true
    · exact .of_parts ⟨trivial, hdefault⟩ (reads_branches hdefault hparts)
    · obtain ⟨f, hf, hkind⟩ := kind_of_no_default hdefault hparts
      rw [hf]
      exact .of_not_isReadable (fun h => hdefault h.2) hkind
  | apply head args =>
    cases ho : operation? head with
    | none =>
      obtain ⟨text, htext⟩ := toExpr_unknown ho args
      rw [htext]
      refine .of_not_isReadable (fun h => ?_) rfl
      have hsome : (operation? head).isSome := h.1
      rw [ho] at hsome
      cases hsome
    | some o =>
      have hsupported : (apply head args).IsSupported := Option.isSome_of_eq_some ho
      exact .of_parts ⟨hsupported, trivial⟩ (reads_apply ho (harity _ .refl o ho) hparts)
  | _ => exact .of_parts ⟨trivial, trivial⟩ (reads_ok _)

end Conversion

end NamedSlots.Term
