import Mathlib.Tactic.Lemma

/-!
# Lists without repeats

A list without repeats keeps the first of several equal items. Equality need not be reflexive here,
but where it is symmetric and transitive, lists may be put together and expanded before or after
their repeats are left out.
-/

namespace NamedSlots

variable {α β : Type}

/-- To show something of a list, it may be assumed of every part of its tail. -/
theorem filterInduction {motive : List α → Prop} (nil : motive [])
    (cons : ∀ a as, (∀ p : α → Bool, motive (as.filter p)) → motive (a :: as)) :
    ∀ l, motive l
  | [] => nil
  | a :: as => cons a as fun p => filterInduction nil cons (as.filter p)
termination_by l => l.length
decreasing_by
  have h := List.length_filter_le p as
  rw [List.length_cons]
  omega

lemma eraseDupsBy_sublist (r : α → α → Bool) (l : List α) : (l.eraseDupsBy r).Sublist l := by
  induction l using filterInduction with
  | nil => exact .slnil
  | cons a as ih =>
    rw [List.eraseDupsBy_cons]
    exact ((ih _).trans List.filter_sublist).cons_cons a

lemma eraseDupsBy_pairwise (r : α → α → Bool) (l : List α) :
    (l.eraseDupsBy r).Pairwise fun a b => r b a = false := by
  induction l using filterInduction with
  | nil => exact .nil
  | cons a as ih =>
    rw [List.eraseDupsBy_cons]
    refine List.pairwise_cons.2 ⟨fun b hb => ?_, ih _⟩
    have hkept := (List.mem_filter.1 ((eraseDupsBy_sublist r _).subset hb)).2
    exact of_decide_eq_true hkept

/-- Leaving out the items with an earlier image leaves out the earlier images. -/
lemma map_eraseDupsBy [BEq β] (f : α → β) (l : List α) :
    (l.eraseDupsBy fun a b => f a == f b).map f = (l.map f).eraseDups := by
  induction l using filterInduction with
  | nil => rfl
  | cons a as ih =>
    rw [List.eraseDupsBy_cons, List.map_cons, List.map_cons, List.eraseDups_cons, ih,
      List.filter_map]
    simp only [Bool.decide_eq_false]
    rfl

/-- What expands to nothing may be left out before a list is expanded. -/
lemma flatMap_filter_of_nil {p : α → Bool} {f : α → List β} {l : List α}
    (h : ∀ a ∈ l, p a = false → f a = []) : (l.filter p).flatMap f = l.flatMap f := by
  induction l with
  | nil => rfl
  | cons a as ih =>
    have hrest := ih fun b hb => h b (List.mem_cons_of_mem _ hb)
    by_cases ha : p a = true
    · rw [List.filter_cons_of_pos ha, List.flatMap_cons, List.flatMap_cons, hrest]
    · rw [List.filter_cons_of_neg ha, List.flatMap_cons, hrest,
        h a List.mem_cons_self (eq_false_of_ne_true ha), List.nil_append]

lemma eraseDupsBy_of_pairwise {r : α → α → Bool} {l : List α}
    (h : l.Pairwise fun a b => r b a = false) : l.eraseDupsBy r = l := by
  induction l with
  | nil => rfl
  | cons a as ih =>
    obtain ⟨hhead, htail⟩ := List.pairwise_cons.1 h
    have hkept : (as.filter fun b => decide (r b a = false)) = as :=
      List.filter_eq_self.2 fun b hb => decide_eq_true (hhead b hb)
    rw [List.eraseDupsBy_cons, hkept, ih htail]

section Equality

variable [BEq α] {a : α}

lemma mem_of_mem_eraseDups (l : List α) (h : a ∈ l.eraseDups) : a ∈ l :=
  (eraseDupsBy_sublist _ l).subset h

lemma exists_mem_eraseDups (l : List α) (h : a ∈ l) :
    ∃ b ∈ l.eraseDups, a = b ∨ (a == b) = true := by
  induction l using filterInduction with
  | nil => cases h
  | cons b bs ih =>
    rw [List.eraseDups_cons]
    by_cases hab : (a == b) = true
    · exact ⟨b, List.mem_cons_self, .inr hab⟩
    · rcases List.mem_cons.1 h with rfl | h
      · exact ⟨a, List.mem_cons_self, .inl rfl⟩
      · have hkept : a ∈ bs.filter fun c => !c == b := List.mem_filter.2 ⟨h, by simpa using hab⟩
        obtain ⟨c, hc, hac⟩ := ih _ hkept
        exact ⟨c, List.mem_cons_of_mem _ hc, hac⟩

lemma eraseDups_eraseDups (l : List α) : l.eraseDups.eraseDups = l.eraseDups :=
  eraseDupsBy_of_pairwise (eraseDupsBy_pairwise _ l)

lemma nodup_eraseDups [LawfulBEq α] (l : List α) : l.eraseDups.Nodup :=
  (eraseDupsBy_pairwise _ l).imp fun h heq => by
    rw [heq, beq_self_eq_true] at h
    cases h

end Equality

section Equivalence

variable [BEq β]

/-- What is filtered by a test that does not tell equal items apart may be filtered afterwards. -/
lemma eraseDups_filter {p : β → Bool} (hp : ∀ x y, (x == y) = true → p x = p y) (l : List β) :
    (l.filter p).eraseDups = l.eraseDups.filter p := by
  induction l using filterInduction with
  | nil => rfl
  | cons x xs ih =>
    rw [List.eraseDups_cons]
    by_cases hx : p x = true
    · rw [List.filter_cons_of_pos hx, List.filter_cons_of_pos hx, List.eraseDups_cons, ← ih,
        List.filter_filter, List.filter_filter]
      simp only [Bool.and_comm]
    · rw [List.filter_cons_of_neg hx, List.filter_cons_of_neg hx, ← ih, List.filter_filter]
      -- what equals the item is left out by the test as well
      refine congrArg List.eraseDups (List.filter_congr fun y _ => ?_)
      cases hy : y == x with
      | false => simp
      | true => simp [hp y x hy, hx]

variable [PartialEquivBEq β]

/-- Whether an item equals none of a list. -/
def isApart (l : List β) (x : β) : Bool := !l.any (x == ·)

lemma isApart_congr (l : List β) {x y : β} (h : (x == y) = true) : isApart l x = isApart l y := by
  refine congrArg not (Bool.eq_iff_iff.2 ?_)
  rw [List.any_eq_true, List.any_eq_true]
  exact ⟨fun ⟨z, hz, hxz⟩ => ⟨z, hz, PartialEquivBEq.trans (PartialEquivBEq.symm h) hxz⟩,
    fun ⟨z, hz, hyz⟩ => ⟨z, hz, PartialEquivBEq.trans h hyz⟩⟩

lemma isApart_eraseDups (l : List β) (x : β) : isApart l.eraseDups x = isApart l x := by
  refine congrArg not (Bool.eq_iff_iff.2 ?_)
  rw [List.any_eq_true, List.any_eq_true]
  constructor
  · exact fun ⟨y, hy, hxy⟩ => ⟨y, mem_of_mem_eraseDups l hy, hxy⟩
  · rintro ⟨y, hy, hxy⟩
    obtain ⟨z, hz, rfl | hyz⟩ := exists_mem_eraseDups l hy
    · exact ⟨y, hz, hxy⟩
    · exact ⟨z, hz, PartialEquivBEq.trans hxy hyz⟩

/-- An item that does not equal another one is apart from what equals that one. -/
lemma isApart_cons (x : β) (xs : List β) (y : β) :
    isApart (x :: xs) y = (isApart (xs.filter fun z => !z == x) y && !y == x) := by
  rw [isApart, isApart, List.any_cons, List.any_filter, Bool.not_or, Bool.and_comm]
  cases hy : y == x with
  | true => simp
  | false =>
    refine congrArg (!· && _) (Bool.eq_iff_iff.2 ?_)
    simp only [List.any_eq_true, Bool.and_eq_true, Bool.not_eq_true']
    refine exists_congr fun z => and_congr_right fun _ => ⟨fun hyz => ⟨?_, hyz⟩, And.right⟩
    exact Bool.eq_false_iff.2 fun hzx => Bool.eq_false_iff.1 hy (PartialEquivBEq.trans hyz hzx)

/-- Two lists in a row have, without repeats, those of the first and what is new in the second. -/
lemma eraseDups_append (l m : List β) :
    (l ++ m).eraseDups = l.eraseDups ++ m.eraseDups.filter (isApart l) := by
  rw [← eraseDups_filter fun _ _ => isApart_congr l]
  induction l using filterInduction generalizing m with
  | nil =>
    have hall : m.filter (isApart []) = m := List.filter_eq_self.2 fun _ _ => rfl
    rw [hall]
    rfl
  | cons x xs ih =>
    rw [List.cons_append, List.eraseDups_cons, List.eraseDups_cons, List.filter_append, ih,
      List.cons_append, List.filter_filter]
    exact congrArg (fun l => x :: (_ ++ List.eraseDups l))
      (List.filter_congr fun y _ => (isApart_cons x xs y).symm)

/-- Lists put together have no repeats but those of their parts left out. -/
lemma eraseDups_append_congr {l l' m m' : List β} (hl : l.eraseDups = l'.eraseDups)
    (hm : m.eraseDups = m'.eraseDups) : (l ++ m).eraseDups = (l' ++ m').eraseDups := by
  have hapart : isApart l = isApart l' := by
    funext x
    rw [← isApart_eraseDups l, hl, isApart_eraseDups]
  rw [eraseDups_append, eraseDups_append, hl, hm, hapart]

/-- Repeats may be left out of the parts of a list first. -/
lemma eraseDups_flatMap_congr {f g : α → List β} {l : List α}
    (h : ∀ a ∈ l, (f a).eraseDups = (g a).eraseDups) :
    (l.flatMap f).eraseDups = (l.flatMap g).eraseDups := by
  induction l with
  | nil => rfl
  | cons a as ih =>
    rw [List.flatMap_cons, List.flatMap_cons]
    exact eraseDups_append_congr (h a List.mem_cons_self)
      (ih fun b hb => h b (List.mem_cons_of_mem _ hb))

/-- Repeats may be left out before items are expanded, if what equals an item expands to nothing
that the item does not. -/
lemma eraseDups_flatMap_eraseDups [BEq α] {f : α → List β} {l : List α}
    (h : ∀ a ∈ l, ∀ b ∈ l, (b == a) = true → ∀ y ∈ f b, ∃ x ∈ f a, (y == x) = true) :
    (l.eraseDups.flatMap f).eraseDups = (l.flatMap f).eraseDups := by
  induction l using filterInduction with
  | nil => rfl
  | cons a as ih =>
    have hrest := ih (fun b => !b == a) fun b hb c hc =>
      h b (List.mem_cons_of_mem _ (List.mem_filter.1 hb).1) c
        (List.mem_cons_of_mem _ (List.mem_filter.1 hc).1)
    rw [List.eraseDups_cons, List.flatMap_cons, List.flatMap_cons, eraseDups_append_congr rfl hrest,
      eraseDups_append, eraseDups_append, ← eraseDups_filter fun _ _ => isApart_congr (f a),
      ← eraseDups_filter fun _ _ => isApart_congr (f a), List.filter_flatMap, List.filter_flatMap]
    -- what equals the first item expands to nothing apart from its expansion
    refine congrArg (_ ++ List.eraseDups ·) (flatMap_filter_of_nil fun b hb hba => ?_)
    refine List.filter_eq_nil_iff.2 fun y hy hapart => ?_
    obtain ⟨x, hx, hyx⟩ := h a List.mem_cons_self b (List.mem_cons_of_mem _ hb) (by simpa using hba)
      y hy
    have hsome : (f a).any (y == ·) = true := List.any_eq_true.2 ⟨x, hx, hyx⟩
    rw [isApart, hsome] at hapart
    cases hapart

end Equivalence

end NamedSlots
