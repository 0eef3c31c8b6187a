import NamedSlots.Number.Decimal
import NamedSlots.Text.Blank
import NamedSlots.Text.DecimalDigit

/-!
# Numerals

Reading of integers and floating numbers. Blanks may surround a numeral, digits of any script
count, and single underscores may stand between digits. A longest numeral bounds the integers.
-/

namespace NamedSlots.Text.Numeral

/-- The most digits that the text of an integer may have. -/
def maxDigits : Nat := 4300

def splitSign : List Char → Bool × List Char
  | '-' :: rest => (true, rest)
  | '+' :: rest => (false, rest)
  | rest => (false, rest)

/-- Digits after a digit: each underscore is followed by a digit. -/
private def moreDigits? : List Char → Option (List Nat)
  | [] => some []
  | ['_'] => none
  | '_' :: c :: rest => do
    let d ← digitValue? c
    let ds ← moreDigits? rest
    return d :: ds
  | c :: rest => do
    let d ← digitValue? c
    let ds ← moreDigits? rest
    return d :: ds

/-- The digits of a whole text, which starts and ends with a digit. -/
def digits? : List Char → Option (List Nat)
  | [] => none
  | c :: rest => do
    let d ← digitValue? c
    let ds ← moreDigits? rest
    return d :: ds

private theorem moreDigits?_eq_mapM {cs : List Char} (hcs : ∀ c ∈ cs, c ≠ '_') :
    moreDigits? cs = cs.mapM digitValue? := by
  induction cs with
  | nil => rfl
  | cons c rest ih =>
    obtain ⟨hc, hrest⟩ := List.forall_mem_cons.1 hcs
    rw [List.mapM_cons, ← ih hrest]
    exact moreDigits?.eq_4 c rest (fun h _ => hc h) (fun _ _ h _ => hc h)

/-- A text without underscores is read character by character. -/
theorem digits?_eq_mapM {cs : List Char} (hne : cs ≠ []) (hcs : ∀ c ∈ cs, c ≠ '_') :
    digits? cs = cs.mapM digitValue? := by
  cases cs with
  | nil => exact absurd rfl hne
  | cons c rest =>
    rw [digits?, List.mapM_cons, moreDigits?_eq_mapM fun x hx => hcs x (List.mem_cons_of_mem c hx)]

private theorem exists_digitValue?_of_moreDigits? {cs : List Char} {ds : List Nat}
    (h : moreDigits? cs = some ds) : ∀ d ∈ ds, ∃ c, digitValue? c = some d := by
  fun_induction moreDigits? cs generalizing ds with
  | case1 => cases h; simp
  | case2 => cases h
  | case3 c rest ih =>
    obtain ⟨d, hd, h⟩ := Option.bind_eq_some_iff.1 h
    obtain ⟨ds', hds, h⟩ := Option.bind_eq_some_iff.1 h
    cases h
    exact List.forall_mem_cons.2 ⟨⟨c, hd⟩, ih hds⟩
  | case4 c rest _ _ ih =>
    obtain ⟨d, hd, h⟩ := Option.bind_eq_some_iff.1 h
    obtain ⟨ds', hds, h⟩ := Option.bind_eq_some_iff.1 h
    cases h
    exact List.forall_mem_cons.2 ⟨⟨c, hd⟩, ih hds⟩

/-- Every number read off a text is the value of a character. -/
theorem exists_digitValue?_of_digits? {cs : List Char} {ds : List Nat}
    (h : digits? cs = some ds) : ∀ d ∈ ds, ∃ c, digitValue? c = some d := by
  cases cs with
  | nil => cases h
  | cons c rest =>
    obtain ⟨d, hd, h⟩ := Option.bind_eq_some_iff.1 h
    obtain ⟨ds', hds, h⟩ := Option.bind_eq_some_iff.1 h
    cases h
    exact List.forall_mem_cons.2 ⟨⟨c, hd⟩, exists_digitValue?_of_moreDigits? hds⟩

def ofDigits (ds : List Nat) : Nat :=
  ds.foldl (fun n d => 10 * n + d) 0

def integer? (s : String) : Option Int :=
  let (negative, body) := splitSign (trimBlanks s.toList)
  match digits? body with
  | none => none
  | some ds =>
    if ds.length ≤ maxDigits then
      let n : Nat := ofDigits ds
      some (if negative then -n else n)
    else none

/-- Drops underscores, all of which have to stand between two digits, and maps digits to one script. -/
private def plainDigits? (previous : Bool) : List Char → Option (List Char)
  | [] => some []
  | '_' :: c :: rest =>
    if previous then
      match digitValue? c with
      | some d => (plainDigits? true rest).map (Nat.digitChar d :: ·)
      | none => none
    else none
  | ['_'] => none
  | c :: rest =>
    match digitValue? c with
    | some d => (plainDigits? true rest).map (Nat.digitChar d :: ·)
    | none => (plainDigits? false rest).map (c.toLower :: ·)

private def asciiDigits (cs : List Char) : List Nat := cs.map (·.toNat - 48)

/-- The exponent part of a numeral: nothing, or a mark, a sign and digits. -/
private def exponent? : List Char → Option Int
  | [] => some 0
  | 'e' :: rest =>
    let (negative, ds) := splitSign rest
    if ds.isEmpty || !ds.all Char.isDigit then none
    else
      let n : Nat := ofDigits (asciiDigits ds)
      some (if negative then -n else n)
  | _ => none

/-- The floating number that a text writes, rounded to the nearest. -/
def floating? (s : String) : Option Float := do
  let cs ← plainDigits? false (trimBlanks s.toList)
  let (negative, body) := splitSign cs
  if body = "inf".toList ∨ body = "infinity".toList then return Number.infinity negative
  if body = "nan".toList then return Number.notANumber
  let whole := body.takeWhile Char.isDigit
  let rest := body.dropWhile Char.isDigit
  let (fraction, rest) := match rest with
    | '.' :: more => (more.takeWhile Char.isDigit, more.dropWhile Char.isDigit)
    | _ => ([], rest)
  if whole.isEmpty && fraction.isEmpty then none
  else
    let e ← exponent? rest
    return Number.doubleOfDecimal negative (ofDigits (asciiDigits (whole ++ fraction)))
      (e - fraction.length)

end NamedSlots.Text.Numeral
