import NamedSlots.Value.Truth

/-!
# Reading and writing items

A storage is read and written at an index; a negative index counts from the end. Lists and
dictionaries take any value as it is. An array converts a value to the type of its items: a
plain number has to fit, a fraction written to integers is cut off, a text is read as a numeral,
and an element of another array is converted without a check.
-/

namespace NamedSlots.Value

/-- The place of an index in a sequence of a given length. -/
def place? (length : Nat) (i : Int) : Option Nat :=
  let j := if i < 0 then i + length else i
  if 0 ≤ j ∧ j < length then some j.toNat else Option.none

def pick {α : Type} (items : List α) (i : Int) : Except Failure α :=
  match (place? items.length i).bind fun k => items[k]? with
  | some a => return a
  | Option.none => failWith .outOfRange

def valueAt? (entries : List (Value × Value)) (key : Value) : Option Value :=
  (entries.find? fun (k, _) => k == key).map (·.2)

def item (v : Value) (i : Index) : Except Failure Value :=
  match v with
  | list items => pick items i.toInt
  | tuple items => pick items i.toInt
  | string s _ => do return text (String.singleton (← pick s.toList i.toInt))
  | dict entries =>
    match valueAt? entries (ofIndex i) with
    | some w => return w
    | Option.none => failWith .missingKey
  | expr e => do return expr (← e.element [i])
  | element _ _ => failWith .outOfRange
  | v =>
    match v.shape?, i with
    | some shape, .flag b =>
      return if b then v.withShape (1 :: shape) else
        match v with
        | numbers t s _ => numbers t (0 :: s) []
        | texts w s _ => texts w (0 :: s) []
        | _ => objects (0 :: shape) []
    | some (_ :: _), i => pick v.rows i.toInt
    | some [], _ => failWith .outOfRange
    | Option.none, _ => failWith .wrongType

/-- Whether a value looks like a sequence to an array that takes one item. -/
def isSequence : Value → Bool
  | list _ | tuple _ | expr _ => true
  | numbers _ shape _ | texts _ shape _ | objects shape _ => !shape.isEmpty
  | _ => false

/-- The integer that a value converts to, fractions cut off. -/
def toInt : Value → Except Failure Int
  | number (.complex _ _) => failWith .wrongType
  | number (.real x) =>
    match Number.truncate? x with
    | some n => return n
    | Option.none => if x.isNaN then failWith .wrongValue else failWith .overflow
  | number n =>
    match n.toInt? with
    | some m => return m
    | Option.none => failWith .wrongType
  | string s _ =>
    match Text.Numeral.integer? s with
    | some n => return n
    | Option.none => failWith .wrongValue
  | _ => failWith .wrongType

/-- The integer that an integer array stores for one of at most 64 bits, wrapped around. -/
def storedInt (signed : Bool) (bits : Nat) (n : Int) : Except Failure Number :=
  if ElementType.fits true 64 n || (!signed && 32 ≤ bits && ElementType.fits false 64 n) then
    return .int (ElementType.wrap signed bits n)
  else failWith .overflow

/-- The number that an array of a given type stores for a value. Elements are cast to the type,
except that a signed array takes the integer that an element converts to. -/
def storedNumber (t : ElementType) (v : Value) : Except Failure Number := do
  match t, v with
  | .int true bits, element _ (.complex re _) => storedInt true bits (← (real re).toInt)
  | .int true bits, element _ n => storedInt true bits (← (number n).toInt)
  | t, element _ n => return t.cast n
  | t, numbers _ [] [n] => return t.cast n
  | t, v =>
    if v.shape?.any fun s => !s.isEmpty then failWith .wrongValue
    match t with
    | .bool => return .bool (← v.truth)
    | .int signed bits =>
      match v with
      | number (.int n) =>
        if ElementType.fits signed bits n then return .int n else failWith .overflow
      | v => storedInt signed bits (← v.toInt)
    | .real p =>
      match v with
      | none => return .real Number.notANumber
      | v => if v.isSequence then failWith .wrongValue else return .real (p.round (← v.toFloat))
    | .complex p =>
      match v with
      | number n => return (ElementType.complex p).cast n
      | none => return .complex Number.notANumber 0.0
      | v => if v.isSequence then failWith .wrongValue else return (ElementType.complex p).cast (.real (← v.toFloat))

/-- The text that an array of texts stores for a value, cut to its width. -/
def storedText (width : Nat) (v : Value) : Except Failure String := do
  if v.isSequence then failWith .wrongValue
  let s ← match v with
    | string s _ => pure s
    | number n => pure (numberText n)
    | element _ n => pure (numberText n)
    | v => match v.text? with
      | some s => pure s
      | Option.none => failWith .outOfRange
  return String.ofList (s.toList.take width)

def storedRow (v : Value) (shape : List Nat) (value : Value) : Except Failure Value := do
  let a ← value.assemble
  match Shape.broadcast? (a.shape?.getD []) shape with
  | some target =>
    if target != shape then failWith .wrongValue
    let items := Shape.spread (a.shape?.getD []) shape a.gridItems
    match v with
    | numbers t _ _ => return numbers t shape (← items.mapM (storedNumber t))
    | texts w _ _ => return texts w shape (← items.mapM (storedText w))
    | _ => return objects shape items
  | Option.none => failWith .wrongValue

def replaced {α : Type} (items : List α) (i : Int) (a : α) : Except Failure (List α) :=
  match place? items.length i with
  | some k => return items.set k a
  | Option.none => failWith .outOfRange

/-- Writes the parts of an array in place of the row at an index. -/
def withRow {α : Type} (size count : Nat) (items : List α) (i : Int) (row : List α) :
    Except Failure (List α) := do
  return (← replaced (Shape.chunks size items count) i row).flatten

def setItem (v : Value) (i : Index) (value : Value) : Except Failure Value := do
  match v with
  | list items => return list (← replaced items i.toInt value)
  | dict entries => return dict (put entries)
  | numbers t [n] items =>
    if (place? n i.toInt).isNone then failWith .outOfRange
    return numbers t [n] (← replaced items i.toInt (← storedNumber t value))
  | texts w [n] items =>
    if (place? n i.toInt).isNone then failWith .outOfRange
    return texts w [n] (← replaced items i.toInt (← storedText w value))
  | objects [n] items =>
    return objects [n] (← replaced items i.toInt value)
  | numbers t (n :: shape) items =>
    if (place? n i.toInt).isNone then failWith .outOfRange
    match ← storedRow v shape value with
    | numbers _ _ row => return numbers t (n :: shape) (← withRow (Shape.size shape) n items i.toInt row)
    | _ => failWith .wrongValue
  | texts w (n :: shape) items =>
    if (place? n i.toInt).isNone then failWith .outOfRange
    match ← storedRow v shape value with
    | texts _ _ row => return texts w (n :: shape) (← withRow (Shape.size shape) n items i.toInt row)
    | _ => failWith .wrongValue
  | objects (n :: shape) items =>
    if (place? n i.toInt).isNone then failWith .outOfRange
    match ← storedRow v shape value with
    | objects _ row => return objects (n :: shape) (← withRow (Shape.size shape) n items i.toInt row)
    | _ => failWith .wrongValue
  | numbers _ [] _ | texts _ [] _ | objects [] _ => failWith .outOfRange
  | _ => failWith .wrongType
where
  put (entries : List (Value × Value)) : List (Value × Value) :=
    let key := ofIndex i
    if (valueAt? entries key).isSome then
      entries.map fun (k, w) => if k == key then (k, value) else (k, w)
    else entries ++ [(key, value)]

end NamedSlots.Value
