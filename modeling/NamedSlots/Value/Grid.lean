import NamedSlots.Failure
import NamedSlots.Number.Loop

/-!
# Arrays of values

An array has a shape and row-major items of one common type. Nested sequences assemble into an
array when their nesting is even; the common type is the least that holds all items. Arrays are
reshaped, sliced along the first dimension and broadcast against each other.
-/

namespace NamedSlots

/-- The common type of the items of an array. -/
inductive ItemType
  | number (t : ElementType)
  | text (width : Nat)
  | object
deriving DecidableEq, Repr

/-- Sequences nested to any depth over single items. -/
inductive Nest
  | item (v : Value)
  | nest (parts : List Nest)

namespace Shape

def chunks {α : Type} (size : Nat) (items : List α) : Nat → List (List α)
  | 0 => []
  | n + 1 => items.take size :: chunks size (items.drop size) n

/-- Fills in one dimension that is negative; the sizes have to agree. -/
def fill? (total : Nat) (dims : List Int) : Option (List Nat) :=
  let known := (dims.filter (0 ≤ ·)).map Int.toNat
  match (dims.filter (· < 0)).length with
  | 0 => if size known = total then some known else none
  | 1 =>
    let s := size known
    if s = 0 then none
    else if total % s = 0 then some (dims.map fun d => if d < 0 then total / s else d.toNat)
    else none
  | _ => none

/-- Whether an array can have a shape at all; a truth value is not accepted as a dimension. -/
def areDimensions (shape : List Index) : Bool := shape.all Index.isPlain

/-- The dimensions that a shape gives to so many items. -/
def resolve? (total : Nat) (shape : List Index) : Option (List Nat) :=
  if areDimensions shape then fill? total (shape.map Index.toInt) else none

/-- The shape of two arrays combined element by element: dimensions agree or are 1, aligned at the end. -/
def broadcast? (a b : List Nat) : Option (List Nat) :=
  go a.reverse b.reverse |>.map List.reverse
where
  go : List Nat → List Nat → Option (List Nat)
    | [], bs => some bs
    | as, [] => some as
    | a :: as, b :: bs =>
      if a = b ∨ b = 1 then (go as bs).map (a :: ·)
      else if a = 1 then (go as bs).map (b :: ·)
      else none

/-- Repeats the items of an array along the dimensions in which a larger shape exceeds its own. -/
def spread {α : Type} (own target : List Nat) (items : List α) : List α :=
  go (List.replicate (target.length - own.length) 1 ++ own) target items
where
  go : List Nat → List Nat → List α → List α
    | d :: ds, t :: ts, items =>
      let parts := (chunks (size ds) items d).map (go ds ts)
      if d = t then parts.flatten
      else (List.replicate t parts.flatten).flatten
    | _, _, items => items

end Shape

namespace Value

def shape? : Value → Option (List Nat)
  | numbers _ shape _ => some shape
  | texts _ shape _ => some shape
  | objects shape _ => some shape
  | _ => Option.none

def gridItems : Value → List Value
  | numbers t _ items => items.map (element t)
  | texts _ _ items => items.map fun s => string s true
  | objects _ items => items
  | _ => []

def withShape (v : Value) (shape : List Nat) : Value :=
  match v with
  | numbers t _ items => numbers t shape items
  | texts w _ items => texts w shape items
  | objects _ items => objects shape items
  | v => v

/-- An array without dimensions is its only item. -/
def unwrap : Value → Value
  | numbers t [] [n] => element t n
  | texts _ [] [s] => string s true
  | objects [] [v] => v
  | v => v

def rows (v : Value) : List Value :=
  match v with
  | numbers t (d :: ds) items => (Shape.chunks (Shape.size ds) items d).map fun r => (numbers t ds r).unwrap
  | texts w (d :: ds) items => (Shape.chunks (Shape.size ds) items d).map fun r => (texts w ds r).unwrap
  | objects (d :: ds) items => (Shape.chunks (Shape.size ds) items d).map fun r => (objects ds r).unwrap
  | _ => []

private def gridNest : List Nat → List Value → Nest
  | [], items => .item (items.headD none)
  | d :: ds, items => .nest ((Shape.chunks (Shape.size ds) items d).map (gridNest ds))

mutual

/-- A value as nested sequences; lists, tuples and arrays nest, all else is an item. -/
def toNest : Value → Nest
  | list items => .nest (toNests items)
  | tuple items => .nest (toNests items)
  | numbers t shape items => gridNest shape (items.map (element t))
  | texts _ shape items => gridNest shape (items.map fun s => string s true)
  | objects shape items => gridNest shape items
  | v => .item v

def toNests : List Value → List Nest
  | [] => []
  | v :: vs => toNest v :: toNests vs

end

end Value

namespace Nest

mutual

def shape? : Nest → Option (List Nat)
  | item _ => some []
  | nest parts =>
    match parts with
    | [] => some [0]
    | p :: ps =>
      match shape? p with
      | some s => if allHaveShape s ps then some ((ps.length + 1) :: s) else none
      | none => none

def allHaveShape (s : List Nat) : List Nest → Bool
  | [] => true
  | p :: ps => (shape? p == some s) && allHaveShape s ps

end

mutual

def items : Nest → List Value
  | item v => [v]
  | nest parts => itemsOfAll parts

def itemsOfAll : List Nest → List Value
  | [] => []
  | p :: ps => items p ++ itemsOfAll ps

end

end Nest

namespace ItemType

/-- The type that a single item asks for. -/
def ofValue : Value → ItemType
  | .number n =>
    match ElementType.ofNumber? n with
    | some t => number t
    | none => object
  | .element t _ => number t
  | .string s _ => text s.length
  | _ => object

/-- The count of characters that the numbers of a type may need. -/
private def textWidth : ElementType → Nat
  | .bool => 5
  | .int _ bits => if bits ≤ 8 then 4 else if bits ≤ 16 then 6 else if bits ≤ 32 then 11 else 21
  | .real _ => 32
  | .complex _ => 64

def join : ItemType → ItemType → ItemType
  | object, _ | _, object => object
  | number a, number b => number (a.join b)
  | text w, text w' => text (max w w')
  | number t, text w | text w, number t => text (max w (textWidth t))

end ItemType

namespace Value

private def itemText : Value → String
  | string s _ => s
  | number n => numberText n
  | element _ n => numberText n
  | _ => ""

private def itemNumber : Value → Number
  | number n => n
  | element _ n => n
  | _ => .bool false

def gridOf (shape : List Nat) (items : List Value) : Value :=
  match items with
  | [] => numbers .float64 shape []
  | v :: vs =>
    match vs.foldl (fun t w => t.join (ItemType.ofValue w)) (ItemType.ofValue v) with
    | .number t => numbers t shape (items.map fun v => t.cast (itemNumber v))
    | .text w => texts w shape (items.map itemText)
    | .object => objects shape items

/-- The array that a value assembles to; uneven nesting is a fault. -/
def assemble (v : Value) : Except Failure Value :=
  match v with
  | numbers _ _ _ | texts _ _ _ | objects _ _ => return v
  | v =>
    let nest := v.toNest
    match nest.shape? with
    | some shape => return gridOf shape nest.items
    | Option.none => failWith .wrongValue

/-- The same items in a shape whose dimensions are indices; there may be any number of them. -/
def reshape (v : Value) (shape : List Index) : Except Failure Value :=
  match Shape.resolve? ((v.shape?.map Shape.size).getD 0) shape with
  | some dims => return v.withShape dims
  | Option.none => failWith (if Shape.areDimensions shape then .wrongValue else .wrongType)

end Value
end NamedSlots
