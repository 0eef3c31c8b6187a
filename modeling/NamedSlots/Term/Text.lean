import NamedSlots.Term.Basic

/-!
# Text of terms

A term is printed as a formula: sums with the number last, products with the number first,
powers, roots and quotients, relations and connectives by their signs, anything else as a
function applied to its arguments.
-/

namespace NamedSlots.Term

/-- How tightly a printed term binds, from sums to atoms. -/
inductive Binding
  | connective | relation | sum | product | power | atom
deriving DecidableEq, Repr

def Binding.rank : Binding → Nat
  | connective => 0
  | relation => 1
  | sum => 2
  | product => 3
  | power => 4
  | atom => 5

/-- A printed term, how tightly it binds, and whether it starts with a minus sign. -/
structure Printed where
  text : String
  binding : Binding
  isNumber : Bool := false

namespace Printed

def isNegative (p : Printed) : Bool := p.text.startsWith "-"

/-- The text, in parentheses unless it binds at least as tightly as asked. -/
def within (p : Printed) (b : Binding) : String :=
  if p.binding.rank < b.rank then "(" ++ p.text ++ ")" else p.text

end Printed

/-- Fifteen significant digits, zeros kept. -/
private def floatText (x : Float) : String :=
  match FloatView.ofFloat x with
  | .nan => "nan"
  | .infinite s => if s then "-inf" else "inf"
  | .finite s m q =>
    if m = 0 then "0"
    else
      let d := DecimalDigits.rounded (m * twoTo q.toNat) (twoTo (-q).toNat) 15
      let digits := (Nat.toDigits 10 d.digits).take 15
      let e := d.exponent + (Nat.toDigits 10 d.digits).length - 1
      let body :=
        if e < -4 ∨ 15 ≤ e then
          String.ofList (digits.take 1) ++ "." ++ String.ofList (digits.drop 1)
            ++ (if e < 0 then "e-" ++ String.ofList (Nat.toDigits 10 e.natAbs |> fun c =>
                  if c.length < 2 then '0' :: c else c)
                else "e+" ++ toString e)
        else if e < 0 then
          "0." ++ String.ofList (List.replicate (-e - 1).toNat '0' ++ digits)
        else
          String.ofList (digits.take (e.toNat + 1)) ++ "." ++ String.ofList (digits.drop (e.toNat + 1))
      if s then "-" ++ body else body

private def number (text : String) (b : Binding) : Printed :=
  { text, binding := if text.startsWith "-" then .sum else b, isNumber := true }

/-- A sum with its numbers last; a term with a minus sign is subtracted. -/
private def sumText (args : List Printed) : String :=
  let ordered := args.filter (!·.isNumber) ++ args.filter (·.isNumber)
  match ordered with
  | [] => "0"
  | first :: rest =>
    rest.foldl (fun out p =>
      if p.isNegative then out ++ " - " ++ (p.text.drop 1).toString else out ++ " + " ++ p.within .sum)
      (first.within .sum)

private def productText (args : List Printed) : String :=
  let ordered := args.filter (·.isNumber) ++ args.filter (!·.isNumber)
  match ordered with
  | [] => "1"
  | first :: rest =>
    if first.text == "-1" && !rest.isEmpty then
      "-" ++ "*".intercalate (rest.map (·.within .product))
    else
      "*".intercalate ((if first.isNumber then first.text else first.within .product)
        :: rest.map (·.within .product))

private def powerText (base power : Printed) : Printed :=
  if power.text == "1/2" then { text := "sqrt(" ++ base.text ++ ")", binding := .atom }
  else if power.text == "-1/2" then { text := "1/sqrt(" ++ base.text ++ ")", binding := .product }
  else if power.text == "-1" then
    { text := "1/" ++ base.within .power, binding := .product }
  else
    { text := base.within .atom ++ "**" ++ (if power.binding = .atom then power.text else "(" ++ power.text ++ ")")
      binding := .power }

private def infixSign? : String → Option (String × Binding)
  | "StrictLessThan" => some (" < ", .relation)
  | "LessThan" => some (" <= ", .relation)
  | "StrictGreaterThan" => some (" > ", .relation)
  | "GreaterThan" => some (" >= ", .relation)
  | "And" => some (" & ", .connective)
  | "Or" => some (" | ", .connective)
  | "Xor" => some (" ^ ", .connective)
  | "MatMul" => some ("*", .product)
  | "MatAdd" => some (" + ", .sum)
  | _ => none

private def functionName : String → String
  | "Equality" => "Eq"
  | "Unequality" => "Ne"
  | head => head

mutual

def printed : Term → Printed
  | symbol name => { text := name, binding := .atom }
  | integer n => number (toString n) .atom
  | rational p q => number (toString p ++ "/" ++ toString q) .product
  | float x => number (floatText x) .atom
  | constant c => { text := c.text, binding := if c = .negativeInfinity then .sum else .atom }
  | matrix name _ _ => { text := name, binding := .atom }
  | element name _ _ i j =>
    { text := name ++ "[" ++ toString i ++ ", " ++ toString j ++ "]", binding := .atom }
  | piecewise branches =>
    { text := "Piecewise(" ++ ", ".intercalate (printedBranches branches) ++ ")", binding := .atom }
  | apply head args =>
    let args := printedAll args
    match head, args with
    | "Add", _ => { text := sumText args, binding := .sum }
    | "Mul", _ =>
      let text := productText args
      { text, binding := if text.startsWith "-" then .sum else .product }
    | "Pow", [base, power] => powerText base power
    | "Not", [x] => { text := "~" ++ x.within .atom, binding := .atom }
    | _, _ =>
      match infixSign? head with
      | some (sign, b) => { text := sign.intercalate (args.map (·.within b)), binding := b }
      | none => { text := functionName head ++ "(" ++ ", ".intercalate (args.map (·.text)) ++ ")", binding := .atom }

def printedAll : List Term → List Printed
  | [] => []
  | t :: ts => printed t :: printedAll ts

def printedBranches : List (Term × Term) → List String
  | [] => []
  | (v, c) :: bs => ("(" ++ (printed v).text ++ ", " ++ (printed c).text ++ ")") :: printedBranches bs

end

def text (t : Term) : String := (printed t).text

end NamedSlots.Term
