import NamedSlots.Expr.Basic
import NamedSlots.Number.Element
import NamedSlots.Term.Text
import NamedSlots.Text.Quoted

/-!
# Values

What storage, requests and results may hold: plain numbers and texts, containers, elements of
numeric arrays and such arrays themselves, symbols and expressions, algebraic terms, foreign
objects and references to objects of a session.
-/

namespace NamedSlots

/-- Whether a value is symbolic, and whether it stands for one scalar or for an array of them. -/
inductive Form
  | notSymbolic | scalar | array
deriving DecidableEq, Repr

/-- The two classes of foreign objects; the second is derived from the first. -/
inductive ForeignClass
  | base | derived
deriving DecidableEq, Repr

namespace ForeignClass

def name : ForeignClass → String
  | base => "Base"
  | derived => "Derived"

end ForeignClass

/-- What a foreign object says about itself; its identity tells two of them apart. -/
structure ForeignFacts where
  identity : Nat
  cls : ForeignClass
  form : Form
  label : Option String
  count : Nat
deriving DecidableEq, Repr

/-- A session object seen as a value: its identity, the name of its class, and its text. -/
structure Handle where
  identity : Nat
  className : String
  text : String
deriving Repr

inductive Value
  | none
  | number (n : Number)
  /-- A text, on its own or as an element of an array. -/
  | string (s : String) (isElement : Bool)
  | list (items : List Value)
  | tuple (items : List Value)
  | dict (entries : List (Value × Value))
  | element (type : ElementType) (n : Number)
  | numbers (type : ElementType) (shape : List Nat) (items : List Number)
  | texts (width : Nat) (shape : List Nat) (items : List String)
  | objects (shape : List Nat) (items : List Value)
  | expr (e : Expr)
  | term (t : Term)
  | foreign (facts : ForeignFacts) (shape definition : Value)
  | handle (h : Handle)
deriving Repr

namespace Value

@[match_pattern]
abbrev text (s : String) : Value := string s false

abbrev bool (b : Bool) : Value := number (.bool b)
abbrev int (n : Int) : Value := number (.int n)
abbrev real (x : Float) : Value := number (.real x)

instance : Inhabited Value := ⟨none⟩

def ofIndex : Index → Value
  | .int n => int n
  | .flag b => bool b

/-- The index that a plain integer or truth value is. -/
def toIndex? : Value → Option Index
  | number (.int n) => some (.int n)
  | number (.bool b) => some (.flag b)
  | _ => Option.none

def toIndices? : Value → Option (List Index)
  | tuple items => items.mapM toIndex?
  | _ => Option.none

def className : Value → String
  | none => "NoneType"
  | number (.bool _) => "bool"
  | number (.int _) => "int"
  | number (.real _) => "float"
  | number (.complex _ _) => "complex"
  | string _ isElement => if isElement then "numpy.str_" else "str"
  | list _ => "list"
  | tuple _ => "tuple"
  | dict _ => "dict"
  | element .bool _ => "numpy.bool"
  | element t _ => "numpy." ++ t.name
  | numbers _ _ _ | texts _ _ _ | objects _ _ => "numpy.ndarray"
  | expr _ => "Expr"
  | term t => t.className
  | foreign facts _ _ => facts.cls.name
  | handle h => h.className

/-- The text of a complex number: its real part is left out when it is a positive zero. -/
def complexText (re im : Float) : String :=
  let style : FloatStyle := ⟨Option.none, 16, false⟩
  if re == 0.0 && !Number.isNegative re then style.text im ++ "j"
  else
    let imText := style.text im
    "(" ++ style.text re ++ (if imText.startsWith "-" then imText else "+" ++ imText) ++ "j)"

def numberText : Number → String
  | .bool b => if b then "True" else "False"
  | .int n => toString n
  | .real x => FloatStyle.exact.text x
  | .complex re im => complexText re im

mutual

/-- The text of a value; none when it holds an expression without a text. Array texts are only marked as such. -/
def text? : Value → Option String
  | none => some "None"
  | number n => some (numberText n)
  | string s isElement =>
    let quoted := Text.Quoted.encode s
    some (if isElement then "np.str_(" ++ quoted ++ ")" else quoted)
  | list items => do return "[" ++ ", ".intercalate (← allTexts? items) ++ "]"
  | tuple items => do
    match (← allTexts? items) with
    | [one] => return "(" ++ one ++ ",)"
    | many => return "(" ++ ", ".intercalate many ++ ")"
  | dict entries => do return "\x7b" ++ ", ".intercalate (← entryTexts? entries) ++ "\x7d"
  | element t n => some ("np." ++ t.name ++ "(" ++ numberText n ++ ")")
  | numbers _ _ _ | texts _ _ _ | objects _ _ => some "array()"
  | expr e => e.text?
  | term t => some t.text
  | foreign facts _ _ => some ("<" ++ facts.cls.name ++ " " ++ facts.label.getD "None" ++ ">")
  | handle h => some h.text

def allTexts? : List Value → Option (List String)
  | [] => some []
  | v :: vs => do return (← text? v) :: (← allTexts? vs)

def entryTexts? : List (Value × Value) → Option (List String)
  | [] => some []
  | (k, v) :: es => do return ((← text? k) ++ ": " ++ (← text? v)) :: (← entryTexts? es)

end

mutual

/-- Whether two values are equal as keys: numbers by value, containers item by item, objects by identity. -/
def same : Value → Value → Bool
  | none, none => true
  | number a, number b => a.same b
  | number a, element _ b => a.same b
  | element _ a, number b => a.same b
  | element _ a, element _ b => a.same b
  | string a _, string b _ => a == b
  | list as, list bs => sameAll as bs
  | tuple as, tuple bs => sameAll as bs
  | dict as, dict bs => sameEntries as bs
  | expr a, expr b => a == b
  | term a, term b => a == b
  | foreign a _ _, foreign b _ _ => a.identity == b.identity
  | handle a, handle b => a.identity == b.identity
  | _, _ => false

def sameAll : List Value → List Value → Bool
  | [], [] => true
  | a :: as, b :: bs => same a b && sameAll as bs
  | _, _ => false

def sameEntries : List (Value × Value) → List (Value × Value) → Bool
  | [], [] => true
  | (k, v) :: as, (k', v') :: bs => same k k' && same v v' && sameEntries as bs
  | _, _ => false

end

instance : BEq Value := ⟨same⟩

/-- Whether values of this class can be keys; a tuple counts whatever it holds. -/
def isHashableClass : Value → Bool
  | list _ | dict _ => false
  | numbers _ _ _ | texts _ _ _ | objects _ _ => false
  | _ => true

mutual

/-- Whether a value can be a key, its items included. -/
def isHashable : Value → Bool
  | list _ | dict _ => false
  | numbers _ _ _ | texts _ _ _ | objects _ _ => false
  | tuple items => allHashable items
  | _ => true

def allHashable : List Value → Bool
  | [] => true
  | v :: vs => isHashable v && allHashable vs

end

end Value
end NamedSlots
