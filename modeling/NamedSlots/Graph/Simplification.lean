import NamedSlots.Graph.Node

/-!
# Simplification

Nodes are simplified as they are made. Constants are folded, neutral and absorbing operands
disappear, an operation undone by the next one leaves its operand, signs move outwards, and a
power with an integral constant exponent becomes products. A quotient of equal operands is 1
and a difference of equal operands is 0, whatever they compute.
-/

namespace NamedSlots.Graph.Node

variable {K : Type} (arith : Arithmetic K)

/-- Whether a node is a constant of a given integral value. -/
def isInt (n : Int) : Node K → Bool
  | constant x => arith.same x (arith.ofInt n)
  | _ => false

def ofInt (n : Int) : Node K := constant (arith.ofInt n)

/-- A node of one operand; a constant operand is folded. -/
def makeUnary (place : Place) (op : UnaryNode) : Node K → Node K
  | constant x => constant (arith.kept (arith.unary op x))
  | a => unary place op a

/-- A node of two operands; constant operands are folded. -/
def makeBinary (place : Place) (op : BinaryNode) : Node K → Node K → Node K
  | constant x, constant y => constant (arith.kept (arith.binary op x y))
  | a, b => binary place op a b

def square (place : Place) : Node K → Node K
  | unary _ .sqrt a => a
  | unary _ .neg a => square place a
  | a => makeUnary arith place .sq a

def applyUnary (place : Place) (op : UnaryNode) (a : Node K) : Node K :=
  match op, a with
  | .neg, unary _ .neg b => b
  | .not, unary _ .not b => b
  | .inv, unary _ .inv b => b
  | .sq, a => square arith place a
  | .sqrt, unary _ .sq b => makeUnary arith place .abs b
  | .abs, unary p .abs b => unary p .abs b
  | .abs, unary p .sq b => unary p .sq b
  | op, a => makeUnary arith place op a

/-- Whether a graph is never negative, by its form. -/
def isNonnegative : Node K → Bool
  | constant x => arith.isNonnegative x
  | unary _ .sq _ | unary _ .abs _ => true
  | _ => false

/-- What becomes of an operator and its operands. -/
inductive Step (K : Type)
  | keep
  | done (n : Node K)
  | unary (op : UnaryNode) (a : Node K)
  | retry (op : BinaryNode) (a b : Node K)
  | negate (op : BinaryNode) (a b : Node K)
  | make (op : BinaryNode) (a b : Node K)

def isDoubled : Node K → Bool
  | binary _ .add a b => a.isEqual arith b
  | _ => false

def firstOperand : Node K → Node K
  | unary _ _ a | binary _ _ a _ => a
  | a => a

def isScaledBy (matched : K → Bool) : Node K → Bool
  | constant x => matched x
  | _ => false

def stepAdd (x y : Node K) : Step K :=
  if x.isInt arith 0 then .done y
  else if y.isInt arith 0 then .done x
  else
    match x, y with
    | x, unary _ .neg b => .retry .sub x b
    | unary _ .neg a, y => .retry .sub y a
    | x, y =>
      match x, y with
      | binary _ .mul c a, binary _ .mul d b =>
        if isScaledBy arith.isHalf c && isScaledBy arith.isHalf d && b.isEqual arith a then .done a else .keep
      | binary _ .div a c, binary _ .div b d =>
        if c.isInt arith 2 && d.isInt arith 2 && b.isEqual arith a then .done a else .keep
      | unary _ .sq (unary _ .sin a), unary _ .sq (unary _ .cos b)
      | unary _ .sq (unary _ .cos a), unary _ .sq (unary _ .sin b) =>
        if a.isEqual arith b then .done (ofInt arith 1) else .keep
      | binary _ .sub a b, y =>
        if b.isEqual arith y then .done a
        else
          match y with
          | binary _ .sub c d => if x.isEqual arith d then .done c else .keep
          | _ => .keep
      | x, binary _ .sub c d => if x.isEqual arith d then .done c else .keep
      | _, _ => .keep

/-- A sum from which one of its summands is taken. -/
def differenceUndone? (x y : Node K) : Option (Step K) :=
  match x with
  | binary _ .add a b =>
    if b.isEqual arith y then some (.done a)
    else if a.isEqual arith y then some (.done b)
    else none
  | _ => none

/-- A summand from which its sum is taken. -/
def differenceNegated? (x y : Node K) : Option (Step K) :=
  match y with
  | binary _ .add a b =>
    if x.isEqual arith b then some (.unary .neg a)
    else if x.isEqual arith a then some (.unary .neg b)
    else none
  | _ => none

def stepSub (x y : Node K) : Step K :=
  if y.isInt arith 0 then .done x
  else if x.isInt arith 0 then .unary .neg y
  else if x.isEqual arith y then .done (ofInt arith 0)
  else
    match y with
    | unary _ .neg b => .retry .add x b
    | y =>
      match differenceUndone? arith x y <|> differenceNegated? arith x y with
      | some s => s
      | none =>
        match x with
        | unary _ .neg a => .negate .add a y
        | _ => .keep

def constantsFirst (x y : Node K) : Node K × Node K :=
  if !x.isConstant && y.isConstant then (y, x) else (x, y)

/-- A product with what undoes one of its factors. -/
def productUndone? (x y : Node K) : Option (Node K) :=
  match x, y with
  | constant c, binary _ .mul (constant d) b =>
    if arith.same (arith.binary .mul c d) (arith.ofInt 1) then some b else none
  | constant c, binary _ .div b (constant d) => if arith.same c d then some b else none
  | binary _ .div a b, y =>
    if b.isEqual arith y then some a
    else
      match y with
      | binary _ .div c d => if d.isEqual arith x then some c else none
      | _ => none
  | x, binary _ .div c d => if d.isEqual arith x then some c else none
  | _, _ => none

/-- What becomes of a product whose only constant stands first. -/
def stepFactors (x y : Node K) : Step K :=
  if x.isInt arith 0 || y.isInt arith 0 then .done (ofInt arith 0)
  else if x.isInt arith 1 then .done y
  else if y.isInt arith 1 then .done x
  else if y.isInt arith (-1) then .unary .neg x
  else if x.isInt arith (-1) then .unary .neg y
  else
    match x, y with
    | x, unary _ .inv b => .retry .div x b
    | unary _ .inv a, y => .retry .div y a
    | x, y =>
      match productUndone? arith x y with
      | some n => .done n
      | none =>
        match x, y with
        | unary _ .neg a, y => .negate .mul a y
        | x, unary _ .neg b => .negate .mul x b
        | x, y => .make .mul x y

def stepMul (x y : Node K) : Step K :=
  if y.isEqual arith x then .unary .sq x
  else
    let (x, y) := constantsFirst x y
    stepFactors arith x y

def quotientUndone? (x y : Node K) : Option (Step K) :=
  match x with
  | binary _ .mul a b =>
    if y.isEqual arith a then some (.done b)
    else if y.isEqual arith b then some (.done a)
    else none
  | _ => none

def quotientOfQuotient? (x y : Node K) : Option (Step K) :=
  match x, y with
  | binary _ .div a (constant c), constant d =>
    if arith.same (arith.binary .mul d c) (arith.ofInt 1) then some (.done a) else none
  | _, _ => none

def quotientOfMultiple? (x y : Node K) : Option (Step K) :=
  match y with
  | binary _ .mul a b => if b.isEqual arith x then some (.make .div (ofInt arith 1) a) else none
  | _ => none

def quotientOfSigns? (x y : Node K) : Option (Step K) :=
  match x, y with
  | unary _ .neg a, unary _ .neg b =>
    if a.isEqual arith y || b.isEqual arith x then some (.done (ofInt arith (-1)))
    else if a.isEqual arith b then some (.done (ofInt arith 1))
    else none
  | unary _ .neg a, y => if a.isEqual arith y then some (.done (ofInt arith (-1))) else none
  | x, unary _ .neg b => if b.isEqual arith x then some (.done (ofInt arith (-1))) else none
  | _, _ => none

def stepDiv (x y : Node K) : Step K :=
  if x.isInt arith 0 then .done (ofInt arith 0)
  else if y.isInt arith 1 then .done x
  else if y.isInt arith (-1) then .unary .neg x
  else if x.isEqual arith y then .done (ofInt arith 1)
  else if isDoubled arith x && y.isInt arith 2 then .done (firstOperand x)
  else
    match quotientUndone? arith x y with
    | some s => s
    | none =>
      if x.isInt arith 1 then .unary .inv y
      else
        match y with
        | unary _ .inv b => .retry .mul x b
        | y =>
          if isDoubled arith x && isDoubled arith y then .retry .div (firstOperand x) (firstOperand y)
          else
            match quotientOfQuotient? arith x y <|> quotientOfMultiple? arith x y <|> quotientOfSigns? arith x y with
            | some s => s
            | none =>
              match x, y with
              | binary _ .div a b, y =>
                if y.isEqual arith a then .unary .inv b
                else
                  match y with
                  | unary _ .neg c => .negate .div x c
                  | _ => .keep
              | unary _ .neg a, y => .negate .div a y
              | x, unary _ .neg b => .negate .div x b
              | _, _ => .keep

/-- What becomes of an arithmetic operator; the other operators are kept. -/
def step (op : BinaryNode) (x y : Node K) : Step K :=
  match op with
  | .add => stepAdd arith x y
  | .sub => stepSub arith x y
  | .mul => stepMul arith x y
  | .div => stepDiv arith x y
  | _ => .keep

/-- Applies an arithmetic operator, simplifying at most so many times. -/
def simplify (place : Place) : Nat → BinaryNode → Node K → Node K → Node K
  | 0, op, x, y => makeBinary arith place op x y
  | fuel + 1, op, x, y =>
    match step arith op x y with
    | .keep => makeBinary arith place op x y
    | .done n => n
    | .unary op a => applyUnary arith place op a
    | .retry op a b => simplify place fuel op a b
    | .negate op a b => applyUnary arith (0 :: place) .neg (simplify (1 :: place) fuel op a b)
    | .make op a b => makeBinary arith place op a b

/-- Applies an arithmetic operator. Every simplification leaves smaller operands. -/
def arithmetic (place : Place) (op : BinaryNode) (x y : Node K) : Node K :=
  simplify arith place (x.size + y.size) op x y

/-- A power with a positive exponent, by repeated squaring; the exponent bounds the steps. -/
def powNat (place : Place) : Nat → Node K → Nat → Node K
  | 0, _, _ => ofInt arith 1
  | fuel + 1, x, n =>
    if n = 0 then ofInt arith 1
    else if n % 2 = 1 then arithmetic arith place .mul x (powNat (0 :: place) fuel x (n - 1))
    else
      let root := powNat (0 :: place) fuel x (n / 2)
      arithmetic arith place .mul root root

/-- A power; integral constant exponents up to 100 are multiplied out. -/
def power (place : Place) (x y : Node K) : Node K :=
  match y with
  | constant c =>
    match arith.toInt? c with
    | some n =>
      if 100 < n.natAbs then makeBinary arith place .constantPow x y
      else
        let p := powNat arith (0 :: place) (n.natAbs + 1) x n.natAbs
        if n < 0 then arithmetic arith place .div (ofInt arith 1) p else p
    | none =>
      if arith.isHalf c then applyUnary arith place .sqrt x else makeBinary arith place .constantPow x y
  | y => makeBinary arith place .pow x y

def applyBinary (place : Place) (op : BinaryNode) (x y : Node K) : Node K :=
  match op with
  | .add | .sub | .mul | .div => arithmetic arith place op x y
  | .pow => power arith place x y
  | .le =>
    if isNonnegative arith (arithmetic arith (0 :: place) .sub y x) then ofInt arith 1
    else makeBinary arith place .le x y
  | .lt =>
    if isNonnegative arith (arithmetic arith (0 :: place) .sub x y) then ofInt arith 0
    else makeBinary arith place .lt x y
  | .eq => if x.isEqual arith y then ofInt arith 1 else makeBinary arith place .eq x y
  | .ne => if x.isEqual arith y then ofInt arith 0 else makeBinary arith place .ne x y
  | .ifElseZero =>
    if y.isInt arith 0 then y
    else
      match x with
      | constant c => if arith.isZero c then ofInt arith 0 else y
      | x => makeBinary arith place .ifElseZero x y
  | op => makeBinary arith place op x y

end NamedSlots.Graph.Node
