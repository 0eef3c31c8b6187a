import NamedSlots.Access.Permission

/-!
# Readers

A reader says how to get the value of a request from an object that offers storage. Everything
is resolved and every capability is checked when a reader is made. Several slots of one storage
are gathered with a single look at it.
-/

namespace NamedSlots

inductive Reader
  | state (i : Index)
  | parameter (i : Index)
  | time
  | gather (role : Role) (indices : List Index)
  | provider (f : Provider) (isTimeDependent : Bool)
  | expression (e : Evaluator)
  | vector (items : List Reader)
  | sequence (inner : Reader) (isTuple : Bool)
  | array (inner : Reader) (shape : List Index)

namespace Interface

def currentTimeValue (i : Interface) : Except Failure Value := do
  let t ← i.currentTime.invoke
  t

def storage (i : Interface) (role : Role) : Except Failure Value :=
  if role = .parameter then i.parameterValues.invoke else i.stateValues.invoke

/-- A value that is asked for only when it is used. -/
def ifUsed (isUsed : Bool) (v : Except Failure Value) : Except Failure Value :=
  if isUsed then v else return .none

end Interface

namespace Reader

def asSequence (isTuple : Bool) (v : Value) : Except Failure Value := do
  let items ← v.iterate
  return if isTuple then .tuple items else .list items

mutual

def read (i : Interface) : Reader → Except Failure Value
  | state k => do (← i.storage .state).item k
  | parameter k => do (← i.storage .parameter).item k
  | time => i.currentTimeValue
  | gather role ks => do
    let storage ← i.storage role
    return .list (← ks.mapM storage.item)
  | provider f isTimeDependent => do
    let u ← i.storage .state
    let p ← i.storage .parameter
    if isTimeDependent then f u p (some (← i.currentTimeValue)) else f u p none
  | expression e => do
    let u ← Interface.ifUsed e.usesStates (i.storage .state)
    let p ← Interface.ifUsed e.usesParameters (i.storage .parameter)
    let t ← Interface.ifUsed e.usesTime i.currentTimeValue
    e.call u p t
  | vector items => do return .list (← readAll i items)
  | sequence inner isTuple => do asSequence isTuple (← read i inner)
  | array inner shape => do (← (← read i inner).assemble).reshape shape

def readAll (i : Interface) : List Reader → Except Failure (List Value)
  | [] => return []
  | r :: rs => do
    let v ← read i r
    return v :: (← readAll i rs)

end

private def stateIndex? : Reader → Option Index
  | state k => some k
  | _ => none

private def parameterIndex? : Reader → Option Index
  | parameter k => some k
  | _ => none

/-- Readers one after the other; slots of one storage are gathered. -/
def ofItems (rs : List Reader) : Reader :=
  if rs.isEmpty then vector rs
  else
    match rs.mapM stateIndex?, rs.mapM parameterIndex? with
    | some ks, _ => gather .state ks
    | none, some ks => gather .parameter ks
    | none, none => vector rs

/-- Fails unless an object offers what an evaluator uses. -/
def requireUsed (i : Interface) (e : Evaluator) : Except Failure Unit := do
  if e.usesStates then i.require .stateValues
  if e.usesParameters then i.require .parameterValues
  if e.usesTime then i.require .currentTime

def ofEvaluator (b : Bound) (e : Evaluator) : Except Failure Reader := do
  requireUsed b.system.own e
  return expression e

/-- The reader of an observed symbol: its provider, or else its definition. -/
def ofObserved (b : Bound) (backend : Backend) (symbol : Value) : Traced Reader := do
  match ← b.provider symbol with
  | some f =>
    let isTimeDependent ← b.isTimeDependent
    b.system.own.require .stateValues
    b.system.own.require .parameterValues
    if isTimeDependent then b.system.own.require .currentTime
    return provider f isTimeDependent
  | none =>
    match ← b.definition symbol with
    | none => throw (.unknownSymbol symbol "observed symbol has no definition or provider")
    | some _ =>
      let e ← Evaluator.compile b (← symbol.toExpr) backend
      ofEvaluator b e

def ofSymbol (b : Bound) (backend : Backend) (p : Permission) (symbol : Value) : Traced Reader := do
  let role ← b.classify symbol
  if role = .unknown then throw (.unknownSymbol symbol "")
  p.check symbol role
  match role with
  | .state =>
    b.system.own.require .stateValues
    return state (← b.locate symbol)
  | .parameter =>
    b.system.own.require .parameterValues
    return parameter (← b.locate symbol)
  | .independent =>
    b.system.own.require .currentTime
    return time
  | _ => ofObserved b backend symbol

mutual

def ofRequest (b : Bound) (backend : Backend) (p : Permission) : Request → Traced Reader
  | .symbol _ symbol => ofSymbol b backend p symbol
  | .expression e => do
    let evaluator ← Evaluator.compile b e backend
    p.checkEvaluator evaluator
    ofEvaluator b evaluator
  | .sequence items isTuple => do return sequence (ofItems (← ofRequests b backend p items)) isTuple
  | .array shape elements => do return array (ofItems (← ofRequests b backend p elements)) shape

def ofRequests (b : Bound) (backend : Backend) (p : Permission) : List Request → Traced (List Reader)
  | [] => return []
  | r :: rs => do
    let reader ← ofRequest b backend p r
    return reader :: (← ofRequests b backend p rs)

end

end Reader
end NamedSlots
