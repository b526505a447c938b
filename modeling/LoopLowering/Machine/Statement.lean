import LoopLowering.Machine.Expression

/-!
The rules for statements. Every statement and every round of a loop counts as a step. Scopes that
a statement opens are closed however it ends.
-/

namespace LoopLowering.Machine

def repeatFrom (round : Nat → Exec Bool) : (most i : Nat) → Exec Unit
  | 0, _ => throw .exhausted
  | n + 1, i => do
    if ← round i then repeatFrom round n (i + 1)

namespace Evaluator

variable (ev : Evaluator)

/-- Repeats rounds that each count a step, so there are never more than the limit allows. -/
def rounds (round : Nat → Exec Bool) : Exec Unit := repeatFrom round (ev.limit.toNat + 2) 0

def execAll : List Node → Exec Unit
  | [] => return
  | s :: ss => do
    ev.exec [] s
    execAll ss

def execBlock (statements : List Node) : Exec Unit := inScope [] (ev.execAll statements)

def variableType (type : Node) (dims : Nat) : StoreM (Except Fault TypeInfo) := do
  if dims = 0 then return typeInfo type
  match type.shape with
  | .typeRef name d _ => return .ok ⟨name, d + dims⟩
  | _ => raise .noSuchPart

def execLocalVar (type : Node) : List Node → Exec Unit
  | [] => return
  | d :: ds => do
    match d.shape with
    | .declarator name dims init =>
      let t ← variableType type dims
      declare name (← ev.initialValue t init) t.toOption
      execLocalVar type ds
    | _ => raise .noSuchPart

def execIf (cond thenStmt : Node) (elseStmt : Option Node) : Exec Unit := do
  if ← ev.truth cond then ev.exec [] thenStmt
  else ev.execBody elseStmt

def runBody (labels : List String) (body : Node) : Exec Bool := fun st =>
  match ev.exec [] body st with
  | .ok _ st => .ok false st
  | .error (.breakTo none) st => .ok true st
  | .error (.continueTo none) st => .ok false st
  | .error (.continueTo (some l)) st =>
    if labels.contains l then .ok false st else .error (.continueTo (some l)) st
  | .error e st => .error e st

def round (labels : List String) (body : Node) : Exec Bool := do
  ev.tick
  return !(← ev.runBody labels body)

def whileRound (labels : List String) (cond body : Node) : Exec Bool := do
  if ← ev.truth cond then ev.round labels body else return false

def execWhile (labels : List String) (cond body : Node) : Exec Unit :=
  ev.rounds fun _ => ev.whileRound labels cond body

def doWhileRound (labels : List String) (body cond : Node) : Exec Bool := do
  if ← ev.round labels body then ev.truth cond else return false

def execDoWhile (labels : List String) (body cond : Node) : Exec Unit :=
  ev.rounds fun _ => ev.doWhileRound labels body cond

def isLocalVar (n : Node) : Bool := n.shape matches .localVar ..

def execInit : List Node → Exec Unit
  | [] => return
  | e :: es => do
    if isLocalVar e then ev.exec [] e
    else
      let _ ← ev.eval e
    execInit es

def evalEach : List Node → Exec Unit
  | [] => return
  | e :: es => do
    let _ ← ev.eval e
    evalEach es

def condition : Option Node → Exec Bool
  | none => return true
  | some e => ev.truth e

def forRound (labels : List String) (cond : Option Node) (update : List Node) (body : Node) :
    Exec Bool := do
  if ← ev.condition cond then
    if ← ev.round labels body then
      ev.evalEach update
      return true
    else return false
  else return false

def execFor (labels : List String) (init : List Node) (cond : Option Node) (update : List Node)
    (body : Node) : Exec Unit :=
  inScope [] do
    ev.execInit init
    ev.rounds fun _ => ev.forRound labels cond update body

def elements (v : Value) : StoreM (Array Value) := do
  let h ← heap
  match v.list? h, v.array? h with
  | some items, _ => return items
  | none, some items => return items
  | none, none => if isNull v then nullPointer else fail .notIterable

def loopVariable (n : Node) : StoreM (Node × Node) := do
  match n.shape with
  | .localVar _ type ds | .fieldDecl _ type ds => return (type, ← orRaise .badIndex ds.head?)
  | _ => raise .noSuchPart

def forEachRound (labels : List String) (type name : Node) (v : Value) (body : Node) (i : Nat) :
    Exec Bool := do
  match (← elements v)[i]? with
  | none => return false
  | some x =>
    ev.tick
    let name ← faultless (nameOf name)
    let x ← coerceTo type x
    let var : Variable := ⟨name, x, (typeInfo type).toOption, false⟩
    return !(← inScope [var] (ev.runBody labels body))

def noteForeign (v : Value) : Exec Unit := do
  if !((v.list? (← heap)).isSome || isNull v) then note .foreignIteration

def execForEach (labels : List String) (var iterable body : Node) : Exec Unit := do
  if isSuper iterable then note .foreignIteration
  let v ← ev.eval iterable
  noteForeign v
  let _ ← elements v
  let (type, name) ← loopVariable var
  ev.rounds (ev.forEachRound labels type name v body)

def execReturn : Option Node → Exec Unit
  | none => throw (.returned .null)
  | some e => do throw (.returned (← ev.eval e))

def execThrow (e : Node) : Exec Unit := do
  let v ← ev.eval e
  if isNull v then nullPointer else throw (.thrown v)

def anyCatches (v : Value) : List Node → StoreM Bool
  | [] => return false
  | t :: ts => do
    let name ← faultless (nameOf t)
    if catches (← heap) name v then return true else anyCatches v ts

def handle (v : Value) : List Node → Exec Unit
  | [] => throw (.thrown v)
  | c :: cs => do
    match c.shape with
    | .catchClause _ name types body =>
      if ← anyCatches v types then inScope [⟨name, v, none, false⟩] (ev.exec [] body) else handle v cs
    | _ => raise .noSuchPart

def execGuarded (body : Node) (handlers : List Node) : Exec Unit := fun st =>
  match ev.exec [] body st with
  | .error (.thrown v) st => ev.handle v handlers st
  | r => r

def execTry (body : Node) (handlers : List Node) (last : Option Node) : Exec Unit :=
  ensuring (ev.execGuarded body handlers) (ev.execBody last)

def execLabeled (labels : List String) (label : String) (body : Node) : Exec Unit := fun st =>
  match ev.exec (labels ++ [label]) body st with
  | .error (.breakTo l) st => if l = some label then .ok () st else .error (.breakTo l) st
  | r => r

def statement (labels : List String) (s : Node) : Exec Unit :=
  match s.shape with
  | .block statements => ev.execBlock statements
  | .localVar _ type declarators => ev.execLocalVar type declarators
  | .exprStmt e => discard (ev.eval e)
  | .ifElse cond thenStmt elseStmt => ev.execIf cond thenStmt elseStmt
  | .whileLoop cond body => ev.execWhile labels cond body
  | .doWhile body cond => ev.execDoWhile labels body cond
  | .forLoop init cond update body => ev.execFor labels init cond update body
  | .forEach var iterable body => ev.execForEach labels var iterable body
  | .returnStmt e => ev.execReturn e
  | .breakStmt label => throw (.breakTo label)
  | .continueStmt label => throw (.continueTo label)
  | .throwStmt e => ev.execThrow e
  | .tryStmt body handlers last => ev.execTry body handlers last
  | .labeled label body => ev.execLabeled labels label body
  | .emptyStmt => return
  | .classDecl .. => fail .localClass
  | s => fail (.badStatement s.kind)

def countedStatement (labels : List String) (s : Node) : Exec Unit := do
  ev.tick
  ev.statement labels s

end Evaluator

end LoopLowering.Machine
