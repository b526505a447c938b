import LoopLowering.Machine.Call

/-!
The rules for expressions. Arguments are evaluated before the target of a call, and a compound
assignment evaluates its target twice: once for the old value and once for the place.
-/

namespace LoopLowering.Machine

def Value.ofConstant : Constant → Value
  | .null => .null
  | .bool b => .bool b
  | .int n => .int n
  | .float x => .float x
  | .text s => .text s

def literal (c : Constant) : LiteralKind → Value
  | .char => .char c.plain
  | _ => .ofConstant c

def unwrap : Node → Node
  | .mk _ (.parens e) => unwrap e
  | n => n
termination_by structural n => n

def sizeOf? (h : Heap) (v : Value) : Option Nat :=
  match v.text?, v.array? h with
  | some s, _ => some s.length
  | none, some items => some items.size
  | none, none => none

def elementPosition (target index : Value) : StoreM Nat := do
  if isNull target then nullPointer
  let size ← orRaise .wrongKind (sizeOf? (← heap) target)
  checkedPosition size index (outOfBounds "ArrayIndexOutOfBoundsException" size index)

def elementAt (target index : Value) : StoreM Value := do
  let p ← elementPosition target index
  match target.text?, target.array? (← heap) with
  | some s, _ => return .text (String.singleton (← orRaise .badIndex s.toList[p]?))
  | none, some items => orRaise .badIndex items[p]?
  | none, none => raise .wrongKind

def setElement (target index v : Value) : StoreM Unit := do
  let p ← elementPosition target index
  match target, target.array? (← heap) with
  | .ref (.object a), some items => store a (.array (items.setIfInBounds p v))
  | _, _ => raise .wrongKind

def extent (v : Value) : StoreM Nat := return (← orRaise .wrongKind (indexOf? v)).toNat

def times (make : StoreM Value) : Nat → StoreM (List Value)
  | 0 => return []
  | n + 1 => do
    let v ← make
    let vs ← times make n
    return v :: vs

def newArray (element : StoreM Value) : List Value → StoreM Value
  | [] => raise .badIndex
  | [d] => do alloc (.array (← times element (← extent d)).toArray)
  | d :: ds => do alloc (.array (← times (newArray element ds) (← extent d)).toArray)

namespace Evaluator

variable (ev : Evaluator)

def classRef (name : String) : Exec Value :=
  if ev.program.declares name || knownClasses.contains name then alloc (.classRef name)
  else fail (.unknownName name)

def evalName (name : String) : Exec Value := do
  let st ← get
  match (st.resolve name).bind (st.valueOf name) with
  | some v => return v
  | none => ev.classRef name

def staticField (className name : String) : StoreM Value := do
  match ((← get).statics? className).lookup name with
  | some v => return v
  | none => libraryField className name

def fieldOf (v : Value) (name : String) : StoreM Value := do
  match v.object? (← heap) with
  | some (.classRef c) => staticField c name
  | some (.record _ fields) =>
    match fields.lookup name with
    | some v => return v
    | none => fail (.unknownField name)
  | some (.array items) =>
    if name = "length" then return .int items.size else fail (.unknownField name)
  | _ => if isNull v then nullPointer else fail (.unknownField name)

def evalField (name : String) (target : Node) : Exec Value := do
  fieldOf (← ev.eval target) name

def evalIndex (target index : Node) : Exec (Value × Value) := do
  let t ← ev.eval target
  let i ← faultless (widen (← ev.eval index))
  return (t, i)

def evalElement (target index : Node) : Exec Value := do
  let (t, i) ← ev.evalIndex target index
  elementAt t i

def addressOf (n : Option Nat) : Value := (n.map fun i => Value.ref (.object i)).getD .null

def evalThis : Exec Value := return addressOf (← getFrame).this

def callThis (args : List Value) : Exec Value := do
  let c ← ev.currentClass
  match c.findConstructor? args.length with
  | some r => ev.invoke c.name r (← getFrame).this args
  | none => fail .thisConstructorNotFound

def callUnqualified (name : String) (args : List Value) : Exec Value := do
  if name = "super" then return .null
  if name = "this" then ev.callThis args
  else
    let c ← ev.currentClass
    match c.findMethod? name args.length with
    | some r =>
      let f ← getFrame
      ev.invoke c.name r (if r.isStatic then none else f.this) args
    | none => fail (.unknownMethod name)

def callStatic (className name : String) (args : List Value) : Exec Value :=
  match ev.program.class? className with
  | some c =>
    match c.findMethod? name args.length with
    | some r => ev.invoke className r none args
    | none => fail (.unknownMethodOf className name)
  | none => libraryCall className name args

def declared? (className name : String) (count : Nat) : Option Routine :=
  (ev.program.class? className).bind (·.findMethod? name count)

def callFound (h : Heap) (v : Value) (name : String) (args : List Value) : Exec Value :=
  match v, v.object? h with
  | _, some (.classRef c) => ev.callStatic c name args
  | .ref (.object a), some (.record c _) =>
    match ev.declared? c name args.length with
    | some r => ev.invoke c r (some a) args
    | none => callMethod v name args
  | v, _ => callMethod v name args

def callOn (v : Value) (name : String) (args : List Value) : Exec Value := do
  if isNull v then nullPointer else ev.callFound (← heap) v name args

def isSuper (n : Node) : Bool := n.shape matches .superExpr

def evalCall (name : String) (target : Option Node) (args : List Node) : Exec Value := do
  let args ← ev.evalAll args
  match target with
  | none => ev.callUnqualified name args
  | some t => if isSuper t then return .null else do ev.callOn (← ev.eval t) name args

def evalCreation (type : Node) (args : List Node) : Exec Value := do
  ev.create type (← ev.evalAll args)

def evalSizes : List Node → Exec (List Value)
  | [] => return []
  | e :: es => do
    let v ← faultless (widen (← ev.eval e))
    let vs ← evalSizes es
    return v :: vs

def emptyElement (extraDims : Nat) (type : Node) : StoreM Value :=
  if extraDims = 0 then do return (← faultless (typeInfo type)).default else return .null

def evalArrayCreation (extraDims : Nat) (type : Node) (sizes : List Node) (init : Option Node) :
    Exec Value := do
  match init with
  | some e => ev.eval e
  | none =>
    let ds ← ev.evalSizes sizes
    unless extraDims = 0 do
      let _ ← faultless (nameOf type)
    newArray (emptyElement extraDims type) ds

def evalArrayInit (values : List Node) : Exec Value := do
  alloc (.array (← ev.evalAll values).toArray)

def putField (h : Heap) (t : Value) (name : String) (v : Value) (origin : Origin) :
    StoreM Unit :=
  match t, t.object? h with
  | _, some (.classRef c) =>
    if ev.program.declares c then setStatic c name v origin else fail (.badFieldTarget name)
  | .ref (.object a), some (.record _ _) => setField a name v origin
  | _, _ => fail (.badFieldTarget name)

def assignField (name : String) (target : Node) (v : Value) (origin : Origin) : Exec Unit := do
  let t ← ev.eval target
  ev.putField (← heap) t name v origin

def assign (target : Node) (v : Value) (origin : Origin) : Exec Unit := do
  match (unwrap target).shape with
  | .ident name => assignName name v origin
  | .fieldAccess name target => ev.assignField name target v origin
  | .arrayAccess target index =>
    let (t, i) ← ev.evalIndex target index
    setElement t i v
  | _ => fail .badTarget

/-- The value that an assignment stores, and how it comes about. -/
def assignedValue (op : AssignOp) (target e : Node) : Exec (Value × Origin) := do
  match op.operator? with
  | none => return (← ev.eval e, .plain)
  | some op =>
    let old ← ev.eval target
    let new ← applyBinary op old (← ev.eval e)
    return (← faultless (fitCompound old new), .operator old)

def evalAssign (op : AssignOp) (target e : Node) : Exec Value := do
  let r ← ev.assignedValue op target e
  ev.assign target r.1 r.2
  return r.1

def evalBinary (op : BinaryOp) (left right : Node) : Exec Value := do
  match op with
  | .and => if ← ev.truth left then return .bool (← ev.truth right) else return .bool false
  | .or => if ← ev.truth left then return .bool true else return .bool (← ev.truth right)
  | op =>
    let a ← ev.eval left
    let b ← ev.eval right
    applyBinary op a b

def evalStep (up after : Bool) (target : Node) : Exec Value := do
  let old ← ev.eval target
  let new ← step up old
  ev.assign target new (.operator old)
  return if after then old else new

def evalUnary (op : UnaryOp) (after : Bool) (e : Node) : Exec Value := do
  match op with
  | .increment => ev.evalStep true after e
  | .decrement => ev.evalStep false after e
  | op => applyUnary op (← ev.eval e)

def evalConditional (cond thenExpr elseExpr : Node) : Exec Value := do
  if ← ev.truth cond then ev.eval thenExpr else ev.eval elseExpr

def evalCast (type e : Node) : Exec Value := do
  let v ← ev.eval e
  faultless do (← typeInfo type).cast v

def evalInstanceOf (e type : Node) : Exec Value := do
  let v ← ev.eval e
  let name ← faultless (nameOf type)
  return .bool (instanceOf (← heap) v name)

def expression (e : Node) : Exec Value :=
  match e.shape with
  | .literal value kind => return literal value kind
  | .ident name => ev.evalName name
  | .thisExpr => evalThis
  | .parens e => ev.eval e
  | .fieldAccess name target => ev.evalField name target
  | .arrayAccess target index => ev.evalElement target index
  | .methodCall name target args => ev.evalCall name target args
  | .objectCreation type args => ev.evalCreation type args
  | .arrayCreation extraDims type sizes init => ev.evalArrayCreation extraDims type sizes init
  | .arrayInit values => ev.evalArrayInit values
  | .assign op target e => ev.evalAssign op target e
  | .binary op left right => ev.evalBinary op left right
  | .unary op after e => ev.evalUnary op after e
  | .conditional cond thenExpr elseExpr => ev.evalConditional cond thenExpr elseExpr
  | .cast type e => ev.evalCast type e
  | .instanceOf e type => ev.evalInstanceOf e type
  | s => fail (.badExpression s.kind)

end Evaluator

end LoopLowering.Machine
