import LoopLowering.Machine.Evaluator

/-!
Calls of methods and constructors, and the creation of objects.
-/

namespace LoopLowering.Machine

def coerceTo (type : Node) (v : Value) : StoreM Value := faultless do (← typeInfo type).coerce v

def collect (args : List Value) : StoreM Value := do
  let h ← heap
  match args with
  | [v] => if (v.array? h).isSome then return v else alloc (.array #[v])
  | args => alloc (.array args.toArray)

/-- Declares the parameters of a routine with its arguments. Too many arguments are ignored. -/
def bindParameters : List Node → List Value → Exec Unit
  | [], _ => return
  | p :: ps, args => do
    match p.shape with
    | .parameter _ name varargs type =>
      if varargs then declare name (← collect args)
      else
        match args with
        | [] => raise .badIndex
        | v :: args => do
          declare name (← coerceTo type v) (typeInfo type).toOption
          bindParameters ps args
    | _ => raise .noSuchPart

@[inline] def catchReturn (body : Exec Unit) : Exec Value := fun st =>
  match body st with
  | .ok _ st => .ok .null st
  | .error (.returned v) st => .ok v st
  | .error e st => .error e st

namespace Evaluator

variable (ev : Evaluator)

def execBody : Option Node → Exec Unit
  | none => return
  | some b => ev.exec [] b

/-- Runs a routine in a frame of its own. If the arguments cannot be bound, that frame stays. -/
def invoke (className : String) (r : Routine) (this : Option Nat) (args : List Value) :
    Exec Value := do
  ev.tick
  let saved ← getFrame
  setFrame { className, this }
  noting .brokenBinding (bindParameters r.params args)
  ensuring (catchReturn (ev.execBody r.body)) (setFrame saved)

def isArrayInit (n : Node) : Bool := n.shape matches .arrayInit _

def initialValue (type : Except Fault TypeInfo) : Option Node → Exec Value
  | none => do return (← faultless type).default
  | some e => do
    let v ← ev.eval e
    if isArrayInit e then return v else faultless do (← type).coerce v

def initFields (type : Node) (put : String → Value → Origin → StoreM Unit) :
    List Node → Exec Unit
  | [] => return
  | d :: ds => do
    match d.shape with
    | .declarator name _ init =>
      put name (← ev.initialValue (typeInfo type) init) (.declaration (typeInfo type).toOption)
      initFields type put ds
    | _ => raise .noSuchPart

def initMembers (static : Bool) (put : String → Value → Origin → StoreM Unit) :
    List Node → Exec Unit
  | [] => return
  | m :: ms => do
    match m.shape with
    | .fieldDecl modifiers type declarators =>
      if isStatic modifiers = static then ev.initFields type put declarators
    | .initBlock s body => if s = static then ev.exec [] body
    | _ => pure ()
    initMembers static put ms

/-- Runs code in a new frame. If it fails, that frame stays. -/
@[inline] def inFrame (f : Frame) (body : Exec Unit) : Exec Unit := do
  let saved ← getFrame
  setFrame f
  body
  setFrame saved

def construct (c : ClassInfo) (index : Nat) (args : List Value) : Exec Unit :=
  match c.findConstructor? args.length with
  | some r => discard (ev.invoke c.name r index args)
  | none => if args.isEmpty then return else fail (.constructorNotFound c.name args.length)

def instantiate (c : ClassInfo) (args : List Value) : Exec Nat := do
  let index ← allocIndex (.record c.name [])
  noting .brokenCreation <| inFrame { className := c.name, this := index }
    (ev.initMembers false (setField index) c.members)
  ev.construct c index args
  return index

def initStatics (c : ClassInfo) : Exec Unit :=
  inFrame { className := c.name } (ev.initMembers true (setStatic c.name) c.members)

end Evaluator

def initialItems (h : Heap) : List Value → Array Value
  | [] => #[]
  | v :: _ => (v.list? h).getD #[]

def namesException (name : String) : Bool :=
  "Exception".toList.isSuffixOf name.toList || "Error".toList.isSuffixOf name.toList

def createLibrary (typeName : String) (args : List Value) : StoreM Value := do
  let name := simpleName typeName
  if name = "ArrayList" || name = "LinkedList" then
    alloc (.list (initialItems (← heap) args) false)
  else if name = "StringBuilder" then
    alloc (.builder ((args.head?.bind Value.text?).getD ""))
  else if name = "Object" then alloc (.record "Object" [])
  else if namesException name then
    match args with
    | [] => alloc (.exception name none)
    | v :: _ => alloc (.exception name (some (← shown v)))
  else fail (.unknownClass typeName)

def Evaluator.create (ev : Evaluator) (type : Node) (args : List Value) : Exec Value := do
  let typeName ← faultless (nameOf type)
  match ev.program.class? (simpleName typeName) with
  | some c => return .ref (.object (← ev.instantiate c args))
  | none => createLibrary typeName args

end LoopLowering.Machine
