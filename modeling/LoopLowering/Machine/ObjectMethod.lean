import LoopLowering.Machine.ListMethod
import LoopLowering.Machine.TextMethod

/-!
Methods of values that no class of the program declares. Every value has `toString`, `equals` and
`hashCode`, which lists and strings answer in their own way.
-/

namespace LoopLowering.Machine

def hashModulus : Nat := Number.twoTo 61 - 1

def avoidMinusOne (n : Int) : Int := if n = -1 then -2 else n

def hashOfInt (n : Int) : Int := avoidMinusOne (n.tmod hashModulus)

/-- The hash of a floating-point number, which is that of the integer if it is one: dividing by two
is multiplying by the sixtieth power of two. -/
def hashOfFloat (x : Float) : Int :=
  match Number.read x with
  | .finite negative m e =>
    let r : Int := (m * Number.twoTo (e.emod 61).toNat) % hashModulus
    avoidMinusOne (if negative then -r else r)
  | .infinite negative => if negative then -314159 else 314159
  | .undefined => 0

def hashOfPlanar (z : Number.Planar) : Int :=
  avoidMinusOne ((hashOfFloat z.re + 1000003 * hashOfFloat z.im).bmod (Number.twoTo 64))

def hashBits (n : Int) : Value := .int (Number.bitAnd n 0x7fffffff)

def hashCode (v : Value) : StoreM Value := do
  match v with
  | .bool b => return .int (if b then 1 else 0)
  | .int n => return hashBits (hashOfInt n)
  | .float x => return hashBits (hashOfFloat x)
  | .null => return .int 0
  | .text s | .char s => return .int (TextMethod.hashCode s)
  | .ref a =>
    let h ← heap
    match v.array? h with
    | some _ => raise .wrongKind
    | none => return ((v.planar? h).map fun z => hashBits (hashOfPlanar z)).getD (.int a.code)

def callCommon (v : Value) (name : String) (args : List Value) : StoreM Value := do
  match name with
  | "toString" => return .text (← shown v)
  | "equals" => return .bool (← equalOperands v (← argument args 0))
  | "hashCode" => hashCode v
  | name =>
    match v.array? (← heap) with
    | some _ => fail (.arrayMethod name)
    | none => fail (.unknownMethod name)

def callIterator (index : Nat) (c : Cursor) (name : String) (args : List Value) :
    StoreM Value := do
  let items := ((Value.ref (.object c.list)).list? (← heap)).getD #[]
  match name with
  | "hasNext" => return .bool (c.position < items.size)
  | "next" =>
    match items[c.position]? with
    | some v =>
      storeIterator index { c with position := c.position + 1 }
      return v
    | none => throwException "NoSuchElementException" none
  | name => callCommon (.ref (.iterator index)) name args

def callBuilder (index : Nat) (text : String) (name : String) (args : List Value) :
    StoreM Value := do
  match name with
  | "append" =>
    let added ← shown (← argument args 0)
    store index (.builder (text ++ added))
    return .ref (.object index)
  | "length" => return .int text.length
  | "isEmpty" => return .bool text.isEmpty
  | "reverse" =>
    store index (.builder (String.ofList text.toList.reverse))
    return .ref (.object index)
  | "charAt" =>
    let p ← positionOf text.length (← argument args 0)
    let c ← orRaise .badIndex text.toList[p]?
    return .char (String.singleton c)
  | name => callCommon (.ref (.object index)) name args

def callStream (index : Nat) (toErrors : Bool) (name : String) (args : List Value) :
    StoreM Value := do
  let text ← match args with
    | [] => pure ""
    | v :: _ => shown v
  match name with
  | "println" =>
    print toErrors (text ++ "\n")
    return .null
  | "print" =>
    print toErrors text
    return .null
  | name => callCommon (.ref (.object index)) name args

def callException (index : Nat) (message : Option String) (name : String) (args : List Value) :
    StoreM Value :=
  match name with
  | "getMessage" => return (message.map Value.text).getD .null
  | name => callCommon (.ref (.object index)) name args

def callObject (index : Nat) (o : Object) (name : String) (args : List Value) : StoreM Value :=
  match o with
  | .list items immutable => ListCell.call ⟨index, items, immutable⟩ name args
  | .builder text => callBuilder index text name args
  | .stream toErrors => callStream index toErrors name args
  | .exception _ message => callException index message name args
  | _ => callCommon (.ref (.object index)) name args

def callMethod (v : Value) (name : String) (args : List Value) : StoreM Value := do
  match v with
  | .text s => TextMethod.call s name args
  | .ref (.object i) =>
    match (← heap).objects[i]? with
    | some o => callObject i o name args
    | none => callCommon v name args
  | .ref (.iterator i) =>
    match (← heap).iterators[i]? with
    | some c => callIterator i c name args
    | none => callCommon v name args
  | v => callCommon v name args

end LoopLowering.Machine
