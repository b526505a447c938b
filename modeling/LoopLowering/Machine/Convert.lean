import LoopLowering.Machine.Compare
import LoopLowering.Machine.Store
import LoopLowering.Number.Numeral
import LoopLowering.Tree.Node

/-!
Conversions between values, and what types say about them.
-/

namespace LoopLowering.Machine

open LoopLowering.Number

def codeOf (s : String) : Except Fault Int :=
  match s.toList with
  | [c] => .ok c.toNat
  | _ => .error .wrongKind

def widen : Value → Except Fault Value
  | .char s => do return .int (← codeOf s)
  | v => .ok v

def charOf (n : Int) : Except Fault Value :=
  if n < -(twoTo 31) || twoTo 31 ≤ n then .error .overflow
  else if n < 0 || 0x10FFFF < n then .error .badValue
  else if 0xD800 ≤ n && n ≤ 0xDFFF then .ok (.char (String.singleton (Char.ofNat 0xFFFD)))
  else .ok (.char (String.singleton (Char.ofNat n.toNat)))

def toInteger : Value → Except Fault Int
  | .bool b => .ok (if b then 1 else 0)
  | .int n => .ok n
  | .float x =>
    match truncate? x with
    | some n => .ok n
    | none => .error (if x.isNaN then .badValue else .overflow)
  | .text s | .char s =>
    match readInt? s with
    | some n => .ok n
    | none => .error .badValue
  | .null | .ref _ => .error .wrongKind

def toFloating (v : Value) : Except Fault Float :=
  match v.num?, v.text? with
  | some n, _ => n.toFloat
  | none, some s =>
    match readFloat? s with
    | some x => .ok x
    | none => .error .badValue
  | none, none => .error .wrongKind

def realOf (v : Value) : Except Fault Float :=
  match v.num? with
  | some n => n.toFloat
  | none => .error .wrongKind

def indexOf? : Value → Option Int
  | .bool b => some (if b then 1 else 0)
  | .int n => some n
  | _ => none

def integerTypes : List String := ["int", "long", "short", "byte"]

def floatingTypes : List String := ["double", "float"]

def typeInfo (n : Node) : Except Fault TypeInfo :=
  match n.shape with
  | .typeRef name d _ | .declarator name d _ => .ok ⟨name, d⟩
  | _ => .error .noSuchPart

def simpleName (s : String) : String :=
  String.ofList (s.toList.reverse.takeWhile (· ≠ '.')).reverse

namespace TypeInfo

def default (t : TypeInfo) : Value :=
  if t.dims ≠ 0 then .null
  else if integerTypes.contains t.name then .int 0
  else if floatingTypes.contains t.name then .float 0
  else if t.name = "boolean" then .bool false
  else if t.name = "char" then .char (String.singleton (Char.ofNat 0))
  else .null

/-- The conversion when a value is given to a variable: numbers to floating point, characters to
integers. -/
def coerce (t : TypeInfo) (v : Value) : Except Fault Value :=
  if t.dims ≠ 0 then .ok v
  else if floatingTypes.contains t.name && v.isNumeric then do
    return .float (← realOf (← widen v))
  else if integerTypes.contains t.name && v.isChar then widen v
  else .ok v

def cast (t : TypeInfo) (v : Value) : Except Fault Value :=
  if t.dims ≠ 0 then .ok v
  else if integerTypes.contains t.name then do return .int (← toInteger (← widen v))
  else if floatingTypes.contains t.name then do return .float (← toFloating (← widen v))
  else if t.name = "char" then
    if v.isChar then .ok v else do charOf (← toInteger v)
  else .ok v

end TypeInfo

def runtimeExceptions : List String :=
  ["RuntimeException", "ArithmeticException", "NullPointerException",
    "IllegalArgumentException", "IllegalStateException", "IndexOutOfBoundsException",
    "ArrayIndexOutOfBoundsException", "NoSuchElementException", "UnsupportedOperationException",
    "NumberFormatException", "StringIndexOutOfBoundsException"]

def thrownName? (h : Heap) (v : Value) : Option String :=
  match v.object? h with
  | some (.exception name _) => some name
  | some (.record name _) => some name
  | _ => none

def catches (h : Heap) (typeName : String) (v : Value) : Bool :=
  let name := thrownName? h v
  typeName = "Throwable" || typeName = "Exception" || name = some typeName ||
    (typeName = "RuntimeException" && (name.map runtimeExceptions.contains).getD false)

def instanceOf (h : Heap) (v : Value) (typeName : String) : Bool :=
  let name := simpleName typeName
  match v with
  | .null => false
  | v =>
    if name = "Object" then true
    else if name = "String" then v matches .text _
    else if name = "Integer" || name = "Long" then v matches .int _
    else if name = "Double" then v matches .float _
    else if name = "Boolean" then v matches .bool _
    else if ["List", "ArrayList", "Collection", "Iterable"].contains name then (v.list? h).isSome
    else
      match v.object? h with
      | some (.record c _) => c = name
      | some (.exception ..) => catches h name v
      | _ => false

end LoopLowering.Machine
