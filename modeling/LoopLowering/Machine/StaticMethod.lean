import LoopLowering.Machine.ObjectMethod
import LoopLowering.Number.Power
import LoopLowering.Text.Letter

/-!
The classes that every program has: their static fields and methods.
-/

namespace LoopLowering.Machine

def knownClasses : List String :=
  ["System", "Math", "List", "Arrays", "Integer", "Long", "Double", "String", "Character",
    "Boolean", "Objects"]

def libraryField (className name : String) : StoreM Value :=
  match className, name with
  | "System", "out" => alloc (.stream false)
  | "System", "err" => alloc (.stream true)
  | "Integer", "MAX_VALUE" => return .int (Number.twoTo 31 - 1)
  | "Integer", "MIN_VALUE" => return .int (-(Number.twoTo 31))
  | "Long", "MAX_VALUE" => return .int (Number.twoTo 63 - 1)
  | "Long", "MIN_VALUE" => return .int (-(Number.twoTo 63))
  | className, name => fail (.unknownStaticField className name)

def listOf (immutable : Bool) (args : List Value) : StoreM Value := do
  let h ← heap
  let items := match args with
    | [v] => (v.array? h).getD #[v]
    | args => args.toArray
  alloc (.list items immutable)

def choose (c : Comparison) (args : List Value) : StoreM Value := do
  let a ← argument args 0
  let b ← argument args 1
  if ← compareValues c b a then return b else return a

def absolute (h : Heap) (v : Value) : Except Fault Value :=
  match v.planar? h, v.num? with
  | some z, _ => do return .float (← z.modulus)
  | none, some (.int n) => .ok (.int n.natAbs)
  | none, some (.float x) => .ok (.float x.abs)
  | none, none => .error .wrongKind

def raiseTo (base : Float) (exponent : Value) : StoreM Value := do
  match exponent.planar? (← heap) with
  | some w => allocPlanar (← faultless ((Number.Planar.ofReal base).power w))
  | none =>
    match ← faultless (do Number.power base (← realOf exponent)) with
    | .inl x => return .float x
    | .inr z => allocPlanar z

def powerOf (args : List Value) : StoreM Value := do
  let base ← argument args 0
  let base ← faultless (do toFloating (← widen base))
  raiseTo base (← faultless (widen (← argument args 1)))

def parseInteger (args : List Value) : StoreM Value := do
  let v ← argument args 0
  match toInteger v with
  | .ok n => return .int n
  | .error .badValue =>
    throwException "NumberFormatException" (some ("For input string: \"" ++ v.plain ++ "\""))
  | .error f => raise f

def allOf (p : Char → Bool) (args : List Value) : StoreM Value := do
  let s ← orRaise .noSuchPart (← argument args 0).text?
  return .bool (!s.isEmpty && s.toList.all p)

def equalObjects (args : List Value) : StoreM Value := do
  let a ← argument args 0
  let b ← argument args 1
  if isNull a then return .bool (isNull b) else callMethod a "equals" [b]

def libraryCall (className name : String) (args : List Value) : StoreM Value := do
  match className, name with
  | "List", "of" => listOf true args
  | "Arrays", "asList" => listOf false args
  | "Math", "max" => choose .gt args
  | "Math", "min" => choose .lt args
  | "Math", "abs" => faultless (absolute (← heap) (← argument args 0))
  | "Math", "pow" => powerOf args
  | "Math", "sqrt" =>
    let v ← argument args 0
    return .float (← faultless (do Number.squareRoot (← realOf (← widen v))))
  | "Integer", "parseInt" | "Integer", "valueOf" | "Long", "parseLong" => parseInteger args
  | "Double", "parseDouble" => return .float (← faultless (toFloating (← argument args 0)))
  | "String", "valueOf" | "Integer", "toString" | "Objects", "toString" =>
    return .text (← shown (← argument args 0))
  | "Objects", "equals" => equalObjects args
  | "Character", "isDigit" => allOf Text.isDigit args
  | "Character", "isLetter" => allOf Text.isLetter args
  | className, name => fail (.unknownMethodOf className name)

end LoopLowering.Machine
