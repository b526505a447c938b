import LoopLowering.Machine.Convert
import LoopLowering.Number.Bits
import LoopLowering.Tree.Operator

/-!
Unary and binary operators on values. Integers have no bounds, `+` joins texts and arrays, and `*`
repeats them.
-/

namespace LoopLowering.Machine

open LoopLowering.Number

def nullPointer {α : Type} : StoreM α := throwException "NullPointerException" none

def equalValues (a b : Value) : StoreM Bool := do finite (equal? (← heap) a b)

/-- Equality as `==` decides it: numbers and characters by number, strings and booleans by value,
objects by identity. -/
def equalOperands (a b : Value) : StoreM Bool := do
  if a.isNumeric && b.isNumeric then
    equalValues (← faultless (widen a)) (← faultless (widen b))
  else if a.isPlain || b.isPlain then equalValues a b
  else return identical a b

def arithmetic (onInt : Int → Int → Int) (onFloat : Float → Float → Float) (a b : Value) :
    Except Fault Value :=
  match a.num?, b.num? with
  | some (.int m), some (.int n) => .ok (.int (onInt m n))
  | some x, some y => do return .float (onFloat (← x.toFloat) (← y.toFloat))
  | _, _ => .error .wrongKind

def repetitions (length : Nat) (count : Int) : Except Fault Nat :=
  if count < -(twoTo 63) || twoTo 63 ≤ count || count * length ≥ twoTo 31 then .error .overflow
  else .ok (if length = 0 then 0 else count.toNat)

def repeatText (s : String) (count : Int) : Except Fault Value := do
  let n ← repetitions s.length count
  return .text (String.join (List.replicate n s))

def repeatArray (items : Array Value) (count : Int) : StoreM Value := do
  let n ← faultless (repetitions items.size count)
  alloc (.array (List.replicate n items).toArray.flatten)

def add (a b : Value) : StoreM Value := do
  match a.array? (← heap), b.array? (← heap) with
  | some xs, some ys => alloc (.array (xs ++ ys))
  | _, _ => faultless (arithmetic (· + ·) (· + ·) a b)

def multiplyItems (a b : Value) : StoreM Value := do
  let h ← heap
  match a.array? h, b.array? h with
  | some xs, _ => do repeatArray xs (← orRaise .wrongKind (indexOf? b))
  | _, some ys => do repeatArray ys (← orRaise .wrongKind (indexOf? a))
  | _, _ => faultless (arithmetic (· * ·) (· * ·) a b)

def multiply (a b : Value) : StoreM Value :=
  match a, b with
  | .text s, b => do faultless (repeatText s (← orRaise .wrongKind (indexOf? b)))
  | a, .text s => do faultless (repeatText s (← orRaise .wrongKind (indexOf? a)))
  | a, b => multiplyItems a b

def divideByZero (a : Value) (zero : Num) : Except Fault Value :=
  match a.num? with
  | none => .error .wrongKind
  | some x =>
    if x.compare (.int 0) = some .eq || a.isUndefined then .ok (.float undefinedNumber)
    else do
      let x ← x.toFloat
      let z ← zero.toFloat
      return .float (infinity (isNegative x != isNegative z))

def divideFloat (a b : Value) : Except Fault Value :=
  match b.num? with
  | some y =>
    if y.compare (.int 0) = some .eq then divideByZero a y
    else arithmetic (fun m _ => m) (· / ·) a b
  | none => .error .wrongKind

def remainderFloat (a b : Value) : Except Fault Value := do
  let x ← realOf a
  let y ← realOf b
  match remainder? x y with
  | some r => .ok (.float r)
  | none => .error .badValue

def divide (onInt : Int → Int → Int) (onFloat : Value → Value → Except Fault Value)
    (a b : Value) : StoreM Value :=
  match indexOf? a, indexOf? b with
  | some m, some n =>
    if n = 0 then throwException "ArithmeticException" (some "/ by zero")
    else pure (.int (onInt m n))
  | _, _ => faultless (onFloat a b)

def onIntegers (f : Int → Int → Int) (a b : Value) : Except Fault Value :=
  match indexOf? a, indexOf? b with
  | some m, some n => .ok (.int (f m n))
  | _, _ => .error .wrongKind

def shiftDistance (bits : Nat) (n : Int) : Nat := (n.emod (twoTo bits)).toNat

def shiftRightUnsigned (m n : Int) : Int :=
  if m < 0 then shiftRight (m.emod (twoTo 32)) (shiftDistance 5 n)
  else shiftRight m (shiftDistance 6 n)

def compareValues (c : Comparison) (a b : Value) : StoreM Bool := do
  faultless (← finite (compareValues? (← heap) c a b))

def compareOperands (c : Comparison) (a b : Value) : StoreM Value := do
  return .bool (← compareValues c a b)

def applyReal (op : BinaryOp) (a b : Value) : StoreM Value :=
  match op with
  | .add => add a b
  | .sub => faultless (arithmetic (· - ·) (· - ·) a b)
  | .mul => multiply a b
  | .div => divide Int.tdiv divideFloat a b
  | .rem => divide Int.tmod remainderFloat a b
  | .lt => compareOperands .lt a b
  | .gt => compareOperands .gt a b
  | .le => compareOperands .le a b
  | .ge => compareOperands .ge a b
  | .bitAnd => faultless (onIntegers bitAnd a b)
  | .bitOr => faultless (onIntegers bitOr a b)
  | .bitXor => faultless (onIntegers bitXor a b)
  | .shiftLeft => faultless (onIntegers (fun m n => shiftLeft m (shiftDistance 6 n)) a b)
  | .shiftRight => faultless (onIntegers (fun m n => shiftRight m (shiftDistance 6 n)) a b)
  | .shiftRightUnsigned => faultless (onIntegers shiftRightUnsigned a b)
  | op => fail (.unknownBinary op.symbol)

def Value.toPlanar? (h : Heap) (v : Value) : Option (Except Fault Planar) :=
  match v.planar? h with
  | some z => some (.ok z)
  | none => v.num?.map fun n => Planar.ofReal <$> n.toFloat

def planarOperands? (h : Heap) (a b : Value) : Option (Except Fault (Planar × Planar)) :=
  if (a.planar? h).isSome || (b.planar? h).isSome then do
    let z ← a.toPlanar? h
    let w ← b.toPlanar? h
    return do return (← z, ← w)
  else none

def dividePlanar (z w : Planar) : StoreM Value := do
  if w.isZero then
    if z.isZero || z.isUndefined then return .float undefinedNumber else raise .wrongKind
  else allocPlanar (← faultless (z.div w))

def planarOperator? : BinaryOp → Option (Planar → Planar → StoreM Value)
  | .add => some fun z w => allocPlanar (z.add w)
  | .sub => some fun z w => allocPlanar (z.sub w)
  | .mul => some fun z w => allocPlanar (z.mul w)
  | .div => some dividePlanar
  | _ => none

def applyStrict (op : BinaryOp) (a b : Value) : StoreM Value := do
  match planarOperator? op, planarOperands? (← heap) a b with
  | some f, some operands =>
    let operands ← faultless operands
    f operands.1 operands.2
  | _, _ => applyReal op a b

def isNull : Value → Bool
  | .null => true
  | _ => false

def applyWidened (op : BinaryOp) (a b : Value) : StoreM Value := do
  let a ← faultless (widen a)
  let b ← faultless (widen b)
  if isNull a || isNull b then nullPointer else applyStrict op a b

def applyBinary (op : BinaryOp) (a b : Value) : StoreM Value := do
  match op, a, b with
  | .add, .text s, b => return .text (s ++ (← shown b))
  | .add, a, .text s => return .text ((← shown a) ++ s)
  | .eq, a, b => return .bool (← equalOperands a b)
  | .ne, a, b => return .bool !(← equalOperands a b)
  | .bitAnd, .bool x, b => return if x then b else .bool false
  | .bitOr, .bool x, b => return if x then .bool true else b
  | .bitXor, .bool x, b => return .bool !(← equalValues (.bool x) b)
  | op, a, b => applyWidened op a b

def stepReal (up : Bool) (v : Value) : Except Fault Value := do
  let one : Value := .int (if up then 1 else -1)
  let next ← arithmetic (· + ·) (· + ·) (← widen v) one
  match v, next with
  | .char _, .int n => charOf n
  | _, next => return next

def step (up : Bool) (v : Value) : StoreM Value := do
  match v.planar? (← heap) with
  | some z => allocPlanar (z.add (.ofReal (if up then 1 else -1)))
  | none => faultless (stepReal up v)

def negate (v : Value) : Except Fault Value := do
  match (← widen v).num? with
  | some (.int n) => return .int (-n)
  | some (.float x) => return .float (-x)
  | none => throw .wrongKind

def applyUnary (op : UnaryOp) (v : Value) : StoreM Value := do
  match op with
  | .not => return .bool !(v.holds (← heap))
  | .minus =>
    match v.planar? (← heap) with
    | some z => allocPlanar z.neg
    | none => faultless (negate v)
  | .plus => faultless (widen v)
  | .complement => faultless do
      match indexOf? (← widen v) with
      | some n => return .int (complement n)
      | none => throw .wrongKind
  | op => fail (.unknownUnary op.symbol)

/-- What a compound assignment stores: an integer variable takes the whole part of a number, a
character variable the character with the code. -/
def fitCompound (old new : Value) : Except Fault Value :=
  match old, new with
  | .int _, .float _ => do return .int (← toInteger new)
  | .char _, .int n => charOf n
  | .char _, .bool b => charOf (if b then 1 else 0)
  | _, new => .ok new

end LoopLowering.Machine
