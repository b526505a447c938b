import LoopLowering.Layout.Error
import LoopLowering.Layout.Escape
import LoopLowering.Number.Numeral
import LoopLowering.Tree.Node

/-!
Source text of types and expressions. A subexpression that binds less tightly than its place asks
for is put in parentheses.
-/

namespace LoopLowering.Layout

abbrev Result := Except LayoutError

namespace Precedence

def assign : Nat := 1
def conditional : Nat := 2
def comparison : Nat := 9
def unary : Nat := 13
def counted : Nat := 14
def primary : Nat := 15

def binary (op : BinaryOp) : Option Nat := op.level?.map (· + 3)

end Precedence

def precedence (n : Node) : Nat :=
  match n.shape with
  | .assign .. => Precedence.assign
  | .conditional .. => Precedence.conditional
  | .binary op .. => (Precedence.binary op).getD 0
  | .instanceOf .. => Precedence.comparison
  | .cast .. => Precedence.unary
  | .unary _ after _ => if after then Precedence.counted else Precedence.unary
  | .arrayCreation .. => Precedence.counted
  | _ => Precedence.primary

def brackets (count : Nat) : String := String.join (List.replicate count "[]")

def commaList (texts : List String) : String := ", ".intercalate texts

mutual

def typeText : Node → Result String
  | .mk _ (.wildcard _ none) => .ok "?"
  | .mk _ (.wildcard kind (some bound)) => do
    return "? " ++ kind.getD "None" ++ " " ++ (← typeText bound)
  | .mk _ (.typeRef name d none) => .ok (name ++ brackets d)
  | .mk _ (.typeRef name d (some args)) => do
    return name ++ "<" ++ commaList (← typeTexts args) ++ ">" ++ brackets d
  | _ => .error (.fault .noSuchPart)
termination_by structural n => n

def typeTexts : List Node → Result (List String)
  | [] => .ok []
  | n :: ns => do
    let t ← typeText n
    return t :: (← typeTexts ns)
termination_by structural ns => ns

end

def holds : Constant → Bool
  | .null => false
  | .bool b => b
  | .int n => n ≠ 0
  | .float x => x != 0
  | .text s => s ≠ ""

def floatOf : Constant → Except Fault Float
  | .null => .error .wrongKind
  | .bool b => .ok (if b then 1 else 0)
  | .int n =>
    match Number.ofInt? n with
    | some x => .ok x
    | none => .error .overflow
  | .float x => .ok x
  | .text s =>
    match Number.readFloat? s with
    | some x => .ok x
    | none => .error .badValue

def quotedText (quote : Char) : Constant → Result String
  | .text s => .ok (String.singleton quote ++ escape quote s ++ String.singleton quote)
  | _ => .error (.fault .wrongKind)

def literalText (value : Constant) (kind : LiteralKind) : Result String :=
  match kind with
  | .boolean => .ok (if holds value then "true" else "false")
  | .null => .ok "null"
  | .string => quotedText '"' value
  | .char => quotedText Text.singleQuote value
  | .long => .ok (value.plain ++ "L")
  | .float => do
    let x ← (floatOf value).mapError .fault
    return Number.FloatStyle.source.format x ++ "f"
  | .double => do
    let x ← (floatOf value).mapError .fault
    return Number.FloatStyle.source.format x
  | .int | .other _ => .ok value.plain

def wrap (least : Nat) (n : Node) (text : String) : String :=
  if precedence n < least then "(" ++ text ++ ")" else text

def prefixed (op : UnaryOp) (operand : String) : String :=
  let signs := [UnaryOp.plus, .minus, .increment, .decrement].contains op
  let signed := operand.toList.head? = some '+' || operand.toList.head? = some '-'
  op.symbol ++ (if signs && signed then " " ++ operand else operand)

mutual

def exprText : Node → Result String
  | .mk _ (.literal value kind) => literalText value kind
  | .mk _ (.ident name) => .ok name
  | .mk _ .thisExpr => .ok "this"
  | .mk _ .superExpr => .ok "super"
  | .mk _ (.parens e) => do return "(" ++ (← exprText e) ++ ")"
  | .mk _ (.fieldAccess name target) => do
    return wrap Precedence.primary target (← exprText target) ++ "." ++ name
  | .mk _ (.arrayAccess target index) => do
    let t ← exprText target
    let i ← exprText index
    return wrap Precedence.primary target t ++ "[" ++ i ++ "]"
  | .mk _ (.methodCall name none args) => do
    return name ++ "(" ++ commaList (← exprTexts args) ++ ")"
  | .mk _ (.methodCall name (some target) args) => do
    let as ← exprTexts args
    let t ← exprText target
    return wrap Precedence.primary target t ++ "." ++ name ++ "(" ++ commaList as ++ ")"
  | .mk _ (.objectCreation type args) => do
    let as ← exprTexts args
    let t ← typeText type
    return "new " ++ t ++ "(" ++ commaList as ++ ")"
  | .mk _ (.arrayCreation extra type dimExprs none) => do
    let t ← typeText type
    let ds ← exprTexts dimExprs
    return "new " ++ t ++ String.join (ds.map fun d => "[" ++ d ++ "]") ++ brackets extra
  | .mk _ (.arrayCreation extra type dimExprs (some init)) => do
    let t ← typeText type
    let ds ← exprTexts dimExprs
    let i ← exprText init
    return "new " ++ t ++ String.join (ds.map fun d => "[" ++ d ++ "]") ++ brackets extra ++
      " " ++ i
  | .mk _ (.arrayInit values) => do
    return "\x7b" ++ commaList (← exprTexts values) ++ "\x7d"
  | .mk _ (.assign op target e) => do
    let t ← exprText target
    let v ← exprText e
    return wrap Precedence.primary target t ++ " " ++ op.symbol ++ " " ++
      wrap Precedence.assign e v
  | .mk _ (.binary op left right) =>
    match Precedence.binary op with
    | none => .error (.fault .unknownOperator)
    | some p => do
      let l ← exprText left
      let r ← exprText right
      return wrap p left l ++ " " ++ op.symbol ++ " " ++ wrap (p + 1) right r
  | .mk _ (.unary op true e) => do
    return wrap Precedence.counted e (← exprText e) ++ op.symbol
  | .mk _ (.unary op false e) => do
    return prefixed op (wrap Precedence.unary e (← exprText e))
  | .mk _ (.conditional cond thenExpr elseExpr) => do
    let c ← exprText cond
    let t ← exprText thenExpr
    let e ← exprText elseExpr
    return wrap (Precedence.conditional + 1) cond c ++ " ? " ++
      wrap Precedence.assign thenExpr t ++ " : " ++ wrap Precedence.conditional elseExpr e
  | .mk _ (.cast type e) => do
    let t ← typeText type
    return "(" ++ t ++ ") " ++ wrap Precedence.unary e (← exprText e)
  | .mk _ (.instanceOf e type) => do
    let t ← exprText e
    return wrap Precedence.comparison e t ++ " instanceof " ++ (← typeText type)
  | .mk _ s => .error (.expression s.kind)
termination_by structural n => n

def exprTexts : List Node → Result (List String)
  | [] => .ok []
  | n :: ns => do
    let t ← exprText n
    return t :: (← exprTexts ns)
termination_by structural ns => ns

end

end LoopLowering.Layout
