import LoopLowering.Grammar.TypeName

/-!
Expressions. Binary operators are read by levels: behind an operator of a level come operands of
higher levels only, and an operator of the same level applies to all that stands before it.
-/

namespace LoopLowering.Grammar

def touches (a b : Token) : Bool := b.start = a.start + 1

def closers (ts : List Token) : Nat :=
  let isGt (k : Nat) : Bool := (tokenAt ts k).kind = .mark ">"
  let joined (k : Nat) : Bool := isGt (k + 1) && touches (tokenAt ts k) (tokenAt ts (k + 1))
  if !isGt 0 then 0 else if !joined 0 then 1 else if !joined 1 then 2 else 3

def closersThenGe (ts : List Token) (n : Nat) : Bool :=
  0 < n && n < 3 && (tokenAt ts n).kind = .mark ">=" &&
    touches (tokenAt ts (n - 1)) (tokenAt ts n)

def assignOpAt (ts : List Token) : Option (AssignOp × Nat) :=
  match (tokenAt ts 0).kind with
  | .mark m =>
    if m = "=" then some (.plain, 1)
    else if ["+=", "-=", "*=", "/=", "%=", "&=", "|=", "^=", "<<="].contains m then
      some (.ofSymbol m, 1)
    else
      let n := closers ts
      if closersThenGe ts n then
        some (.compound (if n = 1 then .shiftRight else .shiftRightUnsigned), n + 1)
      else none
  | _ => none

inductive Connective where
  | operator (op : BinaryOp)
  | instanceOf

def Connective.level : Connective → Nat
  | operator op => op.level?.getD 0
  | instanceOf => instanceOfLevel

def binaryMarks : List String :=
  ["||", "&&", "|", "^", "&", "==", "!=", "<", "<=", ">=", "<<", "+", "-", "*", "/", "%"]

def connectiveAt (ts : List Token) : Option (Connective × Nat) :=
  match (tokenAt ts 0).kind with
  | .word "instanceof" => some (.instanceOf, 1)
  | .mark m =>
    if m = ">" then
      let n := closers ts
      if closersThenGe ts n then none
      else if n = 1 then some (.operator .gt, 1)
      else if n = 2 then some (.operator .shiftRight, 2)
      else some (.operator .shiftRightUnsigned, 3)
    else if binaryMarks.contains m then some (.operator (.ofSymbol m), 1)
    else none
  | _ => none

def isTarget (n : Node) : Bool :=
  match n.shape with
  | .ident _ | .fieldAccess .. | .arrayAccess .. => true
  | _ => false

def castFollow : List TokenKind :=
  [.ident, lparen, .mark "!", .mark "~", .word "this", .word "super", .word "new", .word "true",
    .word "false", .word "null", .literal .int, .literal .long, .literal .float, .literal .double,
    .literal .char, .literal .string]

def drop (count : Nat) : Parser Unit := splitting fun ts => ((), ts.drop count)

mutual

def expr : Nat → Parser Node
  | 0 => exhausted
  | n + 1 => do
    let lhs ← condition n
    match assignOpAt (← get) with
    | none => return lhs
    | some (op, count) =>
      if isTarget lhs then
        drop count
        return .plain (.assign op lhs (← expr n))
      else reject .badTarget
termination_by structural n => n

def condition : Nat → Parser Node
  | 0 => exhausted
  | n + 1 => do
    let cond ← binary n 0
    if ← accept (.mark "?") then
      let thenExpr ← expr n
      let _ ← expect colon
      return .plain (.conditional cond thenExpr (← condition n))
    else return cond
termination_by structural n => n

def binary : Nat → (least : Nat) → Parser Node
  | 0, _ => exhausted
  | n + 1, least => do binaryTail n least 9 (← unary n)
termination_by structural n _ => n

def binaryTail : Nat → (least most : Nat) → Node → Parser Node
  | 0, _, _, _ => exhausted
  | n + 1, least, most, left => do
    match connectiveAt (← get) with
    | none => return left
    | some (c, count) =>
      if c.level < least || most < c.level then return left
      else
        drop count
        match c with
        | .instanceOf => binaryTail n least c.level (.plain (.instanceOf left (← type n)))
        | .operator op =>
          let right ← binary n (c.level + 1)
          binaryTail n least c.level (.plain (.binary op left right))
termination_by structural n _ _ _ => n

def unary : Nat → Parser Node
  | 0 => exhausted
  | n + 1 => do
    if ← checkAny [.mark "++", .mark "--", .mark "+", .mark "-", .mark "!", .mark "~"] then
      let op ← advance
      return .plain (.unary (.ofSymbol op.text) false (← unary n))
    else if ← check lparen then
      match ← castType n with
      | some t => return .plain (.cast t (← unary n))
      | none => operand n
    else operand n
termination_by structural n => n

/-- The type of a cast, parentheses included. A class in parentheses is a cast only if an operand
follows; otherwise nothing is consumed. -/
def castType : Nat → Parser (Option Node)
  | 0 => exhausted
  | n + 1 => do
    let start ← get
    let _ ← advance
    if ← checkAny primitiveTypes then
      let t ← type n
      let _ ← expect rparen
      return some t
    if ← check .ident then
      if let some t ← attempt (type n) then
        if ← accept rparen then
          if ← checkAny castFollow then return some t
    set start
    return none

def operand : Nat → Parser Node
  | 0 => exhausted
  | n + 1 => do operandTail n (← primary n)
termination_by structural n => n

def operandTail : Nat → Node → Parser Node
  | 0, _ => exhausted
  | n + 1, e => do
    if ← accept dot then
      let name ← expect .ident
      if ← check lparen then
        operandTail n (.plain (.methodCall name.text (some e) (← args n)))
      else operandTail n (.plain (.fieldAccess name.text e))
    else if ← accept lbracket then
      let index ← expr n
      let _ ← expect rbracket
      operandTail n (.plain (.arrayAccess e index))
    else if ← checkAny [.mark "++", .mark "--"] then
      let op ← advance
      operandTail n (.plain (.unary (.ofSymbol op.text) true e))
    else return e
termination_by structural n _ => n

def args : Nat → Parser (List Node)
  | 0 => exhausted
  | n + 1 => do
    let _ ← expect lparen
    if ← accept rparen then return []
    let es ← exprList n
    let _ ← expect rparen
    return es
termination_by structural n => n

def exprList : Nat → Parser (List Node)
  | 0 => exhausted
  | n + 1 => do
    let e ← expr n
    if ← accept comma then return e :: (← exprList n) else return [e]
termination_by structural n => n

def parenthesized : Nat → Parser Node
  | 0 => exhausted
  | n + 1 => do
    let _ ← expect lparen
    let e ← expr n
    let _ ← expect rparen
    return e
termination_by structural n => n

def primary : Nat → Parser Node
  | 0 => exhausted
  | n + 1 => do
    let t ← current
    match t.kind with
    | .literal k =>
      let _ ← advance
      return .plain (.literal t.value k)
    | .ident =>
      let _ ← advance
      if ← check lparen then return .plain (.methodCall t.text none (← args n))
      else return .plain (.ident t.text)
    | .word "true" =>
      let _ ← advance
      return .plain (.literal (.bool true) .boolean)
    | .word "false" =>
      let _ ← advance
      return .plain (.literal (.bool false) .boolean)
    | .word "null" =>
      let _ ← advance
      return .plain (.literal .null .null)
    | .word "this" =>
      let _ ← advance
      if ← check lparen then return .plain (.methodCall t.text none (← args n))
      else return .plain .thisExpr
    | .word "super" =>
      let _ ← advance
      if ← check lparen then return .plain (.methodCall t.text none (← args n))
      else return .plain .superExpr
    | .word "new" => creation n
    | .mark "(" => return .plain (.parens (← parenthesized n))
    | _ => reject .expectedExpression
termination_by structural n => n

def creation : Nat → Parser Node
  | 0 => exhausted
  | n + 1 => do
    let _ ← expect (.word "new")
    let t ← bareType n
    if ← check lbracket then
      let (dimExprs, extra) ← creationDims n 0
      if ← check lbrace then
        if dimExprs.isEmpty then
          return .plain (.arrayCreation extra (t 0) dimExprs (some (← arrayInit n)))
        else reject .doubleDimension
      else if dimExprs.isEmpty then reject .expectedElements
      else return .plain (.arrayCreation extra (t 0) dimExprs none)
    else
      let es ← args n
      if ← check lbrace then reject .anonymousClass
      else return .plain (.objectCreation (t 0) es)
termination_by structural n => n

def creationDims : Nat → (extra : Nat) → Parser (List Node × Nat)
  | 0, _ => exhausted
  | n + 1, extra => do
    if ← accept lbracket then
      if ← accept rbracket then creationDims n (extra + 1)
      else if extra > 0 then reject .lateDimension
      else
        let e ← expr n
        let _ ← expect rbracket
        let (es, extra) ← creationDims n extra
        return (e :: es, extra)
    else return ([], extra)
termination_by structural n _ => n

def arrayInit : Nat → Parser Node
  | 0 => exhausted
  | n + 1 => do
    let _ ← expect lbrace
    let values ← elements n
    let _ ← expect rbrace
    return .plain (.arrayInit values)
termination_by structural n => n

def elements : Nat → Parser (List Node)
  | 0 => exhausted
  | n + 1 => do
    if ← check rbrace then return []
    let v ← initialValue n
    if ← accept comma then return v :: (← elements n) else return [v]
termination_by structural n => n

def initialValue : Nat → Parser Node
  | 0 => exhausted
  | n + 1 => do
    if ← check lbrace then arrayInit n else expr n
termination_by structural n => n

end

end LoopLowering.Grammar
