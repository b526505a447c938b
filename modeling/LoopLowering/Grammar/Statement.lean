import LoopLowering.Grammar.Expression

/-!
Statements. Each statement that stands on its own is tagged with the line of its first token.
-/

namespace LoopLowering.Grammar

def atLine (line : Nat) : Node → Node
  | .mk t s => .mk { t with line := some line } s

def declarators (first : Option Token) : Nat → Parser (List Node)
  | 0 => exhausted
  | n + 1 => do
    let name ← match first with
      | some t => pure t
      | none => expect .ident
    let d ← dims
    let init ← if ← accept (.mark "=") then some <$> initialValue n else pure none
    let decl := Node.plain (.declarator name.text d init)
    if ← accept comma then return decl :: (← declarators none n) else return [decl]

/-- A declaration `Type name …`. If there is none, nothing is consumed; behind modifiers there must
be one. -/
def localVar? : Nat → Parser (Option Node)
  | 0 => exhausted
  | n + 1 => do
    let start ← get
    let mods ← localModifiers n
    if ← checkAny (.ident :: primitiveTypes) then
      let t ← if mods.isEmpty then attempt (type n) else some <$> type n
      if let some t := t then
        if ← check .ident then
          return some (.plain (.localVar (Word.ofTexts mods) t (← declarators none n)))
    if mods.isEmpty then
      set start
      return none
    else reject .expectedVariable

def forEachHead : Nat → Parser (Option Node)
  | 0 => exhausted
  | n + 1 => do
    let start ← get
    let mods ← localModifiers n
    if ← checkAny (.ident :: primitiveTypes) then
      if let some t ← attempt (type n) then
        if (← check .ident) && (← checkNext colon) then
          let name ← advance
          let _ ← advance
          return some (.plain (.localVar (Word.ofTexts mods) t [.plain (.declarator name.text 0 none)]))
    set start
    return none

def forInit : Nat → Parser (List Node)
  | 0 => exhausted
  | n + 1 => do
    if ← check semicolon then return []
    match ← localVar? n with
    | some d => return [d]
    | none => exprList n

def optionalExpr (stop : TokenKind) (n : Nat) : Parser (Option Node) := do
  if ← check stop then return none else some <$> expr n

def jumpLabel : Parser (Option String) := do
  if ← check .ident then return some (← advance).text else return none

mutual

def block : Nat → Parser Node
  | 0 => exhausted
  | n + 1 => do
    let _ ← expect lbrace
    return .plain (.block (← blockTail n))

def blockTail : Nat → Parser (List Node)
  | 0 => exhausted
  | n + 1 => do
    if ← accept rbrace then return []
    if ← check .finish then reject (.expected rbrace)
    let s ← statement n
    return s :: (← blockTail n)

def statement : Nat → Parser Node
  | 0 => exhausted
  | n + 1 => do
    let first ← current
    return atLine first.line (← bareStatement n)

def bareStatement : Nat → Parser Node
  | 0 => exhausted
  | n + 1 => do
    match (← current).kind with
    | .mark "\x7b" => block n
    | .mark ";" =>
      let _ ← advance
      return .plain .emptyStmt
    | .word "if" =>
      let _ ← advance
      let cond ← parenthesized n
      let thenStmt ← statement n
      let elseStmt ← if ← accept (.word "else") then some <$> statement n else pure none
      return .plain (.ifElse cond thenStmt elseStmt)
    | .word "while" =>
      let _ ← advance
      let cond ← parenthesized n
      return .plain (.whileLoop cond (← statement n))
    | .word "do" =>
      let _ ← advance
      let body ← statement n
      let _ ← expect (.word "while")
      let cond ← parenthesized n
      let _ ← expect semicolon
      return .plain (.doWhile body cond)
    | .word "for" =>
      let _ ← advance
      forStatement n
    | .word "return" =>
      let _ ← advance
      let e ← optionalExpr semicolon n
      let _ ← expect semicolon
      return .plain (.returnStmt e)
    | .word "break" =>
      let _ ← advance
      let label ← jumpLabel
      let _ ← expect semicolon
      return .plain (.breakStmt label)
    | .word "continue" =>
      let _ ← advance
      let label ← jumpLabel
      let _ ← expect semicolon
      return .plain (.continueStmt label)
    | .word "throw" =>
      let _ ← advance
      let e ← expr n
      let _ ← expect semicolon
      return .plain (.throwStmt e)
    | .word "try" =>
      let _ ← advance
      tryStatement n
    | .word w =>
      if ["switch", "enum", "assert", "case", "default", "class"].contains w then
        reject .unsupportedStatement
      else simpleStatement n
    | .ident =>
      if ← checkNext colon then
        let label ← advance
        let _ ← advance
        return .plain (.labeled label.text (← statement n))
      else simpleStatement n
    | _ => simpleStatement n

def simpleStatement : Nat → Parser Node
  | 0 => exhausted
  | n + 1 => do
    let s ← match ← localVar? n with
      | some d => pure d
      | none => do
        let e ← expr n
        pure (.plain (.exprStmt e))
    let _ ← expect semicolon
    return s

def forStatement : Nat → Parser Node
  | 0 => exhausted
  | n + 1 => do
    let _ ← expect lparen
    match ← forEachHead n with
    | some var =>
      let iterable ← expr n
      let _ ← expect rparen
      return .plain (.forEach var iterable (← statement n))
    | none =>
      let init ← forInit n
      let _ ← expect semicolon
      let cond ← optionalExpr semicolon n
      let _ ← expect semicolon
      let update ← if ← check rparen then pure [] else exprList n
      let _ ← expect rparen
      return .plain (.forLoop init cond update (← statement n))

def tryStatement : Nat → Parser Node
  | 0 => exhausted
  | n + 1 => do
    if ← check lparen then reject .resourceTry
    let body ← block n
    let catches ← catchClauses n
    let finallyBlock ← if ← accept (.word "finally") then some <$> block n else pure none
    if catches.isEmpty && finallyBlock.isNone then reject .expectedHandler
    return .plain (.tryStmt body catches finallyBlock)

def catchClauses : Nat → Parser (List Node)
  | 0 => exhausted
  | n + 1 => do
    if ← accept (.word "catch") then
      let _ ← expect lparen
      let mods ← localModifiers n
      let types ← typeList (.mark "|") n
      let name ← expect .ident
      let _ ← expect rparen
      let body ← block n
      return .plain (.catchClause (Word.ofTexts mods) name.text types body) :: (← catchClauses n)
    else return []

end

def statements : Nat → Parser (List Node)
  | 0 => exhausted
  | n + 1 => do
    if ← check .finish then return []
    let s ← statement n
    return s :: (← statements n)

end LoopLowering.Grammar
