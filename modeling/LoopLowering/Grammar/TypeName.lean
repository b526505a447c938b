import LoopLowering.Grammar.Parser

/-!
Qualified names, types and modifiers.
-/

namespace LoopLowering.Grammar

def nameTail : List Token → String × List Token
  | d :: i :: rest =>
    if d.kind = dot && i.kind = .ident then
      let (s, rest) := nameTail rest
      ("." ++ i.text ++ s, rest)
    else ("", d :: i :: rest)
  | ts => ("", ts)

def qualifiedName : Parser String := do
  let first ← expect .ident
  return first.text ++ (← splitting nameTail)

def dimsTail : List Token → Nat × List Token
  | l :: r :: rest =>
    if l.kind = lbracket && r.kind = rbracket then
      let (n, rest) := dimsTail rest
      (n + 1, rest)
    else (0, l :: r :: rest)
  | ts => (0, ts)

def dims : Parser Nat := splitting dimsTail

def primitiveTypes : List TokenKind :=
  ["boolean", "byte", "char", "short", "int", "long", "float", "double"].map .word

mutual

def bareType : Nat → Parser (Nat → Node)
  | 0 => exhausted
  | n + 1 => do
    if ← checkAny primitiveTypes then
      let t ← advance
      return fun d => .plain (.typeRef t.text d none)
    else
      let name ← qualifiedName
      if ← check (.mark "<") then
        let args ← typeArgs n
        return fun d => .plain (.typeRef name d (some args))
      else return fun d => .plain (.typeRef name d none)

def type : Nat → Parser Node
  | 0 => exhausted
  | n + 1 => do
    let t ← bareType n
    return t (← dims)

def typeArgs : Nat → Parser (List Node)
  | 0 => exhausted
  | n + 1 => do
    let _ ← expect (.mark "<")
    if ← accept (.mark ">") then return []
    let args ← typeArgList n
    let _ ← expect (.mark ">")
    return args

def typeArgList : Nat → Parser (List Node)
  | 0 => exhausted
  | n + 1 => do
    let arg ← typeArg n
    if ← accept comma then return arg :: (← typeArgList n) else return [arg]

def typeArg : Nat → Parser Node
  | 0 => exhausted
  | n + 1 => do
    if ← accept (.mark "?") then
      if ← checkAny [.word "extends", .word "super"] then
        let k ← advance
        return .plain (.wildcard (some k.text) (some (← type n)))
      else return .plain (.wildcard none none)
    else type n

end

def typeList (separator : TokenKind) : Nat → Parser (List Node)
  | 0 => exhausted
  | n + 1 => do
    let t ← type n
    if ← accept separator then return t :: (← typeList separator n) else return [t]

def skipParens (depth : Nat) : List Token → Except Failure (Unit × List Token)
  | [] => .error (.rejected .unclosedArguments endToken)
  | t :: ts =>
    if t.kind = .finish then .error (.rejected .unclosedArguments t)
    else if t.kind = lparen then skipParens (depth + 1) ts
    else if t.kind = rparen then
      if depth ≤ 1 then .ok ((), ts) else skipParens (depth - 1) ts
    else skipParens depth ts

def annotationName : Parser String := do
  let _ ← expect (.mark "@")
  let name ← qualifiedName
  if ← check lparen then skipParens 0
  return "@" ++ name

def modifierWords : List TokenKind :=
  ["public", "private", "protected", "static", "final", "abstract", "native", "synchronized",
    "transient", "volatile", "strictfp", "default"].map .word

def modifiers : Nat → Parser (List String)
  | 0 => exhausted
  | n + 1 => do
    if ← checkAny modifierWords then
      let m ← advance
      return m.text :: (← modifiers n)
    else if (← check (.mark "@")) && !(← checkNext (.word "interface")) then
      let m ← annotationName
      return m :: (← modifiers n)
    else return []

def localModifiers : Nat → Parser (List String)
  | 0 => exhausted
  | n + 1 => do
    if ← check (.word "final") then
      let m ← advance
      return m.text :: (← localModifiers n)
    else if ← check (.mark "@") then
      let m ← annotationName
      return m :: (← localModifiers n)
    else return []

end LoopLowering.Grammar
