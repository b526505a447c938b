import LoopLowering.Grammar.Statement

/-!
Classes, interfaces, their members, and compilation units.
-/

namespace LoopLowering.Grammar

mutual

def boundText : Node → String
  | .mk _ (.typeRef name d none) => name ++ String.join (List.replicate d "[]")
  | .mk _ (.typeRef name d (some args)) =>
    name ++ "<" ++ ", ".intercalate (boundTexts args) ++ ">" ++
      String.join (List.replicate d "[]")
  | _ => "?"
termination_by structural n => n

def boundTexts : List Node → List String
  | [] => []
  | n :: ns => boundText n :: boundTexts ns
termination_by structural ns => ns

end

def typeParam (n : Nat) : Parser String := do
  let name ← expect .ident
  if ← accept (.word "extends") then
    let bounds ← typeList (.mark "&") n
    return name.text ++ " extends " ++ " & ".intercalate (bounds.map boundText)
  else return name.text

def typeParamList : Nat → Parser (List String)
  | 0 => exhausted
  | n + 1 => do
    let p ← typeParam n
    if ← accept comma then return p :: (← typeParamList n) else return [p]

def typeParams (n : Nat) : Parser (List String) := do
  if ← accept (.mark "<") then
    let ps ← typeParamList n
    let _ ← expect (.mark ">")
    return ps
  else return []

def addDims (d : Nat) : Node → Node
  | .mk t (.typeRef name e args) => .mk t (.typeRef name (e + d) args)
  | n => n

def paramList : Nat → Parser (List Node)
  | 0 => exhausted
  | n + 1 => do
    let mods ← modifiers n
    let t ← type n
    let varargs ← accept (.mark "...")
    let name ← expect .ident
    let t := addDims (← dims) t
    let p := Node.plain (.parameter (Word.ofTexts mods) name.text varargs t)
    if ← accept comma then return p :: (← paramList n) else return [p]

def params (n : Nat) : Parser (List Node) := do
  let _ ← expect lparen
  if ← accept rparen then return []
  let ps ← paramList n
  let _ ← expect rparen
  return ps

def typesAfter (w : String) (n : Nat) : Parser (List Node) := do
  if ← accept (.word w) then typeList comma n else return []

def method (n : Nat) (mods typeParams : List String) (t : Node) (name : String) :
    Parser Node := do
  let ps ← params n
  let t := addDims (← dims) t
  let throws ← typesAfter "throws" n
  let body ← if ← accept semicolon then pure none else some <$> block n
  return .plain (.methodDecl (Word.ofTexts mods) (Word.ofTexts typeParams) name t ps throws body)

def plainMember (n : Nat) (className : String) (mods : List String) : Parser Node := do
  let tps ← typeParams n
  let first ← current
  if first.kind = .ident && first.text = className && (← checkNext lparen) then
    let name ← advance
    let ps ← params n
    let throws ← typesAfter "throws" n
    return .plain (.constructorDecl (Word.ofTexts mods) name.text ps throws (← block n))
  else
    let t ← if ← accept (.word "void") then pure (.plain (.typeRef "void" 0 none)) else type n
    let name ← expect .ident
    if ← check lparen then method n mods tps t name.text
    else
      let ds ← declarators (some name) n
      let _ ← expect semicolon
      return .plain (.fieldDecl (Word.ofTexts mods) t ds)

mutual

def typeDecl : Nat → List String → Parser Node
  | 0, _ => exhausted
  | n + 1, mods => do
    if ← checkAny [.word "class", .word "interface"] then
      let keyword ← advance
      let name ← expect .ident
      let tps ← typeParams n
      let extended ← typesAfter "extends" n
      let implemented ← typesAfter "implements" n
      let _ ← expect lbrace
      let members ← memberTail n name.text
      return .plain (.classDecl (Word.ofTexts mods) keyword.text name.text (Word.ofTexts tps)
        extended implemented members)
    else reject .expectedTypeDecl

def memberTail : Nat → (className : String) → Parser (List Node)
  | 0, _ => exhausted
  | n + 1, className => do
    if ← accept rbrace then return []
    if ← check .finish then reject (.expected rbrace)
    if ← accept semicolon then memberTail n className
    else
      let m ← member n className
      return m :: (← memberTail n className)

def member : Nat → (className : String) → Parser Node
  | 0, _ => exhausted
  | n + 1, className => do
    let mods ← modifiers n
    if ← checkAny [.word "class", .word "interface"] then typeDecl n mods
    else if ← check lbrace then
      return .plain (.initBlock (mods.contains "static") (← block n))
    else plainMember n className mods

end

def importDecl : Parser Node := do
  let isStatic ← accept (.word "static")
  let name ← qualifiedName
  let asterisk ← accept dot
  if asterisk then
    let _ ← expect (.mark "*")
  let _ ← expect semicolon
  return .plain (.importDecl name isStatic asterisk)

def imports : Nat → Parser (List Node)
  | 0 => exhausted
  | n + 1 => do
    if ← accept (.word "import") then
      let i ← importDecl
      return i :: (← imports n)
    else return []

def typeDecls : Nat → Parser (List Node)
  | 0 => exhausted
  | n + 1 => do
    if ← check .finish then return []
    if ← accept semicolon then typeDecls n
    else
      let mods ← modifiers n
      let d ← typeDecl n mods
      return d :: (← typeDecls n)

def packageDecl : Parser (Option String) := do
  if ← accept (.word "package") then
    let name ← qualifiedName
    let _ ← expect semicolon
    return some name
  else return none

def compilationUnit (n : Nat) : Parser Node := do
  let package ← packageDecl
  let is ← imports n
  let types ← typeDecls n
  return .plain (.unit package is types)

end LoopLowering.Grammar
