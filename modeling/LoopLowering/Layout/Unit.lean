import LoopLowering.Layout.Statement

/-!
Source text of declarations, compilation units and trees of any kind.
-/

namespace LoopLowering

namespace Layout

def paramText (n : Node) : Result String :=
  match n.shape with
  | .parameter mods name varargs type => do
    let t ← typeText type
    return (← modifiersText mods) ++ t ++ (if varargs then "..." else "") ++ " " ++ name
  | _ => .error (.fault .noSuchPart)

def typeParamsText (ps : List Word) : Result String := do
  if ps.isEmpty then return "" else return "<" ++ commaList (← wordTexts ps) ++ ">"

def typesText (word : String) (types : List Node) : Result String := do
  if types.isEmpty then return "" else return word ++ commaList (← typeTexts types)

def signatureText (name : String) (params throws : List Node) : Result String := do
  let ps ← params.mapM paramText
  return name ++ "(" ++ commaList ps ++ ")" ++ (← typesText " throws " throws)

def bodyLines (level : Nat) (header : String) (body : Node) : Result (List String) := do
  return withBody level header body (← stmtLines body (bodyLevel level body))

mutual

def memberLines : Node → (level : Nat) → Result (List String)
  | .mk _ (.classDecl mods keyword name typeParams extended implemented members), level => do
    let m ← modifiersText mods
    let tps ← typeParamsText typeParams
    let e ← typesText " extends " extended
    let i ← typesText " implements " implemented
    let header := m ++ keyword ++ " " ++ name ++ tps ++ e ++ i
    let ls ← membersLines members (level + 1)
    return indented level (header ++ " \x7b") :: ls ++ [indented level "\x7d"]
  | .mk _ (.fieldDecl mods type ds), level => do
    let m ← modifiersText mods
    let t ← typeText type
    return [indented level (m ++ t ++ " " ++ (← declaratorsText ds) ++ ";")]
  | .mk _ (.methodDecl mods typeParams name type params throws body), level => do
    let m ← modifiersText mods
    let tps ← typeParamsText typeParams
    let t ← typeText type
    let s ← signatureText name params throws
    let header := m ++ (if tps.isEmpty then "" else tps ++ " ") ++ t ++ " " ++ s
    match body with
    | none => return [indented level (header ++ ";")]
    | some b => bodyLines level header b
  | .mk _ (.constructorDecl mods name params throws body), level => do
    let m ← modifiersText mods
    bodyLines level (m ++ (← signatureText name params throws)) body
  | .mk _ (.initBlock isStatic body), level =>
    bodyLines level (if isStatic then "static" else "") body
  | .mk _ s, _ => do
    let _ ← modifiersText (modifiersOf s)
    .error (.declaration s.kind)
termination_by structural n => n

def membersLines : List Node → (level : Nat) → Result (List String)
  | [], _ => .ok []
  | [m], level => memberLines m level
  | m :: ms, level => do
    let ls ← memberLines m level
    return ls ++ "" :: (← membersLines ms level)
termination_by structural ms => ms

end

def importLine (n : Node) : Result String :=
  match n.shape with
  | .importDecl name isStatic asterisk =>
    .ok ("import " ++ (if isStatic then "static " else "") ++ name ++
      (if asterisk then ".*" else "") ++ ";")
  | _ => .error (.fault .noSuchPart)

def unitLines (package : Option String) (imports types : List Node) : Result (List String) := do
  let head :=
    match package with
    | some p => if p.isEmpty then [] else ["package " ++ p ++ ";", ""]
    | none => []
  let is ← imports.mapM importLine
  let ts ← membersLines types 0
  return head ++ is ++ (if imports.isEmpty then [] else [""]) ++ ts

end Layout

def javaText (n : Node) : Layout.Result String :=
  let lines (ls : Layout.Result (List String)) : Layout.Result String := ls.map ("\n".intercalate ·)
  match n.shape with
  | .unit package imports types => lines (Layout.unitLines package imports types)
  | .classDecl .. | .fieldDecl .. | .methodDecl .. | .constructorDecl .. | .initBlock .. =>
    lines (Layout.memberLines n 0)
  | .block _ | .localVar .. | .exprStmt _ | .ifElse .. | .whileLoop .. | .doWhile .. |
    .forLoop .. | .forEach .. | .returnStmt _ | .breakStmt _ | .continueStmt _ | .throwStmt _ |
    .tryStmt .. | .labeled .. | .emptyStmt => lines (Layout.stmtLines n 0)
  | _ => Layout.exprText n

end LoopLowering
