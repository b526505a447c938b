import LoopLowering.Layout.Expression
import LoopLowering.Text.Blank

/-!
Source text of statements, line by line. A closing brace and the `else`, `catch`, `finally` or
`while` behind it share a line.
-/

namespace LoopLowering.Layout

def indentation (level : Nat) : String := "".pushn ' ' (4 * level)

def indented (level : Nat) (line : String) : String :=
  if line.isEmpty then "" else indentation level ++ line

def joinClosing (level : Nat) (lines : List String) (header : String) : List String × String :=
  if lines.getLast? = some (indentation level ++ "\x7d") then (lines.dropLast, "\x7d " ++ header)
  else (lines, header)

def wordTexts (ws : List Word) : Result (List String) :=
  ws.mapM fun
    | .text s => .ok s
    | .node _ => .error (.fault .wrongKind)

def modifiersText (mods : List Word) : Result String := do
  return String.join ((← wordTexts mods).map (· ++ " "))

def modifiersOf (s : Shape Node) : List Word :=
  match s.attributes.lookup "modifiers" with
  | some (.words ws) => ws
  | _ => []

def declaratorText (n : Node) : Result String :=
  match n.shape with
  | .declarator name d none => .ok (name ++ brackets d)
  | .declarator name d (some init) => do
    return name ++ brackets d ++ " = " ++ (← exprText init)
  | _ => .error (.fault .noSuchPart)

def declaratorsText (ds : List Node) : Result String := do
  return commaList (← ds.mapM declaratorText)

def localVarText (n : Node) : Result String :=
  match n.shape with
  | .localVar mods type ds | .fieldDecl mods type ds => do
    let m ← modifiersText mods
    let t ← typeText type
    return m ++ t ++ " " ++ (← declaratorsText ds)
  | s => do
    let _ ← modifiersText (modifiersOf s)
    .error (.fault .noSuchPart)

def isBlock (n : Node) : Bool :=
  match n.shape with
  | .block _ => true
  | _ => false

def isIf (n : Node) : Bool :=
  match n.shape with
  | .ifElse .. => true
  | _ => false

def bodyLevel (level : Nat) (body : Node) : Nat := if isBlock body then level else level + 1

def openBrace (level : Nat) (header : String) : String :=
  indented level (String.ofList ((header ++ " \x7b").toList.dropWhile Text.isBlank))

def withBody (level : Nat) (header : String) (body : Node) (lines : List String) : List String :=
  if isBlock body then openBrace level header :: lines.tail
  else indented level header :: lines

def braced (level : Nat) (header : String) (lines : List String) : List String :=
  openBrace level header :: lines ++ [indented level "\x7d"]

/-- Whether a branch is put between braces so that the `else` behind it keeps its owner. -/
def needsBraces (thenStmt : Node) (elseStmt : Option Node) : Bool :=
  elseStmt.isSome && isIf thenStmt

def thenLevel (level : Nat) (thenStmt : Node) (elseStmt : Option Node) : Nat :=
  if needsBraces thenStmt elseStmt then level + 1 else bodyLevel level thenStmt

def withBranch (level : Nat) (header : String) (thenStmt : Node) (elseStmt : Option Node)
    (lines : List String) : List String :=
  if needsBraces thenStmt elseStmt then braced level header lines
  else withBody level header thenStmt lines

def forInitText (init : List Node) : Result String :=
  match init with
  | [.mk t (.localVar mods type ds)] => localVarText (.mk t (.localVar mods type ds))
  | es => do return commaList (← exprTexts es)

def forHeader (init : List Node) (cond : Option Node) (update : List Node) : Result String := do
  let i ← forInitText init
  let c ← match cond with
    | some c => do pure (" " ++ (← exprText c))
    | none => pure ""
  let u := commaList (← exprTexts update)
  return "for (" ++ i ++ ";" ++ c ++ ";" ++ (if u.isEmpty then "" else " " ++ u) ++ ")"

def labelLines (level : Nat) (label : String) : List String → Result (List String)
  | [] => .error (.fault .badIndex)
  | line :: lines =>
    let rest := String.ofList (line.toList.drop (4 * level))
    .ok ((indentation level ++ label ++ ": " ++ rest) :: lines)

def jumpText (word : String) (label : Option String) : String :=
  match label with
  | some l => if l.isEmpty then word ++ ";" else word ++ " " ++ l ++ ";"
  | none => word ++ ";"

def catchHeader (mods : List Word) (name : String) (types : List Node) : Result String := do
  let ts ← typeTexts types
  return "catch (" ++ (← modifiersText mods) ++ " | ".intercalate ts ++ " " ++ name ++ ")"

mutual

def stmtLines : Node → (level : Nat) → Result (List String)
  | .mk _ (.block ss), level => do
    return indented level "\x7b" :: (← contents ss (level + 1)) ++ [indented level "\x7d"]
  | .mk t (.localVar mods type ds), level => do
    return [indented level ((← localVarText (.mk t (.localVar mods type ds))) ++ ";")]
  | .mk _ (.exprStmt e), level => do return [indented level ((← exprText e) ++ ";")]
  | .mk _ (.ifElse cond thenStmt elseStmt), level => do
    let c ← exprText cond
    let ls ← stmtLines thenStmt (thenLevel level thenStmt elseStmt)
    elseLines elseStmt level (withBranch level ("if (" ++ c ++ ")") thenStmt elseStmt ls)
  | .mk _ (.whileLoop cond body), level => do
    let c ← exprText cond
    return withBody level ("while (" ++ c ++ ")") body (← stmtLines body (bodyLevel level body))
  | .mk _ (.doWhile body cond), level => do
    let ls ← stmtLines body (bodyLevel level body)
    let c ← exprText cond
    let (ls, header) := joinClosing level (withBody level "do" body ls) ("while (" ++ c ++ ");")
    return ls ++ [indented level header]
  | .mk _ (.forLoop init cond update body), level => do
    let header ← forHeader init cond update
    return withBody level header body (← stmtLines body (bodyLevel level body))
  | .mk _ (.forEach var iterable body), level => do
    let v ← localVarText var
    let i ← exprText iterable
    let header := "for (" ++ v ++ " : " ++ i ++ ")"
    return withBody level header body (← stmtLines body (bodyLevel level body))
  | .mk _ (.returnStmt none), level => .ok [indented level "return;"]
  | .mk _ (.returnStmt (some e)), level => do
    return [indented level ("return " ++ (← exprText e) ++ ";")]
  | .mk _ (.breakStmt label), level => .ok [indented level (jumpText "break" label)]
  | .mk _ (.continueStmt label), level => .ok [indented level (jumpText "continue" label)]
  | .mk _ (.throwStmt e), level => do
    return [indented level ("throw " ++ (← exprText e) ++ ";")]
  | .mk _ (.tryStmt body catches none), level => do
    let ls ← stmtLines body (bodyLevel level body)
    catchLines catches level (withBody level "try" body ls)
  | .mk _ (.tryStmt body catches (some final)), level => do
    let ls ← stmtLines body (bodyLevel level body)
    let ls ← catchLines catches level (withBody level "try" body ls)
    let (ls, header) := joinClosing level ls "finally"
    return ls ++ withBody level header final (← stmtLines final (bodyLevel level final))
  | .mk _ (.labeled label body), level => do
    labelLines level label (← stmtLines body level)
  | .mk _ .emptyStmt, level => .ok [indented level ";"]
  | .mk _ s, _ => .error (.statement s.kind)
termination_by structural n => n

def contents : List Node → (level : Nat) → Result (List String)
  | [], _ => .ok []
  | s :: ss, level => do
    let ls ← stmtLines s level
    return ls ++ (← contents ss level)
termination_by structural ss => ss

def elseLines : Option Node → (level : Nat) → List String → Result (List String)
  | none, _, lines => .ok lines
  | some (.mk _ (.ifElse cond thenStmt elseStmt)), level, lines => do
    let c ← exprText cond
    let (lines, header) := joinClosing level lines ("else if (" ++ c ++ ")")
    let ls ← stmtLines thenStmt (thenLevel level thenStmt elseStmt)
    elseLines elseStmt level (lines ++ withBranch level header thenStmt elseStmt ls)
  | some n, level, lines => do
    let (lines, header) := joinClosing level lines "else"
    return lines ++ withBody level header n (← stmtLines n (bodyLevel level n))
termination_by structural n => n

def catchLines : List Node → (level : Nat) → List String → Result (List String)
  | [], _, lines => .ok lines
  | .mk _ (.catchClause mods name types body) :: cs, level, lines => do
    let h ← catchHeader mods name types
    let (lines, header) := joinClosing level lines h
    let ls ← stmtLines body (bodyLevel level body)
    catchLines cs level (lines ++ withBody level header body ls)
  | _ :: _, _, _ => .error (.fault .noSuchPart)
termination_by structural cs => cs

end

end LoopLowering.Layout
