import LoopLowering.Token.Scan
import LoopLowering.Tree.Node

/-!
Parsers over a list of tokens whose last token is the end of the text. A parser consumes tokens
from the front, or rejects the token at which it cannot go on.
-/

namespace LoopLowering.Grammar

inductive Cause where
  | expected (kind : TokenKind)
  | expectedTypeDecl
  | expectedVariable
  | expectedExpression
  | expectedHandler
  | expectedElements
  | expectedEnd
  | unclosedArguments
  | unsupportedStatement
  | resourceTry
  | badTarget
  | lateDimension
  | doubleDimension
  | anonymousClass

def Cause.message : Cause → String
  | expected k => "esperava '" ++ k.name ++ "'"
  | expectedTypeDecl => "esperava declaração de classe ou interface"
  | expectedVariable => "esperava declaração de variável"
  | expectedExpression => "esperava expressão"
  | expectedHandler => "esperava 'catch' ou 'finally'"
  | expectedElements => "esperava inicializador do array"
  | expectedEnd => "esperava fim do ficheiro"
  | unclosedArguments => "anotação por fechar"
  | unsupportedStatement => "instrução não suportada"
  | resourceTry => "try-with-resources não suportado"
  | badTarget => "destino de atribuição inválido"
  | lateDimension => "dimensão depois de '[]'"
  | doubleDimension => "array com dimensão e inicializador"
  | anonymousClass => "classes anónimas não suportadas"

inductive Failure where
  | rejected (cause : Cause) (found : Token)
  | exhausted

def Failure.diagnostic (text : List Char) : Failure → Diagnostic
  | rejected cause found =>
    let shown := if found.kind = .finish then "fim do ficheiro" else found.value.described
    { message := "Erro sintático: " ++ cause.message ++ ", encontrado " ++ shown
      line := some found.line
      column := some (columnOf text found.start) }
  | exhausted => { message := "Erro sintático" }

abbrev Parser := StateT (List Token) (Except Failure)

def endToken : Token := ⟨.finish, .null, 1, 0⟩

def tokenAt (ts : List Token) (k : Nat) : Token := (ts[k]?).getD (ts.getLastD endToken)

def lookAhead (k : Nat) : Parser Token := fun ts => .ok (tokenAt ts k, ts)

def current : Parser Token := lookAhead 0

def check (k : TokenKind) : Parser Bool := return (← current).kind = k

def checkAny (ks : List TokenKind) : Parser Bool := return ks.contains (← current).kind

def checkNext (k : TokenKind) : Parser Bool := return (← lookAhead 1).kind = k

def advance : Parser Token := fun ts =>
  let t := tokenAt ts 0
  .ok (t, if t.kind = .finish then ts else ts.tail)

def accept (k : TokenKind) : Parser Bool := do
  if ← check k then
    let _ ← advance
    return true
  else return false

def rejectAt {α : Type} (cause : Cause) (found : Token) : Parser α :=
  fun _ => .error (.rejected cause found)

def reject {α : Type} (cause : Cause) : Parser α := do rejectAt cause (← current)

def exhausted {α : Type} : Parser α := fun _ => .error .exhausted

def expect (k : TokenKind) : Parser Token := do
  if ← check k then advance else reject (.expected k)

def attempt {α : Type} (p : Parser α) : Parser (Option α) := fun ts =>
  match p ts with
  | .ok (a, rest) => .ok (some a, rest)
  | .error (.rejected ..) => .ok (none, ts)
  | .error .exhausted => .error .exhausted

def splitting {α : Type} (f : List Token → α × List Token) : Parser α := fun ts => .ok (f ts)

def lparen : TokenKind := .mark "("
def rparen : TokenKind := .mark ")"
def lbracket : TokenKind := .mark "["
def rbracket : TokenKind := .mark "]"
def lbrace : TokenKind := .mark "\x7b"
def rbrace : TokenKind := .mark "\x7d"
def comma : TokenKind := .mark ","
def semicolon : TokenKind := .mark ";"
def dot : TokenKind := .mark "."
def colon : TokenKind := .mark ":"

end LoopLowering.Grammar
