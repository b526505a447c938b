import LoopLowering.Constant
import LoopLowering.Tree.Operator

/-!
Tokens: a kind, the value that the lexeme stands for, and where it starts.
-/

namespace LoopLowering

inductive TokenKind where
  | ident
  | literal (kind : LiteralKind)
  | word (spelling : String)
  | mark (spelling : String)
  | finish
  deriving DecidableEq, Repr

namespace TokenKind

def markNames : List (String × String) :=
  [("==", "EQ"), ("!=", "NE"), ("<=", "LE"), (">=", "GE"), ("&&", "AND"), ("||", "OR"),
    ("++", "INC"), ("--", "DEC"), ("<<", "LSHIFT"), ("+=", "PLUSEQ"), ("-=", "MINUSEQ"),
    ("*=", "TIMESEQ"), ("/=", "DIVEQ"), ("%=", "MODEQ"), ("&=", "ANDEQ"), ("|=", "OREQ"),
    ("^=", "XOREQ"), ("<<=", "LSHIFTEQ"), ("...", "ELLIPSIS")]

def name : TokenKind → String
  | ident => "ID"
  | literal k => k.name.toUpper ++ "_LIT"
  | word w => w.toUpper
  | mark m => (markNames.lookup m).getD m
  | finish => "$end"

end TokenKind

structure Token where
  kind : TokenKind
  value : Constant
  line : Nat
  start : Nat

namespace Token

def text (t : Token) : String :=
  match t.value with
  | .text s => s
  | _ => ""

end Token

def columnOf (text : List Char) (offset : Nat) : Nat :=
  let before := text.take offset
  offset - (before.length - (before.reverse.takeWhile (· ≠ '\n')).length) + 1

end LoopLowering
