import LoopLowering.Number.Numeral
import LoopLowering.Text.Quoted
import LoopLowering.Token
import LoopLowering.Token.Escape

/-!
The lexeme at the head of a text: its length, and the kind and value of its token. The rules are
tried in order: comments, floating-point numbers, integers, characters, strings, identifiers,
then marks with the longest first.
-/

namespace LoopLowering.Token

open LoopLowering.Text LoopLowering.Number

inductive Lexeme where
  | blank
  | comment (length : Nat)
  | token (kind : TokenKind) (value : Constant) (length : Nat)
  | malformed
  | illegal

def reservedWords : List String :=
  ["abstract", "assert", "boolean", "break", "byte", "case", "catch", "char", "class", "const",
    "continue", "default", "do", "double", "else", "enum", "extends", "false", "final", "finally",
    "float", "for", "goto", "if", "implements", "import", "instanceof", "int", "interface", "long",
    "native", "new", "null", "package", "private", "protected", "public", "return", "short",
    "static", "strictfp", "super", "switch", "synchronized", "this", "throw", "throws",
    "transient", "true", "try", "void", "volatile", "while"]

/-- All marks, longer ones first. A `>` is never joined to another one, so that it can close a
list of type arguments. -/
def marks : List String :=
  ["...", "<<=", "||", "++", "+=", "*=", "|=", "^=", "==", "!=", "<=", ">=", "&&", "--", "<<",
    "-=", "/=", "%=", "&=", "+", "-", "*", "/", "%", "=", "<", ">", "!", "~", "?", ":", ";", ",",
    ".", "(", ")", "[", "]", "\x7b", "\x7d", "&", "|", "^", "@"]

def isBlankOrNewline (c : Char) : Bool :=
  c = ' ' || c = '\t' || c = '\r' || c = Char.ofNat 12 || c = '\n'

def isIdentStart (c : Char) : Bool := c.isAlpha || c = '_' || c = '$'

def isIdentPart (c : Char) : Bool := c.isAlphanum || c = '_' || c = '$'

def commentTail? : List Char → Option Nat
  | [] => none
  | '*' :: '/' :: _ => some 2
  | _ :: cs => (commentTail? cs).map (· + 1)

def commentLength? : List Char → Option Nat
  | '/' :: '/' :: cs => some (leading (· ≠ '\n') cs + 2)
  | '/' :: '*' :: cs => (commentTail? cs).map (· + 2)
  | _ => none

def wholeLength (cs : List Char) : Nat :=
  if (cs.head?.map isDecimal).getD false then leading (fun c => isDecimal c || c = '_') cs else 0

def exponentLength : List Char → Nat
  | [] => 0
  | c :: cs =>
    if c = 'e' || c = 'E' then
      let sign := if cs.head? = some '+' || cs.head? = some '-' then 1 else 0
      let digits := leading isDecimal (cs.drop sign)
      if digits = 0 then 0 else 1 + sign + digits
    else 0

def suffixLength (letters : List Char) (cs : List Char) : Nat :=
  match cs with
  | c :: _ => if letters.contains c then 1 else 0
  | [] => 0

def floatSuffix : List Char := ['f', 'F', 'd', 'D']

def floatLength? (cs : List Char) : Option Nat :=
  let whole := wholeLength cs
  match cs.drop whole with
  | '.' :: rest =>
    let digits := leading isDecimal rest
    if whole = 0 && digits = 0 then none else
    let n := whole + 1 + digits
    let n := n + exponentLength (cs.drop n)
    some (n + suffixLength floatSuffix (cs.drop n))
  | rest =>
    if whole = 0 then none else
    let n := whole + exponentLength rest
    let m := n + suffixLength floatSuffix (cs.drop n)
    if m > whole then some m else none

def floatLexeme (cs : List Char) : Lexeme :=
  let digits := cs.filter fun c => !floatSuffix.contains c && c ≠ '_'
  let kind : LiteralKind :=
    match cs.getLast? with
    | some c => if c = 'f' || c = 'F' then .float else .double
    | none => .double
  match readDecimal? false digits with
  | some x => .token (.literal kind) (.float x) cs.length
  | none => .malformed

def basedLength? (letters : List Char) (p : Char → Bool) : List Char → Option Nat
  | '0' :: c :: cs =>
    let n := leading (fun d => p d || d = '_') cs
    if letters.contains c && n > 0 then some (n + 2) else none
  | _ => none

def integerLength? (cs : List Char) : Option Nat :=
  let digits :=
    (basedLength? ['x', 'X'] isHex cs).or <|
      (basedLength? ['b', 'B'] (fun c => c = '0' || c = '1') cs).or <|
        if wholeLength cs = 0 then none else some (wholeLength cs)
  digits.map fun n => n + suffixLength ['l', 'L'] (cs.drop n)

def integerValue? : List Char → Option Nat
  | '0' :: c :: cs =>
    if c = 'x' || c = 'X' then readNat? 16 cs
    else if c = 'b' || c = 'B' then readNat? 2 cs
    else readNat? 8 (c :: cs)
  | cs => readNat? 10 cs

def integerLexeme (cs : List Char) : Lexeme :=
  let digits := cs.filter fun c => c ≠ 'l' && c ≠ 'L' && c ≠ '_'
  let kind : LiteralKind :=
    match cs.getLast? with
    | some c => if c = 'l' || c = 'L' then .long else .int
    | none => .int
  match integerValue? digits with
  | some n => .token (.literal kind) (.int n) cs.length
  | none => .malformed

def escapeLengths (cs : List Char) : List Nat :=
  let octal := min 3 (leading isOctal cs)
  (unicodeLength? cs).toList ++ (List.range octal).reverse.map (· + 1) ++
    (if cs.head? = some '\n' then [] else [1])

def charLength? : List Char → Option Nat
  | q :: c :: cs =>
    if q ≠ singleQuote || c = singleQuote || c = '\n' then none
    else if c = '\\' then
      ((escapeLengths cs).find? fun n => cs[n]? = some singleQuote).map (· + 3)
    else if cs.head? = some singleQuote then some 3
    else none
  | _ => none

def stringTail? : List Char → Option Nat
  | [] => none
  | '"' :: _ => some 1
  | '\\' :: c :: cs => if c = '\n' then none else (stringTail? cs).map (· + 2)
  | c :: cs => if c = '\n' || c = '\\' then none else (stringTail? cs).map (· + 1)

def stringLength? : List Char → Option Nat
  | '"' :: cs => (stringTail? cs).map (· + 1)
  | _ => none

def quotedLexeme (kind : LiteralKind) (cs : List Char) : Lexeme :=
  match unescape (cs.drop 1).dropLast with
  | some inner => .token (.literal kind) (.text (String.ofList inner)) cs.length
  | none => .malformed

def identLexeme (cs : List Char) : Lexeme :=
  let s := String.ofList cs
  .token (if reservedWords.contains s then .word s else .ident) (.text s) cs.length

def markLexeme (cs : List Char) : Lexeme :=
  match marks.find? fun m => m.toList.isPrefixOf cs with
  | some m => .token (.mark m) (.text m) m.length
  | none => .illegal

def lexemeAt (c : Char) (cs : List Char) : Lexeme :=
  let text := c :: cs
  if isBlankOrNewline c then .blank
  else if let some n := commentLength? text then .comment n
  else if let some n := floatLength? text then floatLexeme (text.take n)
  else if let some n := integerLength? text then integerLexeme (text.take n)
  else if let some n := charLength? text then quotedLexeme .char (text.take n)
  else if let some n := stringLength? text then quotedLexeme .string (text.take n)
  else if isIdentStart c then identLexeme (text.takeWhile isIdentPart)
  else markLexeme text

end LoopLowering.Token
