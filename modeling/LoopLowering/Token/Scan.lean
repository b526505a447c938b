import LoopLowering.Diagnostic
import LoopLowering.Fault
import LoopLowering.Token.Lexeme

/-!
Splitting a text into tokens. Blanks, newlines and comments separate tokens. Illegal characters
are all collected: the error is about the first and counts the others.
-/

namespace LoopLowering

namespace Token

inductive Piece where
  | token (t : Token)
  | illegal (c : Char) (line start : Nat)

/-- The pieces of a text that starts at the given place; its first `skip` characters belong to
the lexeme before. -/
def pieces (line start skip : Nat) : List Char → Except Fault (List Piece)
  | [] => .ok []
  | c :: cs =>
    let line' := if c = '\n' then line + 1 else line
    match skip with
    | s + 1 => pieces line' (start + 1) s cs
    | 0 =>
      match lexemeAt c cs with
      | .blank => pieces line' (start + 1) 0 cs
      | .comment n => pieces line' (start + 1) (n - 1) cs
      | .token k v n => do
        let rest ← pieces line' (start + 1) (n - 1) cs
        return .token ⟨k, v, line, start⟩ :: rest
      | .malformed => .error .badValue
      | .illegal => do
        let rest ← pieces line' (start + 1) 0 cs
        return .illegal c line start :: rest

def Piece.token? : Piece → Option Token
  | token t => some t
  | illegal .. => none

def Piece.illegal? : Piece → Option (Char × Nat × Nat)
  | token _ => none
  | illegal c line start => some (c, line, start)

end Token

inductive ReadError where
  | rejected (d : Diagnostic)
  | fault (f : Fault)

def illegalMessage (c : Char) : String :=
  String.ofList ("caractere ilegal ".toList ++ [Text.singleQuote, c, Text.singleQuote])

def illegalDiagnostic (text : List Char) (c : Char) (line start others : Nat) : Diagnostic where
  message := illegalMessage c
  line := some line
  column := some (columnOf text start)
  hint := if others = 0 then none else some s!"mais {others} erro(s) léxico(s)"

def tokenize (source : String) : Except ReadError (List Token) :=
  let text := source.toList
  match Token.pieces 1 0 0 text with
  | .error f => .error (.fault f)
  | .ok ps =>
    match ps.filterMap (·.illegal?) with
    | [] => .ok (ps.filterMap (·.token?))
    | (c, line, start) :: others =>
      .error (.rejected (illegalDiagnostic text c line start others.length))

end LoopLowering
