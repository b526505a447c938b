/-!
Error messages with a place: `file:line:column: message (hint)`. A part that is missing, empty or
zero is left out.
-/

namespace LoopLowering

structure Diagnostic where
  message : String
  line : Option Int := none
  column : Option Int := none
  file : Option String := none
  hint : Option String := none
  deriving DecidableEq, Repr

namespace Diagnostic

def place (d : Diagnostic) : String :=
  let number : Option Int → String
    | some n => if n = 0 then "" else toString n ++ ":"
    | none => ""
  let text : Option String → String
    | some s => if s.isEmpty then "" else s ++ ":"
    | none => ""
  text d.file ++ number d.line ++ number d.column

def render (d : Diagnostic) : String :=
  let located := if d.place.isEmpty then d.message else d.place ++ " " ++ d.message
  match d.hint with
  | some h => if h.isEmpty then located else located ++ " (" ++ h ++ ")"
  | none => located

end Diagnostic

end LoopLowering
