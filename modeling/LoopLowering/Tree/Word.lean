import LoopLowering.Text.Quoted

/-!
Words in the lists of a declaration: its modifiers and its type parameters. An edit can put a node
among the words; nothing reaches into it there, so its description is all that is kept of it.
-/

namespace LoopLowering

inductive Word where
  | text (s : String)
  | node (description : String)
  deriving DecidableEq, Repr

namespace Word

def ofTexts (ss : List String) : List Word := ss.map text

def listed : Word → String
  | text s => s
  | node d => d

def described : Word → String
  | text s => Text.quoted s
  | node d => d

end Word

end LoopLowering
