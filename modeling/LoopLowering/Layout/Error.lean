import LoopLowering.Fault

/-!
Why a tree has no source text: a node stands where its kind cannot be written.
-/

namespace LoopLowering

inductive LayoutError where
  | expression (kind : String)
  | statement (kind : String)
  | declaration (kind : String)
  | fault (f : Fault)
  deriving DecidableEq, Repr

def LayoutError.message : LayoutError → String
  | expression k => "Expressão não suportada: " ++ k
  | statement k => "Statement não suportado: " ++ k
  | declaration k => "Declaração não suportada: " ++ k
  | fault _ => ""

end LoopLowering
