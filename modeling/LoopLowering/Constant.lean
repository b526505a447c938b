import LoopLowering.Number.FloatStyle
import LoopLowering.Text.Quoted

/-!
Constants that stand in a program, and the two ways in which listings show them.
-/

namespace LoopLowering

inductive Constant where
  | null
  | bool (b : Bool)
  | int (n : Int)
  | float (x : Float)
  | text (s : String)

namespace Constant

def plain : Constant → String
  | null => "None"
  | bool b => if b then "True" else "False"
  | int n => toString n
  | float x => Number.FloatStyle.source.format x
  | text s => s

def described : Constant → String
  | text s => Text.quoted s
  | c => c.plain

def listed : Constant → String
  | bool b => if b then "true" else "false"
  | text s => "\"" ++ s ++ "\""
  | c => c.plain

end Constant

end LoopLowering
