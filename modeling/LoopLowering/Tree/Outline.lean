import LoopLowering.Tree.Node

/-!
Listings of trees: one node a line, indented by its depth, with its kind and attributes. Attributes
that are missing or empty and dimensions that are zero are left out.
-/

namespace LoopLowering

namespace Attribute

def listed : Attribute → String
  | text s => (Constant.text s).listed
  | optText none => Constant.null.listed
  | optText (some s) => (Constant.text s).listed
  | flag b => (Constant.bool b).listed
  | number n => toString n
  | words ws => "[" ++ ", ".intercalate (ws.map (·.listed)) ++ "]"
  | constant c => c.listed

def described : Attribute → String
  | text s => (Constant.text s).described
  | optText none => Constant.null.described
  | optText (some s) => (Constant.text s).described
  | flag b => (Constant.bool b).described
  | number n => toString n
  | words ws => "[" ++ ", ".intercalate (ws.map (·.described)) ++ "]"
  | constant c => c.described

def isHidden (name : String) : Attribute → Bool
  | optText none => true
  | words [] => true
  | constant .null => true
  | number n => name = "dims" && n = 0
  | _ => false

end Attribute

namespace Shape

variable {α : Type}

def summary (s : Shape α) : String :=
  let shown := s.attributes.filter fun a => !a.2.isHidden a.1
  " ".intercalate (s.kind :: shown.map fun a => a.1 ++ "=" ++ a.2.listed)

def described (s : Shape α) : String :=
  s.kind ++ "(" ++ ", ".intercalate (s.attributes.map fun a => a.1 ++ "=" ++ a.2.described) ++ ")"

end Shape

namespace Node

def outlineLines (tab : Int) : Node → (indent : Int) → List String :=
  fold fun _ s indent =>
    ("".pushn ' ' indent.toNat ++ s.summary) :: s.children.flatMap fun f => f (indent + tab)

def outline (tab indent : Int) (n : Node) : String := "\n".intercalate (n.outlineLines tab indent)

def defaultTab : Int := 2

end Node

end LoopLowering
