import LoopLowering.Tree.Path

/-!
Locations: a node together with the way up from it to the root. A walk lists the locations of a
tree, parents before children and siblings from left to right.
-/

namespace LoopLowering

structure Location where
  node : Node
  trail : List (Node × Step) := []

namespace Location

def path (loc : Location) : Path := (loc.trail.map (·.2)).reverse

def up? (loc : Location) : Option Location :=
  match loc.trail with
  | [] => none
  | (parent, _) :: trail => some ⟨parent, trail⟩

def chainFrom (node : Node) : List (Node × Step) → List Location
  | [] => [⟨node, []⟩]
  | (parent, st) :: trail => ⟨node, (parent, st) :: trail⟩ :: chainFrom parent trail

def chain (loc : Location) : List Location := chainFrom loc.node loc.trail

def below (loc : Location) : List Location :=
  loc.node.shape.steps.map fun (st, c) => ⟨c, (loc.node, st) :: loc.trail⟩

def place (loc : Location) : String :=
  match loc.trail with
  | [] => "raiz"
  | (parent, ⟨field, none⟩) :: _ => parent.kind ++ "." ++ field
  | (parent, ⟨field, some i⟩) :: _ => parent.kind ++ "." ++ field ++ "[" ++ toString i ++ "]"

def described (loc : Location) : String :=
  "<Location " ++ loc.node.kind ++ " em " ++ loc.place ++ ">"

end Location

def walkFrom : (bound : Nat) → (stack : List Location) → List Location
  | 0, _ => []
  | _, [] => []
  | b + 1, loc :: stack => loc :: walkFrom b (loc.below ++ stack)

namespace Node

def walk (root : Node) : List Location := walkFrom root.size [⟨root, []⟩]

def find (root : Node) (p : Shape Node → Bool) : List Location :=
  root.walk.filter fun loc => p loc.node.shape

end Node

end LoopLowering
