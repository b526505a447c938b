import LoopLowering.Loops.ForEach
import LoopLowering.Loops.ForLoop

/-!
The passes over a whole tree. A pass collects the locations of its loops in one walk and lowers
them from the last to the first, so that each loop is reached with the loops inside it already
lowered and no path is disturbed before it is used.
-/

namespace LoopLowering

structure Lowering where
  tree : Node
  nextLabel : Nat := 0

namespace Lowering

open Loops

def put (tree : Node) (loc : Location) (new : Node) : Node := tree.setAt (target loc).path new

def stepFor (st : Lowering) (loc : Location) : Lowering :=
  match st.tree.get? loc.path with
  | none => st
  | some loop =>
    let (new, nextLabel) := lowerFor (labelsAbove loc) st.nextLabel loop
    { tree := put st.tree loc new, nextLabel }

def stepForEach (tree : Node) (loc : Location) : Except Fault Node :=
  match tree.get? loc.path with
  | none => .ok tree
  | some loop =>
    match lowerForEach (labelsAbove loc) loop with
    | .done new => .ok (put tree loc new)
    | .failed f _ => .error f

def forLoops (tree : Node) : Node := ((tree.find isForLoop).reverse.foldl stepFor { tree }).tree

def forEachLoops (tree : Node) : Except Fault Node :=
  (tree.find isForEach).reverse.foldlM stepForEach tree

end Lowering

inductive Pass where
  | none
  | forLoops
  | forEachLoops
  | all
  deriving DecidableEq, Repr

def Pass.run (p : Pass) (tree : Node) : Except Fault Node :=
  match p with
  | .none => .ok tree
  | .forLoops => .ok (Lowering.forLoops tree)
  | .forEachLoops => Lowering.forEachLoops tree
  | .all => Lowering.forEachLoops (Lowering.forLoops tree)

end LoopLowering
