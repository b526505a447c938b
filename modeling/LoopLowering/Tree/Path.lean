import LoopLowering.Tree.Node

/-!
Paths from a node down into its tree, and the subtree at the end of a path.
-/

namespace LoopLowering

abbrev Path := List Step

namespace Node

def child? (n : Node) (st : Step) : Option Node := n.shape.steps.lookup st

def get? : Node → Path → Option Node
  | n, [] => some n
  | n, st :: path => (n.child? st).bind fun c => c.get? path
termination_by structural _ path => path

def setAt : Node → Path → (new : Node) → Node
  | _, [], new => new
  | mk t s, st :: path, new =>
    mk t (s.mapAt fun st' c => if st' = st then c.setAt path new else c)
termination_by structural _ path => path

end Node

end LoopLowering
