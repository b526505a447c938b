import LoopLowering.Tree.Location

/-!
What the two passes share: the block that becomes the body of the new loop, the labels on
a loop, and the place that the new statement takes.
-/

namespace LoopLowering.Loops

def toBlock (n : Node) : Node :=
  match n.shape with
  | .block _ => n
  | _ => .plain (.block [n])

/-- The block for the body of a new loop. A body that a pass made is put in another block, so
that its variables do not share a scope with what is added to the body. -/
def bodyBlock (n : Node) : Node :=
  match n.shape with
  | .block _ => if n.tag.synthetic then .plain (.block [n]) else n
  | _ => toBlock n

def isLabeled (n : Node) : Bool :=
  match n.shape with
  | .labeled .. => true
  | _ => false

def label? (n : Node) : Option String :=
  match n.shape with
  | .labeled l _ => some l
  | _ => none

def labelsAbove (loc : Location) : List String :=
  ((loc.trail.takeWhile fun a => isLabeled a.1).filterMap fun a => label? a.1).reverse

/-- The outermost label right above a location, or the location itself: what the new statement
replaces. -/
def target (loc : Location) : Location :=
  ((loc.chain.tail.takeWhile fun l => isLabeled l.node).getLast?).getD loc

def relabel (labels : List String) (stmt : Node) : Node :=
  labels.foldr (fun l s => .plain (.labeled l s)) stmt

def editBlock (f : List Node → List Node) : Node → Node
  | .mk t (.block ss) => .mk t (.block (f ss))
  | n => n

def loopBlock (line : Option Nat) (ss : List Node) : Node :=
  .mk { line, synthetic := true } (.block ss)

end LoopLowering.Loops
