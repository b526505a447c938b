import LoopLowering.Loops.Body

/-!
A loop `for (init; cond; update) body` becomes a block that holds the initial statements and a
`while` loop whose body ends with the updates. A `continue` of the loop must not skip the updates:
it becomes a `break` out of a labelled copy of the body.
-/

namespace LoopLowering.Loops

def isForLoop {α : Type} : Shape α → Bool
  | .forLoop .. => true
  | _ => false

def isLoop {α : Type} : Shape α → Bool
  | .whileLoop .. | .doWhile .. | .forLoop .. | .forEach .. => true
  | _ => false

def continues (labels : List String) (nested : Bool) : Option String → Bool
  | none => !nested
  | some l => labels.contains l

def hasContinue (labels : List String) : Node → (nested : Bool) → Bool :=
  Node.fold fun _ s nested =>
    match s with
    | .continueStmt l => continues labels nested l
    | s => s.children.any fun f => f (nested || isLoop s)

def retarget (labels : List String) (target : String) : Node → (nested : Bool) → Node :=
  Node.fold fun t s nested =>
    match s with
    | .continueStmt l =>
      if continues labels nested l then .plain (.breakStmt (some target))
      else .mk t (.continueStmt l)
    | s => .mk t (s.map fun f => f (nested || isLoop s))

def statementsOf (n : Node) : List Node :=
  match n.shape with
  | .localVar mods type ds =>
    ds.mapIdx fun i d => .plain (.localVar mods (if i = 0 then type else type.copy) [d])
  | _ => [.plain (.exprStmt n)]

def bodyLabel (n : Nat) : String := "forBody" ++ toString n

def guardedBody (labels : List String) (next : Nat) (update : List Node) (body : Node) :
    Node × Nat :=
  let block := bodyBlock body
  if !update.isEmpty && hasContinue labels block false then
    (.plain (.block [.plain (.labeled (bodyLabel next) (retarget labels (bodyLabel next) block
      false))]), next + 1)
  else (block, next)

def lowerFor (labels : List String) (next : Nat) (loop : Node) : Node × Nat :=
  match loop with
  | .mk t (.forLoop init cond update body) =>
    let (block, next) := guardedBody labels next update body
    let block := editBlock (· ++ update.flatMap statementsOf) block
    let cond := cond.getD (.plain (.literal (.bool true) .boolean))
    let loop := relabel labels (.plain (.whileLoop cond block))
    (loopBlock t.line (init.flatMap statementsOf ++ [loop]), next)
  | loop => (loop, next)

end LoopLowering.Loops
