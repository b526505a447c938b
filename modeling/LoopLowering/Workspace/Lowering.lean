import LoopLowering.Loops.Lowering
import LoopLowering.Workspace

/-!
Passes over a tree under edits. A lowered loop leaves the tree, but its parts stay what they were:
they are now parts of the new statement too, and what the pass adds to the body is seen from both.
-/

namespace LoopLowering

inductive LoweringError where
  | tree (e : TreeError)
  | fault (f : Fault)

namespace Workspace

open Loops

/-- Gives what a pass made of a node its identities, and brings all copies of the nodes in it up
to date. -/
def settle (ws : Workspace) (new : Node) : Node × Workspace :=
  let (new, ws) := ws.adopt new
  (new, ws.mapTrees new.update)

def putLowered (ws : Workspace) (loc : Location) (new : Node) :
    Workspace × Option LoweringError :=
  let (new, ws) := ws.settle new
  match ws.replaceAt (target loc) new with
  | .ok ws => (ws, none)
  | .error e => (ws, some (.tree e))

def forLoopsFrom : List Location → (nextLabel : Nat) → Workspace →
    Workspace × Option LoweringError
  | [], _, ws => (ws, none)
  | loc :: locs, nextLabel, ws =>
    let (new, nextLabel) := lowerFor (labelsAbove loc) nextLabel (ws.lookup loc.node)
    match ws.putLowered loc new with
    | (ws, none) => forLoopsFrom locs nextLabel ws
    | (ws, some e) => (ws, some e)

def forEachLoopsFrom : List Location → Workspace → Workspace × Option LoweringError
  | [], ws => (ws, none)
  | loc :: locs, ws =>
    match lowerForEach (labelsAbove loc) (ws.lookup loc.node) with
    | .failed f left => ((ws.settle left).2, some (.fault f))
    | .done new =>
      match ws.putLowered loc new with
      | (ws, none) => forEachLoopsFrom locs ws
      | (ws, some e) => (ws, some e)

def lowerForLoops (ws : Workspace) : Workspace × Option LoweringError :=
  ws.forLoopsFrom (ws.root.find isForLoop).reverse 0

def lowerForEachLoops (ws : Workspace) : Workspace × Option LoweringError :=
  ws.forEachLoopsFrom (ws.root.find isForEach).reverse

def withRoot (ws : Workspace) (n : Node) : Workspace :=
  { ws.detach ws.root with root := ws.lookup n }

/-- Runs a pass in place. An error takes the root back, but not what was changed below it. -/
def lower (ws : Workspace) (p : Pass) : Workspace × Option LoweringError :=
  let run :=
    match p with
    | .none => (ws, none)
    | .forLoops => ws.lowerForLoops
    | .forEachLoops => ws.lowerForEachLoops
    | .all =>
      match ws.lowerForLoops with
      | (ws, none) => ws.lowerForEachLoops
      | failed => failed
  match run with
  | (after, none) => (after, none)
  | (after, some e) => (after.withRoot ws.root, some e)

end Workspace

end LoopLowering
