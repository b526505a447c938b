import LoopLowering.Fault
import LoopLowering.Tree.Location

/-!
Editing a tree whose nodes have identities. A saved location names its node and its parent, and
stays valid for as long as the parent holds the node in the same slot, wherever the parent has
gone. Subtrees that were taken out of the tree are kept. They may share nodes with the tree, as a
lowered loop shares its body with the loop that replaced it, so an edit reaches every copy of a
node and all copies of a node agree.
-/

namespace LoopLowering

structure Workspace where
  root : Node
  detached : List Node := []
  nextId : Nat := 1

inductive TreeError where
  | notRoot (loc : Location)
  | stale (loc : Location)

def TreeError.message : TreeError → String
  | notRoot loc => loc.described ++ " não é a raiz da árvore"
  | stale loc => "posição desatualizada: " ++ loc.described ++ " já não contém " ++ loc.node.kind

namespace Node

/-- The number of nodes, and the tree with identities counted from a number on, in the order of a
walk. Nodes that have an identity keep it. -/
def numbering : Node → Nat × (Nat → Node) :=
  fold fun t s =>
    let before (st : Step) : Nat :=
      Number.total ((s.steps.takeWhile (·.1 ≠ st)).map (·.2.1))
    (1 + Number.total (s.children.map (·.1)), fun k =>
      mk { t with id := if t.id = 0 then k else t.id }
        (s.mapAt fun st c => c.2 (k + 1 + before st)))

def number (first : Nat) (n : Node) : Node := n.numbering.2 first

def id (n : Node) : Nat := n.tag.id

def nodes (n : Node) : List Node := n.walk.map (·.node)

def findId? (k : Nat) (n : Node) : Option Node := n.nodes.find? (·.id = k)

def editId (k : Nat) (f : Shape Node → Shape Node) : Node → Node :=
  fold fun t s => mk t (if t.id = k then f s else s)

def update (source : Node) : Node → Node :=
  let known := source.nodes
  fold fun t s => (known.find? (·.id = t.id)).getD (mk t s)

end Node

namespace Workspace

def ofTree (n : Node) : Workspace where
  root := n.number 1
  nextId := 1 + n.size

/-- The present state of a node: in the tree, or where it was last seen. -/
def lookup (ws : Workspace) (n : Node) : Node :=
  ((ws.root :: ws.detached).findSome? (·.findId? n.id)).getD n

def current (ws : Workspace) (loc : Location) : Except Fault (Option Node) :=
  match loc.trail with
  | [] => .error .wrongKind
  | (parent, st) :: _ => .ok ((ws.lookup parent).child? st)

def mapTrees (ws : Workspace) (f : Node → Node) : Workspace :=
  { ws with root := f ws.root, detached := ws.detached.map f }

def edit (ws : Workspace) (n : Node) (f : Shape Node → Shape Node) : Workspace :=
  ws.mapTrees (·.editId n.id f)

def adopt (ws : Workspace) (n : Node) : Node × Workspace :=
  (n.number ws.nextId, { ws with nextId := ws.nextId + n.size })

def detach (ws : Workspace) (n : Node) : Workspace := { ws with detached := n :: ws.detached }

def replaceAt (ws : Workspace) (loc : Location) (new : Node) : Except TreeError Workspace :=
  let (new, ws) := ws.adopt new
  match loc.trail with
  | [] =>
    if loc.node.id = ws.root.id then .ok { ws.detach ws.root with root := new }
    else .error (.notRoot loc)
  | (parent, st) :: _ =>
    match (ws.lookup parent).child? st with
    | some old =>
      if old.id = loc.node.id then
        .ok ((ws.detach old).edit parent fun s => s.mapAt fun st' c => if st' = st then new else c)
      else .error (.stale loc)
    | none => .error (.stale loc)

end Workspace

end LoopLowering
