import LoopLowering.Tree.Outline
import LoopLowering.Workspace

/-!
Entries of the lists of a node: they are put in and taken out by index. A list holds children or
words; what else a node has is no list and cannot be edited so.
-/

namespace LoopLowering.Workspace

inductive Member where
  | list (length : Nat)
  | other

def commonMembers (n : Node) : List String :=
  ["line", "fields", "attrs", "describe"] ++ if n.kind = "Block" then ["synthetic"] else []

def member? (ws : Workspace) (n : Node) (name : String) : Option Member :=
  let n := ws.lookup n
  match n.shape.parts.lookup name, n.shape.attributes.lookup name with
  | some (.many cs), _ => some (.list cs.length)
  | none, some (.words ws) => some (.list ws.length)
  | none, none => if (commonMembers n).contains name then some .other else none
  | _, _ => some .other

def listLength (ws : Workspace) (loc : Location) (name : String) : Except Fault Nat :=
  match ws.member? loc.node name with
  | some (.list n) => .ok n
  | _ => .error .noSuchPart

def editList (ws : Workspace) (n : Node) (name : String)
    (children : List Node → List Node) (words : List Word → List Word) : Workspace :=
  ws.edit n fun s =>
    (s.mapLists fun f l => if f = name then children l else l).mapWords fun f l =>
      if f = name then words l else l

def position (length : Nat) (index : Int) : Int := if index < 0 then index + length else index

def isIndex (i : Int) : Bool := -Number.twoTo 63 ≤ i && i < Number.twoTo 63

def insert (ws : Workspace) (loc : Location) (name : String) (index : Int) (new : Node) :
    Except Fault Workspace := do
  let length ← ws.listLength loc name
  if !isIndex index then throw .overflow
  let i := min (position length index).toNat length
  let (new, ws) := ws.adopt new
  return ws.editList loc.node name (·.insertIdx i new) (·.insertIdx i (.node new.shape.described))

def delete (ws : Workspace) (loc : Location) (name : String) (index : Int) :
    Except Fault Workspace :=
  match ws.member? loc.node name with
  | some (.list length) =>
    let i := position length index
    if 0 ≤ i ∧ i < length then
      let old := (ws.lookup loc.node).child? ⟨name, some i.toNat⟩
      let ws := { ws with detached := old.toList ++ ws.detached }
      .ok (ws.editList loc.node name (·.eraseIdx i.toNat) (·.eraseIdx i.toNat))
    else .error .badIndex
  | some .other => .error .wrongKind
  | none => .error .noSuchPart

end LoopLowering.Workspace
