import LoopLowering.Proofs.Tree.Path
import LoopLowering.Tree.Location

/-! The walk with a stack lists the locations in the order of a recursion: a node, then what is
below each of its children. -/

namespace LoopLowering

namespace Location

def preorder (n : Node) (trail : List (Node × Step)) : List Location :=
  ⟨n, trail⟩ :: n.shape.steps.attach.flatMap fun c => preorder c.1.2 ((n, c.1.1) :: trail)
termination_by n.size
decreasing_by
  obtain ⟨t, s⟩ := n
  exact Node.size_lt_of_mem (Shape.mem_children.mpr ⟨_, c.2⟩)

lemma preorder_mk (t : Tag) (s : Shape Node) (trail : List (Node × Step)) :
    preorder (.mk t s) trail =
      ⟨.mk t s, trail⟩ :: s.steps.flatMap fun c => preorder c.2 ((.mk t s, c.1) :: trail) := by
  rw [preorder, List.flatMap_subtype (g := fun c => preorder c.2 ((.mk t s, c.1) :: trail)),
    List.unattach_attach]
  · rfl
  · intro c hc
    rfl

def load (stack : List Location) : Nat := Number.total (stack.map fun loc => loc.node.size)

lemma load_cons (loc : Location) (stack : List Location) :
    load (loc :: stack) = loc.node.size + load stack := rfl

lemma load_append (a b : List Location) : load (a ++ b) = load a + load b := by
  induction a with
  | nil => simp [load, Number.total]
  | cons loc a ih => rw [List.cons_append, load_cons, load_cons, ih, Nat.add_assoc]

lemma load_below (loc : Location) : loc.node.size = 1 + load loc.below := by
  obtain ⟨⟨t, s⟩, trail⟩ := loc
  rw [Node.size_mk, ← Shape.map_snd_steps]
  simp [load, below, Node.shape, Function.comp_def]

lemma preorder_eq_below (loc : Location) :
    preorder loc.node loc.trail = loc :: loc.below.flatMap fun l => preorder l.node l.trail := by
  obtain ⟨⟨t, s⟩, trail⟩ := loc
  rw [preorder_mk, below, List.flatMap_map]
  rfl

lemma walkFrom_eq_preorder (bound : Nat) (stack : List Location) (h : load stack ≤ bound) :
    walkFrom bound stack = stack.flatMap fun loc => preorder loc.node loc.trail := by
  induction bound generalizing stack with
  | zero =>
    cases stack with
    | nil => rfl
    | cons loc stack =>
      have := load_below loc
      rw [load_cons] at h
      omega
  | succ b ih =>
    cases stack with
    | nil => rfl
    | cons loc stack =>
      have hload : load (loc.below ++ stack) ≤ b := by
        have := load_below loc
        rw [load_cons] at h
        rw [load_append]
        omega
      rw [walkFrom, ih _ hload, List.flatMap_append, List.flatMap_cons, preorder_eq_below,
        List.cons_append]

end Location

namespace Node

lemma walk_eq_preorder (root : Node) : root.walk = Location.preorder root [] := by
  rw [walk, Location.walkFrom_eq_preorder]
  · simp
  · simp [Location.load, Number.total]

end Node

end LoopLowering
