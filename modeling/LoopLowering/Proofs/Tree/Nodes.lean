import LoopLowering.Proofs.Tree.Walk
import LoopLowering.Workspace
import Mathlib.Algebra.GroupWithZero.Nat

/-! The nodes of a tree in the order of a walk, how many of them are of a kind, and the names in them. -/

namespace LoopLowering

namespace Node

lemma map_node_preorder (n : Node) (trail : List (Node × Step)) :
    (Location.preorder n trail).map (·.node) = (Location.preorder n []).map (·.node) := by
  induction n using children_induction generalizing trail with
  | h t s ih =>
    rw [Location.preorder_mk, Location.preorder_mk, List.map_cons, List.map_cons,
      List.map_flatMap, List.map_flatMap]
    congr 1
    refine List.flatMap_congr fun c hc => ?_
    have hmem := Shape.mem_children.mpr ⟨c.1, hc⟩
    exact (ih c.2 hmem _).trans (ih c.2 hmem _).symm

lemma nodes_mk (t : Tag) (s : Shape Node) :
    (mk t s).nodes = mk t s :: s.children.flatMap nodes := by
  have hbelow : ∀ c : Step × Node, (Location.preorder c.2 [(mk t s, c.1)]).map (·.node) =
      c.2.nodes := by
    intro c
    rw [map_node_preorder, nodes, walk_eq_preorder]
  rw [nodes, walk_eq_preorder, Location.preorder_mk, List.map_cons, List.map_flatMap,
    ← Shape.map_snd_steps, List.flatMap_map]
  congr 1
  exact List.flatMap_congr fun c _ => hbelow c

lemma forall_nodes_mk {Q : Node → Prop} {t : Tag} {s : Shape Node} :
    (∀ m ∈ (mk t s).nodes, Q m) ↔ Q (mk t s) ∧ ∀ c ∈ s.children, ∀ m ∈ c.nodes, Q m := by
  rw [nodes_mk, List.forall_mem_cons, List.forall_mem_flatMap]

def inner (n : Node) : List Node := n.children.flatMap nodes

lemma nodes_eq (n : Node) : n.nodes = n :: n.inner := by
  obtain ⟨t, s⟩ := n
  exact nodes_mk t s

lemma mem_inner_of_children {n c : Node} (h : c ∈ n.children) : c ∈ n.inner :=
  List.mem_flatMap.mpr ⟨c, h, by simp [nodes_eq]⟩

lemma mem_nodes_trans {n m c : Node} (hm : m ∈ n.nodes) (hc : c ∈ m.nodes) : c ∈ n.nodes := by
  induction n using children_induction with
  | h t s ih =>
    rw [nodes_mk] at hm
    rcases List.mem_cons.mp hm with rfl | hm
    · exact hc
    · obtain ⟨d, hd, hm⟩ := List.mem_flatMap.mp hm
      rw [nodes_mk]
      exact List.mem_cons_of_mem _ (List.mem_flatMap.mpr ⟨d, hd, ih d hd hm⟩)

lemma mem_inner_trans {n m c : Node} (hm : m ∈ n.inner) (hc : c ∈ m.nodes) : c ∈ n.inner := by
  obtain ⟨d, hd, hm⟩ := List.mem_flatMap.mp hm
  exact List.mem_flatMap.mpr ⟨d, hd, mem_nodes_trans hm hc⟩

lemma one_le_size (n : Node) : 1 ≤ n.size := by
  obtain ⟨t, s⟩ := n
  rw [size_mk]
  exact Nat.le_add_right 1 _

lemma size_le_of_mem_nodes {n c : Node} (h : c ∈ n.nodes) : c.size ≤ n.size := by
  induction n using children_induction with
  | h t s ih =>
    rw [nodes_mk] at h
    rcases List.mem_cons.mp h with rfl | h
    · exact Nat.le_refl _
    · obtain ⟨d, hd, h⟩ := List.mem_flatMap.mp h
      exact Nat.le_trans (ih d hd h) (Nat.le_of_lt (size_lt_of_mem hd))

lemma size_lt_of_mem_inner {n c : Node} (h : c ∈ n.inner) : c.size < n.size := by
  obtain ⟨t, s⟩ := n
  obtain ⟨d, hd, h⟩ := List.mem_flatMap.mp h
  exact Nat.lt_of_le_of_lt (size_le_of_mem_nodes h) (size_lt_of_mem hd)

/-- How many nodes of a tree satisfy a test. -/
def count (p : Shape Node → Bool) (n : Node) : Nat := (n.find p).length

lemma count_eq_countP (p : Shape Node → Bool) (n : Node) :
    n.count p = n.nodes.countP fun m => p m.shape := by
  rw [count, find, nodes, List.countP_map, List.countP_eq_length_filter]
  rfl

lemma count_mk (p : Shape Node → Bool) (t : Tag) (s : Shape Node) :
    (mk t s).count p = (if p s then 1 else 0) + (s.children.map (count p)).sum := by
  have hsum : s.children.map (count p) =
      s.children.map ((List.countP fun m => p m.shape) ∘ nodes) :=
    List.map_congr_left fun c _ => count_eq_countP p c
  rw [hsum, count_eq_countP, nodes_mk, List.countP_cons, List.countP_flatMap, Nat.add_comm]
  rfl

lemma count_eq_zero {p : Shape Node → Bool} {n : Node} : n.count p = 0 ↔ n.find p = [] :=
  List.length_eq_zero_iff

def names : Node → List String := fold fun _ s =>
  match s with
  | .ident n => [n]
  | s => s.children.flatten

lemma names_subset {t : Tag} {s : Shape Node} {c : Node} (hc : c ∈ s.children) :
    c.names ⊆ (mk t s).names := by
  intro n hn
  rw [names, fold_mk]
  split
  · rename_i m hm
    have hs : s = .ident m := by
      cases s <;> cases hm
      rfl
    subst hs
    cases hc
  · rw [Shape.children_map]
    exact List.mem_flatten.mpr ⟨_, List.mem_map_of_mem hc, hn⟩

lemma names_ident (t : Tag) (n : String) : (mk t (.ident n)).names = [n] := rfl

end Node

end LoopLowering
