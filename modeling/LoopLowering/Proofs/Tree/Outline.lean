import LoopLowering.Proofs.Tree.Location
import LoopLowering.Tree.Outline
import Mathlib.Data.List.Chain
import Mathlib.Tactic.Ring

/-! The order of a walk and of a listing. A walk comes to every place of a tree once, and to one
place before another if the first is above the second or further left; a listing has one line for
each location of the walk. -/

namespace LoopLowering

namespace Shape

variable {α β : Type}

lemma kind_map (f : α → β) (s : Shape α) : (s.map f).kind = s.kind := by
  cases s <;> rfl

lemma attributes_map (f : α → β) (s : Shape α) : (s.map f).attributes = s.attributes := by
  cases s <;> rfl

lemma summary_map (f : α → β) (s : Shape α) : (s.map f).summary = s.summary := by
  rw [summary, summary, kind_map, attributes_map]

end Shape

namespace Node

/-- One place of a tree comes before another: it is above it, or both are below children of one
node, the first below the child that stands further left. -/
def Before (root : Node) (p q : Path) : Prop :=
  (p <+: q ∧ p ≠ q) ∨ ∃ (common : Path) (n : Node) (left right : Step),
    root.get? common = some n ∧ [left, right].Sublist (n.shape.steps.map (·.1)) ∧
      common ++ [left] <+: p ∧ common ++ [right] <+: q

end Node

namespace Location

lemma exists_mem_preorder {n m : Node} {p : Path} (h : n.get? p = some m)
    (trail : List (Node × Step)) :
    ∃ loc ∈ preorder n trail, loc.path = (Location.mk n trail).path ++ p ∧ loc.node = m := by
  induction p generalizing n trail with
  | nil =>
    obtain ⟨t, s⟩ := n
    obtain rfl : Node.mk t s = m := Option.some.inj h
    refine ⟨⟨.mk t s, trail⟩, ?_, (List.append_nil _).symm, rfl⟩
    rw [preorder_mk]
    exact List.mem_cons_self
  | cons st p ih =>
    obtain ⟨t, s⟩ := n
    obtain ⟨c, hc, hm⟩ := Option.bind_eq_some_iff.mp h
    obtain ⟨loc, hloc, hpath, hnode⟩ := ih hm ((.mk t s, st) :: trail)
    refine ⟨loc, ?_, ?_, hnode⟩
    · rw [preorder_mk]
      refine List.mem_cons_of_mem _ (List.mem_flatMap.mpr ⟨(st, c), ?_, hloc⟩)
      exact Node.child?_eq_some.mp hc
    · rw [hpath, path_cons, List.append_assoc]
      rfl

lemma pairwise_before {root n : Node} {trail : List (Node × Step)}
    (h : root.get? (Location.mk n trail).path = some n) :
    (preorder n trail).Pairwise fun a b => root.Before a.path b.path := by
  induction n using Node.children_induction generalizing trail with
  | h t s ih =>
    have hbelow : ∀ c ∈ s.steps, ∀ loc ∈ preorder c.2 ((.mk t s, c.1) :: trail),
        (Location.mk (.mk t s) trail).path ++ [c.1] <+: loc.path := fun c _ loc hloc =>
      path_cons c.2 (.mk t s) c.1 trail ▸ path_of_mem_preorder hloc
    rw [preorder_mk, List.pairwise_cons, List.pairwise_flatMap]
    refine ⟨fun b hb => ?_, fun c hc => ?_, ?_⟩
    · obtain ⟨c, hc, hb⟩ := List.mem_flatMap.mp hb
      have hle := hbelow c hc b hb
      refine .inl ⟨(List.prefix_append _ _).trans hle, fun heq => ?_⟩
      have := hle.length_le
      rw [← heq, List.length_append, List.length_singleton] at this
      omega
    · refine ih c.2 (Shape.mem_children.mpr ⟨c.1, hc⟩) ?_
      rw [path_cons, Node.get?_append, h, Option.bind_some, Node.get?_cons,
        Node.child?_eq_some.mpr hc]
      rfl
    · rw [List.pairwise_iff_forall_sublist]
      intro c d hcd a ha b hb
      have hc : c ∈ s.steps := hcd.subset List.mem_cons_self
      have hd : d ∈ s.steps := hcd.subset (List.mem_cons_of_mem _ List.mem_cons_self)
      exact .inr ⟨_, _, c.1, d.1, h, hcd.map Prod.fst, hbelow c hc a ha, hbelow d hd b hb⟩

lemma head?_chain (loc : Location) : loc.chain.head? = some loc := by
  obtain ⟨n, trail⟩ := loc
  cases trail <;> rfl

lemma isChain_up? (loc : Location) : loc.chain.IsChain fun a b => a.up? = some b := by
  obtain ⟨n, trail⟩ := loc
  induction trail generalizing n with
  | nil => exact List.isChain_singleton _
  | cons a trail ih =>
    obtain ⟨parent, st⟩ := a
    rw [chain_cons, List.isChain_cons]
    refine ⟨fun b hb => ?_, ih parent⟩
    rw [head?_chain] at hb
    obtain rfl := Option.some.inj hb
    rfl

lemma getLast?_chain (loc : Location) : ∃ n, loc.chain.getLast? = some ⟨n, []⟩ := by
  obtain ⟨n, trail⟩ := loc
  induction trail generalizing n with
  | nil => exact ⟨n, rfl⟩
  | cons a trail ih =>
    obtain ⟨parent, st⟩ := a
    obtain ⟨m, hm⟩ := ih parent
    refine ⟨m, ?_⟩
    rw [chain_cons, List.getLast?_cons, hm]
    rfl

lemma Within.getLast?_chain {root : Node} {loc : Location} (h : Within root loc) :
    loc.chain.getLast? = some ⟨root, []⟩ := by
  obtain ⟨n, hn⟩ := Location.getLast?_chain loc
  have hroot : root.get? [] = some n := h _ (List.mem_of_getLast? hn)
  obtain rfl := Option.some.inj hroot
  exact hn

end Location

namespace Node

def line (indent : Int) (n : Node) : String := "".pushn ' ' indent.toNat ++ n.shape.summary

lemma outlineLines_mk (tab : Int) (t : Tag) (s : Shape Node) (indent : Int) :
    (mk t s).outlineLines tab indent =
      (mk t s).line indent :: s.children.flatMap fun c => c.outlineLines tab (indent + tab) := by
  rw [outlineLines, fold_mk, Shape.summary_map, Shape.children_map, List.flatMap_map]
  rfl

lemma outlineLines_eq_preorder (tab indent : Int) (n : Node) (trail : List (Node × Step)) :
    n.outlineLines tab (indent + tab * trail.length) =
      (Location.preorder n trail).map fun loc =>
        loc.node.line (indent + tab * loc.trail.length) := by
  induction n using children_induction generalizing trail with
  | h t s ih =>
    rw [outlineLines_mk, Location.preorder_mk, List.map_cons, List.map_flatMap,
      ← Shape.map_snd_steps, List.flatMap_map]
    congr 1
    refine List.flatMap_congr fun c hc => ?_
    rw [← ih c.2 (Shape.mem_children.mpr ⟨c.1, hc⟩) ((mk t s, c.1) :: trail)]
    congr 1
    push_cast [List.length_cons]
    ring

/-- The walk with a stack is the recursive one: it comes to every place of the tree once, in the
order of the places, and what it records leads from the root to the node and from the node up to the
root. A listing has one line for each location, in the same order and indented by its depth. -/
theorem walk_preorder (root : Node) :
    root.walk = Location.preorder root [] ∧
    (∀ p n, root.get? p = some n ↔ ∃ loc ∈ root.walk, loc.path = p ∧ loc.node = n) ∧
    (root.walk.map (·.path)).Nodup ∧
    (root.walk.Pairwise fun a b => root.Before a.path b.path) ∧
    (∀ loc ∈ root.walk, loc.chain.head? = some loc ∧
      (loc.chain.IsChain fun a b => a.up? = some b) ∧ loc.chain.getLast? = some ⟨root, []⟩ ∧
      ∀ l ∈ loc.chain, root.get? l.path = some l.node) ∧
    ∀ tab indent : Int, root.outlineLines tab indent = root.walk.map fun loc =>
      "".pushn ' ' (indent + tab * loc.path.length).toNat ++ loc.node.shape.summary := by
  refine ⟨walk_eq_preorder root, fun p n => ⟨fun h => ?_, ?_⟩, ?_, ?_, fun loc hloc => ?_,
    fun tab indent => ?_⟩
  · obtain ⟨loc, hloc, hpath, hnode⟩ := Location.exists_mem_preorder h []
    rw [← walk_eq_preorder] at hloc
    exact ⟨loc, hloc, hpath, hnode⟩
  · rintro ⟨loc, hloc, rfl, rfl⟩
    exact Location.within_walk hloc loc (Location.self_mem_chain loc)
  · have hwalk := Location.pairwise_preorder root []
    rw [← walk_eq_preorder] at hwalk
    refine List.pairwise_map.mpr (hwalk.imp ?_)
    intro a b hnot heq
    exact hnot (heq ▸ List.prefix_rfl)
  · rw [walk_eq_preorder]
    exact Location.pairwise_before rfl
  · have hwithin := Location.within_walk hloc
    exact ⟨loc.head?_chain, loc.isChain_up?, hwithin.getLast?_chain, hwithin⟩
  · have hlines := outlineLines_eq_preorder tab indent root []
    rw [← walk_eq_preorder, List.length_nil, Nat.cast_zero, mul_zero, add_zero] at hlines
    rw [hlines]
    refine List.map_congr_left fun loc _ => ?_
    rw [line, Location.path, List.length_reverse, List.length_map]

end Node

end LoopLowering
