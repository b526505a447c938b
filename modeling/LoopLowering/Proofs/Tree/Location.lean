import LoopLowering.Proofs.Tree.Walk

/-! The locations of a walk: each leads to its node, as do those above it, and none comes before one
above it. -/

namespace LoopLowering

namespace Location

lemma path_cons (n parent : Node) (st : Step) (trail : List (Node × Step)) :
    (Location.mk n ((parent, st) :: trail)).path = (Location.mk parent trail).path ++ [st] := by
  simp [path]

lemma chain_cons (n parent : Node) (st : Step) (trail : List (Node × Step)) :
    (Location.mk n ((parent, st) :: trail)).chain =
      ⟨n, (parent, st) :: trail⟩ :: (Location.mk parent trail).chain := rfl

lemma self_mem_chain (loc : Location) : loc ∈ loc.chain := by
  obtain ⟨n, trail⟩ := loc
  cases trail <;> exact List.mem_cons_self

lemma chain_subset {loc l : Location} (h : l ∈ loc.chain) : l.chain ⊆ loc.chain := by
  obtain ⟨n, trail⟩ := loc
  induction trail generalizing n with
  | nil =>
    obtain rfl := List.mem_singleton.mp h
    exact List.Subset.refl _
  | cons a trail ih =>
    obtain ⟨parent, st⟩ := a
    rw [chain_cons] at h ⊢
    rcases List.mem_cons.mp h with rfl | h
    · exact List.Subset.refl _
    · exact List.subset_cons_of_subset _ (ih parent h)

lemma up_mem_chain {loc : Location} {n parent : Node} {st : Step} {trail : List (Node × Step)}
    (h : ⟨n, (parent, st) :: trail⟩ ∈ loc.chain) : ⟨parent, trail⟩ ∈ loc.chain := by
  refine chain_subset h ?_
  rw [chain_cons]
  exact List.mem_cons_of_mem _ (self_mem_chain _)

lemma path_of_mem_chain {loc l : Location} (h : l ∈ loc.chain) : l.path <+: loc.path := by
  obtain ⟨n, trail⟩ := loc
  induction trail generalizing n with
  | nil =>
    obtain rfl := List.mem_singleton.mp h
    exact List.prefix_rfl
  | cons a trail ih =>
    obtain ⟨parent, st⟩ := a
    rw [chain_cons] at h
    rcases List.mem_cons.mp h with rfl | h
    · exact List.prefix_rfl
    · exact (ih parent h).trans (path_cons n parent st trail ▸ List.prefix_append _ _)

def Within (root : Node) (loc : Location) : Prop :=
  ∀ l ∈ loc.chain, root.get? l.path = some l.node

lemma within_child {root : Node} {t : Tag} {s : Shape Node} {trail : List (Node × Step)}
    {c : Step × Node} (h : Within root ⟨.mk t s, trail⟩) (hc : c ∈ s.steps) :
    Within root ⟨c.2, (.mk t s, c.1) :: trail⟩ := by
  intro l hl
  rw [chain_cons] at hl
  rcases List.mem_cons.mp hl with rfl | hl
  · have hchild : (Node.mk t s).child? c.1 = some c.2 := Node.child?_eq_some.mpr hc
    rw [path_cons, Node.get?_append, h _ (self_mem_chain _), Option.bind_some, Node.get?_cons,
      hchild]
    rfl
  · exact h l hl

lemma within_preorder {root n : Node} {trail : List (Node × Step)} (h : Within root ⟨n, trail⟩) :
    ∀ loc ∈ preorder n trail, Within root loc := by
  induction n using Node.children_induction generalizing trail with
  | h t s ih =>
    intro loc hloc
    rw [preorder_mk] at hloc
    rcases List.mem_cons.mp hloc with rfl | hloc
    · exact h
    · obtain ⟨c, hc, hloc⟩ := List.mem_flatMap.mp hloc
      exact ih c.2 (Shape.mem_children.mpr ⟨c.1, hc⟩) (within_child h hc) loc hloc

lemma path_of_mem_preorder {n : Node} {trail : List (Node × Step)} {loc : Location}
    (h : loc ∈ preorder n trail) : (Location.mk n trail).path <+: loc.path := by
  induction n using Node.children_induction generalizing trail with
  | h t s ih =>
    rw [preorder_mk] at h
    rcases List.mem_cons.mp h with rfl | h
    · exact List.prefix_rfl
    · obtain ⟨c, hc, h⟩ := List.mem_flatMap.mp h
      have := ih c.2 (Shape.mem_children.mpr ⟨c.1, hc⟩) h
      rw [path_cons] at this
      exact (List.prefix_append _ _).trans this

lemma pairwise_preorder (n : Node) (trail : List (Node × Step)) :
    (preorder n trail).Pairwise fun a b => ¬ b.path <+: a.path := by
  induction n using Node.children_induction generalizing trail with
  | h t s ih =>
    rw [preorder_mk, List.pairwise_cons, List.pairwise_flatMap]
    refine ⟨fun b hb hle => ?_, fun c hc => ?_, ?_⟩
    · obtain ⟨c, hc, hb⟩ := List.mem_flatMap.mp hb
      have hbelow := (path_of_mem_preorder hb).length_le
      have := hle.length_le
      rw [path_cons, List.length_append, List.length_singleton] at hbelow
      omega
    · exact ih c.2 (Shape.mem_children.mpr ⟨c.1, hc⟩) _
    · refine (List.pairwise_map.mp s.nodup_steps).imp ?_
      intro c d hne a ha b hb hle
      have ha := path_of_mem_preorder ha
      have hb := (path_of_mem_preorder hb).trans hle
      rw [path_cons] at ha hb
      have hsame := List.prefix_of_prefix_length_le ha hb (by simp)
      have heq := hsame.eq_of_length (by simp)
      exact hne (List.singleton_inj.mp (List.append_cancel_left heq))

lemma within_walk {root : Node} {loc : Location} (h : loc ∈ root.walk) : Within root loc := by
  rw [Node.walk_eq_preorder] at h
  refine within_preorder ?_ loc h
  intro l hl
  obtain rfl := List.mem_singleton.mp hl
  rfl

end Location

end LoopLowering
