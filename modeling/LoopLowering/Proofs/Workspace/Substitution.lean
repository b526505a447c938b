import LoopLowering.Proofs.Tree.Substitution
import LoopLowering.Proofs.Workspace.Lowering

/-! Replacements at saved locations, the last one first. Each finds its place as it was saved, and
together they are one simultaneous substitution. -/

namespace LoopLowering

lemma Node.occurrences_of_untold {n : Node} (h : ∀ m ∈ n.nodes, m.id = 0) {k : Nat} (hk : k ≠ 0) :
    n.occurrences k = 0 := by
  rw [Node.occurrences, List.countP_eq_zero]
  intro m hm
  simpa [h m hm] using hk.symm

lemma Node.occurrences_number_zero (n : Node) {first : Nat} (hfirst : 0 < first) :
    (n.number first).occurrences 0 = 0 := by
  have hnumber := Node.occurrences_number hfirst n 0
  rw [if_pos rfl, if_neg (by omega)] at hnumber
  omega

namespace Workspace

lemma replaceAt_number {ws : Workspace} (hnext : 0 < ws.nextId) (loc : Location) (new : Node) :
    ws.replaceAt loc (new.number ws.nextId) = ws.replaceAt loc new := by
  have hadopt : ws.adopt (new.number ws.nextId) = ws.adopt new := by
    rw [adopt, adopt, Node.number_of_told (new.occurrences_number_zero hnext), Node.size_number]
  unfold replaceAt
  rw [hadopt]

lemma thrifty_untold {old new : Node} (h : ∀ m ∈ new.nodes, m.id = 0) : Thrifty old new :=
  fun _ hk => (Node.occurrences_of_untold h hk).le.trans (Nat.zero_le _)

lemma replaceAt_of_live {ws : Workspace} (loc : Location) {new : Node}
    (htold : ws.root.Told ws.nextId) (hnew : ∀ m ∈ new.nodes, m.id = 0)
    (hlive : ∀ l ∈ loc.chain, ∃ m, ws.root.get? l.path = some m ∧ m.id = l.node.id) :
    ∃ after, ws.replaceAt loc new = .ok after ∧
      after.root = ws.root.setAt loc.path (new.number ws.nextId) ∧
      after.root.Told after.nextId := by
  obtain ⟨old, hold, hid⟩ := hlive loc loc.self_mem_chain
  obtain ⟨after, hafter, hroot, hnext⟩ := replaceAt_of_get?
    (new.occurrences_number_zero htold.pos) hold hid fun parent st trail htrail => by
      obtain ⟨n, _⟩ := loc
      obtain rfl := htrail
      obtain ⟨a, ha, haid⟩ := hlive _ (Location.up_mem_chain (Location.self_mem_chain _))
      exact ⟨a, ha, haid, htold.le_one _⟩
  rw [replaceAt_number htold.pos] at hafter
  refine ⟨after, hafter, hroot, ?_⟩
  rw [hroot, hnext, Node.size_number]
  exact told_setAt htold hold (Node.get?_nil old) (thrifty_untold hnew) le_rfl

/-- The new node for a place among those that are selected. -/
def chosen (selected : List (Location × Node)) (p : Path) : Option Node :=
  (selected.find? (·.1.path = p)).map (·.2)

lemma chosen_cons (c : Location × Node) (selected : List (Location × Node)) :
    chosen (c :: selected) = Function.update (chosen selected) c.1.path (some c.2) := by
  funext p
  by_cases hp : c.1.path = p
  · rw [chosen, List.find?_cons_of_pos (by simpa using hp), ← hp, Function.update_self]
    rfl
  · rw [chosen, List.find?_cons_of_neg (by simpa using hp), Function.update_of_ne (Ne.symm hp)]
    rfl

lemma chosen_eq_none {selected : List (Location × Node)} {p : Path}
    (h : ∀ c ∈ selected, c.1.path ≠ p) : chosen selected p = none := by
  rw [chosen, List.find?_eq_none.mpr (by simpa using h), Option.map_none]

lemma foldlM_replaceAt {ws : Workspace} {root : Node} {selected : List (Location × Node)}
    (hroot : ws.root = root) (htold : root.Told ws.nextId)
    (hwithin : ∀ c ∈ selected, Location.Within root c.1)
    (hapart : selected.Pairwise fun a b => ¬ b.1.path <+: a.1.path)
    (hnew : ∀ c ∈ selected, ∀ m ∈ c.2.nodes, m.id = 0) :
    ∃ (after : Workspace) (first : Path → Nat),
      selected.reverse.foldlM (fun ws c => ws.replaceAt c.1 c.2) ws = .ok after ∧
      after.root = root.substitute (fun p => (chosen selected p).map (·.number (first p))) ∧
      after.root.Told after.nextId := by
  induction selected with
  | nil =>
    refine ⟨ws, fun _ => 0, rfl, ?_, hroot ▸ htold⟩
    exact hroot.trans (Node.substitute_none root).symm
  | cons c selected ih =>
    obtain ⟨hc, hwithin⟩ := List.forall_mem_cons.mp hwithin
    obtain ⟨hcnew, hnew⟩ := List.forall_mem_cons.mp hnew
    obtain ⟨hcapart, hapart⟩ := List.pairwise_cons.mp hapart
    obtain ⟨mid, first, hmid, hmidRoot, hmidTold⟩ := ih hwithin hapart hnew
    have hnone : ∀ p, p <+: c.1.path →
        (chosen selected p).map (·.number (first p)) = none := fun p hp => by
      rw [chosen_eq_none fun d hd heq => hcapart d hd (heq ▸ hp), Option.map_none]
    -- What was replaced so far is not above the place or any place that leads to it.
    obtain ⟨after, hafter, hafterRoot, hafterTold⟩ := replaceAt_of_live c.1 hmidTold hcnew
      fun l hl => by
        have hl' := Location.path_of_mem_chain hl
        have hget := Node.get?_substitute (hc l hl) fun q hq _ => hnone q (hq.trans hl')
        refine ⟨_, hmidRoot ▸ hget, Node.id_substitute ?_⟩
        rw [List.append_nil]
        exact hnone _ hl'
    refine ⟨after, Function.update first c.1.path mid.nextId, ?_, ?_, hafterTold⟩
    · rw [List.reverse_cons, List.foldlM_append, hmid]
      change (mid.replaceAt c.1 c.2).bind _ = _
      rw [hafter]
      rfl
    · rw [hafterRoot, hmidRoot, Node.setAt_substitute (hc c.1 c.1.self_mem_chain) hnone]
      congr 1
      funext p
      rw [chosen_cons]
      by_cases hp : p = c.1.path
      · rw [hp, Function.update_self, Function.update_self, Function.update_self, Option.map_some]
      · rw [Function.update_of_ne hp, Function.update_of_ne hp, Function.update_of_ne hp]

/-- Replacements at locations of one walk, from the last to the first, never fail. They leave the
tree with each new node in its place, if no place above that was selected, and with all other nodes,
their attributes and numbers of children as they were. -/
theorem replaceAt_reverse {tree : Node} (htree : ∀ m ∈ tree.nodes, m.id = 0)
    {selected : List (Location × Node)}
    (hselected : (selected.map (·.1)).Sublist (ofTree tree).root.walk)
    (hnew : ∀ c ∈ selected, ∀ m ∈ c.2.nodes, m.id = 0) :
    ∃ (after : Workspace) (first : Path → Nat),
      selected.reverse.foldlM (fun ws c => ws.replaceAt c.1 c.2) (ofTree tree) = .ok after ∧
      after.root = (ofTree tree).root.substitute
        (fun p => (chosen selected p).map (·.number (first p))) ∧
      after.root.copy = tree.substitute (chosen selected) := by
  have hwithin : ∀ c ∈ selected, Location.Within (ofTree tree).root c.1 := fun c hc =>
    Location.within_walk (hselected.subset (List.mem_map_of_mem hc))
  have hapart : selected.Pairwise fun a b => ¬ b.1.path <+: a.1.path := by
    have hwalk := Location.pairwise_preorder (ofTree tree).root []
    rw [← Node.walk_eq_preorder] at hwalk
    exact List.pairwise_map.mp (hwalk.sublist hselected)
  obtain ⟨after, first, hrun, hroot, -⟩ :=
    foldlM_replaceAt rfl (told_ofTree htree) hwithin hapart hnew
  refine ⟨after, first, hrun, hroot, ?_⟩
  have hcopy : (ofTree tree).root.copy = tree :=
    (Node.copy_number 1 tree).trans (copy_of_untold htree)
  rw [hroot, Node.copy_substitute, hcopy]
  congr 1
  funext p
  cases hp : selected.find? (·.1.path = p) with
  | none => rw [chosen, hp]; rfl
  | some c =>
    rw [chosen, hp]
    change some ((c.2.number (first p)).copy) = some c.2
    rw [Node.copy_number, copy_of_untold (hnew c (List.mem_of_find?_eq_some hp))]

theorem replaceAt_reverse_nested :
    let tree : Node := .plain (.block [.plain (.block [.plain .emptyStmt]), .plain .emptyStmt])
    let selected := ((ofTree tree).root.walk.drop 1).map fun loc =>
      (loc, Node.plain (.ident loc.node.kind))
    (∀ m ∈ tree.nodes, m.id = 0) ∧
    (selected.map (·.1)).Sublist (ofTree tree).root.walk ∧
    (∀ c ∈ selected, ∀ m ∈ c.2.nodes, m.id = 0) ∧
    ∃ after : Workspace,
      selected.reverse.foldlM (fun ws c => ws.replaceAt c.1 c.2) (ofTree tree) = .ok after ∧
      after.root.copy = .plain (.block [.plain (.ident "Block"), .plain (.ident "EmptyStmt")]) := by
  intro tree selected
  have htree : ∀ m ∈ tree.nodes, m.id = 0 := by decide
  have hselected : (selected.map (·.1)).Sublist (ofTree tree).root.walk := by
    rw [List.map_map, show (fun c : Location × Node => c.1) ∘ (fun loc : Location =>
      (loc, Node.plain (.ident loc.node.kind))) = id from rfl, List.map_id]
    exact List.drop_sublist 1 _
  have hnew : ∀ c ∈ selected, ∀ m ∈ c.2.nodes, m.id = 0 := by decide
  obtain ⟨after, -, hrun, -, hcopy⟩ := replaceAt_reverse htree hselected hnew
  exact ⟨htree, hselected, hnew, after, hrun, hcopy⟩

end Workspace

end LoopLowering
