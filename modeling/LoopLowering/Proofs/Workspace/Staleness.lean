import LoopLowering.Proofs.Workspace.Substitution
import Mathlib.Data.Set.Insert

/-! Replacements at saved locations, in any order. A location is found stale exactly if its own
place was replaced before. The tree and what was taken out of it are seen as one forest, in which
every identity occurs at most once; an edit changes the entry of one place in it, wherever that is
now. -/

namespace LoopLowering

namespace Node

variable {n m root a b : Node} {p q : Path} {k : Nat}

lemma exists_get?_of_mem_nodes (h : m ∈ n.nodes) : ∃ p, n.get? p = some m := by
  obtain ⟨loc, hloc, rfl⟩ := List.mem_map.mp h
  exact ⟨loc.path, Location.within_walk hloc loc loc.self_mem_chain⟩

lemma self_mem_nodes (n : Node) : n ∈ n.nodes := by
  rw [nodes_eq]
  exact List.mem_cons_self

lemma mem_nodes_of_child {c : Node} {st : Step} (h : n.child? st = some c) (hm : m ∈ c.nodes) :
    m ∈ n.nodes := by
  obtain ⟨t, s⟩ := n
  rw [nodes_mk]
  exact List.mem_cons_of_mem _ (List.mem_flatMap.mpr
    ⟨c, Shape.mem_children.mpr ⟨st, child?_eq_some.mp h⟩, hm⟩)

lemma path_unique (hone : root.occurrences a.id ≤ 1) (ha : root.get? p = some a)
    (hb : root.get? q = some b) (hid : b.id = a.id) : p = q := by
  have hbpos : 0 < b.occurrences a.id := hid ▸ b.occurrences_pos
  induction p generalizing root q with
  | nil =>
    obtain rfl : root = a := Option.some.inj ha
    cases q with
    | nil => rfl
    | cons st q =>
      have := occurrences_below hb
      omega
  | cons st p ih =>
    cases q with
    | nil =>
      obtain rfl : root = b := Option.some.inj hb
      have := occurrences_below ha
      have := a.occurrences_pos
      rw [hid] at *
      omega
    | cons st' q =>
      obtain ⟨t, s⟩ := root
      obtain ⟨c, hc, ha⟩ := Option.bind_eq_some_iff.mp ha
      obtain ⟨d, hd, hb⟩ := Option.bind_eq_some_iff.mp hb
      have hcs := child?_eq_some.mp hc
      have hds := child?_eq_some.mp hd
      have hle := occurrences_child (t := t) (Shape.mem_children.mpr ⟨st, hcs⟩) a.id
      by_cases hst : st' = st
      · subst hst
        obtain rfl := mem_steps_unique hcs hds
        rw [ih (by omega) ha hb]
      · have hcpos := a.occurrences_pos.trans_le (occurrences_get? ha a.id)
        have hzero := (absent_beside hone hcs hcpos).2 (st', d) hds hst
        have := occurrences_get? hb a.id
        dsimp only at hzero
        omega

def putChild (st : Step) (new : Node) (s : Shape Node) : Shape Node :=
  s.mapAt fun st' c => if st' = st then new else c

lemma id_editId (k : Nat) (f : Shape Node → Shape Node) (n : Node) : (n.editId k f).id = n.id := by
  obtain ⟨t, s⟩ := n
  rw [editId_mk]
  rfl

lemma child?_editId (k : Nat) (st : Step) (new : Node) {st' : Step} {c : Node}
    (h : n.child? st' = some c) :
    (n.editId k (putChild st new)).child? st' =
      some (if n.id = k ∧ st' = st then new else c.editId k (putChild st new)) := by
  obtain ⟨t, s⟩ := n
  have hmap : (mk t (s.map (editId k (putChild st new)))).child? st' =
      some (c.editId k (putChild st new)) := child?_mapAt (fun _ => editId k (putChild st new)) h
  rw [editId_mk, id_mk]
  by_cases ht : t.id = k
  · rw [if_pos ht, putChild, child?_mapAt _ hmap]
    by_cases hst : st' = st
    · rw [if_pos hst, if_pos ⟨ht, hst⟩]
    · rw [if_neg hst, if_neg fun h => hst h.2]
  · rw [if_neg ht, if_neg fun h => ht h.1, hmap]

lemma mem_nodes_editId {st : Step} {old : Node} (new : Node)
    (hold : ∀ y ∈ n.nodes, y.id = k → y.child? st = some old) (h : m ∈ n.nodes) :
    m.editId k (putChild st new) ∈ (n.editId k (putChild st new)).nodes ∨ m ∈ old.nodes := by
  induction n using children_induction with
  | h t s ih =>
    rw [nodes_mk] at h
    rcases List.mem_cons.mp h with rfl | h
    · exact .inl (self_mem_nodes _)
    · obtain ⟨c, hc, hm⟩ := List.mem_flatMap.mp h
      obtain ⟨st', hc'⟩ := Shape.mem_children.mp hc
      have hchild : (mk t s).child? st' = some c := child?_eq_some.mpr hc'
      rcases ih c hc (fun y hy => hold y (mem_nodes_of_child hchild hy)) hm with hin | hin
      · have hedit := child?_editId k st new hchild
        split at hedit
        · rename_i hplace
          obtain rfl := hplace.2
          have hself := hold _ (self_mem_nodes _) hplace.1
          obtain rfl := Option.some.inj (hchild.symm.trans hself)
          exact .inr hm
        · exact .inl (mem_nodes_of_child hedit hin)
      · exact .inr hin

end Node

def occurring (k : Nat) (trees : List Node) : Nat := (trees.map (Node.occurrences k)).sum

lemma occurring_cons (k : Nat) (tree : Node) (trees : List Node) :
    occurring k (tree :: trees) = tree.occurrences k + occurring k trees := by
  rw [occurring, List.map_cons, List.sum_cons, occurring]

lemma occurrences_le_occurring {tree m : Node} {trees : List Node} (htree : tree ∈ trees)
    (hm : m ∈ tree.nodes) (k : Nat) : m.occurrences k ≤ occurring k trees :=
  (Node.occurrences_of_mem_nodes hm k).trans
    (List.single_le_sum (by simp) _ (List.mem_map_of_mem htree))

lemma findSome?_findId? {tree m : Node} {trees : List Node} (htree : tree ∈ trees)
    (hm : m ∈ tree.nodes) (hone : occurring m.id trees ≤ 1) :
    trees.findSome? (·.findId? m.id) = some m := by
  induction trees with
  | nil => cases htree
  | cons first trees ih =>
    rw [occurring_cons] at hone
    have hmpos := m.occurrences_pos
    rcases List.mem_cons.mp htree with rfl | htree
    · obtain ⟨p, hp⟩ := Node.exists_get?_of_mem_nodes hm
      rw [List.findSome?_cons, Node.findId?_of_get? hp (by omega)]
    · have := occurrences_le_occurring htree hm m.id
      rw [List.findSome?_cons, Node.findId?_eq_none.mpr (by omega)]
      exact ih htree (by omega)

lemma occurring_editId {tree m old : Node} (new : Node) {trees : List Node} {st : Step}
    (htree : tree ∈ trees) (hm : m ∈ tree.nodes) (hone : occurring m.id trees ≤ 1)
    (hold : m.child? st = some old) (k : Nat) :
    occurring k (trees.map (Node.editId m.id (Node.putChild st new))) + old.occurrences k =
      occurring k trees + new.occurrences k := by
  induction trees with
  | nil => cases htree
  | cons first trees ih =>
    have hmpos := m.occurrences_pos
    rw [List.map_cons, occurring_cons, occurring_cons]
    rw [occurring_cons] at hone
    rcases List.mem_cons.mp htree with rfl | htree
    · have hrest : trees.map (Node.editId m.id (Node.putChild st new)) = trees := by
        refine (List.map_congr_left fun other hother => ?_).trans (List.map_id' trees)
        have := occurrences_le_occurring hother other.self_mem_nodes m.id
        have := Node.occurrences_of_mem_nodes hm m.id
        exact Node.editId_of_absent (by omega) _
      obtain ⟨p, hp⟩ := Node.exists_get?_of_mem_nodes hm
      have hset : tree.editId m.id (Node.putChild st new) = tree.setAt (p ++ [st]) new := by
        rw [Node.editId_eq_setAt hp rfl (by omega), Node.setAt_append hp]
        obtain ⟨t, s⟩ := m
        rfl
      have hget : tree.get? (p ++ [st]) = some old := by
        rw [Node.get?_append, hp, Option.bind_some, Node.get?_cons, hold]
        rfl
      have := Node.occurrences_setAt hget new k
      rw [hrest, hset]
      omega
    · have := occurrences_le_occurring htree hm m.id
      rw [Node.editId_of_absent (by omega)]
      have := ih htree (by omega)
      omega

namespace Workspace

def forest (ws : Workspace) : List Node := ws.root :: ws.detached

def Has (ws : Workspace) (m : Node) : Prop := ∃ tree ∈ ws.forest, m ∈ tree.nodes

variable {ws : Workspace} {m n old new : Node} {st : Step} {loc : Location}

lemma lookup_of_has (hm : ws.Has m) (hid : m.id = n.id) (hone : occurring m.id ws.forest ≤ 1) :
    ws.lookup n = m := by
  obtain ⟨tree, htree, hm⟩ := hm
  rw [lookup, ← hid]
  change (ws.forest.findSome? (·.findId? m.id)).getD n = m
  rw [findSome?_findId? htree hm hone]
  rfl

lemma Has.unique (hm : ws.Has m) (hn : ws.Has n) (hid : m.id = n.id)
    (hone : occurring m.id ws.forest ≤ 1) : n = m :=
  (lookup_of_has hn rfl (hid ▸ hone)).symm.trans (lookup_of_has hm hid hone)

def put (ws : Workspace) (above : Node) (st : Step) (old new : Node) : Workspace :=
  ((ws.adopt new).2.detach old).edit above (Node.putChild st (new.number ws.nextId))

lemma replaceAt_below {above : Node} {trail : List (Node × Step)}
    (habove : ws.lookup above = m) (hold : m.child? st = some old) :
    ws.replaceAt ⟨n, (above, st) :: trail⟩ new =
      if old.id = n.id then .ok (ws.put above st old new)
      else .error (.stale ⟨n, (above, st) :: trail⟩) := by
  have hlookup : (ws.adopt new).2.lookup above = m := habove
  simp only [replaceAt]
  rw [hlookup, hold]
  rfl

lemma replaceAt_root : ws.replaceAt ⟨n, []⟩ new =
    if n.id = ws.root.id then
      .ok { (ws.adopt new).2.detach ws.root with root := new.number ws.nextId }
    else .error (.notRoot ⟨n, []⟩) := rfl

/-- Why a location is found stale. -/
def staleness (loc : Location) : TreeError :=
  if loc.trail.isEmpty then .notRoot loc else .stale loc

structure Tracks (root : Node) (replaced : Set Path) (ws : Workspace) : Prop where
  told : ∀ k, occurring k ws.forest ≤ if 0 < k ∧ k < ws.nextId then 1 else 0
  old : ∀ k, 0 < root.occurrences k → k < ws.nextId
  slot : ∀ p n st c, root.get? p = some n → n.child? st = some c →
    ∃ m d, ws.Has m ∧ m.id = n.id ∧ m.child? st = some d ∧ (d.id = c.id ↔ p ++ [st] ∉ replaced)
  reached : ∀ p n, root.get? p = some n → (∀ q ∈ replaced, ¬ q <+: p) →
    ∃ m, ws.root.get? p = some m ∧ m.id = n.id
  gone : ∀ p n, root.get? p = some n → (∃ q ∈ replaced, q <+: p) → ws.root.occurrences n.id = 0

namespace Tracks

variable {root : Node} {replaced : Set Path}

lemma le_one (h : Tracks root replaced ws) (k : Nat) : occurring k ws.forest ≤ 1 := by
  have := h.told k
  split at this <;> omega

lemma next_pos (h : Tracks root replaced ws) : 0 < ws.nextId :=
  (Nat.zero_le _).trans_lt (h.old _ root.occurrences_pos)

lemma occurrences_new (h : Tracks root replaced ws) (hnew : ∀ m ∈ new.nodes, m.id = 0) (k : Nat) :
    (new.number ws.nextId).occurrences k ≤
      if ws.nextId ≤ k ∧ k < ws.nextId + new.size then 1 else 0 := by
  have hnumber := Node.occurrences_number h.next_pos new k
  by_cases hk : k = 0
  · rw [if_pos hk] at hnumber
    omega
  · rw [if_neg hk, Node.occurrences_of_untold hnew hk] at hnumber
    omega

lemma occurrences_new_of_old (h : Tracks root replaced ws) (hnew : ∀ m ∈ new.nodes, m.id = 0)
    {p : Path} (hn : root.get? p = some n) : (new.number ws.nextId).occurrences n.id = 0 := by
  have hold := h.old n.id (n.occurrences_pos.trans_le (Node.occurrences_get? hn _))
  have := h.occurrences_new hnew n.id
  rw [if_neg (by omega)] at this
  omega

lemma id_new_ne (h : Tracks root replaced ws) (hnew : ∀ m ∈ new.nodes, m.id = 0) {p : Path}
    (hn : root.get? p = some n) : (new.number ws.nextId).id ≠ n.id := fun hid => by
  have := h.occurrences_new_of_old hnew hn
  have := (new.number ws.nextId).occurrences_pos
  rw [hid] at this
  omega

lemma parent (h : Tracks root replaced ws) {above : Node} {trail : List (Node × Step)}
    (hloc : Location.Within root ⟨n, (above, st) :: trail⟩) :
    ∃ m d, ws.Has m ∧ m.id = above.id ∧ ws.lookup above = m ∧ m.child? st = some d ∧
      (d.id = n.id ↔ (Location.mk n ((above, st) :: trail)).path ∉ replaced) := by
  have habove := hloc _ (Location.up_mem_chain (Location.self_mem_chain _))
  have hn := hloc _ (Location.self_mem_chain _)
  rw [Location.path_cons] at hn ⊢
  rw [Node.get?_append, habove, Option.bind_some] at hn
  obtain ⟨c, hc, hcn⟩ := Option.bind_eq_some_iff.mp hn
  obtain rfl := Option.some.inj hcn
  obtain ⟨m, d, hm, hid, hd, hiff⟩ := h.slot _ _ _ _ habove hc
  exact ⟨m, d, hm, hid, lookup_of_has hm hid (h.le_one _), hd, hiff⟩

lemma stale (h : Tracks root replaced ws) (hloc : Location.Within root loc)
    (hmem : loc.path ∈ replaced) (new : Node) : ws.replaceAt loc new = .error (staleness loc) := by
  obtain ⟨n, trail⟩ := loc
  cases trail with
  | nil =>
    have hn : root.get? [] = some n := hloc _ (Location.self_mem_chain _)
    have hgone := h.gone [] n hn ⟨[], hmem, List.prefix_rfl⟩
    have hne : ¬ n.id = ws.root.id := fun hid => by
      have := ws.root.occurrences_pos
      rw [← hid] at this
      omega
    rw [replaceAt_root, if_neg hne]
    rfl
  | cons a trail =>
    obtain ⟨above, st⟩ := a
    obtain ⟨m, d, -, -, hlookup, hd, hiff⟩ := h.parent hloc
    rw [replaceAt_below hlookup hd, if_neg fun hid => hiff.mp hid hmem]
    rfl

structure Replaces (ws : Workspace) (replaced : Set Path) (p : Path) (new : Node)
    (after : Workspace) : Prop where
  reached : (∀ q ∈ replaced, ¬ q <+: p) → after.root = ws.root.setAt p new
  gone : (∃ q ∈ replaced, q <+: p) → after.root = ws.root

lemma root_le_one (h : Tracks root replaced ws) (k : Nat) : ws.root.occurrences k ≤ 1 := by
  have := h.le_one k
  rw [forest, occurring_cons] at this
  omega

namespace Replaces

variable {after : Workspace} {p q : Path} {a : Node}

lemma reached_insert (hr : Replaces ws replaced p new after) (h : Tracks root replaced ws)
    (ha : root.get? q = some a) (hq : ∀ r ∈ Insert.insert p replaced, ¬ r <+: q) :
    ∃ m, after.root.get? q = some m ∧ m.id = a.id := by
  obtain ⟨m, hm, hid⟩ := h.reached q a ha fun r hr => hq r (Set.mem_insert_of_mem _ hr)
  by_cases hgone : ∃ r ∈ replaced, r <+: p
  · exact ⟨m, hr.gone hgone ▸ hm, hid⟩
  · rw [hr.reached fun r hr hle => hgone ⟨r, hr, hle⟩]
    obtain ⟨m', hm', hid', -⟩ :=
      get?_setAt_of_not_above Loops.isForLoop_mapAt (hq p (Set.mem_insert _ _)) hm new
    exact ⟨m', hm', hid'.trans hid⟩

lemma gone_insert (hr : Replaces ws replaced p (new.number ws.nextId) after)
    (h : Tracks root replaced ws) (hnew : ∀ m ∈ new.nodes, m.id = 0) (hn : root.get? p = some n)
    (ha : root.get? q = some a) (hq : ∃ r ∈ Insert.insert p replaced, r <+: q) :
    after.root.occurrences a.id = 0 := by
  by_cases hbefore : ∃ r ∈ replaced, r <+: q
  · have hzero := h.gone q a ha hbefore
    by_cases hgone : ∃ r ∈ replaced, r <+: p
    · rw [hr.gone hgone]
      exact hzero
    · have hnot := fun r hr hle => hgone ⟨r, hr, hle⟩
      obtain ⟨m, hm, -⟩ := h.reached p n hn hnot
      have := Node.occurrences_setAt hm (new.number ws.nextId) a.id
      have := h.occurrences_new_of_old hnew ha
      rw [hr.reached hnot]
      omega
  · -- The place is below the one that is replaced now.
    obtain ⟨r, hmem, hle⟩ := hq
    obtain rfl : r = p := (Set.mem_insert_iff.mp hmem).resolve_right fun hr => hbefore ⟨r, hr, hle⟩
    have hnot : ∀ s ∈ replaced, ¬ s <+: r := fun s hs hs' => hbefore ⟨s, hs, hs'.trans hle⟩
    obtain ⟨m, hm, -⟩ := h.reached r n hn hnot
    obtain ⟨m', hm', hid⟩ := h.reached q a ha fun s hs hs' => hbefore ⟨s, hs, hs'⟩
    obtain ⟨below, rfl⟩ := hle
    rw [Node.get?_append, hm, Option.bind_some] at hm'
    have := Node.occurrences_get? hm' a.id
    have := hid ▸ m'.occurrences_pos
    have := h.root_le_one a.id
    have := Node.occurrences_setAt hm (new.number ws.nextId) a.id
    have := h.occurrences_new_of_old hnew ha
    rw [hr.reached hnot]
    omega

end Replaces

lemma replace_root (h : Tracks root replaced ws) (hnew : ∀ m ∈ new.nodes, m.id = 0)
    (hloc : Location.Within root ⟨n, []⟩) (hmem : [] ∉ replaced) :
    ∃ after, ws.replaceAt ⟨n, []⟩ new = .ok after ∧ Tracks root (Insert.insert [] replaced) after ∧
      Replaces ws replaced [] (new.number ws.nextId) after := by
  have hn : root.get? [] = some n := hloc _ (Location.self_mem_chain _)
  have hnil : ∀ q ∈ replaced, ¬ q <+: [] := fun q hq hle => by
    rw [List.prefix_nil.mp hle] at hq
    exact hmem hq
  obtain ⟨m, hm, hid⟩ := h.reached [] n hn hnil
  obtain rfl := Option.some.inj hm
  have hreplaces : Replaces ws replaced [] (new.number ws.nextId)
      { (ws.adopt new).2.detach ws.root with root := new.number ws.nextId } :=
    ⟨fun _ => rfl, fun ⟨q, hq, hle⟩ => absurd hle (hnil q hq)⟩
  rw [replaceAt_root, if_pos hid.symm]
  refine ⟨_, rfl, ⟨fun k => ?_, fun k hk => ?_, fun p a st c ha hc => ?_,
    fun p a ha => hreplaces.reached_insert h ha, fun p a ha => hreplaces.gone_insert h hnew hn ha⟩,
    hreplaces⟩
  · have htold := h.told k
    have hnumber := h.occurrences_new hnew k
    have := h.next_pos
    change occurring k (new.number ws.nextId :: ws.forest) ≤
      if 0 < k ∧ k < ws.nextId + new.size then 1 else 0
    rw [occurring_cons]
    split_ifs at htold hnumber ⊢ <;> omega
  · exact (h.old k hk).trans_le (Nat.le_add_right _ _)
  · obtain ⟨m, d, ⟨tree, htree, hm⟩, hid, hd, hiff⟩ := h.slot p a st c ha hc
    refine ⟨m, d, ⟨tree, List.mem_cons_of_mem _ htree, hm⟩, hid, hd, hiff.trans ?_⟩
    rw [Set.mem_insert_iff, not_or]
    exact (and_iff_right (List.append_ne_nil_of_right_ne_nil p (List.cons_ne_nil st []))).symm

section

variable {above m d : Node} {k : Nat}

lemma absent_of_child (h : Tracks root replaced ws) (hm : ws.Has m) (hd : m.child? st = some d) :
    d.occurrences m.id = 0 := by
  obtain ⟨tree, htree, hm⟩ := hm
  have hbelow := Node.occurrences_below (p := []) (show m.get? [st] = some d by
    rw [Node.get?_cons, hd]
    rfl)
  have := occurrences_le_occurring htree hm m.id
  have := h.le_one m.id
  omega

lemma forest_put (h : Tracks root replaced ws) (hm : ws.Has m) (hid : m.id = above.id)
    (hd : m.child? st = some d) (new : Node) :
    (ws.put above st d new).forest =
      ws.root.editId m.id (Node.putChild st (new.number ws.nextId)) ::
        d :: ws.detached.map (Node.editId m.id (Node.putChild st (new.number ws.nextId))) := by
  have hsame : d.editId m.id (Node.putChild st (new.number ws.nextId)) = d :=
    Node.editId_of_absent (h.absent_of_child hm hd) _
  rw [hid] at hsame ⊢
  change _ :: List.map _ (d :: ws.detached) = _
  rw [List.map_cons, hsame]
  rfl

lemma occurring_forest_put (h : Tracks root replaced ws) (hm : ws.Has m) (hid : m.id = above.id)
    (hd : m.child? st = some d) (new : Node) (k : Nat) :
    occurring k (ws.put above st d new).forest =
      occurring k ws.forest + (new.number ws.nextId).occurrences k := by
  have hforest := h.forest_put hm hid hd new
  obtain ⟨tree, htree, hm⟩ := hm
  have := occurring_editId (new.number ws.nextId) htree hm (h.le_one m.id) hd k
  rw [forest, List.map_cons, occurring_cons] at this
  rw [hforest, occurring_cons, occurring_cons, forest]
  omega

lemma has_put (h : Tracks root replaced ws) (hm : ws.Has m) (hid : m.id = above.id)
    (hd : m.child? st = some d) (new : Node) (hn : ws.Has n) :
    (ws.put above st d new).Has
      (n.editId m.id (Node.putChild st (new.number ws.nextId))) := by
  obtain ⟨tree, htree, hn⟩ := hn
  rw [Has, h.forest_put hm hid hd]
  have hold : ∀ y ∈ tree.nodes, y.id = m.id → y.child? st = some d := fun y hy hym => by
    rw [hm.unique ⟨tree, htree, hy⟩ hym.symm (h.le_one _)]
    exact hd
  rcases Node.mem_nodes_editId (new.number ws.nextId) hold hn with hn | hn
  · refine ⟨_, ?_, hn⟩
    rcases List.mem_cons.mp htree with rfl | htree
    · exact List.mem_cons_self
    · exact List.mem_cons_of_mem _ (List.mem_cons_of_mem _ (List.mem_map_of_mem htree))
  · have hzero := h.absent_of_child hm hd
    have := Node.occurrences_of_mem_nodes hn m.id
    have hsame : n.editId m.id (Node.putChild st (new.number ws.nextId)) = n :=
      Node.editId_of_absent (by omega) _
    exact ⟨d, List.mem_cons_of_mem _ List.mem_cons_self, hsame.symm ▸ hn⟩

lemma replaces_put (h : Tracks root replaced ws) (d new : Node) {p : Path}
    (habove : root.get? p = some above) (hmem : p ++ [st] ∉ replaced) :
    Replaces ws replaced (p ++ [st]) (new.number ws.nextId) (ws.put above st d new) where
  reached hnot := by
    obtain ⟨m, hm, hid⟩ := h.reached p above habove fun q hq hle =>
      hnot q hq (hle.trans (List.prefix_append p [st]))
    change ws.root.editId above.id (Node.putChild st (new.number ws.nextId)) = _
    rw [Node.editId_eq_setAt hm hid (h.root_le_one _), Node.setAt_append hm]
    obtain ⟨t, s⟩ := m
    rfl
  gone hgone := by
    obtain ⟨q, hq, hle⟩ := hgone
    have hle := (List.prefix_concat_iff.mp hle).resolve_left fun heq => hmem (heq ▸ hq)
    exact Node.editId_of_absent (h.gone p above habove ⟨q, hq, hle⟩) _

lemma replace_below (h : Tracks root replaced ws) (hone : ∀ k, root.occurrences k ≤ 1)
    (hnew : ∀ m ∈ new.nodes, m.id = 0) {trail : List (Node × Step)}
    (hloc : Location.Within root ⟨n, (above, st) :: trail⟩)
    (hmem : (Location.mk n ((above, st) :: trail)).path ∉ replaced) :
    ∃ after, ws.replaceAt ⟨n, (above, st) :: trail⟩ new = .ok after ∧
      Tracks root (Insert.insert (Location.mk n ((above, st) :: trail)).path replaced) after ∧
      Replaces ws replaced (Location.mk n ((above, st) :: trail)).path
        (new.number ws.nextId) after := by
  obtain ⟨m, d, hm, hid, hlookup, hd, hiff⟩ := h.parent hloc
  have habove := hloc _ (Location.up_mem_chain (Location.self_mem_chain _))
  have hn := hloc _ (Location.self_mem_chain _)
  rw [replaceAt_below hlookup hd, if_pos (hiff.mpr hmem)]
  rw [Location.path_cons] at hmem hn ⊢
  have hreplaces := h.replaces_put d new habove hmem
  refine ⟨_, rfl, ⟨fun k => ?_, fun k hk => ?_, fun p a st' c ha hc => ?_,
    fun p a ha => hreplaces.reached_insert h ha, fun p a ha => hreplaces.gone_insert h hnew hn ha⟩,
    hreplaces⟩
  · have htold := h.told k
    have hnumber := h.occurrences_new hnew k
    have := h.next_pos
    rw [h.occurring_forest_put hm hid hd]
    change _ ≤ if 0 < k ∧ k < ws.nextId + new.size then 1 else 0
    split_ifs at htold hnumber ⊢ <;> omega
  · exact (h.old k hk).trans_le (Nat.le_add_right _ _)
  · obtain ⟨m₂, d₂, hm₂, hid₂, hd₂, hiff₂⟩ := h.slot p a st' c ha hc
    refine ⟨_, _, h.has_put hm hid hd _ hm₂, (Node.id_editId _ _ _).trans hid₂,
      Node.child?_editId _ _ _ hd₂, ?_⟩
    have hget : root.get? (p ++ [st']) = some c := by
      rw [Node.get?_append, ha, Option.bind_some, Node.get?_cons, hc]
      rfl
    rw [Set.mem_insert_iff, not_or]
    split
    · rename_i hplace
      obtain ⟨hsame, rfl⟩ := hplace
      have hpath := Node.path_unique (hone _) habove ha (hid₂.symm.trans (hsame.trans hid))
      exact iff_of_false (h.id_new_ne hnew hget) fun hnot => hnot.1 (by rw [hpath])
    · rename_i hplace
      rw [Node.id_editId, hiff₂]
      refine (and_iff_right fun heq => hplace ?_).symm
      obtain ⟨rfl, hst⟩ := List.append_inj' heq rfl
      obtain rfl := Option.some.inj (habove.symm.trans ha)
      exact ⟨hid₂.trans hid.symm, List.singleton_inj.mp hst⟩

end

lemma replace (h : Tracks root replaced ws) (hone : ∀ k, root.occurrences k ≤ 1)
    (hnew : ∀ m ∈ new.nodes, m.id = 0) (hloc : Location.Within root loc)
    (hmem : loc.path ∉ replaced) :
    ∃ after, ws.replaceAt loc new = .ok after ∧
      Tracks root (Insert.insert loc.path replaced) after ∧
      Replaces ws replaced loc.path (new.number ws.nextId) after := by
  obtain ⟨n, trail⟩ := loc
  cases trail with
  | nil => exact h.replace_root hnew hloc hmem
  | cons a trail => exact h.replace_below hone hnew hloc hmem

lemma ofTree {tree : Node} (htree : ∀ m ∈ tree.nodes, m.id = 0) :
    Tracks (Workspace.ofTree tree).root ∅ (Workspace.ofTree tree) where
  told k := by
    have := told_ofTree htree k
    rw [forest, occurring_cons]
    exact this
  old _ hk := (told_ofTree htree).lt_of_occurs hk
  slot p n st c hn hc :=
    ⟨n, c, ⟨_, List.mem_cons_self, Node.get?_mem_nodes hn⟩, rfl, hc,
      iff_of_true rfl (Set.notMem_empty _)⟩
  reached _ n hn _ := ⟨n, hn, rfl⟩
  gone _ _ _ := fun ⟨_, hq, _⟩ => absurd hq (Set.notMem_empty _)

end Tracks

/-- Makes a replacement that may fail; then the workspace stays as it is. -/
def attempt (ws : Workspace) (c : Location × Node) : Workspace :=
  match ws.replaceAt c.1 c.2 with
  | .ok after => after
  | .error _ => ws

lemma Tracks.foldl_attempt {root : Node} {replaced : Set Path} {calls : List (Location × Node)}
    (h : Tracks root replaced ws) (hone : ∀ k, root.occurrences k ≤ 1)
    (hcalls : ∀ c ∈ calls, Location.Within root c.1 ∧ ∀ m ∈ c.2.nodes, m.id = 0) :
    Tracks root (replaced ∪ {p | ∃ c ∈ calls, c.1.path = p}) (calls.foldl attempt ws) := by
  induction calls generalizing ws replaced with
  | nil => simpa using h
  | cons c calls ih =>
    obtain ⟨⟨hloc, hnew⟩, hcalls⟩ := List.forall_mem_cons.mp hcalls
    have hnext : Tracks root (Insert.insert c.1.path replaced) (ws.attempt c) := by
      by_cases hmem : c.1.path ∈ replaced
      · rw [Set.insert_eq_of_mem hmem, attempt, h.stale hloc hmem]
        exact h
      · obtain ⟨after, hafter, htracks, -⟩ := h.replace hone hnew hloc hmem
        rw [attempt, hafter]
        exact htracks
    have hset : replaced ∪ {p | ∃ d ∈ c :: calls, d.1.path = p} =
        Insert.insert c.1.path replaced ∪ {p | ∃ d ∈ calls, d.1.path = p} := by
      ext p
      simp only [List.mem_cons, exists_eq_or_imp, Set.mem_union, Set.mem_insert_iff,
        Set.mem_ofPred_eq]
      tauto
    rw [hset]
    exact ih hnext hcalls

/-- After replacements at locations of one walk, in any order and whether they failed or not: a
replacement at a location fails, and changes nothing, exactly if there was one at this location
before. Otherwise the new node stands in the place if the node of the location is still in the tree,
which it is if no replacement was at it or above it; below one that was replaced the tree stays as
it is. -/
theorem replaceAt_any_order {tree : Node} (htree : ∀ m ∈ tree.nodes, m.id = 0)
    {calls : List (Location × Node)}
    (hcalls : ∀ c ∈ calls, c.1 ∈ (ofTree tree).root.walk ∧ ∀ m ∈ c.2.nodes, m.id = 0)
    {loc : Location} (hloc : loc ∈ (ofTree tree).root.walk) {new : Node}
    (hnew : ∀ m ∈ new.nodes, m.id = 0) :
    let ws := calls.foldl attempt (ofTree tree)
    ((∃ c ∈ calls, c.1.path = loc.path) →
      ws.replaceAt loc new = .error (staleness loc) ∧ ws.attempt (loc, new) = ws) ∧
    ((∀ c ∈ calls, c.1.path ≠ loc.path) → ∃ after, ws.replaceAt loc new = .ok after ∧
      ((∃ m ∈ ws.root.nodes, m.id = loc.node.id) →
        after.root = ws.root.setAt loc.path (new.number ws.nextId) ∧
          after.root.get? loc.path = some (new.number ws.nextId)) ∧
      ((∀ m ∈ ws.root.nodes, m.id ≠ loc.node.id) → after.root = ws.root)) ∧
    ((∃ m ∈ ws.root.nodes, m.id = loc.node.id) ↔ ∀ c ∈ calls, ¬ c.1.path <+: loc.path) := by
  intro ws
  have hone := (told_ofTree htree).le_one
  have hwithin := Location.within_walk hloc
  have h : Tracks (ofTree tree).root {p | ∃ c ∈ calls, c.1.path = p} ws := by
    have := (Tracks.ofTree htree).foldl_attempt hone fun c hc =>
      ⟨Location.within_walk (hcalls c hc).1, (hcalls c hc).2⟩
    rwa [Set.empty_union] at this
  have hget := hwithin loc loc.self_mem_chain
  have hthere : (∃ m ∈ ws.root.nodes, m.id = loc.node.id) ↔
      ∀ c ∈ calls, ¬ c.1.path <+: loc.path := by
    refine ⟨fun ⟨m, hm, hid⟩ c hc hle => ?_, fun hnot => ?_⟩
    · have hzero := h.gone _ _ hget ⟨_, ⟨c, hc, rfl⟩, hle⟩
      have := Node.occurrences_of_mem_nodes hm m.id
      have := m.occurrences_pos
      rw [hid] at *
      omega
    · obtain ⟨m, hm, hid⟩ := h.reached _ _ hget fun q ⟨c, hc, hq⟩ => hq ▸ hnot c hc
      exact ⟨m, Node.get?_mem_nodes hm, hid⟩
  refine ⟨fun hmem => ?_, fun hmem => ?_, hthere⟩
  · have hstale := h.stale hwithin hmem new
    exact ⟨hstale, by rw [attempt, hstale]⟩
  · obtain ⟨after, hafter, -, hreplaces⟩ :=
      h.replace hone hnew hwithin fun ⟨c, hc, heq⟩ => hmem c hc heq
    refine ⟨after, hafter, fun hin => ?_, fun hout => ?_⟩
    · have hnot := hthere.mp hin
      have hroot := hreplaces.reached fun q ⟨c, hc, hq⟩ => hq ▸ hnot c hc
      obtain ⟨m, hm, -⟩ := h.reached _ _ hget fun q ⟨c, hc, hq⟩ => hq ▸ hnot c hc
      exact ⟨hroot, hroot ▸ Node.get?_setAt hm _⟩
    · refine hreplaces.gone ?_
      by_contra hnot
      obtain ⟨m, hm, hid⟩ := hthere.mpr fun c hc hle => hnot ⟨_, ⟨c, hc, rfl⟩, hle⟩
      exact hout m hm hid

theorem replaceAt_any_order_twice :
    let tree : Node := .plain (.block [.plain (.block [.plain .emptyStmt])])
    let loc : Location := ⟨(ofTree tree).root.children.headD default,
      [((ofTree tree).root, ⟨"statements", some 0⟩)]⟩
    let calls := [(loc, Node.plain .thisExpr)]
    (∀ m ∈ tree.nodes, m.id = 0) ∧
    (∀ c ∈ calls, c.1 ∈ (ofTree tree).root.walk ∧ ∀ m ∈ c.2.nodes, m.id = 0) ∧
    loc ∈ (ofTree tree).root.walk ∧ (∀ m ∈ (Node.plain .superExpr).nodes, m.id = 0) ∧
    (calls.foldl attempt (ofTree tree)).replaceAt loc (.plain .superExpr) = .error (.stale loc) := by
  intro tree loc calls
  have htree : ∀ m ∈ tree.nodes, m.id = 0 := by decide
  have hloc : loc ∈ (ofTree tree).root.walk := List.mem_cons_of_mem _ List.mem_cons_self
  have hcalls : ∀ c ∈ calls, c.1 ∈ (ofTree tree).root.walk ∧ ∀ m ∈ c.2.nodes, m.id = 0 := by
    intro c hc
    obtain rfl := List.mem_singleton.mp hc
    exact ⟨hloc, by decide⟩
  have hnew : ∀ m ∈ (Node.plain .superExpr).nodes, m.id = 0 := by decide
  exact ⟨htree, hcalls, hloc, hnew,
    ((replaceAt_any_order htree hcalls hloc hnew).1 ⟨_, List.mem_cons_self, rfl⟩).1⟩

/-- Below a block that was replaced a replacement neither fails nor changes the tree. -/
theorem staleness_missed :
    let tree : Node := .plain (.block [.plain (.block [.plain .emptyStmt])])
    ∃ outer ∈ (ofTree tree).root.walk, ∃ inner ∈ (ofTree tree).root.walk, ∃ mid after,
      (ofTree tree).replaceAt outer (.plain .thisExpr) = .ok mid ∧
      (∀ m ∈ mid.root.nodes, m.id ≠ inner.node.id) ∧
      mid.replaceAt inner (.plain .superExpr) = .ok after ∧ after.root = mid.root :=
  ⟨_, List.mem_cons_of_mem _ List.mem_cons_self,
    _, List.mem_cons_of_mem _ (List.mem_cons_of_mem _ List.mem_cons_self), _, _, rfl, by decide, rfl,
    rfl⟩

end Workspace

end LoopLowering
