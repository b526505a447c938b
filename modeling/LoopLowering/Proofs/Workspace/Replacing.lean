import LoopLowering.Proofs.Loops.Identity
import LoopLowering.Proofs.Tree.Location
import LoopLowering.Workspace.Lowering

/-! One edit of a workspace. Where all identities are told apart and a saved location is still live,
the edit succeeds and puts the new statement at the end of the path that the location had. -/

namespace LoopLowering

def Node.Told (next : Nat) (n : Node) : Prop :=
  ∀ k, n.occurrences k ≤ if 0 < k ∧ k < next then 1 else 0

namespace Node.Told

variable {next k : Nat} {n : Node}

lemma le_one (h : n.Told next) (k : Nat) : n.occurrences k ≤ 1 := by
  have := h k
  split at this <;> omega

lemma pos_of_occurs (h : n.Told next) (hk : 0 < n.occurrences k) : 0 < k := by
  have := h k
  split at this <;> omega

lemma lt_of_occurs (h : n.Told next) (hk : 0 < n.occurrences k) : k < next := by
  have := h k
  split at this <;> omega

lemma pos (h : n.Told next) : 0 < next :=
  (Nat.zero_le _).trans_lt (h.lt_of_occurs n.occurrences_pos)

end Node.Told

lemma Node.told_number {n : Node} (h : ∀ k, k ≠ 0 → n.occurrences k = 0) {first : Nat}
    (hfirst : 0 < first) : (n.number first).Told (first + n.size) := by
  intro k
  have hle := occurrences_number hfirst n k
  have := h k
  split_ifs at hle ⊢ <;> omega

namespace Workspace

open Loops

/-- A place that a location names still holds the node, perhaps with other children. -/
def Live (isTarget : Shape Node → Bool) (root : Node) (loc : Location) : Prop :=
  ∀ l ∈ loc.chain, ∃ m, root.get? l.path = some m ∧ m.id = l.node.id ∧
    isTarget m.shape = isTarget l.node.shape

lemma live_of_within {isTarget : Shape Node → Bool} {root : Node} {loc : Location}
    (h : loc.Within root) : Live isTarget root loc :=
  fun l hl => ⟨l.node, h l hl, rfl, rfl⟩

lemma get?_setAt_of_not_above {isTarget : Shape Node → Bool}
    (hmap : ∀ (s : Shape Node) f, isTarget (s.mapAt f) = isTarget s) {root m : Node}
    {p q : Path} (hpq : ¬ q <+: p) (h : root.get? p = some m) (new : Node) :
    ∃ m', (root.setAt q new).get? p = some m' ∧ m'.id = m.id ∧
      isTarget m'.shape = isTarget m.shape := by
  induction p generalizing root q with
  | nil =>
    obtain rfl : root = m := Option.some.inj h
    obtain ⟨t, s⟩ := root
    cases q with
    | nil => exact absurd List.prefix_rfl hpq
    | cons st q =>
      refine ⟨_, Node.get?_nil _, rfl, ?_⟩
      rw [Node.setAt_cons, Node.shape_mk, hmap, Node.shape_mk]
  | cons st p ih =>
    obtain ⟨t, s⟩ := root
    obtain ⟨c, hc, hm⟩ := Option.bind_eq_some_iff.mp h
    cases q with
    | nil => exact absurd List.nil_prefix hpq
    | cons st' q =>
      rw [Node.setAt_cons, Node.get?_cons, Node.child?_mapAt _ hc, Option.bind_some]
      by_cases hst : st = st'
      · subst hst
        rw [if_pos rfl]
        exact ih (fun hle => hpq (List.cons_prefix_cons.mpr ⟨rfl, hle⟩)) hm
      · rw [if_neg hst]
        exact ⟨m, hm, rfl, rfl⟩

lemma Live.setAt {isTarget : Shape Node → Bool}
    (hmap : ∀ (s : Shape Node) f, isTarget (s.mapAt f) = isTarget s) {root new : Node}
    {loc : Location} {q : Path} (h : Live isTarget root loc) (hq : ¬ q <+: loc.path) :
    Live isTarget (root.setAt q new) loc := by
  intro l hl
  obtain ⟨m, hm, hid, htarget⟩ := h l hl
  have hnot : ¬ q <+: l.path := fun hle => hq (hle.trans (Location.path_of_mem_chain hl))
  obtain ⟨m', hm', hid', htarget'⟩ := get?_setAt_of_not_above hmap hnot hm new
  exact ⟨m', hm', hid'.trans hid, htarget'.trans htarget⟩

lemma target_mem_chain (loc : Location) : target loc ∈ loc.chain := by
  unfold target
  cases h : (loc.chain.tail.takeWhile fun l => isLabeled l.node).getLast? with
  | none => exact Location.self_mem_chain loc
  | some l =>
    have hmem := (List.takeWhile_prefix _).subset (List.mem_of_getLast? h)
    exact List.mem_of_mem_tail hmem

lemma lookup_of_get? {ws : Workspace} {n m : Node} {p : Path} (h : ws.root.get? p = some m)
    (hid : m.id = n.id) (hone : ws.root.occurrences m.id ≤ 1) : ws.lookup n = m := by
  rw [lookup, List.findSome?_cons, ← hid, Node.findId?_of_get? h hone]
  rfl

lemma replaceAt_of_get? {ws : Workspace} {loc : Location} {old new : Node}
    (hnew : new.occurrences 0 = 0) (hold : ws.root.get? loc.path = some old)
    (hid : old.id = loc.node.id)
    (hup : ∀ parent st trail, loc.trail = (parent, st) :: trail →
      ∃ a, ws.root.get? (Location.mk parent trail).path = some a ∧ a.id = parent.id ∧
        ws.root.occurrences a.id ≤ 1) :
    ∃ after, ws.replaceAt loc new = .ok after ∧ after.root = ws.root.setAt loc.path new ∧
      after.nextId = ws.nextId + new.size := by
  have hnumber : (ws.adopt new).1 = new := Node.number_of_told hnew _
  obtain ⟨n, trail⟩ := loc
  cases trail with
  | nil =>
    obtain rfl : ws.root = old := Option.some.inj hold
    have hok : ws.replaceAt ⟨n, []⟩ new =
        .ok { (ws.adopt new).2.detach ws.root with root := new } := by
      simp only [replaceAt]
      rw [hnumber]
      exact if_pos hid.symm
    exact ⟨_, hok, rfl, rfl⟩
  | cons above trail =>
    obtain ⟨parent, st⟩ := above
    obtain ⟨a, hparent, ha, hone⟩ := hup parent st trail rfl
    have hchild : a.child? st = some old := by
      rw [Location.path_cons, Node.get?_append, hparent, Option.bind_some, Node.get?_cons] at hold
      obtain ⟨c, hc, hold⟩ := Option.bind_eq_some_iff.mp hold
      exact hc.trans hold
    have hlookup : (ws.adopt new).2.lookup parent = a := lookup_of_get? hparent ha hone
    have hok : ws.replaceAt ⟨n, (parent, st) :: trail⟩ new =
        .ok (((ws.adopt new).2.detach old).edit parent fun s =>
          s.mapAt fun st' c => if st' = st then new else c) := by
      simp only [replaceAt]
      rw [hlookup, hnumber, hchild]
      exact if_pos hid
    refine ⟨_, hok, ?_, rfl⟩
    change ws.root.editId parent.id _ = _
    rw [Node.editId_eq_setAt hparent ha (ha ▸ hone), Location.path_cons,
      Node.setAt_append hparent]
    obtain ⟨t, s⟩ := a
    rfl

/-- What is made of the parts of a node: no part is used twice, and the node itself is not. -/
def Thrifty (cur new : Node) : Prop :=
  ∀ k, k ≠ 0 → new.occurrences k ≤ (cur.shape.children.map (Node.occurrences k)).sum

section

variable {ws : Workspace} {loc : Location} {cur new : Node}

lemma Thrifty.add_le (h : Thrifty cur new) {k : Nat} (hk : k ≠ 0) :
    (if cur.id = k then 1 else 0) + new.occurrences k ≤ cur.occurrences k := by
  obtain ⟨t, s⟩ := cur
  rw [Node.occurrences_mk]
  exact Nat.add_le_add_left (h k hk) _

lemma Thrifty.le (h : Thrifty cur new) {k : Nat} (hk : k ≠ 0) :
    new.occurrences k ≤ cur.occurrences k :=
  (Nat.le_add_left _ _).trans (h.add_le hk)

lemma occurrences_above {next : Nat} {root a : Node} {p r : Path} (htold : root.Told next)
    (ha : root.get? p = some a) (hcur : a.get? r = some cur) (hthrift : Thrifty cur new) :
    (new.number next).occurrences a.id = 0 := by
  have hpos : 0 < root.occurrences a.id :=
    a.occurrences_pos.trans_le (Node.occurrences_get? ha _)
  have hone := (Node.occurrences_get? ha a.id).trans (htold.le_one a.id)
  have hid := htold.pos_of_occurs hpos
  have hlt := htold.lt_of_occurs hpos
  have hnumber := Node.occurrences_number htold.pos new a.id
  have hthrift := hthrift.add_le hid.ne'
  rw [if_neg hid.ne', if_neg (by omega)] at hnumber
  cases r with
  | nil =>
    obtain rfl : a = cur := Option.some.inj hcur
    rw [if_pos rfl] at hthrift
    omega
  | cons st r =>
    have := Node.occurrences_below hcur
    omega

lemma told_setAt {next : Nat} {root old : Node} {q r : Path} (htold : root.Told next)
    (hold : root.get? q = some old) (hcur : old.get? r = some cur) (hthrift : Thrifty cur new)
    {bound : Nat} (hbound : next + new.size ≤ bound) :
    (root.setAt q (new.number next)).Told bound := by
  intro k
  have hset := Node.occurrences_setAt hold (new.number next) k
  have hnumber := Node.occurrences_number htold.pos new k
  have hroot := htold k
  have hle := (Node.occurrences_get? hcur k)
  have hle' := (Node.occurrences_get? hold k)
  by_cases hk : k = 0
  · subst hk
    have := htold.pos
    rw [if_pos rfl, if_neg (by omega)] at hnumber
    split_ifs at hroot ⊢ <;> omega
  · have := hthrift.le hk
    rw [if_neg hk] at hnumber
    split_ifs at hnumber hroot ⊢ <;> omega

lemma update_root {next : Nat} {root old : Node} {q r : Path} (htold : root.Told next)
    (hold : root.get? q = some old) (hcur : old.get? r = some cur) (hthrift : Thrifty cur new) :
    (new.number next).update root = root.setAt q ((new.number next).update old) := by
  refine Node.update_eq_setAt hold fun k hk => ?_
  have hnumber := Node.occurrences_number htold.pos new k
  have hroot := htold k
  have := Node.occurrences_get? hcur k
  have := htold.pos
  by_cases hzero : k = 0
  · subst hzero
    rw [if_pos rfl, if_neg (by omega)] at hnumber
    omega
  · have := hthrift.le hzero
    rw [if_neg hzero] at hnumber
    split_ifs at hnumber hroot <;> omega

lemma above_update {next : Nat} {root a old : Node} {p r r' : Path} {st : Step}
    (htold : root.Told next) (ha : root.get? p = some a) (hold : a.get? (st :: r) = some old)
    (hcur : old.get? r' = some cur) (hthrift : Thrifty cur new) :
    (root.setAt (p ++ st :: r) ((new.number next).update old)).occurrences a.id ≤ 1 := by
  have hget : root.get? (p ++ st :: r) = some old := by
    rw [Node.get?_append, ha]
    exact hold
  have hcur' : a.get? (st :: r ++ r') = some cur := by
    rw [Node.get?_append, hold]
    exact hcur
  have hbelow : old.occurrences a.id = 0 := by
    have := Node.occurrences_below hold
    have := (Node.occurrences_get? ha a.id).trans (htold.le_one a.id)
    omega
  have hupdate := Node.occurrences_update (occurrences_above htold ha hcur' hthrift) hbelow
  have := Node.occurrences_setAt hget ((new.number next).update old) a.id
  have := htold.le_one a.id
  omega

lemma putLowered_of_live {isTarget : Shape Node → Bool}
    (hmap : ∀ (s : Shape Node) f, isTarget (s.mapAt f) = isTarget s)
    (htold : ws.root.Told ws.nextId) (hlive : Live isTarget ws.root loc)
    (hcur : ws.root.get? loc.path = some cur) (hthrift : Thrifty cur new) :
    ∃ after, ws.putLowered loc new = (after, none) ∧
      after.root = Lowering.put ws.root loc (new.number ws.nextId) ∧
      after.nextId = ws.nextId + new.size + new.size ∧ after.root.Told after.nextId := by
  have hmem := target_mem_chain loc
  obtain ⟨old, hold, hid, -⟩ := hlive _ hmem
  obtain ⟨r, hr⟩ := Location.path_of_mem_chain hmem
  have hcur' : old.get? r = some cur := by
    rw [← hr, Node.get?_append, hold] at hcur
    exact hcur
  have hnew : (new.number ws.nextId).occurrences 0 = 0 := by
    have hnumber := Node.occurrences_number htold.pos new 0
    have := htold.pos
    rw [if_pos rfl, if_neg (by omega)] at hnumber
    omega
  have hsettled : (ws.settle new).2.root =
      ws.root.setAt (target loc).path ((new.number ws.nextId).update old) :=
    update_root htold hold hcur' hthrift
  have hget : (ws.settle new).2.root.get? (target loc).path =
      some ((new.number ws.nextId).update old) := by
    rw [hsettled]
    exact Node.get?_setAt hold _
  have hparent : ∀ parent st trail, (target loc).trail = (parent, st) :: trail →
      ∃ a, (ws.settle new).2.root.get? (Location.mk parent trail).path = some a ∧
        a.id = parent.id ∧ (ws.settle new).2.root.occurrences a.id ≤ 1 := by
    intro parent st trail htrail
    have hpath : (target loc).path = (Location.mk parent trail).path ++ [st] := by
      rw [← Location.path_cons (target loc).node, ← htrail]
    have htarget : Location.mk (target loc).node ((parent, st) :: trail) ∈ loc.chain := by
      rw [← htrail]
      exact hmem
    obtain ⟨a, ha, haid, -⟩ := hlive _ (Location.up_mem_chain htarget)
    have hchild : a.get? [st] = some old := by
      rw [hpath, Node.get?_append, ha] at hold
      exact hold
    have hnot : ¬ (target loc).path <+: (Location.mk parent trail).path := by
      intro hle
      have := hle.length_le
      rw [hpath, List.length_append, List.length_singleton] at this
      omega
    obtain ⟨a', ha', haid', -⟩ :=
      get?_setAt_of_not_above hmap hnot ha ((new.number ws.nextId).update old)
    refine ⟨a', by rw [hsettled]; exact ha', haid'.trans haid, ?_⟩
    rw [hsettled, haid', hpath]
    exact above_update htold ha hchild hcur' hthrift
  have hsame := (Node.id_update (occurrences_above htold hold hcur' hthrift)).trans hid
  obtain ⟨after, hafter, hroot, hnext⟩ := replaceAt_of_get? hnew hget hsame hparent
  rw [hsettled, Node.setAt_setAt] at hroot
  rw [Node.size_number] at hnext
  have hput : ws.putLowered loc new = (after, none) := by
    unfold putLowered
    dsimp only
    rw [show (ws.settle new).1 = new.number ws.nextId from rfl, hafter]
  refine ⟨after, hput, hroot, hnext, ?_⟩
  rw [hroot, hnext]
  exact told_setAt htold hold hcur' hthrift (Nat.le_add_right _ _)

end

end Workspace

end LoopLowering
