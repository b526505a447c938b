import LoopLowering.Proofs.Tree.Nodes
import Mathlib.Algebra.BigOperators.Group.List.Basic
import Mathlib.Algebra.Order.BigOperators.Group.List
import Mathlib.Algebra.Order.Group.Nat

/-! Trees whose nodes have identities. An identity that occurs once says where its node is: what is
looked up by it is the node on a path, and an edit of it is an edit at the end of that path. -/

namespace LoopLowering

lemma total_eq_sum (ns : List Nat) : Number.total ns = ns.sum := List.sum_eq_foldr.symm

lemma Shape.add_le_sum {s : Shape Node} {c d : Step × Node} (hc : c ∈ s.steps)
    (hd : d ∈ s.steps) (hne : d.1 ≠ c.1) (f : Node → Nat) :
    f c.2 + f d.2 ≤ (s.children.map f).sum := by
  rw [← Shape.map_snd_steps, List.map_map]
  obtain ⟨before, after, hsteps⟩ := List.append_of_mem hc
  have hd' : d ∈ before ++ after := by
    rw [hsteps, List.mem_append, List.mem_cons] at hd
    rcases hd with hd | rfl | hd
    · exact List.mem_append_left _ hd
    · exact absurd rfl hne
    · exact List.mem_append_right _ hd
  have hle : f d.2 ≤ ((before ++ after).map (f ∘ fun c => c.2)).sum :=
    List.single_le_sum (by simp) _ (List.mem_map_of_mem hd')
  rw [List.map_append, List.sum_append] at hle
  rw [hsteps, List.map_append, List.sum_append, List.map_cons, List.sum_cons]
  simp only [Function.comp_apply]
  omega

lemma Shape.le_sum {s : Shape Node} (f : Node → Nat) {c : Node} (hc : c ∈ s.children) :
    f c ≤ (s.children.map f).sum :=
  List.single_le_sum (by simp) _ (List.mem_map_of_mem hc)

namespace Node

def occurrences (k : Nat) (n : Node) : Nat := n.nodes.countP (·.id = k)

lemma id_mk (t : Tag) (s : Shape Node) : (mk t s).id = t.id := rfl

lemma occurrences_mk (k : Nat) (t : Tag) (s : Shape Node) :
    (mk t s).occurrences k =
      (if t.id = k then 1 else 0) + (s.children.map (occurrences k)).sum := by
  rw [occurrences, nodes_mk, List.countP_cons, List.countP_flatMap, Nat.add_comm]
  simp only [decide_eq_true_eq]
  rfl

lemma occurrences_pos (n : Node) : 0 < n.occurrences n.id := by
  obtain ⟨t, s⟩ := n
  rw [occurrences_mk, id_mk, if_pos rfl]
  omega

lemma occurrences_child {t : Tag} {s : Shape Node} {c : Node} (hc : c ∈ s.children) (k : Nat) :
    (if t.id = k then 1 else 0) + c.occurrences k ≤ (mk t s).occurrences k := by
  rw [occurrences_mk]
  exact Nat.add_le_add_left (Shape.le_sum _ hc) _

lemma occurrences_get? {n m : Node} {p : Path} (h : n.get? p = some m) (k : Nat) :
    m.occurrences k ≤ n.occurrences k := by
  induction p generalizing n with
  | nil =>
    obtain rfl : n = m := Option.some.inj h
    exact le_rfl
  | cons st p ih =>
    obtain ⟨t, s⟩ := n
    obtain ⟨c, hc, hm⟩ := Option.bind_eq_some_iff.mp h
    have hc' := occurrences_child (t := t) (Shape.mem_children.mpr ⟨st, child?_eq_some.mp hc⟩) k
    have := ih hm
    omega

lemma occurrences_below {n m : Node} {st : Step} {p : Path} (h : n.get? (st :: p) = some m) :
    m.occurrences n.id < n.occurrences n.id := by
  obtain ⟨t, s⟩ := n
  obtain ⟨c, hc, hm⟩ := Option.bind_eq_some_iff.mp h
  have hc' := occurrences_child (t := t) (Shape.mem_children.mpr ⟨st, child?_eq_some.mp hc⟩) t.id
  have := occurrences_get? hm t.id
  rw [if_pos rfl] at hc'
  rw [id_mk]
  omega

lemma sum_setAt {s : Shape Node} {st : Step} {c : Node} (hc : (st, c) ∈ s.steps) (new : Node)
    (f : Node → Nat) :
    ((s.mapAt fun st' d => if st' = st then new else d).children.map f).sum + f c =
      (s.children.map f).sum + f new := by
  have key : ∀ l : List (Step × Node), (l.map (·.1)).Nodup → (st, c) ∈ l →
      (l.map fun d => f (if d.1 = st then new else d.2)).sum + f c =
        (l.map fun d => f d.2).sum + f new := by
    intro l hl hmem
    induction l with
    | nil => cases hmem
    | cons d l ih =>
      obtain ⟨hd, hl⟩ := List.nodup_cons.mp hl
      simp only [List.map_cons, List.sum_cons]
      rcases List.mem_cons.mp hmem with rfl | hmem
      · have hrest : (l.map fun d => f (if d.1 = st then new else d.2)) = l.map fun d => f d.2 := by
          refine List.map_congr_left fun e he => ?_
          rw [if_neg]
          intro hst
          exact hd (List.mem_map.mpr ⟨e, he, hst⟩)
        rw [hrest, if_pos rfl]
        dsimp only
        omega
      · have hne : d.1 ≠ st := by
          rintro rfl
          exact hd (List.mem_map.mpr ⟨_, hmem, rfl⟩)
        have := ih hl hmem
        rw [if_neg hne]
        omega
  have := key s.steps s.nodup_steps hc
  simpa [← Shape.map_snd_steps, Shape.steps_mapAt, Function.comp_def] using this

lemma mem_steps_unique {s : Shape Node} {st : Step} {c d : Node} (hc : (st, c) ∈ s.steps)
    (hd : (st, d) ∈ s.steps) : d = c :=
  Option.some.inj ((Shape.lookup_steps.mpr hd).symm.trans (Shape.lookup_steps.mpr hc))

lemma setAt_cons_of_child {t : Tag} {s : Shape Node} {st : Step} {c : Node}
    (hc : (st, c) ∈ s.steps) (p : Path) (new : Node) :
    (mk t s).setAt (st :: p) new =
      mk t (s.mapAt fun st' d => if st' = st then c.setAt p new else d) := by
  rw [setAt_cons]
  refine congrArg (mk t) (Shape.mapAt_congr fun d hd => ?_)
  obtain ⟨st', d⟩ := d
  by_cases hst : st' = st
  · subst hst
    simp [mem_steps_unique hc hd]
  · simp [hst]

lemma occurrences_setAt {n old : Node} {p : Path} (h : n.get? p = some old) (new : Node) (k : Nat) :
    (n.setAt p new).occurrences k + old.occurrences k = n.occurrences k + new.occurrences k := by
  induction p generalizing n with
  | nil =>
    obtain rfl : n = old := Option.some.inj h
    exact Nat.add_comm _ _
  | cons st p ih =>
    obtain ⟨t, s⟩ := n
    obtain ⟨c, hc, hold⟩ := Option.bind_eq_some_iff.mp h
    have hmem := child?_eq_some.mp hc
    have hsum := sum_setAt hmem (c.setAt p new) (occurrences k)
    have := ih hold
    rw [setAt_cons_of_child hmem, occurrences_mk, occurrences_mk]
    omega

lemma get?_mem_nodes {n m : Node} {p : Path} (h : n.get? p = some m) : m ∈ n.nodes := by
  induction p generalizing n with
  | nil =>
    obtain rfl : n = m := Option.some.inj h
    obtain ⟨t, s⟩ := n
    rw [nodes_mk]
    exact List.mem_cons_self
  | cons st p ih =>
    obtain ⟨t, s⟩ := n
    obtain ⟨c, hc, hm⟩ := Option.bind_eq_some_iff.mp h
    rw [nodes_mk]
    refine List.mem_cons_of_mem _ (List.mem_flatMap.mpr ⟨c, ?_, ih hm⟩)
    exact Shape.mem_children.mpr ⟨st, child?_eq_some.mp hc⟩

lemma findId?_of_get? {n m : Node} {p : Path} (h : n.get? p = some m)
    (hone : n.occurrences m.id ≤ 1) : n.findId? m.id = some m := by
  have key : ∀ l : List Node, m ∈ l → l.countP (·.id = m.id) ≤ 1 →
      l.find? (·.id = m.id) = some m := by
    intro l hmem hl
    induction l with
    | nil => cases hmem
    | cons d l ih =>
      rw [List.countP_cons] at hl
      by_cases hd : d.id = m.id
      · rcases List.mem_cons.mp hmem with rfl | hmem
        · simp
        · have : 0 < l.countP (·.id = m.id) := List.countP_pos_iff.mpr ⟨m, hmem, by simp⟩
          rw [if_pos (decide_eq_true hd)] at hl
          omega
      · rcases List.mem_cons.mp hmem with rfl | hmem
        · exact absurd rfl hd
        · rw [List.find?_cons_of_neg (by simpa using hd)]
          refine ih hmem ?_
          omega
  exact key _ (get?_mem_nodes h) hone

lemma editId_mk (k : Nat) (f : Shape Node → Shape Node) (t : Tag) (s : Shape Node) :
    (mk t s).editId k f =
      mk t (if t.id = k then f (s.map (editId k f)) else s.map (editId k f)) := by
  rw [editId, fold_mk]

lemma editId_of_absent {k : Nat} {n : Node} (h : n.occurrences k = 0)
    (f : Shape Node → Shape Node) : n.editId k f = n := by
  induction n using children_induction with
  | h t s ih =>
    have hchild : ∀ c ∈ s.children, c.editId k f = c := fun c hc => by
      have := occurrences_child (t := t) hc k
      exact ih c hc (by omega)
    have ht : t.id ≠ k := by
      rintro rfl
      rw [occurrences_mk, if_pos rfl] at h
      omega
    rw [editId_mk, if_neg ht, Shape.map_eq_self hchild]

lemma absent_beside {t : Tag} {s : Shape Node} {c : Node} {st : Step} {k : Nat}
    (hone : (mk t s).occurrences k ≤ 1) (hc : (st, c) ∈ s.steps) (hk : 0 < c.occurrences k) :
    t.id ≠ k ∧ ∀ d ∈ s.steps, d.1 ≠ st → d.2.occurrences k = 0 := by
  rw [occurrences_mk] at hone
  constructor
  · intro ht
    have := Shape.le_sum (occurrences k) (Shape.mem_children.mpr ⟨st, hc⟩)
    rw [if_pos ht] at hone
    omega
  · intro d hd hne
    have := Shape.add_le_sum hc hd hne (occurrences k)
    dsimp only at this
    omega

lemma editId_eq_setAt {n m : Node} {p : Path} {k : Nat} (h : n.get? p = some m) (hm : m.id = k)
    (hone : n.occurrences k ≤ 1) (f : Shape Node → Shape Node) :
    n.editId k f = n.setAt p (mk m.tag (f m.shape)) := by
  induction p generalizing n with
  | nil =>
    obtain rfl : n = m := Option.some.inj h
    obtain ⟨t, s⟩ := n
    have hchild : ∀ c ∈ s.children, c.editId k f = c := fun c hc => by
      have := occurrences_child (t := t) hc k
      rw [if_pos (show t.id = k from hm)] at this
      exact editId_of_absent (by omega) f
    rw [editId_mk, if_pos (show t.id = k from hm), Shape.map_eq_self hchild]
    rfl
  | cons st p ih =>
    obtain ⟨t, s⟩ := n
    obtain ⟨c, hc, hcm⟩ := Option.bind_eq_some_iff.mp h
    have hmem := child?_eq_some.mp hc
    have hpos : 0 < c.occurrences k :=
      (hm ▸ occurrences_pos m).trans_le (occurrences_get? hcm k)
    obtain ⟨ht, hrest⟩ := absent_beside hone hmem hpos
    have hle := occurrences_child (t := t) (Shape.mem_children.mpr ⟨st, hmem⟩) k
    rw [editId_mk, if_neg ht, setAt_cons]
    refine congrArg (mk t) (Shape.mapAt_congr fun d hd => ?_)
    by_cases hst : d.1 = st
    · obtain ⟨st', d⟩ := d
      obtain rfl : st' = st := hst
      obtain rfl := mem_steps_unique hmem hd
      rw [if_pos rfl]
      exact ih hcm (by dsimp only; omega)
    · rw [if_neg hst]
      exact editId_of_absent (hrest d hd hst) f

lemma update_mk (source : Node) (t : Tag) (s : Shape Node) :
    source.update (mk t s) =
      (source.findId? t.id).getD (mk t (s.map source.update)) := by
  rw [update, fold_mk]
  rfl

lemma findId?_eq_none {k : Nat} {n : Node} : n.findId? k = none ↔ n.occurrences k = 0 := by
  simp [findId?, occurrences, List.countP_eq_zero]

lemma update_of_absent {source n : Node}
    (h : ∀ k, 0 < source.occurrences k → n.occurrences k = 0) : source.update n = n := by
  induction n using children_induction with
  | h t s ih =>
    have hchild : ∀ c ∈ s.children, source.update c = c := fun c hc => ih c hc fun k hk => by
      have := h k hk
      have := occurrences_child (t := t) hc k
      omega
    have ht : source.occurrences t.id = 0 := by
      by_contra hne
      have := h t.id (Nat.pos_of_ne_zero hne)
      rw [occurrences_mk, if_pos rfl] at this
      omega
    rw [update_mk, findId?_eq_none.mpr ht, Shape.map_eq_self hchild]
    rfl

lemma update_eq_setAt {source n old : Node} {p : Path} (h : n.get? p = some old)
    (hsource : ∀ k, 0 < source.occurrences k → n.occurrences k ≤ old.occurrences k) :
    source.update n = n.setAt p (source.update old) := by
  induction p generalizing n with
  | nil =>
    obtain rfl : n = old := Option.some.inj h
    rfl
  | cons st p ih =>
    obtain ⟨t, s⟩ := n
    obtain ⟨c, hc, hold⟩ := Option.bind_eq_some_iff.mp h
    have hmem := child?_eq_some.mp hc
    have hin := Shape.mem_children.mpr ⟨st, hmem⟩
    have ht : source.occurrences t.id = 0 := by
      by_contra hne
      have := hsource t.id (Nat.pos_of_ne_zero hne)
      have hle := occurrences_child (t := t) hin t.id
      have := occurrences_get? hold t.id
      rw [if_pos rfl] at hle
      omega
    rw [update_mk, findId?_eq_none.mpr ht, setAt_cons]
    refine congrArg (mk t) (Shape.mapAt_congr fun d hd => ?_)
    by_cases hst : d.1 = st
    · obtain ⟨st', d⟩ := d
      obtain rfl : st' = st := hst
      obtain rfl := mem_steps_unique hmem hd
      rw [if_pos rfl]
      refine ih hold fun k hk => ?_
      have := hsource k hk
      have := occurrences_child (t := t) hin k
      dsimp only
      omega
    · rw [if_neg hst]
      refine update_of_absent fun k hk => ?_
      have hk := hsource k hk
      have hsum := Shape.add_le_sum hmem hd hst (occurrences k)
      have := occurrences_get? hold k
      rw [occurrences_mk] at hk
      dsimp only at hsum
      omega

lemma id_update {source n : Node} (h : source.occurrences n.id = 0) :
    (source.update n).id = n.id := by
  obtain ⟨t, s⟩ := n
  rw [update_mk, findId?_eq_none.mpr (show source.occurrences t.id = 0 from h)]
  rfl

lemma occurrences_of_mem_nodes {n m : Node} (h : m ∈ n.nodes) (k : Nat) :
    m.occurrences k ≤ n.occurrences k := by
  induction n using children_induction with
  | h t s ih =>
    rw [nodes_mk] at h
    rcases List.mem_cons.mp h with rfl | h
    · exact le_rfl
    · obtain ⟨c, hc, hm⟩ := List.mem_flatMap.mp h
      have := ih c hc hm
      have := occurrences_child (t := t) hc k
      omega

lemma occurrences_update {source n : Node} {k : Nat} (hs : source.occurrences k = 0)
    (hn : n.occurrences k = 0) : (source.update n).occurrences k = 0 := by
  induction n using children_induction with
  | h t s ih =>
    rw [update_mk]
    cases hfind : source.findId? t.id with
    | some m =>
      have := occurrences_of_mem_nodes (List.mem_of_find?_eq_some hfind) k
      rw [Option.getD_some]
      omega
    | none =>
      rw [occurrences_mk] at hn
      rw [Option.getD_none, occurrences_mk, Shape.children_map, List.map_map]
      have hsum : (s.children.map (occurrences k ∘ source.update)).sum = 0 := by
        refine List.sum_eq_zero ?_
        simp only [List.forall_mem_map, Function.comp_apply]
        intro c hc
        have := Shape.le_sum (occurrences k) hc
        exact ih c hc (by omega)
      omega

def before (s : Shape Node) (st : Step) : Nat :=
  ((s.steps.takeWhile (·.1 ≠ st)).map fun c => c.2.size).sum

lemma numbering_size (n : Node) : n.numbering.1 = n.size := by
  induction n using children_induction with
  | h t s ih =>
    rw [numbering, fold_mk, size_mk]
    simp only [Shape.children_map, List.map_map]
    congr 2
    exact List.map_congr_left ih

lemma number_mk (k : Nat) (t : Tag) (s : Shape Node) :
    (mk t s).number k = mk { t with id := if t.id = 0 then k else t.id }
      (s.mapAt fun st c => c.number (k + 1 + before s st)) := by
  have hbefore : ∀ st, Number.total ((((s.map numbering).steps.takeWhile (·.1 ≠ st)).map
      (·.2.1))) = before s st := by
    intro st
    rw [total_eq_sum, Shape.map, Shape.steps_mapAt, List.takeWhile_map, List.map_map, before]
    congr 1
    exact List.map_congr_left fun c _ => numbering_size c.2
  rw [number, numbering, fold_mk]
  simp only [Shape.map, Shape.mapAt_mapAt]
  refine congrArg (mk _) (Shape.mapAt_congr fun c _ => ?_)
  rw [← hbefore]
  rfl

lemma copy_mk (t : Tag) (s : Shape Node) : (mk t s).copy = mk { t with id := 0 } (s.map copy) := by
  rw [copy, mapTags, fold_mk]

lemma copy_number (k : Nat) (n : Node) : (n.number k).copy = n.copy := by
  induction n using children_induction generalizing k with
  | h t s ih =>
    rw [number_mk, copy_mk, copy_mk, Shape.map, Shape.mapAt_mapAt]
    refine congrArg (mk _) (Shape.mapAt_congr fun c hc => ?_)
    exact ih c.2 (Shape.mem_children.mpr ⟨c.1, hc⟩) _

lemma occurrences_copy {k : Nat} (hk : k ≠ 0) (n : Node) : n.copy.occurrences k = 0 := by
  induction n using children_induction with
  | h t s ih =>
    rw [copy_mk, occurrences_mk, Shape.children_map, List.map_map, if_neg hk.symm, Nat.zero_add]
    refine List.sum_eq_zero ?_
    simpa using ih

lemma size_number (k : Nat) (n : Node) : (n.number k).size = n.size := by
  induction n using children_induction generalizing k with
  | h t s ih =>
    rw [number_mk, size_mk, size_mk, ← Shape.map_snd_steps, ← Shape.map_snd_steps,
      Shape.steps_mapAt, List.map_map, List.map_map, List.map_map]
    congr 2
    exact List.map_congr_left fun c hc => ih c.2 (Shape.mem_children.mpr ⟨c.1, hc⟩) _

lemma occurrences_number {first : Nat} (hfirst : 0 < first) (n : Node) (k : Nat) :
    (n.number first).occurrences k ≤ (if k = 0 then 0 else n.occurrences k) +
      (if first ≤ k ∧ k < first + n.size then 1 else 0) := by
  induction n using children_induction generalizing first with
  | h t s ih =>
    -- The sums over the children, from any number on.
    have key : ∀ (cs : List (Step × Node)) (b : Nat), 0 < b → (cs.map (·.1)).Nodup →
        (∀ c ∈ cs, c.2 ∈ s.children) →
        (cs.map fun c => (c.2.number (b +
          ((cs.takeWhile (·.1 ≠ c.1)).map fun c => c.2.size).sum)).occurrences k).sum ≤
          (if k = 0 then 0 else (cs.map fun c => c.2.occurrences k).sum) +
            (if b ≤ k ∧ k < b + (cs.map fun c => c.2.size).sum then 1 else 0) := by
      intro cs
      induction cs with
      | nil => simp
      | cons c cs ihs =>
        intro b hb hnodup hmem
        obtain ⟨hc, hnodup⟩ := List.nodup_cons.mp hnodup
        have hhead := ih c.2 (hmem c List.mem_cons_self) hb
        have htail := ihs (b + c.2.size) (by omega) hnodup fun d hd =>
          hmem d (List.mem_cons_of_mem _ hd)
        have hrest : (cs.map fun d => (d.2.number (b + (((c :: cs).takeWhile (·.1 ≠ d.1)).map
            fun c => c.2.size).sum)).occurrences k) =
            cs.map fun d => (d.2.number (b + c.2.size +
              ((cs.takeWhile (·.1 ≠ d.1)).map fun c => c.2.size).sum)).occurrences k := by
          refine List.map_congr_left fun d hd => ?_
          have hne : c.1 ≠ d.1 := fun h => hc (List.mem_map.mpr ⟨d, hd, h.symm⟩)
          rw [List.takeWhile_cons_of_pos (by simpa using hne), List.map_cons, List.sum_cons,
            Nat.add_assoc]
        have hself : (c :: cs).takeWhile (·.1 ≠ c.1) = [] := by simp
        rw [List.map_cons, List.sum_cons, hrest, hself, List.map_cons, List.sum_cons,
          List.map_cons, List.sum_cons, List.map_nil, List.sum_nil, Nat.add_zero]
        split_ifs at hhead htail ⊢ <;> omega
    have hsum := key s.steps (first + 1) (by omega) s.nodup_steps fun c hc =>
      Shape.mem_children.mpr ⟨c.1, hc⟩
    have hsize : (mk t s).size = 1 + (s.steps.map fun c => c.2.size).sum := by
      rw [size_mk, total_eq_sum, ← Shape.map_snd_steps, List.map_map]
      rfl
    have hold : (mk t s).occurrences k = (if t.id = k then 1 else 0) +
        (s.steps.map fun c => c.2.occurrences k).sum := by
      rw [occurrences_mk, ← Shape.map_snd_steps, List.map_map]
      rfl
    rw [hold, hsize, number_mk, occurrences_mk, ← Shape.map_snd_steps, Shape.steps_mapAt,
      List.map_map, List.map_map]
    change _ + (s.steps.map fun c =>
      (c.2.number (first + 1 + before s c.1)).occurrences k).sum ≤ _
    simp only [before]
    split_ifs at hsum ⊢ <;> omega

lemma number_of_told {n : Node} (h : n.occurrences 0 = 0) (k : Nat) : n.number k = n := by
  induction n using children_induction generalizing k with
  | h t s ih =>
    have ht : t.id ≠ 0 := by
      intro ht
      rw [occurrences_mk, if_pos ht] at h
      omega
    rw [number_mk, if_neg ht]
    refine congrArg (mk _) (Shape.mapAt_eq_self fun c hc => ?_)
    have hmem := Shape.mem_children.mpr ⟨c.1, hc⟩
    have := occurrences_child (t := t) hmem 0
    exact ih c.2 hmem (by omega) _

end Node

end LoopLowering
