import LoopLowering.Proofs.Tree.Shape
import LoopLowering.Tree.Path

/-! Folds and paths: a fold is computed from the children of a node, and a subtree that is put in
place is found there again. -/

namespace LoopLowering

namespace Shape

variable {α β : Type}

lemma children_map (f : α → β) (s : Shape α) : (s.map f).children = s.children.map f := by
  simp [map, ← map_snd_steps, steps_mapAt, Function.comp_def]

lemma map_congr {f g : α → β} {s : Shape α} (h : ∀ c ∈ s.children, f c = g c) :
    s.map f = s.map g :=
  mapAt_congr fun c hc => h c.2 (mem_children.mpr ⟨c.1, hc⟩)

lemma map_eq_self {f : α → α} {s : Shape α} (h : ∀ c ∈ s.children, f c = c) : s.map f = s :=
  mapAt_eq_self fun c hc => h c.2 (mem_children.mpr ⟨c.1, hc⟩)

lemma lookup_steps {s : Shape α} {st : Step} {c : α} :
    s.steps.lookup st = some c ↔ (st, c) ∈ s.steps := by
  have key : ∀ l : List (Step × α), (l.map (·.1)).Nodup →
      (l.lookup st = some c ↔ (st, c) ∈ l) := by
    intro l hl
    induction l with
    | nil => simp
    | cons d l ih =>
      obtain ⟨place, child⟩ := d
      obtain ⟨hd, hl⟩ := List.nodup_cons.mp hl
      by_cases h : st = place
      · subst h
        have hnot : (st, c) ∉ l := fun hm => hd (List.mem_map.mpr ⟨_, hm, rfl⟩)
        simp [hnot, eq_comm]
      · have hne : (st == place) = false := by simpa using h
        simp [List.lookup_cons, hne, h, ih hl]
  exact key _ (nodup_steps s)

end Shape

namespace Node

@[simp] lemma shape_mk (t : Tag) (s : Shape Node) : (mk t s).shape = s := rfl

@[simp] lemma tag_mk (t : Tag) (s : Shape Node) : (mk t s).tag = t := rfl

section

variable {β : Type} (alg : Tag → Shape β → β)

lemma foldList_eq (ns : List Node) : foldList alg ns = ns.map (fold alg) := by
  induction ns with
  | nil => rfl
  | cons n ns ih => rw [foldList, ih, List.map_cons]

lemma foldOption_eq (n : Option Node) : foldOption alg n = n.map (fold alg) := by
  cases n <;> rfl

lemma foldOptionList_eq (ns : Option (List Node)) :
    foldOptionList alg ns = ns.map (·.map (fold alg)) := by
  cases ns with
  | none => rfl
  | some ns => simp [foldOptionList, foldList_eq]

lemma foldShape_eq (s : Shape Node) : foldShape alg s = s.map (fold alg) := by
  cases s <;> simp [foldShape, Shape.map, Shape.mapAt, foldList_eq, foldOption_eq,
    foldOptionList_eq, mapIdx_const]

lemma fold_mk (t : Tag) (s : Shape Node) : fold alg (mk t s) = alg t (s.map (fold alg)) := by
  rw [fold, foldShape_eq]

end

lemma size_mk (t : Tag) (s : Shape Node) :
    size (mk t s) = 1 + Number.total (s.children.map size) := by
  rw [size, fold_mk, Shape.children_map]

lemma size_lt_of_mem {t : Tag} {s : Shape Node} {c : Node} (h : c ∈ s.children) :
    c.size < (mk t s).size := by
  have key : ∀ ns : List Node, c ∈ ns → c.size ≤ Number.total (ns.map size) := by
    intro ns hc
    induction ns with
    | nil => cases hc
    | cons n ns ih =>
      rw [List.map_cons, Number.total, List.foldr_cons, ← Number.total]
      rcases List.mem_cons.mp hc with rfl | hc
      · omega
      · have := ih hc
        omega
  rw [size_mk]
  have := key _ h
  omega

lemma children_induction {P : Node → Prop}
    (h : ∀ t s, (∀ c ∈ Shape.children s, P c) → P (mk t s)) (n : Node) : P n := by
  induction hn : n.size using Nat.strongRecOn generalizing n with
  | ind k ih =>
    obtain ⟨t, s⟩ := n
    exact h t s fun c hc => ih c.size (hn ▸ size_lt_of_mem hc) c rfl

lemma child?_eq_some {t : Tag} {s : Shape Node} {st : Step} {c : Node} :
    (mk t s).child? st = some c ↔ (st, c) ∈ s.steps :=
  Shape.lookup_steps

lemma child?_mapAt {t : Tag} {s : Shape Node} {st : Step} {c : Node}
    (f : Step → Node → Node) (h : (mk t s).child? st = some c) :
    (mk t (s.mapAt f)).child? st = some (f st c) := by
  rw [child?_eq_some] at h ⊢
  rw [Shape.steps_mapAt]
  exact List.mem_map.mpr ⟨(st, c), h, rfl⟩

lemma get?_nil (n : Node) : n.get? [] = some n := rfl

lemma get?_cons (n : Node) (st : Step) (path : Path) :
    n.get? (st :: path) = (n.child? st).bind fun c => c.get? path := rfl

lemma get?_append (n : Node) (p q : Path) : n.get? (p ++ q) = (n.get? p).bind (·.get? q) := by
  induction p generalizing n with
  | nil => rfl
  | cons st p ih =>
    rw [List.cons_append, get?_cons, get?_cons]
    cases n.child? st with
    | none => rfl
    | some c => exact ih c

lemma setAt_cons (t : Tag) (s : Shape Node) (st : Step) (path : Path) (new : Node) :
    (mk t s).setAt (st :: path) new =
      mk t (s.mapAt fun st' c => if st' = st then c.setAt path new else c) := rfl

lemma get?_setAt {n m : Node} {p : Path} (h : n.get? p = some m) (new : Node) :
    (n.setAt p new).get? p = some new := by
  induction p generalizing n with
  | nil => rfl
  | cons st p ih =>
    obtain ⟨t, s⟩ := n
    rw [get?_cons, Option.bind_eq_some_iff] at h
    obtain ⟨c, hc, hm⟩ := h
    rw [setAt_cons, get?_cons, child?_mapAt _ hc, if_pos rfl]
    exact ih hm

lemma setAt_setAt (n : Node) (p : Path) (a b : Node) : (n.setAt p a).setAt p b = n.setAt p b := by
  induction p generalizing n with
  | nil => rfl
  | cons st p ih =>
    obtain ⟨t, s⟩ := n
    rw [setAt_cons, setAt_cons, setAt_cons, Shape.mapAt_mapAt]
    refine congrArg (mk t) (Shape.mapAt_congr fun c _ => ?_)
    by_cases hc : c.1 = st
    · simp [hc, ih]
    · simp [hc]

lemma setAt_append {n m : Node} {p : Path} (h : n.get? p = some m) (q : Path) (new : Node) :
    n.setAt (p ++ q) new = n.setAt p (m.setAt q new) := by
  induction p generalizing n with
  | nil =>
    obtain rfl : n = m := Option.some.inj h
    rfl
  | cons st p ih =>
    obtain ⟨t, s⟩ := n
    rw [get?_cons, Option.bind_eq_some_iff] at h
    obtain ⟨c, hc, hm⟩ := h
    rw [List.cons_append, setAt_cons, setAt_cons]
    refine congrArg (mk t) (Shape.mapAt_congr fun d hd => ?_)
    by_cases hst : d.1 = st
    · have hdc : d.2 = c := by
        have hd' := child?_eq_some (t := t).mpr (show (st, d.2) ∈ s.steps from hst ▸ hd)
        exact Option.some.inj (hd'.symm.trans hc)
      simp [hst, hdc, ih hm]
    · simp [hst]

lemma setAt_get? {n m : Node} {p : Path} (h : n.get? p = some m) : n.setAt p m = n := by
  induction p generalizing n with
  | nil => exact (Option.some.inj h).symm
  | cons st p ih =>
    obtain ⟨t, s⟩ := n
    rw [get?_cons, Option.bind_eq_some_iff] at h
    obtain ⟨c, hc, hm⟩ := h
    rw [setAt_cons]
    refine congrArg (mk t) (Shape.mapAt_eq_self fun d hd => ?_)
    by_cases hst : d.1 = st
    · have hdc : d.2 = c := by
        have hd' := child?_eq_some (t := t).mpr (show (st, d.2) ∈ s.steps from hst ▸ hd)
        exact Option.some.inj (hd'.symm.trans hc)
      simp [hst, hdc, ih hm]
    · simp [hst]

end Node

end LoopLowering
