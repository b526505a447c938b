import LoopLowering.Loops.Lowering
import LoopLowering.Proofs.Tree.Placement
import LoopLowering.Proofs.Tree.Walk

/-! A pass that visits the locations of its loops from the last to the first does what a recursion
over the tree does: the children of a node before the node, the last child first. The visits may
have effects, such as the numbering of labels or a fault. -/

namespace LoopLowering.Loops

section

variable {α β : Type}

def labeledBody? : Shape α → Option (String × α)
  | .labeled l body => some (l, body)
  | _ => none

lemma labeledBody?_eq_some {s : Shape α} {l : String} {body : α} :
    labeledBody? s = some (l, body) ↔ s = .labeled l body := by
  cases s <;> simp [labeledBody?]

lemma labeledBody?_map (f : α → β) (s : Shape α) :
    labeledBody? (s.map f) = (labeledBody? s).map fun p => (p.1, f p.2) := by
  cases s <;> rfl

lemma labeledBody?_mapAt_eq_none {f : Step → α → β} {s : Shape α} (h : labeledBody? s = none) :
    labeledBody? (s.mapAt f) = none := by
  cases s <;> simp_all [labeledBody?, Shape.mapAt]

end

variable {M : Type → Type} [Monad M]

def fromLast : List (Step × M Node) → M (List (Step × Node))
  | [] => return []
  | (st, c) :: cs => do
    let rest ← fromLast cs
    return (st, ← c) :: rest

def refill {α : Type} (s : Shape α) (cs : List (Step × Node)) : Shape Node :=
  s.mapAt fun st _ => (cs.lookup st).getD default

def underLabels (labels : List (Tag × String)) (n : Node) : Node :=
  labels.foldr (fun l body => .mk l.1 (.labeled l.2 body)) n

section

variable (isTarget : Shape Node → Bool) (rewrite : List String → Node → M Node)

/-- Rewrites the loops of a tree that stands right under labels; the result takes the place of the
labels too. -/
def rewritten : Node → (labels : List (Tag × String)) → M Node :=
  Node.fold fun t s labels =>
    match labeledBody? s with
    | some (l, body) => body (labels ++ [(t, l)])
    | none => do
      let s := refill s (← fromLast (s.steps.map fun c => (c.1, c.2 [])))
      if isTarget s then rewrite (labels.map (·.2)) (.mk t s)
      else return underLabels labels (.mk t s)

def visit (tree : Node) (loc : Location) : M Node :=
  match tree.get? loc.path with
  | none => return tree
  | some loop => do return Lowering.put tree loc (← rewrite (labelsAbove loc) loop)

lemma rewritten_labeled (t : Tag) (l : String) (body : Node) (labels : List (Tag × String)) :
    rewritten isTarget rewrite (.mk t (.labeled l body)) labels =
      rewritten isTarget rewrite body (labels ++ [(t, l)]) := by
  simp only [rewritten, Node.fold_mk, Shape.map, Shape.mapAt, labeledBody?]

lemma rewritten_of_not_labeled {t : Tag} {s : Shape Node} (h : labeledBody? s = none)
    (labels : List (Tag × String)) :
    rewritten isTarget rewrite (.mk t s) labels = (do
      let cs ← fromLast (s.steps.map fun c => (c.1, rewritten isTarget rewrite c.2 []))
      if isTarget (refill s cs) then rewrite (labels.map (·.2)) (.mk t (refill s cs))
      else return underLabels labels (.mk t (refill s cs))) := by
  rw [rewritten, Node.fold_mk, labeledBody?_map, h, Option.map_none]
  simp only [Shape.map, Shape.steps_mapAt, List.map_map, Function.comp_def, refill,
    Shape.mapAt_mapAt]
  rfl

lemma rewritten_underLabels (a b : List (Tag × String)) (n : Node) :
    rewritten isTarget rewrite (underLabels b n) a = rewritten isTarget rewrite n (a ++ b) := by
  induction b generalizing a with
  | nil => rw [List.append_nil]; rfl
  | cons l b ih =>
    have := ih (a ++ [l])
    rw [List.append_assoc, List.singleton_append] at this
    rw [← this]
    exact rewritten_labeled isTarget rewrite l.1 l.2 (underLabels b n) a

end

def tagsAbove : List (Node × Step) → List (Tag × String)
  | (.mk t (.labeled l _), _) :: trail => tagsAbove trail ++ [(t, l)]
  | _ => []

def topPath : List (Node × Step) → Path
  | (.mk _ (.labeled _ _), _) :: trail => topPath trail
  | trail => (trail.map (·.2)).reverse

def Coherent (trail : List (Node × Step)) : Prop :=
  ∀ a ∈ trail, isLabeled a.1 = true → a.2 = ⟨"body", none⟩

lemma isLabeled_mk (t : Tag) (s : Shape Node) :
    isLabeled (.mk t s) = (labeledBody? s).isSome := by
  cases s <;> rfl

lemma tagsAbove_cons {t : Tag} {s : Shape Node} (h : labeledBody? s = none) (st : Step)
    (trail : List (Node × Step)) : tagsAbove ((.mk t s, st) :: trail) = [] := by
  cases s <;> simp_all [labeledBody?, tagsAbove]

lemma topPath_cons {t : Tag} {s : Shape Node} (h : labeledBody? s = none) (st : Step)
    (trail : List (Node × Step)) :
    topPath ((.mk t s, st) :: trail) = (trail.map (·.2)).reverse ++ [st] := by
  cases s <;> simp_all [labeledBody?, topPath]

lemma labelsAbove_eq (n : Node) (trail : List (Node × Step)) :
    labelsAbove ⟨n, trail⟩ = (tagsAbove trail).map (·.2) := by
  induction trail with
  | nil => rfl
  | cons a trail ih =>
    obtain ⟨⟨t, s⟩, st⟩ := a
    cases hs : labeledBody? s with
    | none =>
      rw [tagsAbove_cons hs, labelsAbove, List.takeWhile_cons, isLabeled_mk, hs]
      rfl
    | some p =>
      obtain rfl := labeledBody?_eq_some.mp hs
      rw [tagsAbove, List.map_append, ← ih]
      simp [labelsAbove, isLabeled, label?, Node.shape]

lemma chainFrom_eq_cons (n : Node) (trail : List (Node × Step)) :
    Location.chainFrom n trail = ⟨n, trail⟩ :: (Location.chainFrom n trail).tail := by
  cases trail <;> rfl

lemma target_eq (n : Node) (trail : List (Node × Step)) :
    (target ⟨n, trail⟩).path = topPath trail := by
  induction trail generalizing n with
  | nil => rfl
  | cons a trail ih =>
    obtain ⟨⟨t, s⟩, st⟩ := a
    have hchain : (Location.mk n ((.mk t s, st) :: trail)).chain.tail =
        ⟨.mk t s, trail⟩ :: (Location.mk (.mk t s) trail).chain.tail := chainFrom_eq_cons _ trail
    cases hs : labeledBody? s with
    | none =>
      rw [topPath_cons hs, target, hchain, List.takeWhile_cons, isLabeled_mk, hs]
      simp [Location.path]
    | some p =>
      have htarget : target ⟨n, (.mk t s, st) :: trail⟩ = target ⟨.mk t s, trail⟩ := by
        rw [target, hchain, List.takeWhile_cons, isLabeled_mk, hs, Option.isSome_some,
          if_pos rfl, List.getLast?_cons]
        rfl
      obtain rfl := labeledBody?_eq_some.mp hs
      rw [htarget, ih]
      rfl

def bodyPath (labels : List (Tag × String)) : Path := labels.map fun _ => ⟨"body", none⟩

lemma path_eq {trail : List (Node × Step)} (h : Coherent trail) :
    (trail.map (·.2)).reverse = topPath trail ++ bodyPath (tagsAbove trail) := by
  induction trail with
  | nil => rfl
  | cons a trail ih =>
    obtain ⟨⟨t, s⟩, st⟩ := a
    have hrest : Coherent trail := fun a ha => h a (List.mem_cons_of_mem _ ha)
    cases hs : labeledBody? s with
    | none => simp [tagsAbove_cons hs, topPath_cons hs, bodyPath]
    | some p =>
      have hst : st = ⟨"body", none⟩ := h _ List.mem_cons_self (by simp [isLabeled_mk, hs])
      obtain rfl := labeledBody?_eq_some.mp hs
      rw [List.map_cons, List.reverse_cons, ih hrest, tagsAbove, topPath, hst]
      simp [bodyPath]

lemma underLabels_cons (l : Tag × String) (labels : List (Tag × String)) (n : Node) :
    underLabels (l :: labels) n = .mk l.1 (.labeled l.2 (underLabels labels n)) := rfl

lemma underLabels_append (a b : List (Tag × String)) (n : Node) :
    underLabels (a ++ b) n = underLabels a (underLabels b n) := List.foldr_append

lemma get?_underLabels (labels : List (Tag × String)) (n : Node) :
    (underLabels labels n).get? (bodyPath labels) = some n := by
  induction labels with
  | nil => rfl
  | cons l labels ih => exact ih

lemma setAt_underLabels (labels : List (Tag × String)) (n new : Node) :
    (underLabels labels n).setAt (bodyPath labels) new = underLabels labels new := by
  induction labels with
  | nil => rfl
  | cons l labels ih =>
    exact congrArg (fun b => Node.mk l.1 (.labeled l.2 b)) ih

lemma get?_path {tree n : Node} {trail : List (Node × Step)} (hc : Coherent trail)
    (h : tree.get? (topPath trail) = some (underLabels (tagsAbove trail) n)) :
    tree.get? (trail.map (·.2)).reverse = some n := by
  rw [path_eq hc, Node.get?_append, h]
  exact get?_underLabels _ n

lemma setAt_path {tree n : Node} {trail : List (Node × Step)} (hc : Coherent trail)
    (h : tree.get? (topPath trail) = some (underLabels (tagsAbove trail) n)) (new : Node) :
    tree.setAt (trail.map (·.2)).reverse new =
      tree.setAt (topPath trail) (underLabels (tagsAbove trail) new) := by
  rw [path_eq hc, Node.setAt_append h, setAt_underLabels]

section

variable [LawfulMonad M]

lemma fromLast_bind_congr {γ : Type} {cs : List (Step × M Node)}
    {f g : List (Step × Node) → M γ}
    (h : ∀ new, new.map (·.1) = cs.map (·.1) → f new = g new) :
    fromLast cs >>= f = fromLast cs >>= g := by
  induction cs generalizing f g with
  | nil => simpa [fromLast] using h [] rfl
  | cons c cs ih =>
    simp only [fromLast, bind_assoc, pure_bind]
    refine ih fun new hnew => ?_
    refine bind_congr fun x => h _ ?_
    rw [List.map_cons, List.map_cons, hnew]

def withChildren (n : Node) (new : List (Step × Node)) : Node :=
  .mk n.tag (n.shape.mapAt fun st c => (new.lookup st).getD c)

lemma withChildren_nil (n : Node) : withChildren n [] = n := by
  obtain ⟨t, s⟩ := n
  exact congrArg (Node.mk t) (Shape.mapAt_id s)

lemma withChildren_cons (n : Node) (new : List (Step × Node)) (st : Step) (c : Node) :
    (withChildren n new).setAt [st] c = withChildren n ((st, c) :: new) := by
  obtain ⟨t, s⟩ := n
  rw [withChildren, Node.setAt_cons, Shape.mapAt_mapAt]
  refine congrArg (Node.mk t) (Shape.mapAt_congr fun d _ => ?_)
  by_cases hd : d.1 = st
  · simp [hd, Node.setAt]
  · have : (d.1 == st) = false := by simpa using hd
    simp [hd, List.lookup_cons, this]

lemma lookup_eq_none {α : Type} {l : List (Step × α)} {st : Step} (h : st ∉ l.map (·.1)) :
    l.lookup st = none := by
  rw [List.lookup_eq_none_iff]
  intro c hc
  rw [bne_iff_ne]
  rintro rfl
  exact h (List.mem_map_of_mem hc)

lemma child?_withChildren {n c : Node} {new : List (Step × Node)} {st : Step}
    (hc : n.child? st = some c) (hnew : st ∉ new.map (·.1)) :
    (withChildren n new).child? st = some c := by
  obtain ⟨t, s⟩ := n
  have := Node.child?_mapAt (fun st c => (new.lookup st).getD c) hc
  rwa [lookup_eq_none hnew, Option.getD_none] at this

variable {isTarget : Shape Node → Bool} {rewrite : List String → Node → M Node}

def targets (isTarget : Shape Node → Bool) (n : Node) (trail : List (Node × Step)) :
    List Location :=
  ((Location.preorder n trail).filter fun loc => isTarget loc.node.shape).reverse

lemma targets_mk (t : Tag) (s : Shape Node) (trail : List (Node × Step)) :
    targets isTarget (.mk t s) trail =
      (s.steps.reverse.flatMap fun c => targets isTarget c.2 ((.mk t s, c.1) :: trail)) ++
        if isTarget s then [⟨.mk t s, trail⟩] else [] := by
  rw [targets, Location.preorder_mk, List.filter_cons]
  cases hs : isTarget s <;>
    simp [hs, targets, List.filter_flatMap, List.reverse_flatMap, Function.comp_def]

lemma foldlM_children {n tree : Node} {path : Path} {cs : List (Step × Node)}
    {locs : Step × Node → List Location} (hget : tree.get? path = some n)
    (hcs : ∀ c ∈ cs, n.child? c.1 = some c.2) (hnodup : (cs.map (·.1)).Nodup)
    (hvisit : ∀ c ∈ cs, ∀ tree : Node, tree.get? (path ++ [c.1]) = some c.2 →
      (locs c).foldlM (visit rewrite) tree =
        return tree.setAt (path ++ [c.1]) (← rewritten isTarget rewrite c.2 [])) :
    (cs.reverse.flatMap locs).foldlM (visit rewrite) tree = (do
      let new ← fromLast (cs.map fun c => (c.1, rewritten isTarget rewrite c.2 []))
      return tree.setAt path (withChildren n new)) := by
  induction cs with
  | nil => simp [fromLast, withChildren_nil, Node.setAt_get? hget]
  | cons c cs ih =>
    obtain ⟨hc, hnodup⟩ := List.nodup_cons.mp hnodup
    have hrest := ih (fun d hd => hcs d (List.mem_cons_of_mem _ hd)) hnodup
      (fun d hd => hvisit d (List.mem_cons_of_mem _ hd))
    rw [List.reverse_cons, List.flatMap_append, List.foldlM_append, hrest]
    simp only [bind_assoc, pure_bind, List.map_cons, fromLast, List.flatMap_cons,
      List.flatMap_nil, List.append_nil]
    refine fromLast_bind_congr fun new hnew => ?_
    -- The children after this one have changed, and this one is still in its place.
    have hkeys : c.1 ∉ new.map (·.1) := by
      rwa [hnew, List.map_map, Function.comp_def]
    have hchild : (tree.setAt path (withChildren n new)).get? (path ++ [c.1]) = some c.2 := by
      rw [Node.get?_append, Node.get?_setAt hget, Option.bind_some, Node.get?_cons,
        child?_withChildren (hcs c List.mem_cons_self) hkeys]
      rfl
    rw [hvisit c List.mem_cons_self _ hchild]
    refine bind_congr fun x => ?_
    rw [Node.setAt_append (Node.get?_setAt hget _), Node.setAt_setAt, withChildren_cons]

lemma refill_steps {s : Shape Node} {new : List (Step × Node)} (t : Tag)
    (h : new.map (·.1) = s.steps.map (·.1)) :
    withChildren (.mk t s) new = .mk t (refill s new) := by
  refine congrArg (Node.mk t) (Shape.mapAt_congr fun c hc => ?_)
  have hmem : c.1 ∈ new.map (·.1) := h ▸ List.mem_map_of_mem hc
  obtain ⟨x, hx⟩ : ∃ x, new.lookup c.1 = some x := by
    obtain ⟨d, hd, hdc⟩ := List.mem_map.mp hmem
    rw [← Option.isSome_iff_exists, List.lookup_isSome_iff]
    exact ⟨d, hd, by simp [hdc]⟩
  simp [hx]

theorem foldlM_targets (hmap : ∀ (s : Shape Node) f, isTarget (s.mapAt f) = isTarget s)
    (hlabel : ∀ l b, isTarget (.labeled l b) = false) {n tree : Node}
    {trail : List (Node × Step)} (hc : Coherent trail)
    (h : tree.get? (topPath trail) = some (underLabels (tagsAbove trail) n)) :
    (targets isTarget n trail).foldlM (visit rewrite) tree =
      return tree.setAt (topPath trail) (← rewritten isTarget rewrite n (tagsAbove trail)) := by
  induction n using Node.children_induction generalizing tree trail with
  | h t s ih =>
    rw [targets_mk, List.foldlM_append]
    cases hs : labeledBody? s with
    | some p =>
      obtain ⟨l, body⟩ := p
      obtain rfl := labeledBody?_eq_some.mp hs
      have hbody : body ∈ (Shape.labeled l body).children := List.mem_cons_self
      have hc' : Coherent ((.mk t (.labeled l body), ⟨"body", none⟩) :: trail) := by
        intro a ha
        rcases List.mem_cons.mp ha with rfl | ha
        · exact fun _ => rfl
        · exact hc a ha
      have h' : tree.get? (topPath trail) = some (underLabels (tagsAbove trail ++ [(t, l)]) body) :=
        h.trans (congrArg some (underLabels_append _ [(t, l)] body).symm)
      have hrec := ih body hbody hc' h'
      rw [rewritten_labeled, hlabel]
      simpa [Shape.steps, Shape.parts, Part.steps, topPath, tagsAbove] using hrec
    | none =>
      have hget := get?_path hc h
      have hvisit : ∀ c ∈ s.steps, ∀ tree : Node,
          tree.get? ((trail.map (·.2)).reverse ++ [c.1]) = some c.2 →
            (targets isTarget c.2 ((.mk t s, c.1) :: trail)).foldlM (visit rewrite) tree =
              return tree.setAt ((trail.map (·.2)).reverse ++ [c.1])
                (← rewritten isTarget rewrite c.2 []) := by
        intro c hmem tree hget
        have hc' : Coherent ((.mk t s, c.1) :: trail) := by
          intro a ha
          rcases List.mem_cons.mp ha with rfl | ha
          · simp [isLabeled_mk, hs]
          · exact hc a ha
        rw [← topPath_cons (t := t) hs, ← tagsAbove_cons (t := t) hs c.1 trail]
        rw [← topPath_cons (t := t) hs] at hget
        refine ih c.2 (Shape.mem_children.mpr ⟨c.1, hmem⟩) hc' ?_
        rwa [tagsAbove_cons hs]
      have hchildren := foldlM_children hget (fun c hc => Node.child?_eq_some.mpr hc)
        (Shape.nodup_steps s) hvisit
      rw [hchildren, rewritten_of_not_labeled _ _ hs, bind_assoc, bind_assoc]
      refine fromLast_bind_congr fun new hnew => ?_
      have hkeys : new.map (·.1) = s.steps.map (·.1) := by
        rw [hnew, List.map_map]
        rfl
      have hsame : isTarget (refill s new) = isTarget s := hmap s _
      rw [pure_bind, refill_steps t hkeys, setAt_path hc h, hsame]
      cases isTarget s with
      | false => simp
      | true =>
        have hloop : (tree.setAt (topPath trail)
            (underLabels (tagsAbove trail) (.mk t (refill s new)))).get?
              (Location.mk (.mk t s) trail).path = some (.mk t (refill s new)) :=
          get?_path hc (Node.get?_setAt h _)
        simp [visit, hloop, Lowering.put, target_eq, labelsAbove_eq, Node.setAt_setAt]

lemma fromLast_pure {α : Type} (f : Step × α → Node) (cs : List (Step × α)) :
    fromLast (M := M) (cs.map fun c => (c.1, pure (f c))) = pure (cs.map fun c => (c.1, f c)) := by
  induction cs with
  | nil => rfl
  | cons c cs ih => simp [fromLast, ih]

lemma fromLast_map (f : Node → Node) (cs : List (Step × M Node)) :
    fromLast (cs.map fun c => (c.1, f <$> c.2)) =
      (·.map fun c => (c.1, f c.2)) <$> fromLast cs := by
  induction cs with
  | nil => simp [fromLast]
  | cons c cs ih => simp [fromLast, ih]

lemma refill_steps_mapAt (f : Step → Node → Node) (s : Shape Node) :
    refill s (s.mapAt f).steps = s.mapAt f := by
  refine Shape.mapAt_congr fun c hc => ?_
  have hlookup : (s.mapAt f).steps.lookup c.1 = some (f c.1 c.2) := by
    rw [Shape.lookup_steps, Shape.steps_mapAt]
    exact List.mem_map.mpr ⟨c, hc, rfl⟩
  rw [hlookup, Option.getD_some]

lemma rewritten_of_children {t : Tag} {s : Shape Node} {g : Node → Node}
    (hs : labeledBody? s = none)
    (hg : ∀ c ∈ s.children, rewritten isTarget rewrite c [] = pure (g c))
    (labels : List (Tag × String)) :
    rewritten isTarget rewrite (.mk t s) labels =
      if isTarget (s.map g) then rewrite (labels.map (·.2)) (.mk t (s.map g))
      else pure (underLabels labels (.mk t (s.map g))) := by
  have hcs : s.steps.map (fun c => (c.1, rewritten isTarget rewrite c.2 [])) =
      s.steps.map fun c => (c.1, pure (g c.2)) := by
    refine List.map_congr_left fun c hc => ?_
    rw [hg c.2 (Shape.mem_children.mpr ⟨c.1, hc⟩)]
  rw [rewritten_of_not_labeled _ _ hs, hcs, fromLast_pure (fun c => g c.2), pure_bind,
    ← Shape.steps_mapAt fun _ => g, refill_steps_mapAt]
  rfl

lemma rewritten_of_quiet (htarget : ∀ s : Shape Node, s.isStatement = false → isTarget s = false)
    {n : Node} (h : n.quiet = true) (labels : List (Tag × String)) :
    rewritten isTarget rewrite n labels = pure (underLabels labels n) := by
  induction n using Node.children_induction generalizing labels with
  | h t s ih =>
    obtain ⟨hs, hc⟩ := Node.quiet_mk_iff.mp h
    have hlabel : labeledBody? s = none := by cases s <;> first | rfl | cases hs
    have hid : s.map id = s := Shape.mapAt_id s
    rw [rewritten_of_children (g := id) hlabel fun c hm => ih c hm (hc c hm) [], hid, htarget s hs]
    rfl

end

def replaced (isTarget : Shape Node → Bool) (rewrite : List String → Node → Node) :
    Node → (labels : List (Tag × String)) → Node :=
  rewritten (M := Id) isTarget rewrite

section

variable {isTarget : Shape Node → Bool} {rewrite : List String → Node → Node}

lemma replaced_labeled (t : Tag) (l : String) (body : Node) (labels : List (Tag × String)) :
    replaced isTarget rewrite (.mk t (.labeled l body)) labels =
      replaced isTarget rewrite body (labels ++ [(t, l)]) :=
  rewritten_labeled (M := Id) isTarget rewrite t l body labels

lemma replaced_of_not_labeled {t : Tag} {s : Shape Node} (hs : labeledBody? s = none)
    (labels : List (Tag × String)) :
    replaced isTarget rewrite (.mk t s) labels =
      if isTarget (s.map (replaced isTarget rewrite · [])) then
        rewrite (labels.map (·.2)) (.mk t (s.map (replaced isTarget rewrite · [])))
      else underLabels labels (.mk t (s.map (replaced isTarget rewrite · []))) :=
  rewritten_of_children (M := Id) hs (fun _ _ => rfl) labels

lemma replaced_underLabels (a b : List (Tag × String)) (n : Node) :
    replaced isTarget rewrite (underLabels b n) a = replaced isTarget rewrite n (a ++ b) :=
  rewritten_underLabels (M := Id) isTarget rewrite a b n

lemma replaced_of_quiet (htarget : ∀ s : Shape Node, s.isStatement = false → isTarget s = false)
    {n : Node} (h : n.quiet = true) (labels : List (Tag × String)) :
    replaced isTarget rewrite n labels = underLabels labels n :=
  rewritten_of_quiet (M := Id) htarget h labels

end

end LoopLowering.Loops
