import LoopLowering.Proofs.Tree.Identity
import LoopLowering.Proofs.Tree.Location
import Mathlib.Logic.Function.Basic

/-! Simultaneous substitution: all at once, subtrees are put in places of a tree. It is also what
single replacements make of the tree if none of them is above a place that is replaced later. -/

namespace LoopLowering

namespace Node

/-- Puts new subtrees in the places that get one. Below such a place nothing of the old tree is
left; everything else, the number of children included, is as it was. -/
def substitute : Node → (new : Path → Option Node) → Node :=
  fold fun t s new =>
    (new []).getD (mk t (s.mapAt fun st below => below fun p => new (st :: p)))

variable {n m x : Node} {p : Path} {new : Path → Option Node}

lemma substitute_mk (t : Tag) (s : Shape Node) (new : Path → Option Node) :
    (mk t s).substitute new =
      (new []).getD (mk t (s.mapAt fun st c => c.substitute fun p => new (st :: p))) := by
  rw [substitute, fold_mk, Shape.map, Shape.mapAt_mapAt]

lemma substitute_of_none {t : Tag} {s : Shape Node} (h : new [] = none) :
    (mk t s).substitute new = mk t (s.mapAt fun st c => c.substitute fun p => new (st :: p)) := by
  rw [substitute_mk, h, Option.getD_none]

lemma substitute_none (n : Node) : n.substitute (fun _ => none) = n := by
  induction n using children_induction with
  | h t s ih =>
    rw [substitute_of_none rfl]
    refine congrArg (mk t) (Shape.mapAt_eq_self fun c hc => ?_)
    exact ih c.2 (Shape.mem_children.mpr ⟨c.1, hc⟩)

lemma id_substitute (h : new [] = none) : (n.substitute new).id = n.id := by
  obtain ⟨t, s⟩ := n
  rw [substitute_of_none h]
  rfl

lemma get?_substitute (h : n.get? p = some m) (hnew : ∀ q, q <+: p → q ≠ p → new q = none) :
    (n.substitute new).get? p = some (m.substitute fun q => new (p ++ q)) := by
  induction p generalizing n new with
  | nil =>
    obtain rfl : n = m := Option.some.inj h
    rfl
  | cons st p ih =>
    obtain ⟨t, s⟩ := n
    obtain ⟨c, hc, hm⟩ := Option.bind_eq_some_iff.mp h
    rw [substitute_of_none (hnew [] List.nil_prefix (List.cons_ne_nil st p).symm), get?_cons,
      child?_mapAt _ hc, Option.bind_some]
    refine ih hm fun q hq hne => hnew (st :: q) (List.cons_prefix_cons.mpr ⟨rfl, hq⟩) ?_
    exact fun heq => hne (List.cons.inj heq).2

lemma setAt_substitute (h : n.get? p = some m) (hnew : ∀ q, q <+: p → new q = none) (x : Node) :
    (n.substitute new).setAt p x = n.substitute (Function.update new p (some x)) := by
  induction p generalizing n new with
  | nil =>
    obtain ⟨t, s⟩ := n
    rw [setAt, substitute_mk, Function.update_self, Option.getD_some]
  | cons st p ih =>
    obtain ⟨t, s⟩ := n
    obtain ⟨c, hc, hm⟩ := Option.bind_eq_some_iff.mp h
    have hnil : new [] = none := hnew [] List.nil_prefix
    rw [substitute_of_none hnil, substitute_of_none
      ((Function.update_of_ne (List.cons_ne_nil st p).symm _ _).trans hnil), setAt_cons,
      Shape.mapAt_mapAt]
    refine congrArg (mk t) (Shape.mapAt_congr fun d hd => ?_)
    obtain ⟨st', d⟩ := d
    dsimp only
    by_cases hst : st' = st
    · subst hst
      obtain rfl := mem_steps_unique (child?_eq_some.mp hc) hd
      rw [if_pos rfl, ih hm fun q hq => hnew (st' :: q) (List.cons_prefix_cons.mpr ⟨rfl, hq⟩)]
      congr 1
      funext q
      by_cases hq : q = p
      · rw [hq, Function.update_self, Function.update_self]
      · rw [Function.update_of_ne hq, Function.update_of_ne fun heq => hq (List.cons.inj heq).2]
    · rw [if_neg hst]
      congr 1
      funext q
      rw [Function.update_of_ne fun heq => hst (List.cons.inj heq).1]

lemma copy_substitute (n : Node) (new : Path → Option Node) :
    (n.substitute new).copy = n.copy.substitute fun p => (new p).map copy := by
  induction n using children_induction generalizing new with
  | h t s ih =>
    rw [copy_mk, substitute_mk, substitute_mk]
    cases hnil : new [] with
    | some x => rfl
    | none =>
      rw [Option.map_none, Option.getD_none, Option.getD_none, copy_mk, Shape.map, Shape.map,
        Shape.mapAt_mapAt, Shape.mapAt_mapAt]
      refine congrArg (mk _) (Shape.mapAt_congr fun c hc => ?_)
      exact ih c.2 (Shape.mem_children.mpr ⟨c.1, hc⟩) _

end Node

end LoopLowering
