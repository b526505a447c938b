import LoopLowering.Proofs.Loops.Placement
import LoopLowering.Proofs.Tree.Nodes
import Mathlib.Algebra.BigOperators.Group.List.Basic

/-! Each pass leaves no loop of its kind and as many of the other kind as there were. -/

namespace LoopLowering

namespace Loops

open Node (count count_mk WellPlaced allQuiet)

structure FindsLoops (q : Shape Node → Bool) : Prop where
  mapAt : ∀ (s : Shape Node) (f : Step → Node → Node), q (s.mapAt f) = q s
  loop : ∀ s, q s = true → isForLoop s = true ∨ isForEach s = true

lemma findsLoops_forLoop : FindsLoops isForLoop := ⟨isForLoop_mapAt, fun _ h => .inl h⟩

lemma findsLoops_forEach : FindsLoops isForEach := ⟨isForEach_mapAt, fun _ h => .inr h⟩

namespace FindsLoops

variable {q : Shape Node → Bool} (hq : FindsLoops q)
include hq

lemma butNot {p : Shape Node → Bool} (hp : ∀ (s : Shape Node) f, p (s.mapAt f) = p s) :
    FindsLoops fun s => q s && !p s where
  mapAt s f := by rw [hq.mapAt, hp]
  loop s h := hq.loop s (Bool.and_eq_true_iff.mp h).1

lemma eq_false {s : Shape Node} (hfor : isForLoop s = false) (heach : isForEach s = false) :
    q s = false := by
  cases h : q s with
  | false => rfl
  | true => rcases hq.loop s h with h | h <;> simp_all

lemma count_other {s : Shape Node} (hfor : isForLoop s = false) (heach : isForEach s = false)
    (t : Tag) : count q (.mk t s) = (s.children.map (count q)).sum := by
  rw [count_mk, hq.eq_false hfor heach]
  simp

lemma count_of_quiet {n : Node} (h : n.quiet = true) : count q n = 0 := by
  induction n using Node.children_induction with
  | h t s ih =>
    obtain ⟨hs, hc⟩ := Node.quiet_mk_iff.mp h
    rw [hq.count_other (isForLoop_of_not_statement s hs) (isForEach_of_not_statement s hs)]
    exact List.sum_eq_zero (by simpa using fun c hm => ih c hm (hc c hm))

lemma sum_of_quiet {ns : List Node} (h : allQuiet ns) : (ns.map (count q)).sum = 0 :=
  List.sum_eq_zero (by simpa using fun n hn => hq.count_of_quiet (h n hn))

lemma count_block (t : Tag) (ss : List Node) :
    count q (.mk t (.block ss)) = (ss.map (count q)).sum := by
  rw [hq.count_other rfl rfl]
  simp [Shape.children, Shape.parts, Part.toList]

lemma count_labeled (t : Tag) (l : String) (body : Node) :
    count q (.mk t (.labeled l body)) = count q body := by
  rw [hq.count_other rfl rfl]
  simp [Shape.children, Shape.parts, Part.toList]

lemma count_underLabels (labels : List (Tag × String)) (n : Node) :
    count q (underLabels labels n) = count q n := by
  induction labels with
  | nil => rfl
  | cons l labels ih => rw [underLabels_cons, hq.count_labeled, ih]

lemma count_relabel (labels : List String) (n : Node) :
    count q (relabel labels n) = count q n := by
  induction labels with
  | nil => rfl
  | cons l labels ih => exact (hq.count_labeled {} l _).trans ih

lemma count_retarget (labels : List String) (target : String) (n : Node) (nested : Bool) :
    count q (retarget labels target n nested) = count q n := by
  induction n using Node.children_induction generalizing nested with
  | h t s ih =>
    by_cases hs : ∃ l, s = .continueStmt l
    · obtain ⟨l, rfl⟩ := hs
      rw [retarget_continue]
      split
      · rw [Node.plain, hq.count_other rfl rfl, hq.count_other rfl rfl]
        rfl
      · rfl
    · rw [retarget_mk labels target fun l hl => hs ⟨l, hl⟩, count_mk, count_mk, Shape.children_map,
        Shape.map, hq.mapAt, List.map_map]
      congr 2
      exact List.map_congr_left fun c hc => ih c hc _

lemma sum_keptBlock (n : Node) : ((keptBlock n).2.map (count q)).sum = count q n := by
  unfold keptBlock
  split
  · split
    · simp
    · rw [hq.count_block]
  · simp

lemma count_whileBlock (labels : List String) (line : Option Nat) {before : List Node}
    {cond : Node} (hbefore : (before.map (count q)).sum = 0) (hcond : cond.quiet = true)
    (body : Node) : count q (whileBlock labels line before cond body) = count q body := by
  have hloop : count q (.plain (.whileLoop cond body)) = count q body := by
    rw [Node.plain, hq.count_other rfl rfl]
    simp [Shape.children, Shape.parts, Part.toList, hq.count_of_quiet hcond]
  rw [whileBlock, hq.count_block, List.map_append, List.sum_append, hbefore, List.map_singleton,
    List.sum_singleton, hq.count_relabel, hloop, Nat.zero_add]

lemma count_exprStmt {e : Node} (h : e.quiet = true) : count q (.plain (.exprStmt e)) = 0 := by
  rw [Node.plain, hq.count_other rfl rfl]
  simp [Shape.children, Shape.parts, Part.toList, hq.count_of_quiet h]

lemma sum_statementsOf {n : Node} (h : n.quiet = true) :
    ((statementsOf n).map (count q)).sum = 0 := by
  obtain ⟨t, s⟩ := n
  unfold statementsOf
  split
  · rename_i mods type ds hs
    obtain rfl : s = .localVar mods type ds := hs
    have hc := (Node.quiet_mk_iff.mp h).2
    refine hq.sum_of_quiet fun m hm => ?_
    obtain ⟨i, hi, rfl⟩ := List.mem_mapIdx.mp hm
    have htype := hc type List.mem_cons_self
    have hd : (ds[i]).quiet = true := hc _ (by simp [Shape.children, Shape.parts, Part.toList])
    refine Node.quiet_plain_iff.mpr ⟨rfl, ?_⟩
    by_cases hi : i = 0
    · simp only [hi, if_true, Shape.children, Shape.parts, Part.toList]
      simpa [hi, htype] using hd
    · simp [Shape.children, Shape.parts, Part.toList, hi, Node.quiet_copy, htype, hd]
  · simp [hq.count_exprStmt h]

lemma sum_initial {init : List Node} (h : allQuiet init) :
    ((init.flatMap statementsOf).map (count q)).sum = 0 := by
  induction init with
  | nil => rfl
  | cons e init ih =>
    obtain ⟨he, hinit⟩ := Node.allQuiet_cons.mp h
    rw [List.flatMap_cons, List.map_append, List.sum_append, hq.sum_statementsOf he, ih hinit]

lemma sum_updates {update : List Node} (h : allQuiet update) :
    ((update.map fun e => Node.plain (.exprStmt e)).map (count q)).sum = 0 := by
  refine List.sum_eq_zero ?_
  simpa using fun e he => hq.count_exprStmt (h e he)

lemma count_forAsWhile {init update : List Node} {cond : Option Node}
    (hquiet : allQuiet (init ++ cond.toList ++ update)) (labels : List String) (t : Tag)
    (body : Node) (next : Nat) :
    count q (forAsWhile labels (.mk t (.forLoop init cond update body)) next).1 = count q body := by
  simp only [Node.allQuiet_append] at hquiet
  obtain ⟨⟨hinit, hcond⟩, hupdate⟩ := hquiet
  have hcond' : (cond.getD (.plain (.literal (.bool true) .boolean))).quiet = true := by
    cases cond with
    | none => rfl
    | some c => simpa using hcond
  by_cases hlabel : NeedsLabel labels update body
  · rw [forAsWhile_needsLabel labels t init update cond body next hlabel,
      hq.count_whileBlock _ _ (hq.sum_initial hinit) hcond', Node.plain, hq.count_block,
      List.map_cons, List.sum_cons, hq.sum_updates hupdate, Node.plain, hq.count_labeled,
      hq.count_block, List.map_map, Nat.add_zero, ← hq.sum_keptBlock body]
    congr 1
    exact List.map_congr_left fun c _ => hq.count_retarget labels _ c false
  · rw [forAsWhile_plain labels t init update cond body next hlabel,
      hq.count_whileBlock _ _ (hq.sum_initial hinit) hcond', hq.count_block, List.map_append,
      List.sum_append, hq.sum_updates hupdate, hq.sum_keptBlock, Nat.add_zero]

lemma count_forEachAsWhile {var iterable : Node} (helement : var.IsElement)
    (hvar : var.quiet = true) (hiterable : iterable.quiet = true) (labels : List String) (t : Tag)
    (body : Node) :
    count q (forEachAsWhile labels (.mk t (.forEach var iterable body))) = count q body := by
  obtain ⟨tv, mods, type, td, x, -, rfl⟩ := helement
  have htype := quiet_type hvar
  have hdecl := quiet_iteratorDecl x ((Node.quiet_copy type).trans htype) hiterable
  have hnext := quiet_nextElement mods x 0 htype
  rw [forEachAsWhile_mk, hq.count_whileBlock _ _ _ (quiet_iteratorCall x "hasNext"),
    hq.count_block, List.map_cons, List.sum_cons, hq.count_of_quiet hnext, hq.sum_keptBlock,
    Nat.zero_add]
  simpa using hq.count_of_quiet hdecl

lemma count_forsOf {n : Node} (h : n.WellPlaced) (labels : List (Tag × String)) (next : Nat) :
    count q (forsOf n labels next).1 = count (fun s => q s && !isForLoop s) n := by
  have hrest := hq.butNot isForLoop_mapAt
  induction h generalizing labels next with
  | @mk t s head phrases bodies ih =>
    cases hs : labeledBody? s with
    | some p =>
      obtain rfl := labeledBody?_eq_some.mp hs
      rw [forsOf_labeled, hrest.count_labeled]
      exact ih _ List.mem_cons_self _ _
    | none =>
      cases hfor : isForLoop s with
      | true =>
        cases s with
        | forLoop init cond update body =>
          have hphrases := hrest.sum_of_quiet phrases
          rw [forsOf_forLoop phrases]
          refine (hq.count_forAsWhile phrases _ _ _ _).trans ?_
          refine (ih body List.mem_cons_self [] next).trans ?_
          rw [count_mk]
          simp only [Shape.phrases, List.map_append, List.sum_append] at hphrases
          simp [show isForLoop (Shape.forLoop init cond update body) = true from rfl,
            Shape.children, Shape.parts, Part.toList]
          omega
        | _ => cases hfor
      | false =>
        rw [forsOf_mk hs hfor]
        refine (hq.count_underLabels labels _).trans ?_
        rw [count_mk, count_mk, refill, hq.mapAt, hfor, ← Shape.map_snd_steps,
          ← Shape.map_snd_steps, Shape.steps_mapAt]
        simp only [Bool.not_false, Bool.and_true, List.map_map]
        congr 2
        refine List.map_congr_left fun c hc => ?_
        obtain ⟨k, hk⟩ := lookup_fromLast (forsOf · []) (Shape.nodup_steps s) next hc
        simp only [Function.comp_apply, hk, Option.getD_some]
        rcases Shape.mem_children_iff.mp (Shape.mem_children.mpr ⟨c.1, hc⟩) with hc | hc
        · rw [forsOf_of_quiet (phrases c.2 hc)]
          exact (hq.count_of_quiet (phrases c.2 hc)).trans
            (hrest.count_of_quiet (phrases c.2 hc)).symm
        · exact ih c.2 hc [] k

lemma count_eachOf {n : Node} (h : n.WellPlaced) (labels : List (Tag × String)) :
    count q (eachOf n labels) = count (fun s => q s && !isForEach s) n := by
  have hrest := hq.butNot isForEach_mapAt
  induction h generalizing labels with
  | @mk t s head phrases bodies ih =>
    cases hs : labeledBody? s with
    | some p =>
      obtain rfl := labeledBody?_eq_some.mp hs
      rw [eachOf_labeled, hrest.count_labeled]
      exact ih _ List.mem_cons_self _
    | none =>
      cases heach : isForEach s with
      | true =>
        cases s with
        | forEach var iterable body =>
          have hvar := phrases var List.mem_cons_self
          have hiterable := phrases iterable (List.mem_cons_of_mem _ List.mem_cons_self)
          rw [eachOf_forEach hvar hiterable, hq.count_forEachAsWhile head hvar hiterable,
            ih body List.mem_cons_self, count_mk]
          simp [show isForEach (Shape.forEach var iterable body) = true from rfl, Shape.children,
            Shape.parts, Part.toList, hrest.count_of_quiet hvar,
            hrest.count_of_quiet hiterable]
        | _ => cases heach
      | false =>
        rw [eachOf_mk hs heach, hq.count_underLabels, count_mk, count_mk, Shape.children_map,
          Shape.map, hq.mapAt, heach, List.map_map]
        simp only [Bool.not_false, Bool.and_true]
        congr 2
        refine List.map_congr_left fun c hc => ?_
        rcases Shape.mem_children_iff.mp hc with hc | hc
        · rw [Function.comp_apply, eachOf_of_quiet (phrases c hc)]
          exact (hq.count_of_quiet (phrases c hc)).trans
            (hrest.count_of_quiet (phrases c hc)).symm
        · exact ih c hc []

end FindsLoops

end Loops

end LoopLowering
