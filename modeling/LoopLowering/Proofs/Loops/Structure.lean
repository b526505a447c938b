import LoopLowering.Proofs.Grammar.Placement
import LoopLowering.Proofs.Loops.Recursion

/-! The passes as plain recursions over the tree, with the new loop written out. -/

namespace LoopLowering.Loops

/-- The tag and the statements of the block that the body of a loop becomes: a block of the source
is kept, any other statement and any block that a pass made is put in a block. -/
def keptBlock : Node → Tag × List Node
  | .mk t (.block ss) => if t.synthetic then ({}, [.mk t (.block ss)]) else (t, ss)
  | n => ({}, [n])

def whileBlock (labels : List String) (line : Option Nat) (before : List Node)
    (cond body : Node) : Node :=
  .mk { line, synthetic := true }
    (.block (before ++ [relabel labels (.plain (.whileLoop cond body))]))

/-- A loop with a head of three parts as a `while` loop; the state is the number of the next
label. -/
def forAsWhile (labels : List String) : Node → StateM Nat Node
  | .mk t (.forLoop init cond update body) => do
    let (kept, ss) := keptBlock body
    let before := init.flatMap statementsOf
    let cond := cond.getD (.plain (.literal (.bool true) .boolean))
    let updates := update.map fun e => .plain (.exprStmt e)
    if update ≠ [] ∧ ss.any (hasContinue labels · false) then
      let label := bodyLabel (← getModify (· + 1))
      let guarded := .mk kept (.block (ss.map (retarget labels label · false)))
      return whileBlock labels t.line before cond
        (.plain (.block (.plain (.labeled label guarded) :: updates)))
    else return whileBlock labels t.line before cond (.mk kept (.block (ss ++ updates)))
  | n => return n

/-- A loop over elements as a `while` loop over an iterator. -/
def forEachAsWhile (labels : List String) : Node → Node
  | .mk t (.forEach (.mk _ (.localVar mods type [.mk _ (.declarator x 0 none)])) iterable body) =>
    let (kept, ss) := keptBlock body
    whileBlock labels t.line [iteratorDecl type.copy iterable x] (iteratorCall x "hasNext")
      (.mk kept (.block (nextElement mods type x 0 :: ss)))
  | n => n

section

variable (labels : List String) (t : Tag) (init update : List Node) (cond : Option Node)
  (body : Node) (next : Nat)

def NeedsLabel : Prop := update ≠ [] ∧ (keptBlock body).2.any (hasContinue labels · false) = true

lemma forAsWhile_needsLabel (h : NeedsLabel labels update body) :
    forAsWhile labels (.mk t (.forLoop init cond update body)) next =
      (whileBlock labels t.line (init.flatMap statementsOf)
        (cond.getD (.plain (.literal (.bool true) .boolean)))
        (.plain (.block (.plain (.labeled (bodyLabel next) (.mk (keptBlock body).1
          (.block ((keptBlock body).2.map (retarget labels (bodyLabel next) · false))))) ::
          update.map fun e => .plain (.exprStmt e)))), next + 1) := by
  unfold forAsWhile
  exact congrFun (if_pos h) next

lemma forAsWhile_plain (h : ¬ NeedsLabel labels update body) :
    forAsWhile labels (.mk t (.forLoop init cond update body)) next =
      (whileBlock labels t.line (init.flatMap statementsOf)
        (cond.getD (.plain (.literal (.bool true) .boolean)))
        (.mk (keptBlock body).1
          (.block ((keptBlock body).2 ++ update.map fun e => .plain (.exprStmt e)))), next) := by
  unfold forAsWhile
  exact congrFun (if_neg h) next

end

lemma forEachAsWhile_mk (labels : List String) (t tv td : Tag) (mods : List Word)
    (type iterable body : Node) (x : String) :
    forEachAsWhile labels (.mk t (.forEach
      (.mk tv (.localVar mods type [.mk td (.declarator x 0 none)])) iterable body)) =
      whileBlock labels t.line [iteratorDecl type.copy iterable x] (iteratorCall x "hasNext")
        (.mk (keptBlock body).1 (.block (nextElement mods type x 0 :: (keptBlock body).2))) := rfl

/-- The pass over the loops with a head of three parts, for a tree right under labels: the loops in
the children of a node come before the node, and the last child first. -/
def forsOf (n : Node) (labels : List (Tag × String)) : StateM Nat Node :=
  rewritten isForLoop forAsWhile n labels

/-- The pass over the loops over elements, for a tree right under labels. -/
def eachOf (n : Node) (labels : List (Tag × String)) : Node :=
  replaced isForEach forEachAsWhile n labels

lemma isForLoop_mapAt (s : Shape Node) (f : Step → Node → Node) :
    isForLoop (s.mapAt f) = isForLoop s := by
  cases s <;> rfl

lemma isForEach_mapAt (s : Shape Node) (f : Step → Node → Node) :
    isForEach (s.mapAt f) = isForEach s := by
  cases s <;> rfl

lemma isForLoop_of_not_statement (s : Shape Node) (h : s.isStatement = false) :
    isForLoop s = false := by
  cases s <;> first | rfl | cases h

lemma isForEach_of_not_statement (s : Shape Node) (h : s.isStatement = false) :
    isForEach s = false := by
  cases s <;> first | rfl | cases h

section

variable (labels : List String)

lemma bodyBlock_eq (n : Node) : bodyBlock n = .mk (keptBlock n).1 (.block (keptBlock n).2) := by
  obtain ⟨t, s⟩ := n
  cases s with
  | block ss => cases h : t.synthetic <;> simp [bodyBlock, keptBlock, Node.plain, h]
  | _ => rfl

lemma isLoop_map {α β : Type} (f : α → β) (s : Shape α) : isLoop (s.map f) = isLoop s := by
  cases s <;> rfl

lemma map_eq_continue {α β : Type} {f : α → β} {s : Shape α} {l : Option String}
    (h : s.map f = .continueStmt l) : s = .continueStmt l := by
  cases s <;> simp_all [Shape.map, Shape.mapAt]

lemma hasContinue_continue (t : Tag) (l : Option String) (nested : Bool) :
    hasContinue labels (.mk t (.continueStmt l)) nested = continues labels nested l := rfl

lemma hasContinue_mk {s : Shape Node} (h : ∀ l, s ≠ .continueStmt l) (t : Tag) (nested : Bool) :
    hasContinue labels (.mk t s) nested =
      s.children.any (hasContinue labels · (nested || isLoop s)) := by
  rw [hasContinue, Node.fold_mk]
  split
  · rename_i l hl
    exact absurd (map_eq_continue hl) (h l)
  · rw [Shape.children_map, isLoop_map, List.any_map]
    rfl

lemma retarget_continue (target : String) (t : Tag) (l : Option String) (nested : Bool) :
    retarget labels target (.mk t (.continueStmt l)) nested =
      if continues labels nested l then .plain (.breakStmt (some target))
      else .mk t (.continueStmt l) := rfl

lemma retarget_mk (target : String) {s : Shape Node} (h : ∀ l, s ≠ .continueStmt l) (t : Tag)
    (nested : Bool) :
    retarget labels target (.mk t s) nested =
      .mk t (s.map (retarget labels target · (nested || isLoop s))) := by
  rw [retarget, Node.fold_mk]
  split
  · rename_i l hl
    exact absurd (map_eq_continue hl) (h l)
  · rw [isLoop_map, Shape.map, Shape.map, Shape.mapAt_mapAt]
    rfl

lemma hasContinue_block (t : Tag) (ss : List Node) (nested : Bool) :
    hasContinue labels (.mk t (.block ss)) nested = ss.any (hasContinue labels · nested) := by
  rw [hasContinue_mk labels (by rintro _ ⟨⟩)]
  simp [Shape.children, Shape.parts, Part.toList, isLoop]

lemma retarget_block (target : String) (t : Tag) (ss : List Node) (nested : Bool) :
    retarget labels target (.mk t (.block ss)) nested =
      .mk t (.block (ss.map (retarget labels target · nested))) := by
  rw [retarget_mk labels target (by rintro _ ⟨⟩)]
  simp [Shape.map, Shape.mapAt, mapIdx_const, isLoop]

lemma statementsOf_of_not_declaration {n : Node} (h : n.shape.isDeclaration = false) :
    statementsOf n = [.plain (.exprStmt n)] := by
  obtain ⟨t, s⟩ := n
  cases s <;> first | rfl | cases h

lemma lowerFor_eq {t : Tag} {init update : List Node} {cond : Option Node} {body : Node}
    (h : ∀ e ∈ update, e.shape.isDeclaration = false) (next : Nat) :
    lowerFor labels next (.mk t (.forLoop init cond update body)) =
      (forAsWhile labels (.mk t (.forLoop init cond update body))).run next := by
  have hupdate : update.flatMap statementsOf = update.map fun e => .plain (.exprStmt e) := by
    rw [← List.flatMap_singleton' (update.map _), List.flatMap_map]
    exact List.flatMap_congr fun e he => statementsOf_of_not_declaration (h e he)
  have hcond : (!update.isEmpty && (keptBlock body).2.any (hasContinue labels · false)) = true ↔
      update ≠ [] ∧ (keptBlock body).2.any (hasContinue labels · false) = true := by
    simp
  simp only [lowerFor, guardedBody, bodyBlock_eq, hasContinue_block, retarget_block, hupdate,
    forAsWhile, hcond]
  split
  · rfl
  · rfl

lemma isTypeRef_copy {n : Node} (h : n.IsTypeRef) : n.copy.IsTypeRef := by
  obtain ⟨t, name, d, args, rfl⟩ := h
  rw [Node.copy, Node.mapTags, Node.fold_mk]
  exact ⟨_, _, _, _, rfl⟩

lemma addDims?_zero {n : Node} (h : n.IsTypeRef) : addDims? 0 n = some n := by
  obtain ⟨t, name, d, args, rfl⟩ := h
  rfl

lemma lowerForEach_eq {t : Tag} {var iterable body : Node} (h : var.IsElement) :
    lowerForEach labels (.mk t (.forEach var iterable body)) =
      .done (forEachAsWhile labels (.mk t (.forEach var iterable body))) := by
  obtain ⟨tv, mods, type, td, x, htype, rfl⟩ := h
  simp only [lowerForEach, declaration?, nameAndDims?, Node.shape_mk, bodyBlock_eq, editBlock,
    addDims?_zero (isTypeRef_copy htype)]
  rfl

end

section

variable {M : Type → Type} [Monad M] [LawfulMonad M] {isTarget : Shape Node → Bool}
  {rewrite : List String → Node → M Node}

lemma fromLast_append_singleton (cs : List (Step × M Node)) (st : Step) (m : M Node) :
    fromLast (cs ++ [(st, m)]) = (do
      let x ← m
      let rest ← fromLast cs
      return rest ++ [(st, x)]) := by
  induction cs with
  | nil => simp [fromLast]
  | cons c cs ih => simp [fromLast, ih]

def rewrittenList (isTarget : Shape Node → Bool) (rewrite : List String → Node → M Node) :
    List Node → M (List Node)
  | [] => return []
  | n :: ns => do
    let rest ← rewrittenList isTarget rewrite ns
    return (← rewritten isTarget rewrite n []) :: rest

lemma rewrittenList_bind_congr {γ : Type} {ns : List Node} {f g : List Node → M γ}
    (h : ∀ new, new.length = ns.length → f new = g new) :
    rewrittenList isTarget rewrite ns >>= f = rewrittenList isTarget rewrite ns >>= g := by
  induction ns generalizing f g with
  | nil => simpa [rewrittenList] using h [] rfl
  | cons n ns ih =>
    simp only [rewrittenList, bind_assoc, pure_bind]
    refine ih fun new hnew => bind_congr fun x => h _ ?_
    rw [List.length_cons, List.length_cons, hnew]

lemma fromLast_mapIdx (place : Nat → Step) (ns : List Node) :
    fromLast (ns.mapIdx fun i n => (place i, rewritten isTarget rewrite n [])) =
      (do return (← rewrittenList isTarget rewrite ns).mapIdx fun i n => (place i, n)) := by
  induction ns generalizing place with
  | nil => simp [fromLast, rewrittenList]
  | cons n ns ih =>
    rw [List.mapIdx_cons, fromLast, ih fun i => place (i + 1)]
    simp [rewrittenList, List.mapIdx_cons]

lemma rewritten_block (hblock : ∀ ss : List Node, isTarget (.block ss) = false) (t : Tag)
    (ss : List Node) (labels : List (Tag × String)) :
    rewritten isTarget rewrite (.mk t (.block ss)) labels =
      (do return underLabels labels (.mk t (.block (← rewrittenList isTarget rewrite ss)))) := by
  have hsteps : (Shape.block ss).steps.map (fun c => (c.1, rewritten isTarget rewrite c.2 [])) =
      ss.mapIdx fun i n => (⟨"statements", some i⟩, rewritten isTarget rewrite n []) := by
    apply List.ext_getElem <;> simp [Shape.steps, Shape.parts, Part.steps]
  rw [rewritten_of_not_labeled _ _ rfl, hsteps, fromLast_mapIdx]
  simp only [bind_assoc, pure_bind]
  refine rewrittenList_bind_congr fun new hnew => ?_
  have hrefill : refill (.block ss) (new.mapIdx fun i n => (⟨"statements", some i⟩, n)) =
      .block new := by
    have hnew : Shape.block new = (Shape.block ss).mapAt fun st n => (new[st.index.getD 0]?).getD n := by
      refine congrArg Shape.block (List.ext_getElem (by simpa using hnew) fun i hi _ => ?_)
      simp [hi]
    have hfill := refill_steps_mapAt (fun st n => (new[st.index.getD 0]?).getD n) (.block ss)
    rw [← hnew] at hfill
    simpa [Shape.steps, Shape.parts, Part.steps] using hfill
  rw [hrefill, hblock]
  rfl

lemma rewritten_lastBody (htarget : ∀ s : Shape Node, s.isStatement = false → isTarget s = false)
    {s : Shape Node} {heads : List (Step × Node)} {st : Step} {body : Node}
    (hs : labeledBody? s = none) (hsteps : s.steps = heads ++ [(st, body)])
    (hquiet : ∀ c ∈ heads, c.2.quiet = true) (t : Tag) (labels : List (Tag × String)) :
    rewritten isTarget rewrite (.mk t s) labels = (do
      let new ← rewritten isTarget rewrite body []
      let s := s.mapAt fun st' c => if st' = st then new else c
      if isTarget s then rewrite (labels.map (·.2)) (.mk t s)
      else return underLabels labels (.mk t s)) := by
  have hheads : heads.map (fun c => (c.1, rewritten isTarget rewrite c.2 [])) =
      heads.map fun c => (c.1, pure c.2) := by
    refine List.map_congr_left fun c hc => ?_
    rw [rewritten_of_quiet htarget (hquiet c hc)]
    rfl
  rw [rewritten_of_not_labeled _ _ hs, hsteps, List.map_append, List.map_singleton,
    fromLast_append_singleton, hheads, fromLast_pure (fun c => c.2)]
  simp only [bind_assoc, pure_bind]
  refine bind_congr fun new => ?_
  have hrefill : refill s (heads.map (fun c => (c.1, c.2)) ++ [(st, new)]) =
      s.mapAt fun st' c => if st' = st then new else c := by
    have hnodup := Shape.nodup_steps s
    rw [hsteps, List.map_append, List.nodup_append] at hnodup
    rw [← refill_steps_mapAt, Shape.steps_mapAt, hsteps, List.map_append, List.map_singleton,
      if_pos rfl]
    congr 2
    refine List.map_congr_left fun c hc => ?_
    have hne : c.1 ≠ st := hnodup.2.2 c.1 (List.mem_map_of_mem hc) st (by simp)
    rw [if_neg hne]
  rw [hrefill]

variable (htarget : ∀ s : Shape Node, s.isStatement = false → isTarget s = false)
include htarget

lemma rewritten_forLoop {init update : List Node} {cond : Option Node} {body : Node}
    (hquiet : Node.allQuiet (init ++ cond.toList ++ update)) (t : Tag)
    (labels : List (Tag × String)) :
    rewritten isTarget rewrite (.mk t (.forLoop init cond update body)) labels = (do
      let new ← rewritten isTarget rewrite body []
      if isTarget (.forLoop init cond update new) then
        rewrite (labels.map (·.2)) (.mk t (.forLoop init cond update new))
      else return underLabels labels (.mk t (.forLoop init cond update new))) := by
  have hsteps : (Shape.forLoop init cond update body).steps =
      ((Part.many init).steps "init" ++ (Part.optional cond).steps "cond" ++
        (Part.many update).steps "update") ++ [(⟨"body", none⟩, body)] := by
    simp [Shape.steps, Shape.parts, Part.steps]
  rw [rewritten_lastBody htarget rfl hsteps]
  · simp [Shape.mapAt, mapIdx_const]
  · intro c hc
    refine hquiet c.2 ?_
    have := List.mem_map_of_mem (f := (·.2)) hc
    simpa [Part.map_snd_steps, Part.toList] using this

lemma rewritten_whileLoop {cond body : Node} (hcond : cond.quiet = true)
    (hwhile : ∀ c b : Node, isTarget (.whileLoop c b) = false) (t : Tag)
    (labels : List (Tag × String)) :
    rewritten isTarget rewrite (.mk t (.whileLoop cond body)) labels =
      (do
        let new ← rewritten isTarget rewrite body []
        return underLabels labels (.mk t (.whileLoop cond new))) := by
  have hsteps : (Shape.whileLoop cond body).steps =
      [(⟨"cond", none⟩, cond)] ++ [(⟨"body", none⟩, body)] := rfl
  rw [rewritten_lastBody htarget rfl hsteps (by simp [hcond])]
  simp [Shape.mapAt, hwhile]

lemma rewritten_forEach {var iterable body : Node} (hvar : var.quiet = true)
    (hiterable : iterable.quiet = true) (t : Tag) (labels : List (Tag × String)) :
    rewritten isTarget rewrite (.mk t (.forEach var iterable body)) labels = (do
      let new ← rewritten isTarget rewrite body []
      if isTarget (.forEach var iterable new) then
        rewrite (labels.map (·.2)) (.mk t (.forEach var iterable new))
      else return underLabels labels (.mk t (.forEach var iterable new))) := by
  have hsteps : (Shape.forEach var iterable body).steps =
      [(⟨"var", none⟩, var), (⟨"iterable", none⟩, iterable)] ++ [(⟨"body", none⟩, body)] := rfl
  rw [rewritten_lastBody htarget rfl hsteps (by simp [hvar, hiterable])]
  simp [Shape.mapAt]

end

lemma forsOf_labeled (t : Tag) (l : String) (body : Node) (labels : List (Tag × String)) :
    forsOf (.mk t (.labeled l body)) labels = forsOf body (labels ++ [(t, l)]) :=
  rewritten_labeled _ _ t l body labels

lemma forsOf_underLabels (a b : List (Tag × String)) (n : Node) :
    forsOf (underLabels b n) a = forsOf n (a ++ b) :=
  rewritten_underLabels _ _ a b n

lemma forsOf_of_quiet {n : Node} (h : n.quiet = true) (labels : List (Tag × String)) :
    forsOf n labels = pure (underLabels labels n) :=
  rewritten_of_quiet isForLoop_of_not_statement h labels

lemma forsOf_mk {t : Tag} {s : Shape Node} (hs : labeledBody? s = none)
    (hfor : isForLoop s = false) (labels : List (Tag × String)) :
    forsOf (.mk t s) labels = (do
      let new ← fromLast (s.steps.map fun c => (c.1, forsOf c.2 []))
      return underLabels labels (.mk t (refill s new))) := by
  have hrefill : ∀ new, isForLoop (refill s new) = false :=
    fun new => (isForLoop_mapAt s _).trans hfor
  refine (rewritten_of_not_labeled _ _ hs labels).trans (bind_congr fun new => ?_)
  rw [hrefill new]
  rfl

lemma forsOf_forLoop {init update : List Node} {cond : Option Node} {body : Node}
    (hquiet : Node.allQuiet (init ++ cond.toList ++ update)) (t : Tag)
    (labels : List (Tag × String)) :
    forsOf (.mk t (.forLoop init cond update body)) labels = (do
      let new ← forsOf body []
      forAsWhile (labels.map (·.2)) (.mk t (.forLoop init cond update new))) :=
  rewritten_forLoop isForLoop_of_not_statement hquiet t labels

lemma forsOf_forEach {var iterable body : Node} (hvar : var.quiet = true)
    (hiterable : iterable.quiet = true) (t : Tag) (labels : List (Tag × String)) :
    forsOf (.mk t (.forEach var iterable body)) labels = (do
      let new ← forsOf body []
      return underLabels labels (.mk t (.forEach var iterable new))) :=
  rewritten_forEach isForLoop_of_not_statement hvar hiterable t labels

lemma forsOf_whileLoop {cond body : Node} (hcond : cond.quiet = true) (t : Tag)
    (labels : List (Tag × String)) :
    forsOf (.mk t (.whileLoop cond body)) labels = (do
      let new ← forsOf body []
      return underLabels labels (.mk t (.whileLoop cond new))) :=
  rewritten_whileLoop isForLoop_of_not_statement hcond (fun _ _ => rfl) t labels

def forsOfList (ns : List Node) : StateM Nat (List Node) := rewrittenList isForLoop forAsWhile ns

lemma forsOfList_cons (n : Node) (ns : List Node) :
    forsOfList (n :: ns) = (do
      let rest ← forsOfList ns
      return (← forsOf n []) :: rest) := rfl

lemma forsOf_block (t : Tag) (ss : List Node) (labels : List (Tag × String)) :
    forsOf (.mk t (.block ss)) labels = (do
      let new ← forsOfList ss
      return underLabels labels (.mk t (.block new))) :=
  rewritten_block (fun _ => rfl) t ss labels

lemma eachOf_labeled (t : Tag) (l : String) (body : Node) (labels : List (Tag × String)) :
    eachOf (.mk t (.labeled l body)) labels = eachOf body (labels ++ [(t, l)]) :=
  replaced_labeled t l body labels

lemma eachOf_underLabels (a b : List (Tag × String)) (n : Node) :
    eachOf (underLabels b n) a = eachOf n (a ++ b) :=
  replaced_underLabels a b n

lemma eachOf_of_quiet {n : Node} (h : n.quiet = true) (labels : List (Tag × String)) :
    eachOf n labels = underLabels labels n :=
  replaced_of_quiet isForEach_of_not_statement h labels

lemma eachOf_mk {t : Tag} {s : Shape Node} (hs : labeledBody? s = none)
    (heach : isForEach s = false) (labels : List (Tag × String)) :
    eachOf (.mk t s) labels = underLabels labels (.mk t (s.map (eachOf · []))) := by
  have hmap : isForEach (s.map (replaced isForEach forEachAsWhile · [])) = false :=
    (isForEach_mapAt s _).trans heach
  refine (replaced_of_not_labeled hs labels).trans ?_
  rw [hmap]
  rfl

lemma eachOf_forEach {var iterable : Node} (hvar : var.quiet = true)
    (hiterable : iterable.quiet = true) (body : Node) (t : Tag) (labels : List (Tag × String)) :
    eachOf (.mk t (.forEach var iterable body)) labels =
      forEachAsWhile (labels.map (·.2)) (.mk t (.forEach var iterable (eachOf body []))) := by
  refine (replaced_of_not_labeled rfl labels).trans ?_
  have hmap : (Shape.forEach var iterable body).map (replaced isForEach forEachAsWhile · []) =
      .forEach var iterable (eachOf body []) := by
    simp only [Shape.map, Shape.mapAt, replaced_of_quiet isForEach_of_not_statement hvar,
      replaced_of_quiet isForEach_of_not_statement hiterable]
    rfl
  rw [hmap]
  rfl

end LoopLowering.Loops

namespace LoopLowering.Lowering

open Loops

def lowerForM (labels : List String) (n : Node) : StateM Nat Node := fun next =>
  lowerFor labels next n

def lowerForEachM (labels : List String) (n : Node) : Except Fault Node :=
  match lowerForEach labels n with
  | .done new => .ok new
  | .failed f _ => .error f

lemma stepFor_eq (st : Lowering) (loc : Location) :
    stepFor st loc =
      let r := (visit lowerForM st.tree loc).run st.nextLabel
      { tree := r.1, nextLabel := r.2 } := by
  unfold stepFor visit
  cases st.tree.get? loc.path with
  | none => rfl
  | some loop => rfl

lemma foldl_stepFor (st : Lowering) (locs : List Location) :
    locs.foldl stepFor st =
      let r := (locs.foldlM (visit lowerForM) st.tree).run st.nextLabel
      { tree := r.1, nextLabel := r.2 } := by
  induction locs generalizing st with
  | nil => rfl
  | cons loc locs ih =>
    rw [List.foldl_cons, ih, stepFor_eq]
    rfl

lemma stepForEach_eq (tree : Node) (loc : Location) :
    stepForEach tree loc = visit lowerForEachM tree loc := by
  unfold stepForEach visit lowerForEachM
  cases tree.get? loc.path with
  | none => rfl
  | some loop =>
    dsimp only
    cases lowerForEach (labelsAbove loc) loop <;> rfl

lemma find_eq_targets (tree : Node) (p : Shape Node → Bool) :
    (tree.find p).reverse = targets p tree [] := by
  rw [Node.find, Node.walk_eq_preorder]
  rfl

lemma foldlM_find {M : Type → Type} [Monad M] [LawfulMonad M] {isTarget : Shape Node → Bool}
    (hmap : ∀ (s : Shape Node) f, isTarget (s.mapAt f) = isTarget s)
    (hlabel : ∀ l b, isTarget (.labeled l b) = false) (rewrite : List String → Node → M Node)
    (tree : Node) :
    (tree.find isTarget).reverse.foldlM (visit rewrite) tree =
      rewritten isTarget rewrite tree [] := by
  have hc : Coherent [] := by simp [Coherent]
  rw [find_eq_targets, foldlM_targets hmap hlabel hc (n := tree) (by rfl)]
  exact bind_pure _

lemma forLoops_eq_rewritten (tree : Node) :
    forLoops tree = ((rewritten isForLoop lowerForM tree []).run 0).1 := by
  rw [forLoops, foldl_stepFor, foldlM_find isForLoop_mapAt fun _ _ => rfl]

lemma forEachLoops_eq_rewritten (tree : Node) :
    forEachLoops tree = rewritten isForEach lowerForEachM tree [] := by
  rw [forEachLoops, ← foldlM_find isForEach_mapAt fun _ _ => rfl]
  congr 1
  funext tree loc
  exact stepForEach_eq tree loc

lemma rewritten_lowerForM {n : Node} (h : n.WellPlaced) (labels : List (Tag × String)) :
    rewritten isForLoop lowerForM n labels = rewritten isForLoop forAsWhile n labels := by
  induction h generalizing labels with
  | @mk t s head phrases bodies ih =>
    have hchildren : ∀ c ∈ s.children,
        rewritten isForLoop lowerForM c [] = rewritten isForLoop forAsWhile c [] := by
      intro c hc
      rcases Shape.mem_children_iff.mp hc with hc | hc
      · rw [rewritten_of_quiet isForLoop_of_not_statement (phrases c hc),
          rewritten_of_quiet isForLoop_of_not_statement (phrases c hc)]
      · exact ih c hc []
    cases hs : labeledBody? s with
    | some p =>
      obtain rfl := labeledBody?_eq_some.mp hs
      rw [rewritten_labeled, rewritten_labeled]
      exact ih _ List.mem_cons_self _
    | none =>
      cases hfor : isForLoop s with
      | false =>
        rw [rewritten_of_not_labeled _ _ hs, rewritten_of_not_labeled _ _ hs]
        have hcs : s.steps.map (fun c => (c.1, rewritten isForLoop lowerForM c.2 [])) =
            s.steps.map fun c => (c.1, rewritten isForLoop forAsWhile c.2 []) := by
          refine List.map_congr_left fun c hc => ?_
          rw [hchildren c.2 (Shape.mem_children.mpr ⟨c.1, hc⟩)]
        rw [hcs]
        refine bind_congr fun new => ?_
        have hnew : isForLoop (refill s new) = false := (isForLoop_mapAt s _).trans hfor
        simp [hnew]
      | true =>
        cases s with
        | forLoop init cond update body =>
          rw [rewritten_forLoop isForLoop_of_not_statement phrases,
            rewritten_forLoop isForLoop_of_not_statement phrases,
            hchildren body (Shape.mem_children_iff.mpr (.inr List.mem_cons_self))]
          refine bind_congr fun new => ?_
          simp only [isForLoop, if_true]
          funext next
          exact lowerFor_eq _ head next
        | _ => cases hfor

lemma rewritten_lowerForEachM {n : Node} (h : n.WellPlaced) (labels : List (Tag × String)) :
    rewritten isForEach lowerForEachM n labels =
      .ok (replaced isForEach forEachAsWhile n labels) := by
  induction h generalizing labels with
  | @mk t s head phrases bodies ih =>
    have hchildren : ∀ c ∈ s.children,
        rewritten isForEach lowerForEachM c [] = pure (replaced isForEach forEachAsWhile c []) := by
      intro c hc
      rcases Shape.mem_children_iff.mp hc with hc | hc
      · rw [rewritten_of_quiet isForEach_of_not_statement (phrases c hc),
          replaced_of_quiet isForEach_of_not_statement (phrases c hc)]
      · exact ih c hc []
    cases hs : labeledBody? s with
    | some p =>
      obtain rfl := labeledBody?_eq_some.mp hs
      rw [rewritten_labeled, replaced_labeled]
      exact ih _ List.mem_cons_self _
    | none =>
      rw [rewritten_of_children hs hchildren, replaced_of_not_labeled hs]
      split
      · rename_i hfor
        cases s with
        | forEach var iterable body =>
          have hvar : replaced isForEach forEachAsWhile var [] = var :=
            replaced_of_quiet isForEach_of_not_statement (phrases var List.mem_cons_self) []
          simp only [Shape.map, Shape.mapAt, hvar, lowerForEachM, lowerForEach_eq _ head]
        | _ => cases hfor
      · rfl

lemma forLoops_eq_forsOf {n : Node} (h : n.WellPlaced) : forLoops n = (forsOf n [] 0).1 := by
  rw [forLoops_eq_rewritten, rewritten_lowerForM h]
  rfl

lemma forEachLoops_eq_eachOf {n : Node} (h : n.WellPlaced) :
    forEachLoops n = .ok (eachOf n []) := by
  rw [forEachLoops_eq_rewritten, rewritten_lowerForEachM h]
  rfl

/-- On what is read from a text, the pass over the locations of the loops is the recursion. -/
theorem passes_eq_recursions {k : TextKind} {source : String} {tree : Node}
    (h : parse k source = .ok tree) :
    forLoops tree = ((forsOf tree []).run 0).1 ∧
      forEachLoops tree = .ok (eachOf tree []) := by
  have hplaced := wellPlaced_of_parse h
  constructor
  · exact forLoops_eq_forsOf hplaced
  · exact forEachLoops_eq_eachOf hplaced

theorem passes_eq_recursions_nested : ∃ tree,
    parse .statement "a: for (int i = 0; i < 3; i++) for (T x : xs) continue a;" = .ok tree ∧
      forLoops tree = ((forsOf tree []).run 0).1 ∧
        forEachLoops tree = .ok (eachOf tree []) := by
  cases h : parse .statement "a: for (int i = 0; i < 3; i++) for (T x : xs) continue a;" with
  | ok tree => exact ⟨tree, rfl, passes_eq_recursions h⟩
  | error e =>
    have hok : (parse .statement
        "a: for (int i = 0; i < 3; i++) for (T x : xs) continue a;").isOk = true := by
      decide +kernel
    rw [h] at hok
    cases hok

end LoopLowering.Lowering
