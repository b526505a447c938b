import LoopLowering.Proofs.Loops.Elimination
import LoopLowering.Proofs.Tree.Identity

/-! Identities in a lowered loop. A loop is lowered alike with and without them, each part of the
loop is used at most once, and the nodes that a pass makes have none. -/

namespace LoopLowering

namespace Loops

open Node (occurrences occurrences_mk copy_mk)

section

variable {k : Nat}

lemma occurrences_plain (hk : k ≠ 0) (s : Shape Node) :
    (Node.plain s).occurrences k = (s.children.map (occurrences k)).sum := by
  rw [Node.plain, occurrences_mk, if_neg hk.symm, Nat.zero_add]

lemma occurrences_block (t : Tag) (ss : List Node) :
    (Node.mk t (.block ss)).occurrences k =
      (if t.id = k then 1 else 0) + (ss.map (occurrences k)).sum := by
  simp [occurrences_mk, Shape.children, Shape.parts, Part.toList]

lemma occurrences_relabel (hk : k ≠ 0) (labels : List String) (n : Node) :
    (relabel labels n).occurrences k = n.occurrences k := by
  induction labels with
  | nil => rfl
  | cons l labels ih =>
    refine (occurrences_plain hk (.labeled l (relabel labels n))).trans ?_
    simpa [Shape.children, Shape.parts, Part.toList] using ih

lemma occurrences_bodyBlock (hk : k ≠ 0) (n : Node) :
    (bodyBlock n).occurrences k = n.occurrences k := by
  obtain ⟨t, s⟩ := n
  have hblock : (Node.plain (.block [.mk t s])).occurrences k = (Node.mk t s).occurrences k := by
    simp [occurrences_plain hk, Shape.children, Shape.parts, Part.toList]
  cases s with
  | block ss =>
    cases h : t.synthetic with
    | true => simpa [bodyBlock, h] using hblock
    | false => simp [bodyBlock, h]
  | _ => exact hblock

lemma occurrences_retarget (hk : k ≠ 0) (labels : List String) (target : String) (n : Node)
    (nested : Bool) : (retarget labels target n nested).occurrences k ≤ n.occurrences k := by
  induction n using Node.children_induction generalizing nested with
  | h t s ih =>
    by_cases hs : ∃ l, s = .continueStmt l
    · obtain ⟨l, rfl⟩ := hs
      rw [retarget_continue]
      split
      · rw [occurrences_plain hk]
        exact Nat.zero_le _
      · exact le_rfl
    · rw [retarget_mk labels target fun l hl => hs ⟨l, hl⟩, occurrences_mk, occurrences_mk,
        Shape.children_map, List.map_map]
      refine Nat.add_le_add_left (List.sum_le_sum fun c hc => ?_) _
      exact ih c hc _

lemma occurrences_statementsOf (hk : k ≠ 0) (n : Node) :
    ((statementsOf n).map (occurrences k)).sum ≤ n.occurrences k := by
  obtain ⟨t, s⟩ := n
  unfold statementsOf
  split
  · rename_i mods type ds hs
    obtain rfl : s = .localVar mods type ds := hs
    have hstmt : ∀ (type d : Node), (Node.plain (.localVar mods type [d])).occurrences k =
        type.occurrences k + d.occurrences k := by
      intro type d
      simp [occurrences_plain hk, Shape.children, Shape.parts, Part.toList]
    have hcopy := Node.occurrences_copy hk type
    rw [occurrences_mk]
    cases ds with
    | nil => simp
    | cons d ds =>
      have hrest : (ds.mapIdx fun i d => Node.plain
          (.localVar mods (if i + 1 = 0 then type else type.copy) [d])).map (occurrences k) =
          ds.map (occurrences k) := by
        apply List.ext_getElem <;> simp [hstmt, hcopy]
      rw [List.mapIdx_cons, List.map_cons, hrest, if_pos rfl, hstmt]
      simp only [Shape.children, Shape.parts, Part.toList, List.flatMap_cons, List.flatMap_nil,
        List.append_nil, List.cons_append, List.nil_append, List.map_cons, List.sum_cons]
      omega
  · simp [occurrences_plain hk, Shape.children, Shape.parts, Part.toList]

lemma sum_occurrences_statementsOf (hk : k ≠ 0) (ns : List Node) :
    ((ns.flatMap statementsOf).map (occurrences k)).sum ≤ (ns.map (occurrences k)).sum := by
  induction ns with
  | nil => exact le_rfl
  | cons n ns ih =>
    have := occurrences_statementsOf hk n
    simp only [List.flatMap_cons, List.map_append, List.sum_append, List.map_cons, List.sum_cons]
    omega

lemma occurrences_editBlock {n : Node} {ss : List Node} (hn : n.shape = .block ss)
    (f : List Node → List Node) :
    (editBlock f n).occurrences k + (ss.map (occurrences k)).sum =
      n.occurrences k + ((f ss).map (occurrences k)).sum := by
  obtain ⟨t, s⟩ := n
  obtain rfl : s = .block ss := hn
  rw [editBlock, occurrences_block, occurrences_block]
  omega

lemma shape_guardedBody (labels : List String) (next : Nat) (update : List Node) (body : Node) :
    ∃ ss, (guardedBody labels next update body).1.shape = .block ss := by
  rw [guardedBody]
  split
  · exact ⟨_, rfl⟩
  · exact ⟨_, by rw [bodyBlock_eq]; rfl⟩

lemma occurrences_guardedBody (hk : k ≠ 0) (labels : List String) (next : Nat)
    (update : List Node) (body : Node) :
    (guardedBody labels next update body).1.occurrences k ≤ body.occurrences k := by
  rw [guardedBody]
  split
  · have := occurrences_retarget hk labels (bodyLabel next) (bodyBlock body) false
    rw [occurrences_bodyBlock hk] at this
    simpa [occurrences_plain hk, Shape.children, Shape.parts, Part.toList] using this
  · exact (occurrences_bodyBlock hk body).le

lemma occurrences_lowerFor (hk : k ≠ 0) (labels : List String) (next : Nat) {t : Tag}
    {s : Shape Node} (hs : isForLoop s = true) :
    (lowerFor labels next (.mk t s)).1.occurrences k ≤ (s.children.map (occurrences k)).sum := by
  cases s with
  | forLoop init cond update body =>
    obtain ⟨ss, hss⟩ := shape_guardedBody labels next update body
    have hinit := sum_occurrences_statementsOf hk init
    have hupdate := sum_occurrences_statementsOf hk update
    have hbody := occurrences_guardedBody hk labels next update body
    have hblock := occurrences_editBlock (k := k) hss (· ++ update.flatMap statementsOf)
    have hcond : (cond.getD (.plain (.literal (.bool true) .boolean))).occurrences k =
        (cond.toList.map (occurrences k)).sum := by
      cases cond with
      | none => exact (occurrences_plain hk _).trans rfl
      | some c => simp
    simp only [lowerFor, loopBlock, occurrences_block, if_neg hk.symm, Nat.zero_add,
      List.map_append, List.sum_append, List.map_cons, List.map_nil, List.sum_cons, List.sum_nil,
      Nat.add_zero, occurrences_relabel hk, occurrences_plain hk, Shape.children, Shape.parts,
      Part.toList, List.flatMap_cons, List.flatMap_nil, List.append_nil, hcond] at hblock ⊢
    omega
  | _ => cases hs

lemma occurrences_addDims {d : Nat} {n m : Node} (h : addDims? d n = some m) :
    m.occurrences k = n.occurrences k := by
  obtain ⟨t, s⟩ := n
  cases s with
  | typeRef name e args =>
    obtain rfl := Option.some.inj h
    rw [occurrences_mk, occurrences_mk]
    cases args <;> rfl
  | declarator name e init =>
    obtain rfl := Option.some.inj h
    rw [occurrences_mk, occurrences_mk]
    rfl
  | _ => cases h

lemma occurrences_declaration {n type : Node} {mods : List Word} {ds : List Node}
    (h : declaration? n = some (mods, type, ds)) : type.occurrences k ≤ n.occurrences k := by
  obtain ⟨t, s⟩ := n
  cases s with
  | localVar mods type ds | fieldDecl mods type ds =>
    obtain ⟨-, rfl, -⟩ := by simpa [declaration?] using h
    have := Shape.le_sum (s := .localVar mods type ds) (occurrences k) List.mem_cons_self
    rw [occurrences_mk]
    exact this.trans (Nat.le_add_left _ _)
  | _ => cases h

lemma lowerForEach_done {labels : List String} {t : Tag} {var iterable body new : Node}
    (h : lowerForEach labels (.mk t (.forEach var iterable body)) = .done new) :
    ∃ mods type ds x dims element, declaration? var = some (mods, type, ds) ∧
      addDims? dims type.copy = some element ∧
      new = loopBlock t.line [iteratorDecl element iterable x, relabel labels
        (.plain (.whileLoop (iteratorCall x "hasNext")
          (editBlock (nextElement mods type x dims :: ·) (bodyBlock body))))] := by
  rw [lowerForEach] at h
  split at h
  · cases h
  · cases h
  · rename_i mods type d ds hdecl
    split at h
    · cases h
    · rename_i x dims hd
      dsimp only at h
      split at h
      · cases h
      · rename_i element helement
        exact ⟨mods, type, d :: ds, x, dims, element, hdecl, helement, (Outcome.done.inj h).symm⟩

lemma occurrences_lowerForEach (hk : k ≠ 0) (labels : List String) {t : Tag} {s : Shape Node}
    {new : Node} (hs : isForEach s = true) (h : lowerForEach labels (.mk t s) = .done new) :
    new.occurrences k ≤ (s.children.map (occurrences k)).sum := by
  cases s with
  | forEach var iterable body =>
    obtain ⟨mods, type, ds, x, dims, element, hdecl, helement, rfl⟩ := lowerForEach_done h
    have htype := occurrences_declaration (k := k) hdecl
    have helement := occurrences_addDims (k := k) helement
    have hbody := occurrences_bodyBlock hk body
    have hblock := occurrences_editBlock (k := k) (n := bodyBlock body)
      (by rw [bodyBlock_eq]; rfl) (nextElement mods type x dims :: ·)
    rw [Node.occurrences_copy hk] at helement
    simp only [loopBlock, occurrences_block, if_neg hk.symm, iteratorDecl, iteratorCall,
      iteratorType, nextElement, occurrences_plain hk, occurrences_relabel hk,
      Shape.children, Shape.parts, Part.toList, Option.toList, List.map_cons, List.map_nil,
      List.sum_cons, List.sum_nil, List.flatMap_cons, List.flatMap_nil, List.append_nil,
      List.cons_append, List.nil_append, helement] at hblock ⊢
    omega
  | _ => cases hs

end

lemma copy_plain (s : Shape Node) : (Node.plain s).copy = .plain (s.map Node.copy) := copy_mk {} s

lemma copy_copy (n : Node) : n.copy.copy = n.copy := by
  induction n using Node.children_induction with
  | h t s ih =>
    rw [copy_mk, copy_mk, Shape.map, Shape.map, Shape.mapAt_mapAt]
    exact congrArg (Node.mk _) (Shape.map_congr ih)

lemma copy_relabel (labels : List String) (n : Node) :
    (relabel labels n).copy = relabel labels n.copy := by
  induction labels with
  | nil => rfl
  | cons l labels ih =>
    refine (copy_plain (.labeled l (relabel labels n))).trans ?_
    exact congrArg (fun b => Node.plain (.labeled l b)) ih

lemma copy_bodyBlock (n : Node) : (bodyBlock n).copy = bodyBlock n.copy := by
  obtain ⟨t, s⟩ := n
  cases s with
  | block ss =>
    cases h : t.synthetic <;>
      simp [bodyBlock, h, copy_mk, Shape.map, Shape.mapAt, mapIdx_const, Node.plain]
  | _ =>
    simp [bodyBlock, toBlock, copy_mk, Shape.map, Shape.mapAt, mapIdx_const, Node.plain]

lemma hasContinue_copy (labels : List String) (n : Node) (nested : Bool) :
    hasContinue labels n.copy nested = hasContinue labels n nested := by
  induction n using Node.children_induction generalizing nested with
  | h t s ih =>
    by_cases hs : ∃ l, s = .continueStmt l
    · obtain ⟨l, rfl⟩ := hs
      rfl
    · rw [copy_mk, hasContinue_mk labels (fun l hl => hs ⟨l, map_eq_continue hl⟩),
        hasContinue_mk labels (fun l hl => hs ⟨l, hl⟩), Shape.children_map, isLoop_map,
        List.any_map]
      rw [Bool.eq_iff_iff, List.any_eq_true, List.any_eq_true]
      refine exists_congr fun c => and_congr_right fun hc => ?_
      rw [Function.comp_apply, ih c hc]

lemma copy_retarget (labels : List String) (target : String) (n : Node) (nested : Bool) :
    (retarget labels target n nested).copy = retarget labels target n.copy nested := by
  induction n using Node.children_induction generalizing nested with
  | h t s ih =>
    by_cases hs : ∃ l, s = .continueStmt l
    · obtain ⟨l, rfl⟩ := hs
      rw [copy_mk, Shape.map, Shape.mapAt, retarget_continue, retarget_continue]
      split <;> rfl
    · rw [copy_mk, retarget_mk labels target (fun l hl => hs ⟨l, map_eq_continue hl⟩),
        retarget_mk labels target (fun l hl => hs ⟨l, hl⟩), copy_mk, isLoop_map]
      refine congrArg (Node.mk _) ?_
      rw [Shape.map, Shape.map, Shape.map, Shape.map, Shape.mapAt_mapAt, Shape.mapAt_mapAt]
      exact Shape.map_congr fun c hc => ih c hc _

lemma map_copy_statementsOf (n : Node) : (statementsOf n).map Node.copy = statementsOf n.copy := by
  obtain ⟨t, s⟩ := n
  cases s with
  | localVar mods type ds =>
    apply List.ext_getElem
    · simp [statementsOf, copy_mk, Shape.map, Shape.mapAt]
    · intro i _ _
      by_cases hi : i = 0 <;>
        simp [statementsOf, copy_mk, Shape.map, Shape.mapAt, hi, copy_plain, copy_copy,
          mapIdx_const]
  | _ => simp [statementsOf, copy_mk, Shape.map, Shape.mapAt, copy_plain]

lemma copy_editBlock {f g : List Node → List Node} (h : ∀ ss, (f ss).map Node.copy =
    g (ss.map Node.copy)) (n : Node) : (editBlock f n).copy = editBlock g n.copy := by
  obtain ⟨t, s⟩ := n
  cases s with
  | block ss => simp [editBlock, copy_mk, Shape.map, Shape.mapAt, mapIdx_const, h]
  | _ => simp [editBlock, copy_mk, Shape.map, Shape.mapAt]

lemma copy_loopBlock (line : Option Nat) (ss : List Node) :
    (loopBlock line ss).copy = loopBlock line (ss.map Node.copy) := by
  simp [loopBlock, copy_mk, Shape.map, Shape.mapAt, mapIdx_const]

lemma guardedBody_copy (labels : List String) (next : Nat) (update : List Node) (body : Node) :
    guardedBody labels next (update.map Node.copy) body.copy =
      ((guardedBody labels next update body).1.copy, (guardedBody labels next update body).2) := by
  simp only [guardedBody, List.isEmpty_map, ← copy_bodyBlock, hasContinue_copy]
  split
  · simp [copy_plain, Shape.map, Shape.mapAt, copy_retarget]
  · rfl

lemma lowerFor_copy (labels : List String) (next : Nat) (n : Node) :
    lowerFor labels next n.copy =
      ((lowerFor labels next n).1.copy, (lowerFor labels next n).2) := by
  obtain ⟨t, s⟩ := n
  cases s with
  | forLoop init cond update body =>
    have hupdates : (update.map Node.copy).flatMap statementsOf =
        (update.flatMap statementsOf).map Node.copy := by
      simp [List.flatMap_map, List.map_flatMap, map_copy_statementsOf]
    have hinits : (init.map Node.copy).flatMap statementsOf =
        (init.flatMap statementsOf).map Node.copy := by
      simp [List.flatMap_map, List.map_flatMap, map_copy_statementsOf]
    have hcond : (cond.map Node.copy).getD (.plain (.literal (.bool true) .boolean)) =
        (cond.getD (.plain (.literal (.bool true) .boolean))).copy := by
      cases cond <;> simp [copy_plain, Shape.map, Shape.mapAt]
    have hblock : ∀ n : Node, editBlock (· ++ (update.flatMap statementsOf).map Node.copy) n.copy =
        (editBlock (· ++ update.flatMap statementsOf) n).copy := by
      intro n
      rw [copy_editBlock fun ss => ?_]
      exact List.map_append
    simp only [copy_mk, Shape.map, Shape.mapAt, mapIdx_const, lowerFor, guardedBody_copy, hupdates,
      hinits, hcond, hblock, copy_loopBlock, List.map_append, List.map_cons, List.map_nil,
      copy_relabel, copy_plain]
  | _ => simp [copy_mk, Shape.map, Shape.mapAt, lowerFor]

def Outcome.copy : Outcome → Outcome
  | done new => done new.copy
  | failed f left => failed f left.copy

lemma declaration?_copy (n : Node) : declaration? n.copy =
    (declaration? n).map fun d => (d.1, d.2.1.copy, d.2.2.map Node.copy) := by
  obtain ⟨t, s⟩ := n
  cases s <;> simp [declaration?, copy_mk, Shape.map, Shape.mapAt, mapIdx_const]

lemma nameAndDims?_copy (n : Node) : nameAndDims? n.copy = nameAndDims? n := by
  obtain ⟨t, s⟩ := n
  cases s <;> simp [nameAndDims?, copy_mk, Shape.map, Shape.mapAt]

lemma addDims?_copy (d : Nat) (n : Node) : addDims? d n.copy = (addDims? d n).map Node.copy := by
  obtain ⟨t, s⟩ := n
  cases s <;> simp [addDims?, copy_mk, Shape.map, Shape.mapAt]

lemma isExtensible_copy (n : Node) : isExtensible n.copy = isExtensible n := by
  obtain ⟨t, s⟩ := n
  cases s <;> simp [isExtensible, copy_mk, Shape.map, Shape.mapAt]

lemma lowerForEach_copy (labels : List String) (n : Node) :
    lowerForEach labels n.copy = (lowerForEach labels n).copy := by
  obtain ⟨t, s⟩ := n
  cases s with
  | forEach var iterable body =>
    have hblock : ∀ mods type x dims,
        editBlock (nextElement mods (Node.copy type) x dims :: ·) (bodyBlock body.copy) =
          (editBlock (nextElement mods type x dims :: ·) (bodyBlock body)).copy := by
      intro mods type x dims
      rw [← copy_bodyBlock, copy_editBlock fun ss => ?_]
      simp [nextElement, iteratorCall, copy_plain, Shape.map, Shape.mapAt]
    simp only [copy_mk, Shape.map, Shape.mapAt, lowerForEach, declaration?_copy]
    cases declaration? var with
    | none => simp [Outcome.copy, copy_mk, Shape.map, Shape.mapAt]
    | some d =>
      obtain ⟨mods, type, ds⟩ := d
      cases ds with
      | nil => simp [Outcome.copy, copy_mk, Shape.map, Shape.mapAt]
      | cons d ds =>
        simp only [Option.map_some, List.map_cons, nameAndDims?_copy]
        cases nameAndDims? d with
        | none => simp [Outcome.copy, copy_mk, Shape.map, Shape.mapAt]
        | some xd =>
          obtain ⟨x, dims⟩ := xd
          simp only [copy_copy, hblock, isExtensible_copy]
          cases haddDims : addDims? dims type.copy with
          | none => cases isExtensible body <;> simp [Outcome.copy, copy_mk, Shape.map, Shape.mapAt]
          | some element =>
            have helement : element.copy = element := by
              have := addDims?_copy dims type.copy
              rw [copy_copy, haddDims] at this
              exact (Option.some.inj this).symm
            simp [Outcome.copy, copy_loopBlock, copy_relabel, copy_plain, Shape.map, Shape.mapAt,
              iteratorDecl, iteratorType, iteratorCall, mapIdx_const, helement]
  | _ => simp [copy_mk, Shape.map, Shape.mapAt, lowerForEach, Outcome.copy]

end Loops

end LoopLowering
