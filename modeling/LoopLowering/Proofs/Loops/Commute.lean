import LoopLowering.Proofs.Loops.Placement

/-! The two passes commute: what one of them makes of a loop is the same whether the loops inside
have been lowered by the other pass or will be. -/

namespace LoopLowering.Loops

open Node (allQuiet WellPlaced)

def IsOwnBlock (n : Node) : Prop := ∃ t ss, n = .mk t (.block ss) ∧ t.synthetic = false

lemma keptBlock_of_not_ownBlock {n : Node} (h : ¬ IsOwnBlock n) : keptBlock n = ({}, [n]) := by
  unfold keptBlock
  split
  · rename_i t ss
    cases ht : t.synthetic with
    | false => exact absurd ⟨t, ss, rfl, ht⟩ h
    | true => rfl
  · rfl

lemma keptBlock_ownBlock {t : Tag} (ss : List Node) (h : t.synthetic = false) :
    keptBlock (.mk t (.block ss)) = (t, ss) := by
  simp [keptBlock, h]

lemma not_ownBlock_underLabels {labels : List (Tag × String)} (h : labels ≠ []) (n : Node) :
    ¬ IsOwnBlock (underLabels labels n) := by
  cases labels with
  | nil => exact absurd rfl h
  | cons l labels =>
    rintro ⟨t, ss, heq, -⟩
    cases heq

lemma not_ownBlock_whileBlock (labels : List String) (line : Option Nat) (before : List Node)
    (cond body : Node) : ¬ IsOwnBlock (whileBlock labels line before cond body) := by
  rintro ⟨t, ss, heq, ht⟩
  obtain ⟨rfl, -⟩ := Node.mk.inj heq
  cases ht

lemma not_ownBlock_mapAt {t : Tag} {s : Shape Node} (h : ¬ IsOwnBlock (.mk t s))
    (f : Step → Node → Node) (labels : List (Tag × String)) :
    ¬ IsOwnBlock (underLabels labels (.mk t (s.mapAt f))) := by
  cases labels with
  | cons l labels => exact not_ownBlock_underLabels (List.cons_ne_nil _ _) _
  | nil =>
    rintro ⟨t', ss, heq, ht⟩
    obtain ⟨rfl, hs⟩ := Node.mk.inj heq
    cases s <;> try cases hs
    exact h ⟨_, _, rfl, ht⟩

lemma not_ownBlock_forEachAsWhile (labels : List String) (t : Tag) (var iterable body : Node) :
    ¬ IsOwnBlock (forEachAsWhile labels (.mk t (.forEach var iterable body))) := by
  unfold forEachAsWhile
  split
  · exact not_ownBlock_whileBlock _ _ _ _ _
  · rintro ⟨_, _, heq, -⟩
    cases heq

lemma not_ownBlock_forAsWhile (labels : List String) (t : Tag) (init update : List Node)
    (cond : Option Node) (body : Node) (next : Nat) :
    ¬ IsOwnBlock (forAsWhile labels (.mk t (.forLoop init cond update body)) next).1 := by
  by_cases h : NeedsLabel labels update body
  · rw [forAsWhile_needsLabel labels t init update cond body next h]
    exact not_ownBlock_whileBlock _ _ _ _ _
  · rw [forAsWhile_plain labels t init update cond body next h]
    exact not_ownBlock_whileBlock _ _ _ _ _

lemma not_ownBlock_eachOf {n : Node} (hn : n.WellPlaced) {labels : List (Tag × String)}
    (h : labels = [] → ¬ IsOwnBlock n) : ¬ IsOwnBlock (eachOf n labels) := by
  induction hn generalizing labels with
  | @mk t s head phrases bodies ih =>
    cases hs : labeledBody? s with
    | some p =>
      obtain rfl := labeledBody?_eq_some.mp hs
      rw [eachOf_labeled]
      exact ih _ List.mem_cons_self (by simp)
    | none =>
      cases heach : isForEach s with
      | false =>
        rw [eachOf_mk hs heach]
        by_cases hl : labels = []
        · exact not_ownBlock_mapAt (h hl) _ labels
        · exact not_ownBlock_underLabels hl _
      | true =>
        cases s with
        | forEach var iterable body =>
          rw [eachOf_forEach (phrases var List.mem_cons_self)
            (phrases iterable (List.mem_cons_of_mem _ List.mem_cons_self))]
          exact not_ownBlock_forEachAsWhile _ _ _ _ _
        | _ => cases heach

lemma not_ownBlock_forsOf {n : Node} (hn : n.WellPlaced) {labels : List (Tag × String)}
    (h : labels = [] → ¬ IsOwnBlock n) (next : Nat) : ¬ IsOwnBlock (forsOf n labels next).1 := by
  induction hn generalizing labels next with
  | @mk t s head phrases bodies ih =>
    cases hs : labeledBody? s with
    | some p =>
      obtain rfl := labeledBody?_eq_some.mp hs
      rw [forsOf_labeled]
      exact ih _ List.mem_cons_self (by simp) next
    | none =>
      cases hfor : isForLoop s with
      | false =>
        rw [forsOf_mk hs hfor]
        by_cases hl : labels = []
        · exact not_ownBlock_mapAt (h hl) _ labels
        · exact not_ownBlock_underLabels hl _
      | true =>
        cases s with
        | forLoop init cond update body =>
          rw [forsOf_forLoop phrases]
          exact not_ownBlock_forAsWhile _ _ _ _ _ _ _
        | _ => cases hfor

lemma eachOf_block (t : Tag) (ss : List Node) (labels : List (Tag × String)) :
    eachOf (.mk t (.block ss)) labels =
      underLabels labels (.mk t (.block (ss.map (eachOf · [])))) := by
  rw [eachOf_mk rfl rfl]
  simp [Shape.map, Shape.mapAt, mapIdx_const]

lemma keptBlock_eachOf {n : Node} (h : n.WellPlaced) :
    keptBlock (eachOf n []) = ((keptBlock n).1, (keptBlock n).2.map (eachOf · [])) := by
  by_cases hn : IsOwnBlock n
  · obtain ⟨t, ss, rfl, ht⟩ := hn
    rw [eachOf_block, keptBlock_ownBlock ss ht]
    exact keptBlock_ownBlock _ ht
  · rw [keptBlock_of_not_ownBlock hn, keptBlock_of_not_ownBlock (not_ownBlock_eachOf h fun _ => hn)]
    rfl

lemma forsOf_keptBlock {γ : Type} {n : Node} (h : n.WellPlaced)
    (f : Tag → List Node → StateM Nat γ) :
    (do let b ← forsOf n []; f (keptBlock b).1 (keptBlock b).2) =
      (do let ss ← forsOfList (keptBlock n).2; f (keptBlock n).1 ss) := by
  by_cases hn : IsOwnBlock n
  · obtain ⟨t, ss, rfl, ht⟩ := hn
    rw [forsOf_block, keptBlock_ownBlock ss ht, bind_assoc]
    refine bind_congr fun new => ?_
    rw [pure_bind]
    exact congrArg (fun p : Tag × List Node => f p.1 p.2) (keptBlock_ownBlock new ht)
  · funext next
    have hb : ¬ IsOwnBlock (forsOf n [] next).1 := not_ownBlock_forsOf h (fun _ => hn) next
    rw [keptBlock_of_not_ownBlock hn]
    show f (keptBlock (forsOf n [] next).1).1 (keptBlock (forsOf n [] next).1).2 _ = _
    rw [keptBlock_of_not_ownBlock hb]
    rfl

lemma keptBlock_retarget (labels : List String) (target : String) (n : Node) (nested : Bool) :
    keptBlock (retarget labels target n nested) =
      ((keptBlock n).1, (keptBlock n).2.map (retarget labels target · nested)) := by
  by_cases hn : IsOwnBlock n
  · obtain ⟨t, ss, rfl, ht⟩ := hn
    rw [retarget_block, keptBlock_ownBlock ss ht, keptBlock_ownBlock _ ht]
  · have hr : ¬ IsOwnBlock (retarget labels target n nested) := by
      obtain ⟨t, s⟩ := n
      by_cases hs : ∃ l, s = .continueStmt l
      · obtain ⟨l, rfl⟩ := hs
        rw [retarget_continue]
        split <;> rintro ⟨_, _, heq, -⟩ <;> cases heq
      · rw [retarget_mk labels target fun l hl => hs ⟨l, hl⟩]
        exact not_ownBlock_mapAt hn _ []
    rw [keptBlock_of_not_ownBlock hn, keptBlock_of_not_ownBlock hr]
    rfl

section

variable (labels : List String)

lemma hasContinue_underLabels (ls : List (Tag × String)) (n : Node) (nested : Bool) :
    hasContinue labels (underLabels ls n) nested = hasContinue labels n nested := by
  induction ls with
  | nil => rfl
  | cons l ls ih =>
    rw [underLabels_cons, hasContinue_mk labels (by rintro _ ⟨⟩)]
    simpa [Shape.children, Shape.parts, Part.toList, isLoop] using ih

lemma retarget_underLabels (target : String) (ls : List (Tag × String)) (n : Node) (nested : Bool) :
    retarget labels target (underLabels ls n) nested =
      underLabels ls (retarget labels target n nested) := by
  induction ls with
  | nil => rfl
  | cons l ls ih =>
    rw [underLabels_cons, underLabels_cons, retarget_mk labels target (by rintro _ ⟨⟩)]
    simp [Shape.map, Shape.mapAt, isLoop, ih]

lemma hasContinue_whileBlock (ls : List String) (line : Option Nat) {before : List Node}
    {cond : Node} (body : Node) (hbefore : allQuiet before) (hcond : cond.quiet = true)
    (nested : Bool) :
    hasContinue labels (whileBlock ls line before cond body) nested =
      hasContinue labels body true := by
  have hwhile : hasContinue labels (.plain (.whileLoop cond body)) nested =
      hasContinue labels body true := by
    refine (hasContinue_mk labels (by rintro _ ⟨⟩) _ _).trans ?_
    simp [Shape.children, Shape.parts, Part.toList, isLoop, hasContinue_of_quiet labels hcond]
  have hany : before.any (hasContinue labels · nested) = false := by
    rw [List.any_eq_false]
    intro c hc
    rw [hasContinue_of_quiet labels (hbefore c hc)]
    exact Bool.false_ne_true
  rw [whileBlock, hasContinue_block, List.any_append, hany, relabel_eq_underLabels]
  simp [hasContinue_underLabels, hwhile]

lemma retarget_whileBlock (target : String) (ls : List String) (line : Option Nat)
    {before : List Node} {cond : Node} (body : Node) (hbefore : allQuiet before)
    (hcond : cond.quiet = true) (nested : Bool) :
    retarget labels target (whileBlock ls line before cond body) nested =
      whileBlock ls line before cond (retarget labels target body true) := by
  have hwhile : retarget labels target (.plain (.whileLoop cond body)) nested =
      .plain (.whileLoop cond (retarget labels target body true)) := by
    refine (retarget_mk labels target (by rintro _ ⟨⟩) _ _).trans ?_
    simp [Shape.map, Shape.mapAt, isLoop, retarget_of_quiet labels target hcond, Node.plain]
  have hmap : before.map (retarget labels target · nested) = before := by
    refine (List.map_congr_left fun c hc => ?_).trans (List.map_id before)
    exact retarget_of_quiet labels target (hbefore c hc) nested
  rw [whileBlock, retarget_block, List.map_append, hmap, relabel_eq_underLabels,
    List.map_singleton, retarget_underLabels, hwhile, ← relabel_eq_underLabels]
  rfl

lemma hasContinue_keptBlock (n : Node) (nested : Bool) :
    (keptBlock n).2.any (hasContinue labels · nested) = hasContinue labels n nested := by
  by_cases hn : IsOwnBlock n
  · obtain ⟨t, ss, rfl, ht⟩ := hn
    rw [keptBlock_ownBlock ss ht, hasContinue_block]
  · simp [keptBlock_of_not_ownBlock hn]

variable {t : Tag} {var iterable body : Node} (helement : var.IsElement) (hvar : var.quiet = true)
  (hiterable : iterable.quiet = true)
include helement hvar hiterable

lemma hasContinue_forEachAsWhile (ls : List String) (nested : Bool) :
    hasContinue labels (forEachAsWhile ls (.mk t (.forEach var iterable body))) nested =
      hasContinue labels body true := by
  obtain ⟨tv, mods, type, td, x, -, rfl⟩ := helement
  have htype := quiet_type hvar
  have hdecl := quiet_iteratorDecl x ((Node.quiet_copy type).trans htype) hiterable
  have hnext := hasContinue_of_quiet labels (quiet_nextElement mods x 0 htype) true
  rw [forEachAsWhile_mk, hasContinue_whileBlock labels ls t.line _ (by simpa using hdecl)
    (quiet_iteratorCall x "hasNext"), hasContinue_block, List.any_cons, hnext, Bool.false_or,
    hasContinue_keptBlock]

lemma retarget_forEachAsWhile (target : String) (ls : List String) (nested : Bool) :
    retarget labels target (forEachAsWhile ls (.mk t (.forEach var iterable body))) nested =
      forEachAsWhile ls (.mk t (.forEach var iterable (retarget labels target body true))) := by
  obtain ⟨tv, mods, type, td, x, -, rfl⟩ := helement
  have htype := quiet_type hvar
  have hdecl := quiet_iteratorDecl x ((Node.quiet_copy type).trans htype) hiterable
  have hnext := retarget_of_quiet labels target (quiet_nextElement mods x 0 htype) true
  rw [forEachAsWhile_mk, retarget_whileBlock labels target ls t.line _ (by simpa using hdecl)
    (quiet_iteratorCall x "hasNext"), retarget_block, List.map_cons, hnext, forEachAsWhile_mk,
    keptBlock_retarget]

end

lemma hasContinue_eachOf (labels : List String) {n : Node} (h : n.WellPlaced)
    (ls : List (Tag × String)) (nested : Bool) :
    hasContinue labels (eachOf n ls) nested = hasContinue labels n nested := by
  induction h generalizing ls nested with
  | @mk t s head phrases bodies ih =>
    cases hs : labeledBody? s with
    | some p =>
      obtain rfl := labeledBody?_eq_some.mp hs
      rw [eachOf_labeled, ih _ List.mem_cons_self]
      exact (hasContinue_underLabels labels [(t, p.1)] p.2 nested).symm
    | none =>
      cases heach : isForEach s with
      | false =>
        rw [eachOf_mk hs heach, hasContinue_underLabels]
        by_cases hc : ∃ l, s = .continueStmt l
        · obtain ⟨l, rfl⟩ := hc
          rfl
        · have hne : ∀ l, s ≠ .continueStmt l := fun l hl => hc ⟨l, hl⟩
          rw [hasContinue_mk labels hne, hasContinue_mk labels fun l hl => hne l (map_eq_continue hl),
            Shape.children_map, List.any_map, isLoop_map, Bool.eq_iff_iff, List.any_eq_true,
            List.any_eq_true]
          refine exists_congr fun c => and_congr_right fun hc => ?_
          rcases Shape.mem_children_iff.mp hc with hc | hc
          · rw [Function.comp_apply, eachOf_of_quiet (phrases c hc)]
            rfl
          · rw [Function.comp_apply, ih c hc]
      | true =>
        cases s with
        | forEach var iterable body =>
          have hvar := phrases var List.mem_cons_self
          have hiterable := phrases iterable (List.mem_cons_of_mem _ List.mem_cons_self)
          rw [eachOf_forEach hvar hiterable, hasContinue_forEachAsWhile labels head hvar hiterable,
            ih body List.mem_cons_self, hasContinue_mk labels (by rintro _ ⟨⟩)]
          simp [Shape.children, Shape.parts, Part.toList, isLoop, hasContinue_of_quiet labels hvar,
            hasContinue_of_quiet labels hiterable]
        | _ => cases heach

lemma retarget_eachOf (labels : List String) (target : String) {n : Node} (h : n.WellPlaced)
    (ls : List (Tag × String)) (nested : Bool) :
    retarget labels target (eachOf n ls) nested = eachOf (retarget labels target n nested) ls := by
  induction h generalizing ls nested with
  | @mk t s head phrases bodies ih =>
    cases hs : labeledBody? s with
    | some p =>
      obtain rfl := labeledBody?_eq_some.mp hs
      have hbody : retarget labels target (.mk t (.labeled p.1 p.2)) nested =
          .mk t (.labeled p.1 (retarget labels target p.2 nested)) :=
        retarget_underLabels labels target [(t, p.1)] p.2 nested
      rw [eachOf_labeled, ih _ List.mem_cons_self, hbody, eachOf_labeled]
    | none =>
      cases heach : isForEach s with
      | false =>
        rw [eachOf_mk hs heach, retarget_underLabels]
        by_cases hc : ∃ l, s = .continueStmt l
        · obtain ⟨l, rfl⟩ := hc
          have hmap : (Shape.continueStmt l).map (eachOf · []) = .continueStmt l := rfl
          rw [hmap, retarget_continue]
          split
          · exact (eachOf_mk (s := .breakStmt (some target)) rfl rfl ls).symm
          · exact (eachOf_mk (s := .continueStmt l) rfl rfl ls).symm
        · have hne : ∀ l, s ≠ .continueStmt l := fun l hl => hc ⟨l, hl⟩
          rw [retarget_mk labels target hne,
            retarget_mk labels target fun l hl => hne l (map_eq_continue hl), isLoop_map,
            Shape.map, Shape.map, Shape.map, Shape.mapAt_mapAt,
            eachOf_mk (labeledBody?_mapAt_eq_none hs) ((isForEach_mapAt s _).trans heach),
            Shape.map, Shape.mapAt_mapAt]
          refine congrArg (fun u => underLabels ls (.mk t u)) ?_
          refine Shape.mapAt_congr fun c hc => ?_
          rcases Shape.mem_children_iff.mp (Shape.mem_children.mpr ⟨c.1, hc⟩) with hc | hc
          · rw [eachOf_of_quiet (phrases c.2 hc), retarget_of_quiet labels target (phrases c.2 hc),
              eachOf_of_quiet (phrases c.2 hc)]
            exact retarget_of_quiet labels target (phrases c.2 hc) _
          · exact ih c.2 hc [] _
      | true =>
        cases s with
        | forEach var iterable body =>
          have hvar := phrases var List.mem_cons_self
          have hiterable := phrases iterable (List.mem_cons_of_mem _ List.mem_cons_self)
          have hloop : retarget labels target (.mk t (.forEach var iterable body)) nested =
              .mk t (.forEach var iterable (retarget labels target body true)) := by
            rw [retarget_mk labels target (by rintro _ ⟨⟩)]
            simp [Shape.map, Shape.mapAt, isLoop, retarget_of_quiet labels target hvar,
              retarget_of_quiet labels target hiterable]
          rw [hloop, eachOf_forEach hvar hiterable, eachOf_forEach hvar hiterable,
            retarget_forEachAsWhile labels head hvar hiterable, ih body List.mem_cons_self]
        | _ => cases heach

lemma eachOf_of_no_bodies {t : Tag} {s : Shape Node} (phrases : allQuiet s.phrases)
    (hbodies : s.bodies = []) (labels : List (Tag × String)) :
    eachOf (.mk t s) labels = underLabels labels (.mk t s) := by
  have hs : labeledBody? s = none ∧ isForEach s = false := by
    cases s <;> first | exact ⟨rfl, rfl⟩ | cases hbodies
  rw [eachOf_mk hs.1 hs.2, Shape.map_eq_self]
  intro c hc
  rcases Shape.mem_children_iff.mp hc with hc | hc
  · exact eachOf_of_quiet (phrases c hc) []
  · rw [hbodies] at hc
    cases hc

lemma eachOf_exprStmt {e : Node} (h : e.quiet = true) :
    eachOf (.plain (.exprStmt e)) [] = .plain (.exprStmt e) := by
  refine eachOf_of_no_bodies ?_ rfl []
  simpa [Shape.phrases, Shape.children, Shape.parts, Part.toList] using h

lemma eachOf_statementsOf {n : Node} (h : n.quiet = true) :
    (statementsOf n).map (eachOf · []) = statementsOf n := by
  refine (List.map_congr_left fun m hm => ?_).trans (List.map_id _)
  have hplaced := allWellPlaced_statementsOf h m hm
  have hbodies : m.shape.bodies = [] := by
    unfold statementsOf at hm
    split at hm
    · obtain ⟨i, hi, rfl⟩ := List.mem_mapIdx.mp hm
      rfl
    · obtain rfl := List.mem_singleton.mp hm
      rfl
  cases hplaced with
  | mk head phrases bodies => exact eachOf_of_no_bodies phrases hbodies []

lemma eachOf_whileBlock (ls : List String) (line : Option Nat) (before : List Node) {cond : Node}
    (body : Node) (hcond : cond.quiet = true) :
    eachOf (whileBlock ls line before cond body) [] =
      whileBlock ls line (before.map (eachOf · [])) cond (eachOf body []) := by
  have hwhile : ∀ labels, eachOf (.plain (.whileLoop cond body)) labels =
      underLabels labels (.plain (.whileLoop cond (eachOf body []))) := by
    intro labels
    refine (eachOf_mk rfl rfl labels).trans ?_
    simp only [Shape.map, Shape.mapAt, eachOf_of_quiet hcond]
    rfl
  rw [whileBlock, eachOf_block, List.map_append, List.map_singleton, relabel_eq_underLabels,
    eachOf_underLabels, hwhile, List.nil_append, ← relabel_eq_underLabels]
  rfl

lemma forAsWhile_eachOf (ls : List String) {t : Tag} {init update : List Node}
    {cond : Option Node} {body : Node} (hquiet : allQuiet (init ++ cond.toList ++ update))
    (hbody : body.WellPlaced) :
    forAsWhile ls (.mk t (.forLoop init cond update (eachOf body []))) =
      (eachOf · []) <$> forAsWhile ls (.mk t (.forLoop init cond update body)) := by
  simp only [Node.allQuiet_append] at hquiet
  obtain ⟨⟨hinit, hcond⟩, hupdate⟩ := hquiet
  have hbefore : (init.flatMap statementsOf).map (eachOf · []) = init.flatMap statementsOf := by
    rw [List.map_flatMap]
    exact List.flatMap_congr fun i hi => eachOf_statementsOf (hinit i hi)
  have hupdates : (update.map fun e => Node.plain (.exprStmt e)).map (eachOf · []) =
      update.map fun e => .plain (.exprStmt e) := by
    rw [List.map_map]
    exact List.map_congr_left fun e he => eachOf_exprStmt (hupdate e he)
  have hcond' : (cond.getD (.plain (.literal (.bool true) .boolean))).quiet = true := by
    cases cond with
    | none => rfl
    | some c => simpa using hcond
  have hkept := allWellPlaced_keptBlock hbody
  have hany : ((keptBlock body).2.map (eachOf · [])).any (hasContinue ls · false) =
      (keptBlock body).2.any (hasContinue ls · false) := by
    rw [List.any_map, Bool.eq_iff_iff, List.any_eq_true, List.any_eq_true]
    refine exists_congr fun c => and_congr_right fun hc => ?_
    rw [Function.comp_apply, hasContinue_eachOf ls (hkept c hc)]
  have hneeds : NeedsLabel ls update (eachOf body []) ↔ NeedsLabel ls update body := by
    simp only [NeedsLabel, keptBlock_eachOf hbody, hany]
  funext next
  show _ = (eachOf (forAsWhile ls (.mk t (.forLoop init cond update body)) next).1 [],
    (forAsWhile ls (.mk t (.forLoop init cond update body)) next).2)
  by_cases hlabel : NeedsLabel ls update body
  · have hguarded : ((keptBlock body).2.map (eachOf · [])).map (retarget ls (bodyLabel next) · false) =
        ((keptBlock body).2.map (retarget ls (bodyLabel next) · false)).map (eachOf · []) := by
      rw [List.map_map, List.map_map]
      exact List.map_congr_left fun c hc => retarget_eachOf ls _ (hkept c hc) [] false
    have hblock : ∀ label kept guarded, eachOf (.plain (.block (.plain (.labeled label (.mk kept
        (.block guarded))) :: update.map fun e => .plain (.exprStmt e)))) [] =
          .plain (.block (.plain (.labeled label (.mk kept (.block (guarded.map (eachOf · []))))) ::
            update.map fun e => .plain (.exprStmt e))) := by
      intro label kept guarded
      have hlabeled := (eachOf_labeled {} label (.mk kept (.block guarded)) []).trans
        (eachOf_block kept guarded _)
      refine (eachOf_block _ _ _).trans ?_
      rw [List.map_cons, hupdates, Node.plain, hlabeled]
      rfl
    rw [forAsWhile_needsLabel ls t init update cond body next hlabel,
      forAsWhile_needsLabel ls t init update cond _ next (hneeds.mpr hlabel),
      eachOf_whileBlock _ _ _ _ hcond', hbefore, keptBlock_eachOf hbody, hguarded, hblock]
  · rw [forAsWhile_plain ls t init update cond body next hlabel,
      forAsWhile_plain ls t init update cond _ next (fun h => hlabel (hneeds.mp h)),
      eachOf_whileBlock _ _ _ _ hcond', hbefore, keptBlock_eachOf hbody, eachOf_block,
      List.map_append, hupdates]
    rfl

lemma forsOfList_append_singleton {before : List Node} (h : allQuiet before) (n : Node) :
    forsOfList (before ++ [n]) = (do return before ++ [← forsOf n []]) := by
  induction before with
  | nil => simp [forsOfList, rewrittenList, forsOf]
  | cons m before ih =>
    obtain ⟨hm, hbefore⟩ := Node.allQuiet_cons.mp h
    rw [List.cons_append, forsOfList_cons, ih hbefore, forsOf_of_quiet hm]
    simp [underLabels]

lemma forsOf_whileBlock (ls : List String) (line : Option Nat) {before : List Node} {cond : Node}
    (body : Node) (hbefore : allQuiet before) (hcond : cond.quiet = true) :
    forsOf (whileBlock ls line before cond body) [] =
      (do return whileBlock ls line before cond (← forsOf body [])) := by
  rw [whileBlock, forsOf_block, forsOfList_append_singleton hbefore, relabel_eq_underLabels,
    forsOf_underLabels, Node.plain, forsOf_whileLoop hcond]
  simp [whileBlock, relabel_eq_underLabels, underLabels, Node.plain]

lemma forsOf_forEachAsWhile (ls : List String) {t : Tag} {var iterable body : Node}
    (helement : var.IsElement) (hvar : var.quiet = true) (hiterable : iterable.quiet = true)
    (hbody : body.WellPlaced) :
    forsOf (forEachAsWhile ls (.mk t (.forEach var iterable body))) [] = (do
      let new ← forsOf body []
      return forEachAsWhile ls (.mk t (.forEach var iterable new))) := by
  obtain ⟨tv, mods, type, td, x, -, rfl⟩ := helement
  have htype := quiet_type hvar
  have hdecl := quiet_iteratorDecl x ((Node.quiet_copy type).trans htype) hiterable
  have hnext := quiet_nextElement mods x 0 htype
  rw [forEachAsWhile_mk, forsOf_whileBlock ls t.line _ (by simpa using hdecl)
    (quiet_iteratorCall x "hasNext"), forsOf_block, forsOfList_cons, forsOf_of_quiet hnext]
  have hkept := forsOf_keptBlock hbody fun kept ss => (pure (whileBlock ls t.line
    [iteratorDecl type.copy iterable x] (iteratorCall x "hasNext")
    (.mk kept (.block (nextElement mods type x 0 :: ss)))) : StateM Nat Node)
  simp only [forEachAsWhile_mk, hkept, bind_assoc, pure_bind]
  rfl

lemma map_eachOf_of_quiet {ns : List Node} (h : allQuiet ns) : ns.map (eachOf · []) = ns :=
  (List.map_congr_left fun n hn => eachOf_of_quiet (h n hn) []).trans (List.map_id ns)

lemma map_eachOf_forLoop {init update : List Node} {cond : Option Node} {body : Node}
    (hquiet : allQuiet (init ++ cond.toList ++ update)) :
    (Shape.forLoop init cond update body).map (eachOf · []) =
      .forLoop init cond update (eachOf body []) := by
  simp only [Node.allQuiet_append] at hquiet
  obtain ⟨⟨hinit, hcond⟩, hupdate⟩ := hquiet
  have hcond' : cond.map (eachOf · []) = cond := by
    cases cond with
    | none => rfl
    | some c => exact congrArg some (eachOf_of_quiet (hcond c List.mem_cons_self) [])
  simp only [Shape.map, Shape.mapAt, mapIdx_const, map_eachOf_of_quiet hinit, hcond',
    map_eachOf_of_quiet hupdate]

lemma lookup_map_snd {α β : Type} (f : α → β) (l : List (Step × α)) (st : Step) :
    (l.map fun c => (c.1, f c.2)).lookup st = (l.lookup st).map f := by
  induction l with
  | nil => rfl
  | cons c l ih =>
    rw [List.map_cons, List.lookup_cons, List.lookup_cons]
    cases st == c.1 with
    | true => rfl
    | false => exact ih

lemma refill_map_eachOf (s : Shape Node) (new : List (Step × Node)) :
    (refill s new).map (eachOf · []) =
      refill (s.map (eachOf · [])) (new.map fun c => (c.1, eachOf c.2 [])) := by
  have hdefault : eachOf default [] = default := eachOf_mk rfl rfl []
  rw [refill, refill, Shape.map, Shape.map, Shape.mapAt_mapAt, Shape.mapAt_mapAt]
  refine Shape.mapAt_congr fun c _ => ?_
  rw [lookup_map_snd (eachOf · [])]
  cases new.lookup c.1 with
  | none => exact hdefault
  | some x => rfl

theorem forsOf_eachOf {n : Node} (h : n.WellPlaced) (labels : List (Tag × String)) :
    forsOf (eachOf n labels) [] = (eachOf · []) <$> forsOf n labels := by
  induction h generalizing labels with
  | @mk t s head phrases bodies ih =>
    cases hs : labeledBody? s with
    | some p =>
      obtain rfl := labeledBody?_eq_some.mp hs
      rw [eachOf_labeled, forsOf_labeled]
      exact ih _ List.mem_cons_self _
    | none =>
      cases heach : isForEach s with
      | true =>
        cases s with
        | forEach var iterable body =>
          have hvar := phrases var List.mem_cons_self
          have hiterable := phrases iterable (List.mem_cons_of_mem _ List.mem_cons_self)
          have hbody := bodies body List.mem_cons_self
          rw [eachOf_forEach hvar hiterable, forsOf_forEach hvar hiterable,
            forsOf_forEachAsWhile _ head hvar hiterable (wellPlaced_eachOf hbody []),
            ih body List.mem_cons_self]
          simp [eachOf_underLabels, eachOf_forEach hvar hiterable]
        | _ => cases heach
      | false =>
        have hchild : ∀ c ∈ s.children, forsOf (eachOf c []) [] = (eachOf · []) <$> forsOf c [] := by
          intro c hc
          rcases Shape.mem_children_iff.mp hc with hc | hc
          · have hquiet := phrases c hc
            simp [forsOf_of_quiet hquiet, eachOf_of_quiet hquiet, underLabels]
          · exact ih c hc []
        rw [eachOf_mk hs heach, forsOf_underLabels, List.nil_append]
        cases hfor : isForLoop s with
        | true =>
          cases s with
          | forLoop init cond update body =>
            have hbody := bodies body List.mem_cons_self
            rw [map_eachOf_forLoop phrases, forsOf_forLoop phrases, forsOf_forLoop phrases,
              ih body List.mem_cons_self]
            funext next
            exact congrFun (forAsWhile_eachOf _ phrases (wellPlaced_forsOf hbody [] next)) _
          | _ => cases hfor
        | false =>
          have hmapfor : isForLoop (s.map (eachOf · [])) = false := (isForLoop_mapAt s _).trans hfor
          have hmaplabel : labeledBody? (s.map (eachOf · [])) = none :=
            labeledBody?_mapAt_eq_none hs
          have hcs : (s.map (eachOf · [])).steps.map (fun c => (c.1, forsOf c.2 [])) =
              (s.steps.map fun c => (c.1, forsOf c.2 [])).map
                fun c => (c.1, (eachOf · []) <$> c.2) := by
            rw [Shape.map, Shape.steps_mapAt, List.map_map, List.map_map]
            refine List.map_congr_left fun c hc => ?_
            exact congrArg (Prod.mk c.1) (hchild c.2 (Shape.mem_children.mpr ⟨c.1, hc⟩))
          have hlift : ∀ new, eachOf (underLabels labels (.mk t (refill s new))) [] =
              underLabels labels (.mk t (refill (s.map (eachOf · []))
                (new.map fun c => (c.1, eachOf c.2 [])))) := by
            intro new
            have hlabel : labeledBody? (refill s new) = none := labeledBody?_mapAt_eq_none hs
            have heach' : isForEach (refill s new) = false := (isForEach_mapAt s _).trans heach
            rw [eachOf_underLabels, List.nil_append, eachOf_mk hlabel heach', refill_map_eachOf]
          rw [forsOf_mk hs hfor, forsOf_mk hmaplabel hmapfor, hcs, fromLast_map]
          simp [hlift]

end LoopLowering.Loops

namespace LoopLowering.Lowering

open Loops

/-- On what is read from a text, the order of the two passes does not matter. -/
theorem passes_commute {k : TextKind} {source : String} {tree : Node}
    (h : parse k source = .ok tree) :
    ∃ each, forEachLoops tree = .ok each ∧ forEachLoops (forLoops tree) = .ok (forLoops each) := by
  have hplaced := wellPlaced_of_parse h
  refine ⟨eachOf tree [], forEachLoops_eq_eachOf hplaced, ?_⟩
  have hcommute := congrArg Prod.fst (congrFun (forsOf_eachOf hplaced []) 0)
  rw [forLoops_eq_forsOf hplaced, forEachLoops_eq_eachOf (wellPlaced_forsOf hplaced [] 0),
    forLoops_eq_forsOf (wellPlaced_eachOf hplaced [])]
  exact congrArg Except.ok hcommute.symm

theorem passes_commute_nested : ∃ tree each,
    parse .statements "for (T x : xs) for (;; i++) if (b) continue;" = .ok tree ∧
      forEachLoops tree = .ok each ∧ forEachLoops (forLoops tree) = .ok (forLoops each) := by
  cases h : parse .statements "for (T x : xs) for (;; i++) if (b) continue;" with
  | ok tree =>
    obtain ⟨each, heach, hboth⟩ := passes_commute h
    exact ⟨tree, each, rfl, heach, hboth⟩
  | error e =>
    have hok : (parse .statements "for (T x : xs) for (;; i++) if (b) continue;").isOk = true := by
      decide +kernel
    rw [h] at hok
    cases hok

end LoopLowering.Lowering
