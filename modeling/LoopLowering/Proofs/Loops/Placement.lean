import LoopLowering.Proofs.Loops.Structure

/-! The passes keep statements in their places. -/

namespace LoopLowering

namespace Node

lemma quiet_copy (n : Node) : n.copy.quiet = n.quiet := by
  induction n using children_induction with
  | h t s ih =>
    rw [copy, mapTags, fold_mk, quiet_mk, quiet_mk, isStatement_map, Shape.children_map,
      List.all_map]
    congr 1
    rw [Bool.eq_iff_iff, List.all_eq_true, List.all_eq_true]
    refine forall₂_congr fun c hc => ?_
    rw [← ih c hc]
    rfl

end Node

namespace Loops

open Node (allQuiet WellPlaced AllWellPlaced wellPlaced_mapAt wellPlaced_plain HeadPlaced)

lemma relabel_eq_underLabels (labels : List String) (n : Node) :
    relabel labels n = underLabels (labels.map fun l => ({}, l)) n := by
  rw [relabel, underLabels, List.foldr_map]
  rfl

lemma map_snd_plain (labels : List String) :
    (labels.map fun l => (({} : Tag), l)).map (·.2) = labels := by
  simp [Function.comp_def]

section

variable (labels : List String)

lemma continue_of_quiet {t : Tag} {s : Shape Node} (h : (Node.mk t s).quiet = true) (l) :
    s ≠ .continueStmt l := by
  rintro rfl
  cases h

lemma hasContinue_of_quiet {n : Node} (h : n.quiet = true) (nested : Bool) :
    hasContinue labels n nested = false := by
  induction n using Node.children_induction generalizing nested with
  | h t s ih =>
    rw [hasContinue_mk labels (continue_of_quiet h), List.any_eq_false]
    intro c hc
    rw [ih c hc ((Node.quiet_mk_iff.mp h).2 c hc)]
    exact Bool.false_ne_true

lemma retarget_of_quiet (target : String) {n : Node} (h : n.quiet = true) (nested : Bool) :
    retarget labels target n nested = n := by
  induction n using Node.children_induction generalizing nested with
  | h t s ih =>
    rw [retarget_mk labels target (continue_of_quiet h)]
    refine congrArg (Node.mk t) (Shape.map_eq_self fun c hc => ?_)
    exact ih c hc ((Node.quiet_mk_iff.mp h).2 c hc) _

lemma wellPlaced_retarget (target : String) {n : Node} (h : n.WellPlaced) (nested : Bool) :
    (retarget labels target n nested).WellPlaced := by
  induction h generalizing nested with
  | @mk t s head phrases bodies ih =>
    by_cases hs : ∃ l, s = .continueStmt l
    · obtain ⟨l, rfl⟩ := hs
      rw [retarget_continue]
      split
      · exact wellPlaced_plain trivial (by rintro _ ⟨⟩) (by rintro _ ⟨⟩)
      · exact .mk head phrases bodies
    · rw [retarget_mk labels target fun l hl => hs ⟨l, hl⟩]
      refine wellPlaced_mapAt t head phrases (fun c _ hc => ?_) fun c _ hc => ih c.2 hc _
      exact retarget_of_quiet labels target hc _

lemma wellPlaced_relabel {n : Node} (h : n.WellPlaced) : (relabel labels n).WellPlaced := by
  induction labels with
  | nil => exact h
  | cons l labels ih =>
    refine wellPlaced_plain trivial (by rintro _ ⟨⟩) fun c hc => ?_
    obtain rfl := List.mem_singleton.mp hc
    exact ih

lemma wellPlaced_underLabels {n : Node} (h : n.WellPlaced) (labels : List (Tag × String)) :
    (underLabels labels n).WellPlaced := by
  induction labels with
  | nil => exact h
  | cons l labels ih =>
    refine .mk trivial (by rintro _ ⟨⟩) fun c hc => ?_
    obtain rfl := List.mem_singleton.mp hc
    exact ih

lemma wellPlaced_block {t : Tag} {ss : List Node} (h : AllWellPlaced ss) :
    WellPlaced (.mk t (.block ss)) := .mk trivial (by rintro _ ⟨⟩) h

lemma allWellPlaced_keptBlock {n : Node} (h : n.WellPlaced) : AllWellPlaced (keptBlock n).2 := by
  unfold keptBlock
  split
  · split
    · simpa using h
    · cases h with
      | mk head phrases bodies => exact bodies
  · simpa using h

lemma wellPlaced_whileBlock {line : Option Nat} {before : List Node} {cond body : Node}
    (hbefore : AllWellPlaced before) (hcond : cond.quiet = true) (hbody : body.WellPlaced) :
    (whileBlock labels line before cond body).WellPlaced := by
  refine wellPlaced_block ?_
  simp only [Node.allWellPlaced_append, Node.allWellPlaced_cons, Node.allWellPlaced_nil, and_true]
  refine ⟨hbefore, wellPlaced_relabel labels (wellPlaced_plain trivial ?_ ?_)⟩
  · simpa [Shape.phrases] using hcond
  · simpa [Shape.bodies] using hbody

lemma wellPlaced_exprStmt {e : Node} (h : e.quiet = true) :
    WellPlaced (.plain (.exprStmt e)) := by
  refine wellPlaced_plain trivial ?_ (by rintro _ ⟨⟩)
  simpa [Shape.phrases, Shape.children, Shape.parts, Part.toList] using h

lemma wellPlaced_localVar {mods : List Word} {type : Node} {ds : List Node}
    (htype : type.quiet = true) (hds : allQuiet ds) :
    WellPlaced (.plain (.localVar mods type ds)) := by
  refine wellPlaced_plain trivial ?_ (by rintro _ ⟨⟩)
  simp [Shape.phrases, Shape.children, Shape.parts, Part.toList, htype, hds]

lemma allWellPlaced_statementsOf {n : Node} (h : n.quiet = true) :
    AllWellPlaced (statementsOf n) := by
  obtain ⟨t, s⟩ := n
  unfold statementsOf
  split
  · rename_i mods type ds hs
    obtain rfl : s = .localVar mods type ds := hs
    have hc := (Node.quiet_mk_iff.mp h).2
    simp only [Shape.children, Shape.parts, Part.toList, List.flatMap_cons, List.flatMap_nil,
      Node.allQuiet_append, Node.allQuiet_cons, Node.allQuiet_nil, and_true] at hc
    intro m hm
    obtain ⟨i, hi, rfl⟩ := List.mem_mapIdx.mp hm
    refine wellPlaced_localVar ?_ (by simpa using hc.2 _ (List.getElem_mem hi))
    split
    · exact hc.1
    · rw [Node.quiet_copy]
      exact hc.1
  · simpa using wellPlaced_exprStmt h

lemma quiet_iteratorCall (x method : String) : (iteratorCall x method).quiet = true := by
  simp [iteratorCall, Node.quiet_plain_iff, Shape.isStatement, Shape.children, Shape.parts,
    Part.toList]

lemma quiet_declarator {x : String} {d : Nat} {init : Option Node} (h : allQuiet init.toList) :
    Node.quiet (.plain (.declarator x d init)) = true :=
  Node.quiet_plain_iff.mpr ⟨rfl, by simpa [Shape.children, Shape.parts, Part.toList] using h⟩

lemma quiet_iteratorDecl {type iterable : Node} (x : String) (htype : type.quiet = true)
    (hiterable : iterable.quiet = true) : (iteratorDecl type iterable x).quiet = true := by
  refine Node.quiet_plain_iff.mpr ⟨rfl, ?_⟩
  simp [Shape.children, Shape.parts, Part.toList, iteratorType, Node.quiet_plain_iff,
    Shape.isStatement, htype, hiterable]

lemma quiet_nextElement (mods : List Word) {type : Node} (x : String) (d : Nat)
    (htype : type.quiet = true) : (nextElement mods type x d).quiet = true := by
  refine Node.quiet_plain_iff.mpr ⟨rfl, ?_⟩
  have hinit : allQuiet (some (iteratorCall x "next")).toList := by
    simp [quiet_iteratorCall]
  simp [Shape.children, Shape.parts, Part.toList, htype, quiet_declarator hinit]

lemma quiet_type {t : Tag} {mods : List Word} {type : Node} {ds : List Node}
    (h : Node.quiet (.mk t (.localVar mods type ds)) = true) : type.quiet = true :=
  (Node.quiet_mk_iff.mp h).2 type List.mem_cons_self

lemma wellPlaced_forEachAsWhile {t : Tag} {var iterable body : Node} (helement : var.IsElement)
    (hvar : var.quiet = true) (hiterable : iterable.quiet = true) (hbody : body.WellPlaced) :
    (forEachAsWhile labels (.mk t (.forEach var iterable body))).WellPlaced := by
  obtain ⟨tv, mods, type, td, x, -, rfl⟩ := helement
  have htype := quiet_type hvar
  refine wellPlaced_whileBlock labels ?_ (quiet_iteratorCall x "hasNext") (wellPlaced_block ?_)
  · have hdecl := quiet_iteratorDecl x ((Node.quiet_copy type).trans htype) hiterable
    simpa using Node.wellPlaced_of_quiet hdecl
  · refine Node.allWellPlaced_cons.mpr ⟨?_, allWellPlaced_keptBlock hbody⟩
    exact Node.wellPlaced_of_quiet (quiet_nextElement mods x 0 htype)

lemma wellPlaced_forAsWhile {t : Tag} {init update : List Node} {cond : Option Node} {body : Node}
    (hquiet : allQuiet (init ++ cond.toList ++ update)) (hbody : body.WellPlaced) (next : Nat) :
    (forAsWhile labels (.mk t (.forLoop init cond update body)) next).1.WellPlaced := by
  simp only [Node.allQuiet_append] at hquiet
  obtain ⟨⟨hinit, hcond⟩, hupdate⟩ := hquiet
  have hbefore : AllWellPlaced (init.flatMap statementsOf) := by
    intro m hm
    obtain ⟨i, hi, hm⟩ := List.mem_flatMap.mp hm
    exact allWellPlaced_statementsOf (hinit i hi) m hm
  have hcond' : (cond.getD (.plain (.literal (.bool true) .boolean))).quiet = true := by
    cases cond with
    | none => rfl
    | some c => simpa using hcond
  have hupdates : AllWellPlaced (update.map fun e => .plain (.exprStmt e)) := by
    intro m hm
    obtain ⟨e, he, rfl⟩ := List.mem_map.mp hm
    exact wellPlaced_exprStmt (hupdate e he)
  have hkept := allWellPlaced_keptBlock hbody
  by_cases hlabel : NeedsLabel labels update body
  · rw [forAsWhile_needsLabel labels t init update cond body next hlabel]
    refine wellPlaced_whileBlock labels hbefore hcond' (wellPlaced_block ?_)
    refine Node.allWellPlaced_cons.mpr ⟨wellPlaced_plain trivial (by rintro _ ⟨⟩) ?_, hupdates⟩
    refine Node.allWellPlaced_cons.mpr ⟨wellPlaced_block fun m hm => ?_, by simp⟩
    obtain ⟨c, hc, rfl⟩ := List.mem_map.mp hm
    exact wellPlaced_retarget labels _ (hkept c hc) false
  · rw [forAsWhile_plain labels t init update cond body next hlabel]
    exact wellPlaced_whileBlock labels hbefore hcond'
      (wellPlaced_block (Node.allWellPlaced_append.mpr ⟨hkept, hupdates⟩))

end

lemma wellPlaced_eachOf {n : Node} (h : n.WellPlaced) (labels : List (Tag × String)) :
    (eachOf n labels).WellPlaced := by
  induction h generalizing labels with
  | @mk t s head phrases bodies ih =>
    cases hs : labeledBody? s with
    | some p =>
      obtain rfl := labeledBody?_eq_some.mp hs
      rw [eachOf_labeled]
      exact ih _ List.mem_cons_self _
    | none =>
      cases heach : isForEach s with
      | false =>
        rw [eachOf_mk hs heach]
        refine wellPlaced_underLabels (wellPlaced_mapAt t head phrases ?_ ?_) labels
        · exact fun c _ hc => eachOf_of_quiet hc []
        · exact fun c _ hc => ih c.2 hc []
      | true =>
        cases s with
        | forEach var iterable body =>
          have hvar := phrases var List.mem_cons_self
          have hiterable := phrases iterable (List.mem_cons_of_mem _ List.mem_cons_self)
          rw [eachOf_forEach hvar hiterable]
          exact wellPlaced_forEachAsWhile _ head hvar hiterable (ih body List.mem_cons_self [])
        | _ => cases heach

lemma lookup_fromLast (f : Node → StateM Nat Node) {cs : List (Step × Node)}
    (hnodup : (cs.map (·.1)).Nodup) (next : Nat) {c : Step × Node} (hc : c ∈ cs) :
    ∃ k, (fromLast (cs.map fun c => (c.1, f c.2)) next).1.lookup c.1 = some (f c.2 k).1 := by
  induction cs with
  | nil => cases hc
  | cons d cs ih =>
    obtain ⟨hd, hnodup⟩ := List.nodup_cons.mp hnodup
    rcases List.mem_cons.mp hc with rfl | hc
    · exact ⟨_, List.lookup_cons_self⟩
    · obtain ⟨k, hk⟩ := ih hnodup hc
      have hne : (c.1 == d.1) = false := by
        rw [beq_eq_false_iff_ne]
        intro h
        exact hd (List.mem_map.mpr ⟨c, hc, h⟩)
      refine ⟨k, List.lookup_cons.trans ?_⟩
      rw [hne]
      exact hk

lemma wellPlaced_forsOf {n : Node} (h : n.WellPlaced) (labels : List (Tag × String)) (next : Nat) :
    (forsOf n labels next).1.WellPlaced := by
  induction h generalizing labels next with
  | @mk t s head phrases bodies ih =>
    cases hs : labeledBody? s with
    | some p =>
      obtain rfl := labeledBody?_eq_some.mp hs
      rw [forsOf_labeled]
      exact ih _ List.mem_cons_self _ _
    | none =>
      cases hfor : isForLoop s with
      | false =>
        rw [forsOf_mk hs hfor]
        have hlookup := fun c (hc : c ∈ s.steps) =>
          lookup_fromLast (forsOf · []) (Shape.nodup_steps s) next hc
        refine wellPlaced_underLabels (wellPlaced_mapAt t head phrases ?_ ?_) labels
        · intro c hc hquiet
          obtain ⟨k, hk⟩ := hlookup c hc
          rw [hk, forsOf_of_quiet hquiet]
          rfl
        · intro c hc hbody
          obtain ⟨k, hk⟩ := hlookup c hc
          rw [hk]
          exact ih c.2 hbody [] k
      | true =>
        cases s with
        | forLoop init cond update body =>
          rw [forsOf_forLoop phrases]
          exact wellPlaced_forAsWhile _ phrases (ih body List.mem_cons_self [] next) _
        | _ => cases hfor

end Loops

end LoopLowering
