import LoopLowering.Proofs.Loops.Commute
import LoopLowering.Proofs.Loops.Retargeting
import LoopLowering.Proofs.Machine.Lowers
import LoopLowering.Proofs.Tree.Outline

/-! A lowered form in which the `continue` statements of a loop around it are turned into jumps to a
label is still a lowered form, for other routes. -/

namespace LoopLowering

namespace Loops

section

variable {ls : List String} {target : String}

lemma hasContinue_of_child {s : Shape Node} (hs : ∀ l, s ≠ .continueStmt l) (t : Tag) {c : Node}
    (hc : c ∈ s.children) {nested inside : Bool} (hinside : (nested || isLoop s) = inside)
    (h : hasContinue ls c inside = true) : hasContinue ls (.mk t s) nested = true := by
  rw [hasContinue_mk ls hs, hinside]
  exact List.any_eq_true.mpr ⟨c, hc, h⟩

lemma retarget_map {s : Shape Node} (hs : ∀ l, s ≠ .continueStmt l) (t : Tag)
    {nested inside : Bool} (hinside : (nested || isLoop s) = inside) :
    retarget ls target (.mk t s) nested = .mk t (s.map (retarget ls target · inside)) := by
  rw [retarget_mk ls target hs, hinside]

lemma retarget_of_no_bodies {t : Tag} {s : Shape Node} (hs : ∀ l, s ≠ .continueStmt l)
    (phrases : Node.allQuiet s.phrases) (hbodies : s.bodies = []) (nested : Bool) :
    retarget ls target (.mk t s) nested = .mk t s := by
  rw [retarget_mk ls target hs, Shape.map_eq_self]
  intro c hc
  rcases Shape.mem_children_iff.mp hc with hc | hc
  · exact retarget_of_quiet ls target (phrases c hc) _
  · rw [hbodies] at hc
    cases hc

lemma retarget_statementsOf {n : Node} (h : n.quiet = true) {m : Node} (hm : m ∈ statementsOf n)
    (nested : Bool) : retarget ls target m nested = m := by
  have hplaced := allWellPlaced_statementsOf h m hm
  have hshape : m.shape.bodies = [] ∧ ∀ l, m.shape ≠ .continueStmt l := by
    unfold statementsOf at hm
    split at hm
    · obtain ⟨i, hi, rfl⟩ := List.mem_mapIdx.mp hm
      exact ⟨rfl, by rintro _ ⟨⟩⟩
    · obtain rfl := List.mem_singleton.mp hm
      exact ⟨rfl, by rintro _ ⟨⟩⟩
  cases hplaced with
  | mk head phrases bodies => exact retarget_of_no_bodies hshape.2 phrases hshape.1 nested

lemma retarget_block_before (ls₁ : List String) (line : Option Nat) {before : List Node}
    {cond : Node} (body : Node) {nested : Bool}
    (hbefore : ∀ m ∈ before, retarget ls target m nested = m) (hcond : cond.quiet = true) :
    retarget ls target (whileBlock ls₁ line before cond body) nested =
      whileBlock ls₁ line before cond (retarget ls target body true) := by
  have hwhile : retarget ls target (.plain (.whileLoop cond body)) nested =
      .plain (.whileLoop cond (retarget ls target body true)) := by
    refine (retarget_mk ls target (by rintro _ ⟨⟩) _ _).trans ?_
    simp [Shape.map, Shape.mapAt, isLoop, retarget_of_quiet ls target hcond, Node.plain]
  have hmap : before.map (retarget ls target · nested) = before :=
    (List.map_congr_left hbefore).trans (List.map_id before)
  rw [whileBlock, retarget_block, List.map_append, hmap, relabel_eq_underLabels,
    List.map_singleton, retarget_underLabels, hwhile, ← relabel_eq_underLabels]
  rfl

lemma hasContinue_of_block {ls₁ : List String} {line : Option Nat} {before : List Node}
    {cond body : Node} {nested : Bool} (h : hasContinue ls body true = true) :
    hasContinue ls (whileBlock ls₁ line before cond body) nested = true := by
  have hwhile : hasContinue ls (.plain (.whileLoop cond body)) nested = true :=
    hasContinue_of_child (by rintro _ ⟨⟩) _ (by simp [Shape.children, Shape.parts, Part.toList])
      (Bool.or_true nested) h
  rw [whileBlock, hasContinue_block, List.any_append, relabel_eq_underLabels]
  simp [hasContinue_underLabels, hwhile]

lemma retarget_quiet_list {ns : List Node} (h : Node.allQuiet ns) (nested : Bool) :
    ns.map (retarget ls target · nested) = ns :=
  (List.map_congr_left fun n hn => retarget_of_quiet ls target (h n hn) nested).trans
    (List.map_id ns)

lemma retarget_forLoop {init update : List Node} {cond : Option Node}
    (h : Node.allQuiet (init ++ cond.toList ++ update)) (t : Tag) (body : Node) (nested : Bool) :
    retarget ls target (.mk t (.forLoop init cond update body)) nested =
      .mk t (.forLoop init cond update (retarget ls target body true)) := by
  simp only [Node.allQuiet_append] at h
  have hcond : cond.map (retarget ls target · true) = cond := by
    cases cond with
    | none => rfl
    | some e => exact congrArg some (retarget_of_quiet ls target (h.1.2 e (by simp)) true)
  rw [retarget_map (by rintro _ ⟨⟩) t (Bool.or_true nested)]
  simp only [Shape.map, Shape.mapAt, mapIdx_const, retarget_quiet_list h.1.1, hcond,
    retarget_quiet_list h.2]

lemma retarget_tryStmt (t : Tag) (body : Node) (handlers : List Node) (last : Option Node)
    (nested : Bool) :
    retarget ls target (.mk t (.tryStmt body handlers last)) nested =
      .mk t (.tryStmt (retarget ls target body nested)
        (handlers.map (retarget ls target · nested)) (last.map (retarget ls target · nested))) := by
  rw [retarget_map (by rintro _ ⟨⟩) t (Bool.or_false nested)]
  simp [Shape.map, Shape.mapAt, mapIdx_const]

lemma retarget_catchClause (t : Tag) (mods : List Word) (name : String) {types : List Node}
    (h : Node.allQuiet types) (body : Node) (nested : Bool) :
    retarget ls target (.mk t (.catchClause mods name types body)) nested =
      .mk t (.catchClause mods name types (retarget ls target body nested)) := by
  rw [retarget_map (by rintro _ ⟨⟩) t (Bool.or_false nested)]
  simp only [Shape.map, Shape.mapAt, mapIdx_const, retarget_quiet_list h]

lemma shape_retarget_ne_catchClause {c : Node}
    (h : ∀ mods name types body, c.shape ≠ .catchClause mods name types body) (nested : Bool)
    (mods : List Word) (name : String) (types : List Node) (body : Node) :
    (retarget ls target c nested).shape ≠ .catchClause mods name types body := by
  obtain ⟨t, s⟩ := c
  by_cases hs : ∃ l, s = .continueStmt l
  · obtain ⟨l, rfl⟩ := hs
    rw [retarget_continue]
    split <;> rintro ⟨⟩
  · rw [retarget_mk ls target fun l hl => hs ⟨l, hl⟩]
    cases s with
    | catchClause mods name types body => exact absurd rfl (h mods name types body)
    | _ => rintro ⟨⟩

lemma retarget_updates {update : List Node} (h : Node.allQuiet update) (nested : Bool) :
    (update.map fun e => Node.plain (.exprStmt e)).map (retarget ls target · nested) =
      update.map fun e => .plain (.exprStmt e) := by
  rw [List.map_map]
  refine List.map_congr_left fun e he => retarget_of_no_bodies (by rintro _ ⟨⟩) ?_ rfl nested
  simpa [Shape.phrases, Shape.children, Shape.parts, Part.toList] using h e he

end

lemma wellPlaced_of_underLabels {labels : List (Tag × String)} {n : Node}
    (h : (underLabels labels n).WellPlaced) : n.WellPlaced := by
  induction labels with
  | nil => exact h
  | cons l labels ih =>
    cases h with
    | mk _ _ bodies => exact ih (bodies _ List.mem_cons_self)

end Loops

namespace Machine

open Loops

structure Turning (ls : List String) (target : String) (nested : Bool) (active : Prop)
    (r r' : Routes) : Prop where
  breaks : ∀ l, r'.breaks l ↔ r.breaks l
  stays : ∀ l, continues ls nested l = false → r.stays l → r'.stays l
  turns : ∀ l m, r.turns l m → r'.turns l m
  turned : active → ∀ l, continues ls nested l = true → r'.turns l target
  only : ∀ l m, r'.turns l m → r.turns l m ∨ m = target

namespace Turning

variable {ls labels : List String} {target : String} {nested : Bool} {active active' : Prop}
  {r r' : Routes}

lemma weaken (h : Turning ls target nested active r r') (hactive : active' → active) :
    Turning ls target nested active' r r' :=
  { h with turned := fun ha => h.turned (hactive ha) }

lemma passing (ls : List String) (target : String) (r : Routes) (h : ¬ active) :
    Turning ls target false active (r.loop ls) (r.passing ls) where
  breaks _ := Iff.rfl
  stays l hl := by
    rintro (hc | hs)
    · rw [hl] at hc
      cases hc
    · exact ⟨hl, hs⟩
  turns _ _ h := h
  turned ha := absurd ha h
  only _ _ h := .inl h

lemma guarded (ls : List String) (target : String) (r : Routes) :
    Turning ls target false active (r.loop ls) (r.guarded ls target) where
  breaks _ := Iff.rfl
  stays l hl := by
    rintro (hc | hs)
    · rw [hl] at hc
      cases hc
    · exact ⟨hl, hs⟩
  turns l m h := by
    show if continues ls false l then m = target else r.turns l m
    rw [if_neg (Bool.eq_false_iff.mp h.1)]
    exact h.2
  turned _ l hl := by
    show if continues ls false l then target = target else r.turns l target
    rw [if_pos hl]
  only l m h := by
    dsimp only [Routes.guarded] at h
    split at h
    · exact .inr h
    · rename_i hl
      exact .inl ⟨Bool.eq_false_iff.mpr hl, h⟩

lemma label (h : Turning ls target nested active r r') (l : String) :
    Turning ls target nested active (r.label l) (r'.label l) where
  breaks b := or_congr_right (h.breaks b)
  stays := h.stays
  turns := h.turns
  turned := h.turned
  only := h.only

lemma under (h : Turning ls target nested active r r') (labels : List String) :
    Turning ls target nested active (r.under labels) (r'.under labels) where
  breaks b := or_congr_right (h.breaks b)
  stays := h.stays
  turns := h.turns
  turned := h.turned
  only := h.only

section

lemma continues_outer {l : Option String} (hl : continues ls true l = true) :
    continues ls nested l = true := by
  cases l with
  | none => cases hl
  | some x => exact hl

lemma continues_past (hapart : ∀ l ∈ labels, l ∉ ls) {l : Option String}
    (hl : continues ls true l = true) : continues labels false l = false := by
  cases l with
  | none => cases hl
  | some x =>
    have hx : x ∈ ls := by simpa [continues] using hl
    simpa [continues] using fun hmem => hapart x hmem hx

lemma not_turns (h : Turning ls target nested active r r') {l : String} (hl : l ≠ target)
    (hturns : ∀ c, ¬ r.turns c l) (c : Option String) : ¬ r'.turns c l :=
  fun hc => (h.only c l hc).elim (hturns c) hl

variable (h : Turning ls target nested active r r') (hapart : ∀ l ∈ labels, l ∉ ls)
include h hapart

lemma intoLoop : Turning ls target true active (r.loop labels) (r'.loop labels) where
  breaks b := or_congr_right (h.breaks b)
  stays l hl := by
    cases l with
    | none => exact fun _ => .inl rfl
    | some x => exact Or.imp_right (h.stays (some x) hl)
  turns l m ht := ⟨ht.1, h.turns l m ht.2⟩
  turned ha l hl := ⟨(continues_past hapart hl), h.turned ha l (continues_outer hl)⟩
  only l m ht := (h.only l m ht.2).imp_left fun h => ⟨ht.1, h⟩

lemma intoPassing : Turning ls target true active (r.passing labels) (r'.passing labels) where
  breaks b := or_congr_right (h.breaks b)
  stays l hl hs := by
    cases l with
    | none => cases hs.1
    | some x => exact ⟨hs.1, h.stays (some x) hl hs.2⟩
  turns l m ht := ⟨ht.1, h.turns l m ht.2⟩
  turned ha l hl := ⟨(continues_past hapart hl), h.turned ha l (continues_outer hl)⟩
  only l m ht := (h.only l m ht.2).imp_left fun h => ⟨ht.1, h⟩

lemma intoGuarded (target₁ : String) :
    Turning ls target true active (r.guarded labels target₁) (r'.guarded labels target₁) where
  breaks b := or_congr_right (h.breaks b)
  stays l hl hs := by
    cases l with
    | none => cases hs.1
    | some x => exact ⟨hs.1, h.stays (some x) hl hs.2⟩
  turns l m ht := by
    dsimp only [Routes.guarded] at ht ⊢
    split
    · rwa [if_pos ‹_›] at ht
    · rw [if_neg ‹_›] at ht
      exact h.turns l m ht
  turned ha l hl := by
    dsimp only [Routes.guarded]
    rw [if_neg (Bool.eq_false_iff.mp (continues_past hapart hl))]
    exact h.turned ha l (continues_outer hl)
  only l m ht := by
    dsimp only [Routes.guarded] at ht ⊢
    split
    · rw [if_pos ‹_›] at ht
      exact .inl ht
    · rw [if_neg ‹_›] at ht
      exact h.only l m ht

end

end Turning

section

variable {S : Setting} {ls labels : List String} {target : String} {nested : Bool}
  {bound bound' names : String → Prop} {active : Prop} {r r' : Routes}

structure Unlabelled (ls : List String) (labels : List String) (n : Node) : Prop where
  placed : n.WellPlaced
  inside : ∀ l ∈ ls, .label l ∉ mentions n
  before : ∀ l ∈ labels, l ∉ ls

lemma Unlabelled.child {t : Tag} {s : Shape Node} (h : Unlabelled ls labels (.mk t s)) {c : Node}
    (hc : c ∈ s.bodies) : Unlabelled ls [] c where
  placed := by
    cases h.placed with
    | mk _ _ bodies => exact bodies c hc
  inside l hl hm := h.inside l hl (mentions_child hc hm)
  before := by rintro _ ⟨⟩

lemma Unlabelled.phrases {t : Tag} {s : Shape Node} (h : Unlabelled ls labels (.mk t s)) :
    Node.allQuiet s.phrases := by
  cases h.placed with
  | mk _ phrases _ => exact phrases

lemma Unlabelled.retarget {t t' : Tag} {s : Shape Node} (h : Unlabelled ls labels (.mk t s))
    (hs : ∀ l, s ≠ .continueStmt l) (hbodies : s.bodies = []) :
    retarget ls target (.mk t' s) nested = .mk t' s :=
  retarget_of_no_bodies hs h.phrases hbodies nested

lemma HandlersAlike.retarget {c c' : Node} (h : HandlersAlike c c') (hc : Unlabelled ls [] c)
    (nested : Bool) : HandlersAlike c (retarget ls target c' nested) := by
  cases h with
  | handler t t' mods name types b b' =>
    have htypes : Node.allQuiet types := hc.phrases
    rw [retarget_catchClause t' mods name htypes]
    exact .handler t t' mods name types b _
  | neither h h' => exact .neither h (shape_retarget_ne_catchClause h' nested)

lemma Unlabelled.under {labels : List (Tag × String)} {n : Node}
    (h : Unlabelled ls [] (underLabels labels n)) :
    Unlabelled ls [] n ∧ ∀ l ∈ labels.map (·.2), l ∉ ls := by
  refine ⟨⟨wellPlaced_of_underLabels h.placed, fun l hl hm => ?_, by rintro _ ⟨⟩⟩,
    fun l hl hmem => ?_⟩
  · exact h.inside l hl (mem_mentions_underLabels.mpr (.inr hm))
  · exact h.inside l hmem (mem_mentions_underLabels.mpr (.inl ⟨l, hl, rfl⟩))

lemma Unlabelled.kept {body : Node} {ss : List Node} {inner : String → Prop}
    (h : Unlabelled ls [] body) (keeps : Keeps body ss inner) : ∀ n ∈ ss, Unlabelled ls [] n := by
  cases keeps with
  | own t ss names => exact fun n hn => h.child hn
  | other body => simpa using h

lemma ForHead.retarget {labels : List (Tag × String)} {init update : List Node} {cond : Option Node}
    (hbound : ∀ l, bound l → bound' l) (htarget : ¬ bound target)
    (head : ForHead S bound r labels init cond update)
    (ht : Turning ls target nested active r r') : ForHead S bound' r' labels init cond update where
  __ := head
  bound l hl := hbound _ (head.bound l hl)
  turns l hl := ht.not_turns (fun h => htarget (h ▸ head.bound l hl)) (head.turns l hl)

lemma retarget_forBlock {init update : List Node} {cond : Option Node}
    (h : Node.allQuiet (init ++ cond.toList ++ update)) (ls₁ : List String) (line : Option Nat)
    (body : Node) :
    Loops.retarget ls target
        (whileBlock ls₁ line (init.flatMap statementsOf) (conditionOf cond) body) nested =
      whileBlock ls₁ line (init.flatMap statementsOf) (conditionOf cond)
        (Loops.retarget ls target body true) := by
  simp only [Node.allQuiet_append] at h
  refine retarget_block_before ls₁ line body (fun m hm => ?_) ?_
  · obtain ⟨n, hn, hm⟩ := List.mem_flatMap.mp hm
    exact retarget_statementsOf (h.1.1 n hn) hm nested
  · cases cond with
    | none => rfl
    | some e => exact h.1.2 e (by simp)

/-- The lowered form of a statement stays one when the `continue` statements of a loop around it are
turned into jumps to a label. -/
def Retargets (S : Setting) (ls : List String) (target : String) (bound' : String → Prop)
    (r : Routes) (names : String → Prop) (labels : List String) (n n' : Node) : Prop :=
  ∀ nested r', Unlabelled ls labels n →
    Turning ls target nested (hasContinue ls n' nested = true) r r' →
      Lowers S bound' r' names labels n (retarget ls target n' nested)

namespace Retargets

variable {t t' tk : Tag} {cond iterable var a a' body body' : Node} {ss ss' : List Node}
  {init update : List Node} {inner : String → Prop} {line : Option Nat}
  {marks : List (Tag × String)}

lemma leaf {s : Shape Node} (hs : ∀ l, s ≠ .continueStmt l) (hbodies : s.bodies = [])
    (h : ∀ r', (∀ l, r'.breaks l ↔ r.breaks l) →
      Lowers S bound' r' names labels (.mk t s) (.mk t' s)) :
    Retargets S ls target bound' r names labels (.mk t s) (.mk t' s) := by
  intro nested r' hn ht
  rw [hn.retarget hs hbodies]
  exact h r' ht.breaks

lemma block (hlen : ss'.length = ss.length)
    (h : ∀ (i : Nat) (n n' : Node), ss[i]? = some n → ss'[i]? = some n' →
      Retargets S ls target bound' r (fun _ => True) [] n n') :
    Retargets S ls target bound' r names labels (.mk t (.block ss)) (.mk t' (.block ss')) := by
  intro nested r' hn ht
  rw [retarget_block]
  refine .block (by simpa using hlen) fun i n m hi hm => ?_
  rw [List.getElem?_map] at hm
  obtain ⟨n', hn', rfl⟩ := Option.map_eq_some_iff.mp hm
  refine h i n n' hi hn' nested r' (hn.child (List.mem_of_getElem? hi)) (ht.weaken fun hactive => ?_)
  rw [hasContinue_block]
  exact List.any_eq_true.mpr ⟨n', List.mem_of_getElem? hn', hactive⟩

lemma ifElse {b b' : Option Node} (hcond : Avoids S cond)
    (ha : Retargets S ls target bound' r names [] a a') (hsome : b'.isSome = b.isSome)
    (hb : ∀ n n', b = some n → b' = some n' → Retargets S ls target bound' r names [] n n') :
    Retargets S ls target bound' r names labels (.mk t (.ifElse cond a b))
      (.mk t' (.ifElse cond a' b')) := by
  intro nested r' hn ht
  have hquiet : cond.quiet = true := hn.phrases cond List.mem_cons_self
  have heq : retarget ls target (.mk t' (.ifElse cond a' b')) nested = .mk t' (.ifElse cond
      (retarget ls target a' nested) (b'.map (retarget ls target · nested))) := by
    rw [retarget_map (by rintro _ ⟨⟩) t' (Bool.or_false nested)]
    simp [Shape.map, Shape.mapAt, retarget_of_quiet ls target hquiet]
  have hactive : ∀ c ∈ (Shape.ifElse cond a' b').children, hasContinue ls c nested = true →
      hasContinue ls (.mk t' (.ifElse cond a' b')) nested = true := fun c hc =>
    hasContinue_of_child (by rintro _ ⟨⟩) t' hc (Bool.or_false nested)
  rw [heq]
  refine .ifElse hcond (ha nested r' (hn.child List.mem_cons_self) (ht.weaken (hactive a' ?_)))
    (by simpa using hsome) fun n m hn₁ hm => ?_
  · simp [Shape.children, Shape.parts, Part.toList]
  · obtain ⟨n', hn', rfl⟩ := Option.map_eq_some_iff.mp hm
    refine hb n n' hn₁ hn' nested r' (hn.child ?_) (ht.weaken (hactive n' ?_))
    · simp [Shape.bodies, hn₁]
    · simp [Shape.children, Shape.parts, Part.toList, hn']

lemma loop {s s' : Shape Node} (hs' : ∀ l, s' ≠ .continueStmt l) (hloop : isLoop s' = true)
    (hbody : body ∈ s.bodies) (hbody' : body' ∈ s'.children)
    (h : Retargets S ls target bound' (r.loop labels) inner [] body body') {r' : Routes}
    (hn : Unlabelled ls labels (.mk t s))
    (ht : Turning ls target nested (hasContinue ls (.mk t' s') nested = true) r r') :
    Lowers S bound' (r'.loop labels) inner [] body (retarget ls target body' true) := by
  refine h true _ (hn.child hbody) ((ht.intoLoop hn.before).weaken ?_)
  exact hasContinue_of_child hs' t' hbody' (by rw [hloop, Bool.or_true])

lemma whileLoop (hcond : Avoids S cond)
    (h : Retargets S ls target bound' (r.loop labels) names [] body body') :
    Retargets S ls target bound' r names labels (.mk t (.whileLoop cond body))
      (.mk t' (.whileLoop cond body')) := by
  intro nested r' hn ht
  have hquiet : cond.quiet = true := hn.phrases cond List.mem_cons_self
  have heq : retarget ls target (.mk t' (.whileLoop cond body')) nested =
      .mk t' (.whileLoop cond (retarget ls target body' true)) := by
    rw [retarget_map (by rintro _ ⟨⟩) t' (Bool.or_true nested)]
    simp [Shape.map, Shape.mapAt, retarget_of_quiet ls target hquiet]
  rw [heq]
  exact .whileLoop hcond (h.loop (by rintro _ ⟨⟩) rfl List.mem_cons_self
    (by simp [Shape.children, Shape.parts, Part.toList]) hn ht)

lemma doWhile (hcond : Avoids S cond)
    (h : Retargets S ls target bound' (r.loop labels) names [] body body') :
    Retargets S ls target bound' r names labels (.mk t (.doWhile body cond))
      (.mk t' (.doWhile body' cond)) := by
  intro nested r' hn ht
  have hquiet : cond.quiet = true := hn.phrases cond List.mem_cons_self
  have heq : retarget ls target (.mk t' (.doWhile body' cond)) nested =
      .mk t' (.doWhile (retarget ls target body' true) cond) := by
    rw [retarget_map (by rintro _ ⟨⟩) t' (Bool.or_true nested)]
    simp [Shape.map, Shape.mapAt, retarget_of_quiet ls target hquiet]
  rw [heq]
  exact .doWhile hcond (h.loop (by rintro _ ⟨⟩) rfl List.mem_cons_self
    (by simp [Shape.children, Shape.parts, Part.toList]) hn ht)

lemma forLoop {cond : Option Node} (hhead : AllAvoid S (init ++ cond.toList ++ update))
    (h : Retargets S ls target bound' (r.loop labels) (fun _ => True) [] body body') :
    Retargets S ls target bound' r names labels (.mk t (.forLoop init cond update body))
      (.mk t' (.forLoop init cond update body')) := by
  intro nested r' hn ht
  rw [retarget_forLoop hn.phrases]
  exact .forLoop hhead (h.loop (by rintro _ ⟨⟩) rfl List.mem_cons_self
    (by simp [Shape.children, Shape.parts, Part.toList]) hn ht)

lemma forEach (hiterable : Avoids S iterable)
    (h : Retargets S ls target bound' (r.loop labels) (fun _ => True) [] body body') :
    Retargets S ls target bound' r names labels (.mk t (.forEach var iterable body))
      (.mk t' (.forEach var iterable body')) := by
  intro nested r' hn ht
  have hvar : var.quiet = true := hn.phrases var List.mem_cons_self
  have hquiet : iterable.quiet = true :=
    hn.phrases iterable (List.mem_cons_of_mem _ List.mem_cons_self)
  have heq : retarget ls target (.mk t' (.forEach var iterable body')) nested =
      .mk t' (.forEach var iterable (retarget ls target body' true)) := by
    rw [retarget_map (by rintro _ ⟨⟩) t' (Bool.or_true nested)]
    simp [Shape.map, Shape.mapAt, retarget_of_quiet ls target hquiet,
      retarget_of_quiet ls target hvar]
  rw [heq]
  exact .forEach hiterable (h.loop (by rintro _ ⟨⟩) rfl List.mem_cons_self
    (by simp [Shape.children, Shape.parts, Part.toList]) hn ht)

lemma continueStmt {l : Option String} (h : r.stays l) :
    Retargets S ls target bound' r names labels (.mk t (.continueStmt l))
      (.mk t' (.continueStmt l)) := by
  intro nested r' hn ht
  rw [retarget_continue]
  split
  · rename_i hl
    exact .turned (ht.turned hl _ hl)
  · rename_i hl
    exact .continueStmt (ht.stays _ (Bool.eq_false_iff.mpr hl) h)

lemma handler {handlers handlers' : List Node} {i : Nat} {t₁ t₂ : Tag} {mods : List Word}
    {name : String} {types : List Node} {b m : Node} {active : Prop} {r' : Routes}
    (hhandlers : List.Forall₂ HandlersAlike handlers handlers')
    (h : ∀ (i : Nat) t t' mods name types b b',
      handlers[i]? = some (.mk t (.catchClause mods name types b)) →
      handlers'[i]? = some (.mk t' (.catchClause mods name types b')) →
      Retargets S ls target bound' r (fun _ => True) [] b b')
    (hchild : ∀ c ∈ handlers, Unlabelled ls [] c)
    (hactive : ∀ c ∈ handlers', hasContinue ls c nested = true → active)
    (ht : Turning ls target nested active r r')
    (hi : handlers[i]? = some (.mk t₁ (.catchClause mods name types b)))
    (hm : (handlers'.map (retarget ls target · nested))[i]? =
      some (.mk t₂ (.catchClause mods name types m))) :
    Lowers S bound' r' (fun _ => True) [] b m := by
  rw [List.getElem?_map] at hm
  obtain ⟨c', hc', heq⟩ := Option.map_eq_some_iff.mp hm
  have halike := forall₂_getElem? hhandlers i
  rw [hi, hc'] at halike
  have hcatch := hchild _ (List.mem_of_getElem? hi)
  cases halike with
  | some halike =>
    cases halike with
    | handler _ t₃ _ _ _ _ b' =>
      have htypes : Node.allQuiet types := hcatch.phrases
      rw [retarget_catchClause t₃ mods name htypes] at heq
      obtain ⟨rfl, hshape⟩ := Node.mk.inj heq
      obtain ⟨-, -, -, rfl⟩ := Shape.catchClause.inj hshape
      refine h i t₁ t₃ mods name types b b' hi hc' nested r' (hcatch.child List.mem_cons_self)
        (ht.weaken fun h => hactive _ (List.mem_of_getElem? hc') ?_)
      exact hasContinue_of_child (by rintro _ ⟨⟩) t₃ (by simp [Shape.children, Shape.parts,
        Part.toList]) (Bool.or_false nested) h
    | neither h h' => exact absurd rfl (h mods name types b)

lemma tryStmt {handlers handlers' : List Node} {last last' : Option Node}
    (hbody : Retargets S ls target bound' r names [] body body')
    (hhandlers : List.Forall₂ HandlersAlike handlers handlers')
    (hbodies : ∀ (i : Nat) t t' mods name types b b',
      handlers[i]? = some (.mk t (.catchClause mods name types b)) →
      handlers'[i]? = some (.mk t' (.catchClause mods name types b')) →
      Retargets S ls target bound' r (fun _ => True) [] b b')
    (hsome : last'.isSome = last.isSome)
    (hlast : ∀ n n', last = some n → last' = some n' →
      Retargets S ls target bound' r names [] n n') :
    Retargets S ls target bound' r names labels (.mk t (.tryStmt body handlers last))
      (.mk t' (.tryStmt body' handlers' last')) := by
  intro nested r' hn ht
  have hactive : ∀ c ∈ (Shape.tryStmt body' handlers' last').children,
      hasContinue ls c nested = true →
        hasContinue ls (.mk t' (.tryStmt body' handlers' last')) nested = true := fun c hc =>
    hasContinue_of_child (by rintro _ ⟨⟩) t' hc (Bool.or_false nested)
  have hchild : ∀ c ∈ handlers, Unlabelled ls [] c := fun c hc =>
    hn.child (by simp [Shape.bodies, hc])
  rw [retarget_tryStmt]
  refine .tryStmt (hbody nested r' (hn.child List.mem_cons_self) (ht.weaken (hactive body' ?_))) ?_
    (fun i t₁ t₂ mods name types b m hi hm => ?_) (by simpa using hsome) fun n m hn₁ hm => ?_
  · simp [Shape.children, Shape.parts, Part.toList]
  · rw [List.forall₂_map_right_iff]
    have hboth := (List.forall₂_and_left handlers handlers').mpr ⟨hchild, hhandlers⟩
    exact hboth.imp fun c c' h => h.2.retarget h.1 nested
  · refine handler hhandlers hbodies hchild (fun c hc => hactive c ?_) ht hi hm
    exact Shape.mem_children_iff.mpr (.inr (by simp [Shape.bodies, hc]))
  · obtain ⟨n', hn', rfl⟩ := Option.map_eq_some_iff.mp hm
    refine hlast n n' hn₁ hn' nested r' (hn.child ?_) (ht.weaken (hactive n' ?_))
    · simp [Shape.bodies, hn₁]
    · simp [Shape.children, Shape.parts, Part.toList, hn']

lemma labeled {l : String} (hl : bound' l) (hne : l ≠ target) (hturns : ∀ c, ¬ r.turns c l)
    (h : Retargets S ls target bound' (r.label l) names (labels ++ [l]) body body') :
    Retargets S ls target bound' r names labels (.mk t (.labeled l body))
      (.mk t' (.labeled l body')) := by
  intro nested r' hn ht
  have heq : retarget ls target (.mk t' (.labeled l body')) nested =
      .mk t' (.labeled l (retarget ls target body' nested)) := by
    rw [retarget_map (by rintro _ ⟨⟩) t' (Bool.or_false nested)]
    rfl
  have hchild := hn.child List.mem_cons_self
  rw [heq]
  refine .labeled hl (ht.not_turns hne hturns)
    (h nested _ ⟨hchild.placed, hchild.inside, fun x hx => ?_⟩ ((ht.label l).weaken ?_))
  · rcases List.mem_append.mp hx with hx | hx
    · exact hn.before x hx
    · obtain rfl := List.mem_singleton.mp hx
      exact fun hmem => hn.inside x hmem (by simp [mentions_labeled])
  · exact hasContinue_of_child (by rintro _ ⟨⟩) t' List.mem_cons_self (Bool.or_false nested)

lemma inert {s s' : Shape Node} (h : isInert s = true) (h' : isInert s' = true)
    (hkind : s'.kind = s.kind) :
    Retargets S ls target bound' r names labels (.mk t s) (.mk t' s') := by
  intro nested r' hn ht
  have hne : ∀ l, s' ≠ .continueStmt l := by
    rintro l rfl
    cases h'
  rw [retarget_map hne t' rfl]
  refine .inert h ?_ (by rw [Shape.kind_map, hkind])
  cases s' <;> first | rfl | cases h'

lemma kept {inside inside' : Routes} {cond : Option Node} {m : Node}
    (hloop : Unlabelled ls [] (.mk t (.forLoop init cond update body))) (keeps : Keeps body ss inner)
    (h : ∀ (i : Nat) (n n' : Node), ss[i]? = some n → ss'[i]? = some n' →
      Retargets S ls target bound' inside inner [] n n')
    (ht : Turning ls target true (ss'.any (hasContinue ls · true) = true) inside inside')
    {i : Nat} {n : Node} (hi : ss[i]? = some n)
    (hm : (ss'.map (retarget ls target · true))[i]? = some m) :
    Lowers S bound' inside' inner [] n m := by
  rw [List.getElem?_map] at hm
  obtain ⟨n', hn', rfl⟩ := Option.map_eq_some_iff.mp hm
  have hkept := (hloop.child List.mem_cons_self).kept keeps n (List.mem_of_getElem? hi)
  refine h i n n' hi hn' true inside' hkept (ht.weaken fun hactive => ?_)
  exact List.any_eq_true.mpr ⟨n', List.mem_of_getElem? hn', hactive⟩

lemma forAsWhile {inside : Routes} {cond : Option Node} (hbound : ∀ l, bound l → bound' l)
    (htarget : ¬ bound target) (head : ForHead S bound r marks init cond update)
    (keeps : Keeps body ss inner) (hnames : ∀ e ∈ update, ∀ n ∈ e.names, ¬ inner n)
    (hinside : inside = (r.under (marks.map (·.2))).passing (marks.map (·.2)) ∨
      update = [] ∧ inside = (r.under (marks.map (·.2))).loop (marks.map (·.2)))
    (hlen : ss'.length = ss.length)
    (h : ∀ (i : Nat) (n n' : Node), ss[i]? = some n → ss'[i]? = some n' →
      Retargets S ls target bound' inside inner [] n n') :
    Retargets S ls target bound' r names []
      (underLabels marks (.mk t (.forLoop init cond update body)))
      (whileBlock (marks.map (·.2)) line (init.flatMap statementsOf) (conditionOf cond)
        (.mk tk (.block (ss' ++ updatesOf update)))) := by
  intro nested r' hn ht
  obtain ⟨hloop, hbefore⟩ := hn.under
  have hquiet : Node.allQuiet (init ++ cond.toList ++ update) := hloop.phrases
  have hupdate : Node.allQuiet update := fun e he => hquiet e (by simp [he])
  have hactive : ss'.any (hasContinue ls · true) = true →
      hasContinue ls (.mk tk (.block (ss' ++ updatesOf update))) true = true := fun hany => by
    rw [hasContinue_block, List.any_append, hany, Bool.true_or]
  have hlen' : (ss'.map (retarget ls target · true)).length = ss.length := by
    rw [List.length_map, hlen]
  have hunder := ((ht.weaken hasContinue_of_block).under (marks.map (·.2))).weaken hactive
  rw [retarget_forBlock hquiet, retarget_block, List.map_append, updatesOf,
    retarget_updates hupdate]
  rcases hinside with rfl | ⟨rfl, rfl⟩
  · exact .forAsWhile inner (head.retarget hbound htarget ht) keeps hnames (.inl rfl) hlen'
      fun i n m => kept hloop keeps h (hunder.intoPassing hbefore)
  · exact .forAsWhile inner (head.retarget hbound htarget ht) keeps hnames (.inr ⟨rfl, rfl⟩) hlen'
      fun i n m => kept hloop keeps h (hunder.intoLoop hbefore)

lemma guardedFor {target₁ : String} {cond : Option Node} (hbound : ∀ l, bound l → bound' l)
    (htarget : ¬ bound target) (head : ForHead S bound r marks init cond update)
    (keeps : Keeps body ss inner) (htarget₁ : bound target₁)
    (hbreaks : ¬ (r.under (marks.map (·.2))).breaks (some target₁))
    (hturns : ∀ c, ¬ r.turns c target₁) (hlen : ss'.length = ss.length)
    (h : ∀ (i : Nat) (n n' : Node), ss[i]? = some n → ss'[i]? = some n' →
      Retargets S ls target bound' ((r.under (marks.map (·.2))).guarded (marks.map (·.2)) target₁)
        inner [] n n') :
    Retargets S ls target bound' r names []
      (underLabels marks (.mk t (.forLoop init cond update body)))
      (whileBlock (marks.map (·.2)) line (init.flatMap statementsOf) (conditionOf cond)
        (.plain (.block (.plain (.labeled target₁ (.mk tk (.block ss'))) ::
          updatesOf update)))) := by
  intro nested r' hn ht
  obtain ⟨hloop, hbefore⟩ := hn.under
  have hquiet : Node.allQuiet (init ++ cond.toList ++ update) := hloop.phrases
  have hupdate : Node.allQuiet update := fun e he => hquiet e (by simp [he])
  have hlabeled : retarget ls target (.plain (.labeled target₁ (.mk tk (.block ss')))) true =
      .plain (.labeled target₁ (.mk tk (.block (ss'.map (retarget ls target · true))))) := by
    rw [Node.plain, retarget_map (by rintro _ ⟨⟩) _ rfl, ← retarget_block]
    rfl
  have hbody : retarget ls target (.plain (.block
        (.plain (.labeled target₁ (.mk tk (.block ss'))) :: updatesOf update))) true =
      .plain (.block (.plain (.labeled target₁ (.mk tk (.block
        (ss'.map (retarget ls target · true))))) :: updatesOf update)) := by
    rw [Node.plain, retarget_block, List.map_cons, hlabeled, updatesOf, retarget_updates hupdate]
    rfl
  have hactive : ss'.any (hasContinue ls · true) = true → hasContinue ls (.plain (.block
      (.plain (.labeled target₁ (.mk tk (.block ss'))) :: updatesOf update))) true = true := by
    intro hany
    have hguarded : hasContinue ls (.plain (.labeled target₁ (.mk tk (.block ss')))) true = true :=
      hasContinue_of_child (by rintro _ ⟨⟩) _ List.mem_cons_self rfl
        ((hasContinue_block ls tk ss' true).trans hany)
    rw [Node.plain, hasContinue_block]
    exact List.any_eq_true.mpr ⟨_, List.mem_cons_self, hguarded⟩
  have hne : target₁ ≠ target := fun h => htarget (h ▸ htarget₁)
  have hunder := (ht.under (marks.map (·.2))).weaken fun hany =>
    hasContinue_of_block (hactive hany)
  rw [retarget_forBlock hquiet, hbody]
  exact .guardedFor target₁ inner (head.retarget hbound htarget ht) keeps (hbound _ htarget₁)
    (fun h => hbreaks ((hunder.breaks _).mp h)) (ht.not_turns hne hturns) (by simpa using hlen)
    fun i n m => kept hloop keeps h (hunder.intoGuarded hbefore target₁)

end Retargets

lemma Lowers.retarget (hforeign : S.forbidden .foreignIteration = false)
    (hbound : ∀ l, bound l → bound' l) (htarget : ¬ bound target) {n n' : Node}
    (h : Lowers S bound r names labels n n') (hn : Unlabelled ls labels n)
    (ht : Turning ls target nested (hasContinue ls n' nested = true) r r') :
    Lowers S bound' r' names labels n (retarget ls target n' nested) := by
  have hretargets : Retargets S ls target bound' r names labels n n' := by
    clear hn ht
    induction h with
    | block hlen _ ih => exact .block hlen ih
    | localVar h hds => exact .leaf (by rintro _ ⟨⟩) rfl fun _ _ => .localVar h hds
    | exprStmt h => exact .leaf (by rintro _ ⟨⟩) rfl fun _ _ => .exprStmt h
    | ifElse hcond _ hsome _ iha ihb => exact .ifElse hcond iha hsome ihb
    | whileLoop hcond _ ih => exact .whileLoop hcond ih
    | doWhile hcond _ ih => exact .doWhile hcond ih
    | forLoop hhead _ ih => exact .forLoop hhead ih
    | forEach hiterable _ ih => exact .forEach hiterable ih
    | returnStmt h => exact .leaf (by rintro _ ⟨⟩) rfl fun _ _ => .returnStmt h
    | throwStmt h => exact .leaf (by rintro _ ⟨⟩) rfl fun _ _ => .throwStmt h
    | breakStmt h => exact .leaf (by rintro _ ⟨⟩) rfl fun _ hb => .breakStmt ((hb _).mpr h)
    | continueStmt h => exact .continueStmt h
    | turned h => exact fun nested r' hn ht => .turned (ht.turns _ _ h)
    | tryStmt _ hhandlers _ hsome _ ihbody ihbodies ihlast =>
      exact .tryStmt ihbody hhandlers ihbodies hsome ihlast
    | labeled hl hturns _ ih =>
      exact .labeled (hbound _ hl) (fun h => htarget (h ▸ hl)) hturns ih
    | emptyStmt => exact .leaf (by rintro _ ⟨⟩) rfl fun _ _ => .emptyStmt
    | classDecl =>
      intro nested r' hn ht
      rw [retarget_map (by rintro _ ⟨⟩) _ rfl]
      exact .classDecl
    | inert h h' hkind => exact .inert h h' hkind
    | forAsWhile inner head keeps hnames hinside hlen _ ih =>
      exact .forAsWhile hbound htarget head keeps hnames hinside hlen ih
    | guardedFor target₁ inner head keeps htarget₁ hbreaks hturns hlen _ ih =>
      exact .guardedFor hbound htarget head keeps htarget₁ hbreaks hturns hlen ih
    | forEachAsWhile head =>
      rw [head.foreign] at hforeign
      cases hforeign
  exact hretargets nested r' hn ht

end

end Machine

end LoopLowering
