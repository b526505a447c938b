import LoopLowering.Proofs.Loops.Landmarks

/-! The names of labels in a tree, and what turning the `continue` statements of a loop into jumps to
a new label does to the landmarks of its body. -/

namespace LoopLowering

namespace Loops

inductive Mention where
  | label (name : String)
  | jump (name : String)
  deriving DecidableEq

def Mention.name : Mention → String
  | label l | jump l => l

def mentioned {α : Type} : Shape α → List Mention
  | .labeled l _ => [.label l]
  | .breakStmt (some l) | .continueStmt (some l) => [.jump l]
  | _ => []

def mentions : Node → List Mention :=
  Node.fold fun _ s => mentioned s ++ s.bodies.flatten

/-- Whether a label is not declared again inside the statement that has it. -/
def labelApart (n : Node) : Bool :=
  match n.shape with
  | .labeled l body => !(mentions body).contains (.label l)
  | _ => true

def LabelsApart (n : Node) : Prop := ∀ m ∈ n.nodes, labelApart m = true

instance (n : Node) : Decidable (LabelsApart n) :=
  inferInstanceAs (Decidable (∀ m ∈ n.nodes, labelApart m = true))

lemma mentioned_mapAt {α β : Type} (f : Step → α → β) (s : Shape α) :
    mentioned (s.mapAt f) = mentioned s := by
  cases s with
  | breakStmt l => cases l <;> rfl
  | continueStmt l => cases l <;> rfl
  | _ => rfl

lemma mentions_mk (t : Tag) (s : Shape Node) :
    mentions (.mk t s) = mentioned s ++ s.bodies.flatMap mentions := by
  rw [mentions, Node.fold_mk, Shape.map, mentioned_mapAt, ← Shape.map, Shape.bodies_map]
  rfl

lemma mentions_child {t : Tag} {s : Shape Node} {c : Node} (hc : c ∈ s.bodies) :
    mentions c ⊆ mentions (.mk t s) := by
  rw [mentions_mk]
  exact fun m hm => List.mem_append_right _ (List.mem_flatMap.mpr ⟨c, hc, hm⟩)

lemma mentions_block (t : Tag) (ss : List Node) :
    mentions (.mk t (.block ss)) = ss.flatMap mentions := mentions_mk t (.block ss)

lemma mentions_labeled (t : Tag) (l : String) (body : Node) :
    mentions (.mk t (.labeled l body)) = .label l :: mentions body := by
  rw [mentions_mk]
  exact congrArg (_ :: ·) (List.append_nil _)

lemma mem_mentions_underLabels {labels : List (Tag × String)} {n : Node} {m : Mention} :
    m ∈ mentions (underLabels labels n) ↔
      (∃ l ∈ labels.map (·.2), m = .label l) ∨ m ∈ mentions n := by
  induction labels with
  | nil => simp [underLabels]
  | cons l labels ih =>
    rw [underLabels_cons, mentions_labeled, List.mem_cons, ih, List.map_cons]
    simp only [List.mem_cons, exists_eq_or_imp, or_assoc]

lemma labelsApart_mk {t : Tag} {s : Shape Node} :
    LabelsApart (.mk t s) ↔ labelApart (.mk t s) = true ∧ ∀ c ∈ s.children, LabelsApart c :=
  Node.forall_nodes_mk

lemma labelsApart_child {t : Tag} {s : Shape Node} (h : LabelsApart (.mk t s)) {c : Node}
    (hc : c ∈ s.bodies) : LabelsApart c :=
  (labelsApart_mk.mp h).2 c (Shape.mem_children_iff.mpr (.inr hc))

lemma labelsApart_underLabels {labels : List (Tag × String)} {n : Node}
    (h : LabelsApart (underLabels labels n)) :
    LabelsApart n ∧ ∀ l ∈ labels.map (·.2), Mention.label l ∉ mentions n := by
  induction labels with
  | nil => exact ⟨h, by simp⟩
  | cons l labels ih =>
    rw [underLabels_cons] at h
    obtain ⟨hl, hc⟩ := labelsApart_mk.mp h
    obtain ⟨hn, hlabels⟩ := ih (hc _ List.mem_cons_self)
    rw [List.map_cons]
    refine ⟨hn, List.forall_mem_cons.mpr ⟨fun hm => ?_, hlabels⟩⟩
    have hnot : Mention.label l.2 ∉ mentions (underLabels labels n) := by
      simpa [labelApart] using hl
    exact hnot (mem_mentions_underLabels.mpr (.inr hm))

lemma isBodyLabel_bodyLabel (k : Nat) : isBodyLabel (bodyLabel k) = true := by
  rw [isBodyLabel, bodyLabel, String.toList_append, List.isPrefixOf_iff_prefix]
  exact List.prefix_append _ _

lemma bodyLabel_inj {j k : Nat} (h : bodyLabel j = bodyLabel k) : j = k := by
  have hlist := congrArg String.toList h
  simp only [bodyLabel, String.toList_append, Nat.toString_eq_ofList_toDigits,
    String.toList_ofList] at hlist
  have hdigits := List.append_cancel_left hlist
  rw [← Nat.ofDigitChars_ten_toDigits (n := j), hdigits, Nat.ofDigitChars_ten_toDigits]

section

variable {ls : List String} {target : String}

lemma mentions_retarget {n : Node} (nested : Bool) {m : Mention}
    (h : m ∈ mentions (retarget ls target n nested)) : m ∈ mentions n ∨ m = .jump target := by
  induction n using Node.children_induction generalizing nested with
  | h t s ih =>
    by_cases hs : ∃ l, s = .continueStmt l
    · obtain ⟨l, rfl⟩ := hs
      rw [retarget_continue] at h
      split at h
      · right
        simpa [Node.plain, mentions_mk, mentioned, Shape.bodies] using h
      · exact .inl h
    · rw [retarget_mk ls target fun l hl => hs ⟨l, hl⟩, mentions_mk, Shape.map, mentioned_mapAt,
        ← Shape.map, Shape.bodies_map, List.flatMap_map] at h
      rcases List.mem_append.mp h with h | h
      · rw [mentions_mk]
        exact .inl (List.mem_append_left _ h)
      · obtain ⟨c, hc, hm⟩ := List.mem_flatMap.mp h
        refine (ih c (Shape.mem_children_iff.mpr (.inr hc)) _ hm).imp_left fun hm => ?_
        exact mentions_child hc hm

lemma retarget_eq_self {n : Node} {nested : Bool} (h : hasContinue ls n nested = false) :
    retarget ls target n nested = n := by
  induction n using Node.children_induction generalizing nested with
  | h t s ih =>
    by_cases hs : ∃ l, s = .continueStmt l
    · obtain ⟨l, rfl⟩ := hs
      rw [retarget_continue, if_neg]
      simpa [hasContinue_continue] using h
    · rw [hasContinue_mk ls fun l hl => hs ⟨l, hl⟩, List.any_eq_false] at h
      rw [retarget_mk ls target fun l hl => hs ⟨l, hl⟩]
      refine congrArg (Node.mk t) (Shape.map_eq_self fun c hc => ih c hc ?_)
      simpa using h c hc

lemma label?_retarget (n : Node) (nested : Bool) :
    label? (retarget ls target n nested) = label? n := by
  obtain ⟨t, s⟩ := n
  by_cases hs : ∃ l, s = .continueStmt l
  · obtain ⟨l, rfl⟩ := hs
    rw [retarget_continue]
    split <;> rfl
  · rw [retarget_mk ls target fun l hl => hs ⟨l, hl⟩]
    cases s <;> rfl

lemma expression?_retarget {n : Node} (h : n.WellPlaced) (nested : Bool) :
    expression? (retarget ls target n nested) = expression? n := by
  cases h with
  | @mk t s head phrases bodies =>
    by_cases hs : ∃ l, s = .continueStmt l
    · obtain ⟨l, rfl⟩ := hs
      rw [retarget_continue]
      split <;> rfl
    · rw [retarget_mk ls target fun l hl => hs ⟨l, hl⟩]
      cases s with
      | exprStmt e =>
        have he : e.quiet = true := phrases e List.mem_cons_self
        exact congrArg some (retarget_of_quiet ls target he _)
      | _ => rfl

lemma expressions?_retarget {ns : List Node} (h : ∀ n ∈ ns, n.WellPlaced) (nested : Bool) :
    (ns.map (retarget ls target · nested)).mapM expression? = ns.mapM expression? := by
  induction ns with
  | nil => rfl
  | cons n ns ih =>
    obtain ⟨hn, hns⟩ := List.forall_mem_cons.mp h
    rw [List.map_cons, List.mapM_cons, List.mapM_cons, expression?_retarget hn, ih hns]

lemma guard?_retarget {n : Node} (h : n.WellPlaced) (nested : Bool) :
    guard? (retarget ls target n nested) = guard? n := by
  cases h with
  | @mk t s head phrases bodies =>
    by_cases hs : ∃ l, s = .continueStmt l
    · obtain ⟨l, rfl⟩ := hs
      rw [retarget_continue]
      split <;> rfl
    · cases s with
      | block ss =>
        rw [retarget_block]
        cases ss with
        | nil => rfl
        | cons first after =>
          have hafter : (after.map (retarget ls target · nested)).mapM expression? =
              after.mapM expression? :=
            expressions?_retarget (fun c hc => bodies c (List.mem_cons_of_mem first hc)) nested
          simp only [guard?, Node.shape_mk, List.map_cons, label?_retarget, hafter]
      | _ =>
        rw [retarget_mk ls target fun l hl => hs ⟨l, hl⟩]
        rfl

structure Turned (ls : List String) (target : String) (nested : Bool) (active : Prop)
    (sc sc' : Scene) : Prop where
  depth : sc'.depth = sc.depth
  labels : sc'.labels = sc.labels
  guard : sc'.guard = sc.guard
  apart : ∀ l ∈ sc.labels, l ∉ ls
  breaks : ∀ l, l ≠ some target → sc'.goals (.breakTo l) = sc.goals (.breakTo l)
  kept : ∀ l, continues ls nested l = false → sc'.goals (.continueTo l) = sc.goals (.continueTo l)
  turned : active → ∀ l, continues ls nested l = true →
    sc'.goals (.breakTo (some target)) = sc.goals (.continueTo l)

namespace Turned

variable {nested : Bool} {active active' : Prop} {sc sc' : Scene}

lemma inLoop (h : Turned ls target nested active sc sc') (hactive : active' → active)
    (update : List Node) (body : Node) :
    Turned ls target true active' (sc.inLoop update body) (sc'.inLoop update body) where
  depth := congrArg (· + 1) h.depth
  labels := rfl
  guard := by simp [Scene.inLoop, h.depth]
  apart := by simp [Scene.inLoop]
  breaks l hl := by
    cases l with
    | none => exact congrArg Goal.behind h.depth
    | some l => exact h.breaks (some l) hl
  kept l hl := by
    cases l with
    | none => simp [Scene.inLoop, h.depth]
    | some l => simp [Scene.inLoop, h.depth, h.labels, h.kept (some l) hl]
  turned ha l hl := by
    cases l with
    | none => cases hl
    | some l =>
      have hnot : l ∉ sc.labels := fun hm => h.apart l hm (by simpa [continues] using hl)
      simpa [Scene.inLoop, hnot] using h.turned (hactive ha) (some l) hl

lemma underLabel (h : Turned ls target nested active sc sc') (hactive : active' → active)
    {l : String} (htarget : l ≠ target) (hapart : l ∉ ls) :
    Turned ls target nested active' (sc.underLabel l) (sc'.underLabel l) := by
  have hbreaks : ∀ goal k, k ≠ some target →
      sc'.leaving l goal (.breakTo k) = sc.leaving l goal (.breakTo k) := by
    intro goal k hk
    simp [Scene.leaving, h.breaks k hk]
  have hkept : ∀ goal k, continues ls nested k = false →
      sc'.leaving l goal (.continueTo k) = sc.leaving l goal (.continueTo k) := by
    intro goal k hk
    simp [Scene.leaving, h.kept k hk]
  have hturned : ∀ goal, active' → ∀ k, continues ls nested k = true →
      sc'.leaving l goal (.breakTo (some target)) = sc.leaving l goal (.continueTo k) := by
    intro goal ha k hk
    simp [Scene.leaving, htarget.symm, h.turned (hactive ha) k hk]
  unfold Scene.underLabel
  rw [h.guard]
  split
  · rename_i g hg
    exact ⟨h.depth, rfl, rfl, by simp, hbreaks g.2, hkept g.2, hturned g.2⟩
  · rw [h.depth, h.labels]
    refine ⟨rfl, rfl, rfl, ?_, hbreaks (.behind sc.depth), hkept (.behind sc.depth),
      hturned (.behind sc.depth)⟩
    simpa [or_imp, forall_and, hapart] using h.apart

lemma into (h : Turned ls target nested active sc sc') (hactive : active' → active)
    {s : Shape Node} (hlabel : ∀ l, .label l ∈ mentioned s → l ≠ target ∧ l ∉ ls) :
    Turned ls target (nested || isLoop s) active' (sc.into s) (sc'.into s) := by
  have hstatement : Turned ls target nested active' { sc with labels := [], guard := none }
      { sc' with labels := [], guard := none } :=
    { h with labels := rfl, guard := rfl, apart := by simp,
             turned := fun ha => h.turned (hactive ha) }
  have hdeclaration : Turned ls target nested active' { depth := sc.depth }
      { depth := sc'.depth } :=
    ⟨h.depth, rfl, rfl, by simp, fun _ _ => rfl, fun _ _ => rfl, fun _ _ _ => rfl⟩
  cases s with
  | labeled l body =>
    obtain ⟨htarget, hapart⟩ := hlabel l (by simp [mentioned])
    rw [show (nested || isLoop (.labeled l body)) = nested from Bool.or_false _]
    exact h.underLabel hactive htarget hapart
  | block ss =>
    rw [show (nested || isLoop (.block ss)) = nested from Bool.or_false _]
    exact { h with labels := rfl, apart := by simp [Scene.into],
                   turned := fun ha => h.turned (hactive ha) }
  | forLoop init cond update body =>
    exact (Bool.or_true nested).symm ▸ h.inLoop hactive update body
  | whileLoop cond body => exact (Bool.or_true nested).symm ▸ h.inLoop hactive [] body
  | doWhile body cond => exact (Bool.or_true nested).symm ▸ h.inLoop hactive [] body
  | forEach var iterable body => exact (Bool.or_true nested).symm ▸ h.inLoop hactive [] body
  | _ =>
    simp only [isLoop, Bool.or_false]
    first | exact hstatement | exact hdeclaration

end Turned

lemma marks_turned {nested : Bool} {active : Prop} {sc sc' : Scene}
    (h : Turned ls target nested active sc sc') {s : Shape Node} (hs : ∀ l, s ≠ .continueStmt l)
    (htarget : ∀ m ∈ mentioned s, m.name ≠ target) : sc'.marks s = sc.marks s := by
  cases s with
  | breakStmt l =>
    have hl : l ≠ some target := by
      rintro rfl
      exact htarget (.jump target) (by simp [mentioned]) rfl
    simp [Scene.marks, h.breaks l hl]
  | continueStmt l => exact absurd rfl (hs l)
  | _ => simp [Scene.marks, h.depth, h.guard]

lemma survey_retarget {n : Node} (h : n.WellPlaced) {nested : Bool} {sc sc' : Scene}
    (htarget : ∀ m ∈ mentions n, m.name ≠ target) (hapart : ∀ l ∈ ls, .label l ∉ mentions n)
    (hsc : Turned ls target nested (hasContinue ls n nested = true) sc sc') :
    survey (retarget ls target n nested) sc' = survey n sc := by
  induction h generalizing nested sc sc' with
  | @mk t s head phrases bodies ih =>
    by_cases hs : ∃ l, s = .continueStmt l
    · obtain ⟨l, rfl⟩ := hs
      rw [retarget_continue]
      split
      · rename_i hl
        exact congrArg (fun g => [Landmark.jump g]) (hsc.turned hl l hl)
      · rename_i hl
        exact congrArg (fun g => [Landmark.jump g]) (hsc.kept l (by simpa using hl))
    have hs : ∀ l, s ≠ .continueStmt l := fun l hl => hs ⟨l, hl⟩
    have hmentioned : mentioned s ⊆ mentions (.mk t s) := by
      rw [mentions_mk]
      exact List.subset_append_left _ _
    have hself : s.map id = s := Shape.map_eq_self fun _ _ => rfl
    have hphrases : ∀ c ∈ s.phrases, retarget ls target c (nested || isLoop s) = id c :=
      fun c hc => retarget_of_quiet ls target (phrases c hc) _
    have hmarks := marks_map sc' hphrases
    have hinto := into_map sc' hphrases fun c hc => guard?_retarget (bodies c hc) _
    rw [hself] at hmarks hinto
    rw [retarget_mk ls target hs, survey_mk, survey_mk, hmarks, hinto, Shape.bodies_map,
      List.flatMap_map, marks_turned hsc hs fun m hm => htarget m (hmentioned hm)]
    refine congrArg _ (List.flatMap_congr fun c hc => ih c hc
      (fun m hm => htarget m (mentions_child hc hm))
      (fun l hl hm => hapart l hl (mentions_child hc hm))
      (hsc.into (fun hactive => ?_) fun l hl => ?_))
    · rw [hasContinue_mk ls hs]
      exact List.any_eq_true.mpr ⟨c, Shape.mem_children_iff.mpr (.inr hc), hactive⟩
    · exact ⟨htarget _ (hmentioned hl), fun hm => hapart l hm (hmentioned hl)⟩

end

end Loops

end LoopLowering
