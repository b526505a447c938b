import LoopLowering.Proofs.Loops.Retargeting

/-! The pass over the loops with a head of three parts keeps where jumps go: the new tree has the
landmarks of the old one, unless the program itself has labels like those that the pass makes. -/

namespace LoopLowering

namespace Loops

def Unguarded (ss : List Node) : Prop :=
  ∀ first ∈ ss.head?, ∀ l ∈ label? first, isBodyLabel l = false

structure Clear (n : Node) : Prop where
  label : Unguarded [n]
  first : ∀ ss, n.shape = .block ss → Unguarded ss

lemma unguarded_singleton {n : Node} : Unguarded [n] ↔ ∀ l ∈ label? n, isBodyLabel l = false := by
  simp [Unguarded]

lemma guard?_block {ss : List Node} (h : Unguarded ss) (t : Tag) :
    guard? (.mk t (.block ss)) = none := by
  cases ss with
  | nil => rfl
  | cons first after =>
    have hfilter : (label? first).filter isBodyLabel = none :=
      Option.filter_eq_none_iff.mpr fun l hl => by simp [h first rfl l hl]
    simp [guard?, hfilter]

lemma Clear.guard? {n : Node} (h : Clear n) : guard? n = none := by
  obtain ⟨t, s⟩ := n
  cases s with
  | block ss => exact guard?_block (h.first ss rfl) t
  | _ => rfl

lemma Clear.keptBlock {n : Node} (h : Clear n) : Unguarded (keptBlock n).2 := by
  unfold Loops.keptBlock
  split
  · rename_i t ss
    split
    · exact h.label
    · exact h.first ss rfl
  · exact h.label

lemma unguarded_append {ss : List Node} (h : Unguarded ss) (es : List Node) :
    Unguarded (ss ++ es.map fun e => .plain (.exprStmt e)) := by
  cases ss with
  | nil =>
    cases es with
    | nil => exact h
    | cons e es => simp [Unguarded, label?, Node.plain]
  | cons first after => simpa [Unguarded] using h

lemma clear_of_names {n : Node} (h : ∀ m ∈ mentions n, isBodyLabel m.name = false) : Clear n := by
  have hlabel : ∀ n : Node, (∀ m ∈ mentions n, isBodyLabel m.name = false) → Unguarded [n] := by
    rintro ⟨t, s⟩ h
    rw [unguarded_singleton]
    cases s with
    | labeled k body =>
      rintro l ⟨⟩
      exact h (.label k) (by simp [mentions_mk, mentioned])
    | _ => rintro l ⟨⟩
  refine ⟨hlabel n h, fun ss hss first hfirst => unguarded_singleton.mp (hlabel first ?_)⟩
  obtain ⟨t, s⟩ := n
  obtain rfl : s = .block ss := hss
  exact fun m hm => h m (mentions_child (List.mem_of_mem_head? hfirst) hm)

lemma expressions?_exprStmts (es : List Node) :
    (es.map fun e => Node.plain (.exprStmt e)).mapM expression? = some es := by
  induction es with
  | nil => rfl
  | cons e es ih =>
    rw [List.map_cons, List.mapM_cons, ih]
    rfl

lemma survey_keptBlock (n : Node) {sc : Scene} (h : sc.labels = []) :
    survey n sc = (keptBlock n).2.flatMap (survey · sc) := by
  unfold keptBlock
  split
  · split
    · simp
    · exact survey_block _ sc _ h
  · simp

lemma mentions_keptBlock {n c : Node} (hc : c ∈ (keptBlock n).2) : mentions c ⊆ mentions n := by
  unfold keptBlock at hc
  split at hc
  · split at hc
    · obtain rfl := List.mem_singleton.mp hc
      exact List.Subset.refl _
    · exact mentions_child hc
  · obtain rfl := List.mem_singleton.mp hc
    exact List.Subset.refl _

def labelledBody (ls : List String) (next : Nat) (update : List Node) (body : Node) : Node :=
  .plain (.block (.plain (.labeled (bodyLabel next) (.mk (keptBlock body).1
    (.block ((keptBlock body).2.map (retarget ls (bodyLabel next) · false))))) ::
      update.map fun e => .plain (.exprStmt e)))

def extendedBody (update : List Node) (body : Node) : Node :=
  .mk (keptBlock body).1 (.block ((keptBlock body).2 ++ update.map fun e => .plain (.exprStmt e)))

section

variable {ls : List String} {update : List Node} {body : Node} {sc : Scene}

lemma guard?_labelledBody (ls : List String) (next : Nat) (update : List Node) (body : Node) :
    guard? (labelledBody ls next update body) = some (bodyLabel next, update) := by
  have hfilter : (some (bodyLabel next)).filter isBodyLabel = some (bodyLabel next) := by
    simp [isBodyLabel_bodyLabel]
  show (do
    let l ← (some (bodyLabel next)).filter isBodyLabel
    return (l, ← (update.map fun e => Node.plain (.exprStmt e)).mapM expression?)) = _
  rw [hfilter, expressions?_exprStmts]
  rfl

lemma survey_labelledBody (ls : List String) (next : Nat) (update : List Node) (body : Node)
    (hlabels : sc.labels = []) {goal : Goal} (hguard : sc.guard = some (bodyLabel next, goal)) :
    survey (labelledBody ls next update body) sc = (keptBlock body).2.flatMap fun c =>
      survey (retarget ls (bodyLabel next) c false)
        { depth := sc.depth, goals := sc.leaving (bodyLabel next) goal } := by
  rw [labelledBody, Node.plain, survey_block _ _ _ hlabels, List.flatMap_cons, survey_exprStmts,
    List.append_nil, Node.plain, survey_labeled_of_guard _ _ hguard, survey_block _ _ _ rfl,
    List.flatMap_map]

lemma survey_extendedBody (update : List Node) (body : Node) (hlabels : sc.labels = []) :
    survey (extendedBody update body) sc = (keptBlock body).2.flatMap (survey · sc) := by
  rw [extendedBody, survey_block _ _ _ hlabels, List.flatMap_append, survey_exprStmts,
    List.append_nil]

lemma turned_guarded (hguard : guard? body = none) (hsc : sc.labels = ls) (target : String)
    (active : Prop) (new : Node) :
    Turned ls target false active (sc.inLoop update body)
      { depth := sc.depth + 1
        goals := (sc.inLoop [] new).leaving target (.bodyEnd sc.depth update) } where
  depth := rfl
  labels := rfl
  guard := by simp [Scene.inLoop, hguard]
  apart := by simp [Scene.inLoop]
  breaks l hl := by cases l <;> simp_all [Scene.leaving, Scene.inLoop]
  kept l hl := by cases l <;> simp_all [continues, Scene.leaving, Scene.inLoop]
  turned _ l hl := by cases l <;> simp_all [continues, Scene.leaving, Scene.inLoop]

lemma turned_extended (hguard : guard? body = none) (hsc : sc.labels = ls) (target : String)
    (update : List Node) {new : Node} (hnew : guard? new = none) :
    Turned ls target false False (sc.inLoop update body) (sc.inLoop [] new) where
  depth := rfl
  labels := rfl
  guard := by simp [Scene.inLoop, hguard, hnew]
  apart := by simp [Scene.inLoop]
  breaks l _ := by cases l <;> rfl
  kept l hl := by cases l <;> simp_all [continues, Scene.inLoop]
  turned := False.elim

lemma survey_in_labelledBody (hbody : body.WellPlaced) (hclear : Clear body) {next : Nat}
    (hfresh : ∀ m ∈ mentions body, m.name ≠ bodyLabel next)
    (hapart : ∀ l ∈ ls, Mention.label l ∉ mentions body) (hsc : sc.labels = ls) :
    survey (labelledBody ls next update body) (sc.inLoop [] (labelledBody ls next update body)) =
      survey body (sc.inLoop update body) := by
  have hguard : (sc.inLoop [] (labelledBody ls next update body)).guard =
      some (bodyLabel next, .bodyEnd sc.depth update) := by
    simp [Scene.inLoop, guard?_labelledBody]
  rw [survey_labelledBody _ _ _ _ rfl hguard, survey_keptBlock body rfl]
  refine List.flatMap_congr fun c hc => survey_retarget (allWellPlaced_keptBlock hbody c hc)
    (fun m hm => hfresh m (mentions_keptBlock hc hm))
    (fun l hl hm => hapart l hl (mentions_keptBlock hc hm)) ?_
  exact turned_guarded hclear.guard? hsc (bodyLabel next) _ _

lemma survey_in_extendedBody (hbody : body.WellPlaced) (hclear : Clear body)
    (hlabel : ¬ NeedsLabel ls update body) {target : String}
    (hfresh : ∀ m ∈ mentions body, m.name ≠ target)
    (hapart : ∀ l ∈ ls, Mention.label l ∉ mentions body) (hsc : sc.labels = ls) :
    survey (extendedBody update body) (sc.inLoop [] (extendedBody update body)) =
      survey body (sc.inLoop update body) := by
  have hguard : guard? (extendedBody update body) = none :=
    guard?_block (unguarded_append hclear.keptBlock update) _
  rw [survey_extendedBody _ _ rfl, survey_keptBlock body rfl]
  rcases Classical.em (update = []) with rfl | hupdate
  · simp only [Scene.inLoop, hguard, hclear.guard?]
  · have hturned := turned_extended hclear.guard? hsc target update hguard
    refine List.flatMap_congr fun c hc => ?_
    have hnot : hasContinue ls c false = false := by
      by_contra hcontinue
      exact hlabel ⟨hupdate, List.any_eq_true.mpr ⟨c, hc, by simpa using hcontinue⟩⟩
    rw [← survey_retarget (allWellPlaced_keptBlock hbody c hc)
      (fun m hm => hfresh m (mentions_keptBlock hc hm))
      (fun l hl hm => hapart l hl (mentions_keptBlock hc hm))
      { hturned with turned := fun h => by simp [hnot] at h }, retarget_eq_self hnot]

end

section

variable {t : Tag} {init update : List Node} {cond : Option Node} {body : Node} {next : Nat}
  {labels : List (Tag × String)}

lemma survey_whileBlock {new : Node} {sc : Scene} (hlabels : sc.labels = [])
    (hguard : sc.guard = none) (hnew : ∀ sc' : Scene, sc'.labels = labels.map (·.2) →
      survey new (sc'.inLoop [] new) = survey body (sc'.inLoop update body)) :
    survey (whileBlock (labels.map (·.2)) t.line (init.flatMap statementsOf)
        (cond.getD (.plain (.literal (.bool true) .boolean))) new) sc =
      survey (underLabels labels (.mk t (.forLoop init cond update body))) sc := by
  have hbefore : (init.flatMap statementsOf).flatMap (survey · sc) = [] := by
    rw [List.flatMap_assoc]
    exact List.flatMap_eq_nil_iff.mpr fun n _ => survey_statementsOf n sc
  rw [whileBlock, survey_block _ _ _ hlabels, List.flatMap_append, hbefore, List.nil_append,
    List.flatMap_singleton, relabel_eq_underLabels]
  refine survey_underLabels_congr (map_snd_plain _) hguard fun sc' hsc' _ => ?_
  rw [hlabels, List.nil_append, map_snd_plain] at hsc'
  rw [Node.plain, survey_whileLoop, survey_forLoop, hnew sc' hsc']

lemma survey_forAsWhile (hbody : body.WellPlaced) (hclear : Clear body)
    (hfresh : ∀ m ∈ mentions body, m.name ≠ bodyLabel next)
    (hapart : ∀ l ∈ labels.map (·.2), Mention.label l ∉ mentions body) {sc : Scene}
    (hlabels : sc.labels = []) (hguard : sc.guard = none) :
    survey (forAsWhile (labels.map (·.2)) (.mk t (.forLoop init cond update body)) next).1 sc =
      survey (underLabels labels (.mk t (.forLoop init cond update body))) sc := by
  by_cases hlabel : NeedsLabel (labels.map (·.2)) update body
  · rw [forAsWhile_needsLabel _ t init update cond body next hlabel]
    exact survey_whileBlock hlabels hguard fun _ hsc' =>
      survey_in_labelledBody hbody hclear hfresh hapart hsc'
  · rw [forAsWhile_plain _ t init update cond body next hlabel]
    exact survey_whileBlock hlabels hguard fun _ hsc' =>
      survey_in_extendedBody hbody hclear hlabel hfresh hapart hsc'

lemma mentions_statementsOf (n : Node) : (statementsOf n).flatMap mentions = [] := by
  unfold statementsOf
  split
  · refine List.flatMap_eq_nil_iff.mpr fun m hm => ?_
    obtain ⟨i, hi, rfl⟩ := List.mem_mapIdx.mp hm
    exact mentions_mk _ _
  · rw [List.flatMap_singleton]
    exact mentions_mk _ _

lemma mentions_exprStmts (es : List Node) :
    (es.map fun e => Node.plain (.exprStmt e)).flatMap mentions = [] := by
  refine List.flatMap_eq_nil_iff.mpr fun m hm => ?_
  obtain ⟨e, -, rfl⟩ := List.mem_map.mp hm
  exact mentions_mk _ _

lemma mentions_whileBlock {new cond : Node} {line : Option Nat} {m : Mention}
    (h : m ∈ mentions (whileBlock (labels.map (·.2)) line (init.flatMap statementsOf) cond new)) :
    (∃ l ∈ labels.map (·.2), m = .label l) ∨ m ∈ mentions new := by
  have hbefore : (init.flatMap statementsOf).flatMap mentions = [] := by
    rw [List.flatMap_assoc]
    exact List.flatMap_eq_nil_iff.mpr fun n _ => mentions_statementsOf n
  rw [whileBlock, mentions_block, List.flatMap_append, hbefore, List.nil_append,
    List.flatMap_singleton, relabel_eq_underLabels, mem_mentions_underLabels, map_snd_plain] at h
  refine h.imp_right fun hm => ?_
  simpa only [Node.plain, mentions_mk, mentioned, Shape.bodies, List.nil_append,
    List.flatMap_singleton] using hm

lemma mentions_labelledBody {ls : List String} {m : Mention}
    (h : m ∈ mentions (labelledBody ls next update body)) :
    m ∈ mentions body ∨ m.name = bodyLabel next := by
  rw [labelledBody, Node.plain, mentions_block, List.flatMap_cons, mentions_exprStmts,
    List.append_nil, Node.plain, mentions_labeled, mentions_block, List.flatMap_map,
    List.mem_cons] at h
  rcases h with rfl | h
  · exact .inr rfl
  · obtain ⟨c, hc, hm⟩ := List.mem_flatMap.mp h
    refine (mentions_retarget false hm).imp (fun hm => mentions_keptBlock hc hm) ?_
    rintro rfl
    rfl

lemma mentions_extendedBody {m : Mention} (h : m ∈ mentions (extendedBody update body)) :
    m ∈ mentions body := by
  rw [extendedBody, mentions_block, List.flatMap_append, mentions_exprStmts,
    List.append_nil] at h
  obtain ⟨c, hc, hm⟩ := List.mem_flatMap.mp h
  exact mentions_keptBlock hc hm

lemma label?_statementsOf {n c : Node} (h : c ∈ statementsOf n) : label? c = none := by
  unfold statementsOf at h
  split at h
  · obtain ⟨i, hi, rfl⟩ := List.mem_mapIdx.mp h
    rfl
  · obtain rfl := List.mem_singleton.mp h
    rfl

lemma clear_whileBlock {new cond : Node} {line : Option Nat}
    {ls : List String} (h : ∀ l ∈ ls, isBodyLabel l = false) :
    Clear (whileBlock ls line (init.flatMap statementsOf) cond new) := by
  refine ⟨unguarded_singleton.mpr nofun, ?_⟩
  rintro ss ⟨⟩ first hfirst l hl
  rcases List.mem_append.mp (List.mem_of_mem_head? hfirst) with hbefore | hloop
  · obtain ⟨n, -, hn⟩ := List.mem_flatMap.mp hbefore
    rw [label?_statementsOf hn] at hl
    cases hl
  · obtain rfl := List.mem_singleton.mp hloop
    cases ls with
    | nil => cases hl
    | cons k ls =>
      cases hl
      exact h _ List.mem_cons_self

end

structure Faithful (n : Node) (next : Nat) (new : Node × Nat) : Prop where
  mono : next ≤ new.2
  names : ∀ m ∈ mentions new.1, m ∈ mentions n ∨ ∃ k < new.2, m.name = bodyLabel k
  clear : Clear new.1
  same : ∀ sc : Scene, sc.labels = [] → sc.guard = none → survey new.1 sc = survey n sc

lemma faithful_forAsWhile {t : Tag} {init update : List Node} {cond : Option Node}
    {body new : Node} {labels : List (Tag × String)} {next next' : Nat}
    (hnames : ∀ m ∈ mentions (underLabels labels (.mk t (.forLoop init cond update body))),
      isBodyLabel m.name = false)
    (hapart : LabelsApart (underLabels labels (.mk t (.forLoop init cond update body))))
    (hnew : new.WellPlaced) (hbody : Faithful body next (new, next')) :
    Faithful (underLabels labels (.mk t (.forLoop init cond update body))) next
      (forAsWhile (labels.map (·.2)) (.mk t (.forLoop init cond update new)) next') := by
  have hinner : mentions body ⊆
      mentions (underLabels labels (.mk t (.forLoop init cond update body))) :=
    fun m hm => mem_mentions_underLabels.mpr (.inr (mentions_child List.mem_cons_self hm))
  have houter : ∀ l ∈ labels.map (·.2),
      Mention.label l ∈ mentions (underLabels labels (.mk t (.forLoop init cond update body))) :=
    fun l hl => mem_mentions_underLabels.mpr (.inl ⟨l, hl, rfl⟩)
  have hfresh : ∀ m ∈ mentions new, m.name ≠ bodyLabel next' := by
    intro m hm heq
    rcases hbody.names m hm with hm | ⟨k, hk, hname⟩
    · have := hnames m (hinner hm)
      rw [heq, isBodyLabel_bodyLabel] at this
      cases this
    · exact absurd (bodyLabel_inj (hname.symm.trans heq)) (Nat.ne_of_lt hk)
  have hlabels : ∀ l ∈ labels.map (·.2), Mention.label l ∉ mentions new := by
    intro l hl hm
    rcases hbody.names _ hm with hm | ⟨k, hk, hname⟩
    · exact (labelsApart_underLabels hapart).2 l hl (mentions_child List.mem_cons_self hm)
    · have := hnames _ (houter l hl)
      rw [hname, isBodyLabel_bodyLabel] at this
      cases this
  have hguard : guard? body = none := (clear_of_names fun m hm => hnames m (hinner hm)).guard?
  have hloop : ∀ sc : Scene, survey (.mk t (.forLoop init cond update new)) sc =
      survey (.mk t (.forLoop init cond update body)) sc := by
    intro sc
    have hscene : sc.inLoop update new = sc.inLoop update body := by
      simp only [Scene.inLoop, hbody.clear.guard?, hguard]
    rw [survey_forLoop, survey_forLoop, hscene,
      hbody.same (sc.inLoop update body) rfl (by simp [Scene.inLoop, hguard])]
  have hlabelNames : ∀ l ∈ labels.map (·.2), isBodyLabel l = false :=
    fun l hl => hnames _ (houter l hl)
  have hsame : ∀ sc : Scene, sc.labels = [] → sc.guard = none →
      survey (forAsWhile (labels.map (·.2)) (.mk t (.forLoop init cond update new)) next').1 sc =
        survey (underLabels labels (.mk t (.forLoop init cond update body))) sc := by
    intro sc hsc hguard
    rw [survey_forAsWhile hnew hbody.clear hfresh hlabels hsc hguard]
    exact survey_underLabels_congr rfl hguard fun sc' _ _ => hloop sc'
  have hold : ∀ m ∈ mentions new, ∀ k ≥ next', m ∈ mentions (underLabels labels
      (.mk t (.forLoop init cond update body))) ∨ ∃ j < k, m.name = bodyLabel j := by
    intro m hm k hk
    exact (hbody.names m hm).imp (hinner ·)
      fun h => h.imp fun _ hj => ⟨Nat.lt_of_lt_of_le hj.1 hk, hj.2⟩
  by_cases hneeds : NeedsLabel (labels.map (·.2)) update new
  · rw [forAsWhile_needsLabel _ t init update cond new next' hneeds] at hsame ⊢
    refine ⟨Nat.le_succ_of_le hbody.mono, fun m hm => ?_, clear_whileBlock hlabelNames, hsame⟩
    rcases mentions_whileBlock hm with ⟨l, hl, rfl⟩ | hm
    · exact .inl (houter l hl)
    · rcases mentions_labelledBody hm with hm | hname
      · exact hold m hm _ (Nat.le_succ next')
      · exact .inr ⟨next', Nat.lt_succ_self next', hname⟩
  · rw [forAsWhile_plain _ t init update cond new next' hneeds] at hsame ⊢
    refine ⟨hbody.mono, fun m hm => ?_, clear_whileBlock hlabelNames, hsame⟩
    rcases mentions_whileBlock hm with ⟨l, hl, rfl⟩ | hm
    · exact .inl (houter l hl)
    · exact hold m (mentions_extendedBody hm) _ (Nat.le_refl next')

lemma fromLast_between {f : Node → StateM Nat Node} {cs : List (Step × Node)}
    (hmono : ∀ c ∈ cs, ∀ k, k ≤ (f c.2 k).2) (hnodup : (cs.map (·.1)).Nodup) (next : Nat) :
    next ≤ (fromLast (cs.map fun c => (c.1, f c.2)) next).2 ∧
      ∀ c ∈ cs, ∃ k, (f c.2 k).2 ≤ (fromLast (cs.map fun c => (c.1, f c.2)) next).2 ∧
        (fromLast (cs.map fun c => (c.1, f c.2)) next).1.lookup c.1 = some (f c.2 k).1 := by
  induction cs with
  | nil => exact ⟨Nat.le_refl next, by simp⟩
  | cons d cs ih =>
    obtain ⟨hd, hrest⟩ := List.nodup_cons.mp hnodup
    obtain ⟨hle, hlookup⟩ := ih (fun c hc => hmono c (List.mem_cons_of_mem d hc)) hrest
    set k := (fromLast (cs.map fun c => (c.1, f c.2)) next).2 with hk
    have hfirst : k ≤ (f d.2 k).2 := hmono d List.mem_cons_self k
    refine ⟨Nat.le_trans hle hfirst, List.forall_mem_cons.mpr ⟨?_, fun c hc => ?_⟩⟩
    · exact ⟨k, Nat.le_refl _, List.lookup_cons_self⟩
    · obtain ⟨j, hj, hc'⟩ := hlookup c hc
      have hne : (c.1 == d.1) = false := by
        rw [beq_eq_false_iff_ne]
        intro h
        exact hd (List.mem_map.mpr ⟨c, hc, h⟩)
      refine ⟨j, Nat.le_trans hj hfirst, List.lookup_cons.trans ?_⟩
      rw [hne]
      exact hc'

lemma labels_into {sc : Scene} {s : Shape Node} (hs : labeledBody? s = none) :
    (sc.into s).labels = [] := by
  cases s <;> first | rfl | cases hs

lemma guard_into {sc : Scene} {s : Shape Node} (hs : labeledBody? s = none)
    (hguard : sc.guard = none) (hbodies : ∀ c ∈ s.bodies, guard? c = none) :
    (sc.into s).guard = none := by
  cases s with
  | labeled l body => cases hs
  | block ss => exact hguard
  | forLoop init cond update body =>
    simp [Scene.into, Scene.inLoop, hbodies body List.mem_cons_self]
  | whileLoop cond body => simp [Scene.into, Scene.inLoop, hbodies body List.mem_cons_self]
  | doWhile body cond => simp [Scene.into, Scene.inLoop, hbodies body List.mem_cons_self]
  | forEach var iterable body => simp [Scene.into, Scene.inLoop, hbodies body List.mem_cons_self]
  | _ => rfl

lemma faithful_mapAt {t : Tag} {s : Shape Node} (hs : labeledBody? s = none)
    {labels : List (Tag × String)} {next next' : Nat} {f : Step → Node → Node}
    (hnames : ∀ m ∈ mentions (underLabels labels (.mk t s)), isBodyLabel m.name = false)
    (hnext : next ≤ next') (hphrases : ∀ c ∈ s.steps, c.2 ∈ s.phrases → f c.1 c.2 = c.2)
    (hbodies : ∀ c ∈ s.steps, c.2 ∈ s.bodies →
      ∃ k k', k' ≤ next' ∧ Faithful c.2 k (f c.1 c.2, k')) :
    Faithful (underLabels labels (.mk t s)) next
      (underLabels labels (.mk t (s.mapAt f)), next') := by
  have hinner : mentions (.mk t s) ⊆ mentions (underLabels labels (.mk t s)) :=
    fun m hm => mem_mentions_underLabels.mpr (.inr hm)
  have hguard : ∀ c ∈ s.bodies, guard? c = none := fun c hc =>
    (clear_of_names fun m hm => hnames m (hinner (mentions_child hc hm))).guard?
  refine ⟨hnext, fun m hm => ?_, ?_, fun sc hsc hg => ?_⟩
  · rcases mem_mentions_underLabels.mp hm with hm | hm
    · exact .inl (mem_mentions_underLabels.mpr (.inl hm))
    · rw [mentions_mk] at hm
      rcases List.mem_append.mp hm with hm | hm
      · refine .inl (hinner ?_)
        rw [mentioned_mapAt] at hm
        rw [mentions_mk]
        exact List.mem_append_left _ hm
      · obtain ⟨x, hx, hm⟩ := List.mem_flatMap.mp hm
        obtain ⟨c, hc, hbody, rfl⟩ := Shape.mem_bodies_mapAt hx
        obtain ⟨k, k', hk', hfaithful⟩ := hbodies c hc hbody
        exact (hfaithful.names m hm).imp (fun hm => hinner (mentions_child hbody hm))
          fun h => h.imp fun _ hj => ⟨Nat.lt_of_lt_of_le hj.1 hk', hj.2⟩
  · cases labels with
    | cons l labels =>
      refine ⟨unguarded_singleton.mpr ?_, by rintro ss ⟨⟩⟩
      rintro k ⟨⟩
      exact hnames (.label l.2) (mem_mentions_underLabels.mpr (.inl ⟨l.2, by simp, rfl⟩))
    | nil =>
      refine ⟨unguarded_singleton.mpr ?_, fun ss hss first hfirst => ?_⟩
      · cases s with
        | labeled l body => cases hs
        | _ => rintro k ⟨⟩
      · have hmem : first ∈ (s.mapAt f).bodies := by
          rw [show s.mapAt f = .block ss from hss]
          exact List.mem_of_mem_head? hfirst
        obtain ⟨c, hc, hbody, rfl⟩ := Shape.mem_bodies_mapAt hmem
        obtain ⟨k, k', -, hfaithful⟩ := hbodies c hc hbody
        exact unguarded_singleton.mp hfaithful.clear.label
  · refine survey_underLabels_congr rfl hg fun sc' _ hg' => ?_
    have hplaced : ∀ c ∈ s.placed.bodies, c ∈ s.steps ∧ c.2 ∈ s.bodies := by
      intro c hc
      refine ⟨Shape.mem_children_placed (Shape.mem_children_iff.mpr (.inr hc)), ?_⟩
      rw [← s.map_snd_placed, Shape.bodies_map]
      exact List.mem_map_of_mem hc
    have hscene : (sc'.into (s.placed.map (·.2))).labels = [] ∧
        (sc'.into (s.placed.map (·.2))).guard = none := by
      rw [s.map_snd_placed]
      exact ⟨labels_into hs, guard_into hs hg' hguard⟩
    have hsurvey : survey (.mk t (s.placed.map fun c => f c.1 c.2)) sc' =
        survey (.mk t (s.placed.map (·.2))) sc' := by
      refine survey_map sc' t (fun c hc => ?_) (fun c hc => ?_) fun c hc => ?_
      · refine hphrases c (Shape.mem_children_placed (Shape.mem_children_iff.mpr (.inl hc))) ?_
        rw [← s.map_snd_placed, Shape.phrases_map]
        exact List.mem_map_of_mem hc
      · obtain ⟨k, k', -, hfaithful⟩ := hbodies c (hplaced c hc).1 (hplaced c hc).2
        exact hfaithful.clear.guard?.trans (hguard c.2 (hplaced c hc).2).symm
      · obtain ⟨k, k', -, hfaithful⟩ := hbodies c (hplaced c hc).1 (hplaced c hc).2
        exact hfaithful.same _ hscene.1 hscene.2
    rwa [Shape.map_placed, s.map_snd_placed] at hsurvey

lemma faithful_forsOf {n : Node} (h : n.WellPlaced) (labels : List (Tag × String)) (next : Nat)
    (hnames : ∀ m ∈ mentions (underLabels labels n), isBodyLabel m.name = false)
    (hapart : LabelsApart (underLabels labels n)) :
    Faithful (underLabels labels n) next (forsOf n labels next) := by
  induction h generalizing labels next with
  | @mk t s head phrases bodies ih =>
    cases hs : labeledBody? s with
    | some p =>
      obtain rfl := labeledBody?_eq_some.mp hs
      have hlabels : underLabels labels (.mk t (.labeled p.1 p.2)) =
          underLabels (labels ++ [(t, p.1)]) p.2 := (underLabels_append labels [(t, p.1)] p.2).symm
      rw [hlabels] at hnames hapart ⊢
      rw [forsOf_labeled]
      exact ih _ List.mem_cons_self _ _ hnames hapart
    | none =>
      have hbody : ∀ c ∈ s.bodies, ∀ k, Faithful c k (forsOf c [] k) := fun c hc k =>
        ih c hc [] k
          (fun m hm => hnames m (mem_mentions_underLabels.mpr (.inr (mentions_child hc hm))))
          (labelsApart_child (labelsApart_underLabels hapart).1 hc)
      cases hfor : isForLoop s with
      | true =>
        cases s with
        | forLoop init cond update body =>
          rw [forsOf_forLoop phrases]
          exact faithful_forAsWhile hnames hapart
            (wellPlaced_forsOf (bodies body List.mem_cons_self) [] next)
            (hbody body List.mem_cons_self next)
        | _ => cases hfor
      | false =>
        rw [forsOf_mk hs hfor]
        have hmono : ∀ c ∈ s.steps, ∀ k, k ≤ (forsOf c.2 [] k).2 := by
          intro c hc k
          rcases Shape.mem_children_iff.mp (Shape.mem_children.mpr ⟨c.1, hc⟩) with hphrase | hbody'
          · rw [forsOf_of_quiet (phrases _ hphrase)]
            exact Nat.le_refl k
          · exact (hbody _ hbody' k).mono
        obtain ⟨hnext, hlookup⟩ := fromLast_between (f := (forsOf · [])) hmono
          (Shape.nodup_steps s) next
        refine faithful_mapAt hs hnames hnext (fun c hc hphrase => ?_) fun c hc hbody' => ?_
        · obtain ⟨k, -, hk⟩ := hlookup c hc
          rw [hk, forsOf_of_quiet (phrases _ hphrase)]
          rfl
        · obtain ⟨k, hle, hk⟩ := hlookup c hc
          refine ⟨k, (forsOf c.2 [] k).2, hle, ?_⟩
          rw [hk]
          exact hbody c.2 hbody' k

end Loops

namespace Lowering

open Loops

/-- On what is read from a text in which no label is declared again inside the statement that has
it, and none looks like those that the pass makes, all jumps keep their goals: a `break` leaves the
loop that takes the place of its own, and a `continue` goes to the end of the body where that loop
has still its updates to evaluate. -/
theorem landmarks_forLoops {k : TextKind} {source : String} {tree : Node}
    (h : parse k source = .ok tree) (hnames : ∀ m ∈ mentions tree, isBodyLabel m.name = false)
    (hapart : LabelsApart tree) : landmarks (forLoops tree) = landmarks tree := by
  have hplaced := wellPlaced_of_parse h
  rw [forLoops_eq_forsOf hplaced]
  exact (faithful_forsOf hplaced [] 0 hnames hapart).same {} rfl rfl

theorem landmarks_forLoops_nested : ∃ tree,
    (parse .statement
      "a: for (;; i++) { b: for (;; i++) if (x) continue a; else break b; while (x) continue; }"
        ).toOption = some tree ∧
      (∀ m ∈ mentions tree, isBodyLabel m.name = false) ∧ LabelsApart tree ∧
        landmarks (forLoops tree) = landmarks tree := by
  have hread : ((parse .statement
      "a: for (;; i++) { b: for (;; i++) if (x) continue a; else break b; while (x) continue; }"
        ).toOption.any fun tree =>
          decide (∀ m ∈ mentions tree, isBodyLabel m.name = false) &&
            decide (LabelsApart tree)) = true := by
    decide +kernel
  obtain ⟨tree, htree, hlabels⟩ := (Option.any_eq_true _ _).mp hread
  obtain ⟨hnames, hapart⟩ := Bool.and_eq_true_iff.mp hlabels
  have hnames := of_decide_eq_true hnames
  have hapart := of_decide_eq_true hapart
  have hparse : ∀ r : Except ReadError Node, r.toOption = some tree → r = .ok tree
    | .ok _, rfl => rfl
  exact ⟨tree, htree, hnames, hapart, landmarks_forLoops (hparse _ htree) hnames hapart⟩

/-- A label of the program like those of the pass: the `continue` becomes a `break` that leaves only
the statement with that label. -/
theorem landmarks_forLoops_captured : ∃ tree,
    (parse .statement
      "for (int i = 0; i < 2; i++) { forBody0: { if (i == 0) continue; } System.out.println(i); }"
        ).toOption = some tree ∧ LabelsApart tree ∧
      landmarks (forLoops tree) ≠ landmarks tree := by
  have hread : ((parse .statement
      "for (int i = 0; i < 2; i++) { forBody0: { if (i == 0) continue; } System.out.println(i); }"
        ).toOption.any fun tree =>
          decide (LabelsApart tree) && (landmarks (forLoops tree)).any Landmark.leaves &&
            !(landmarks tree).any Landmark.leaves) = true := by
    decide +kernel
  obtain ⟨tree, htree, hlabels⟩ := (Option.any_eq_true _ _).mp hread
  simp only [Bool.and_eq_true, Bool.not_eq_true', decide_eq_true_eq] at hlabels
  refine ⟨tree, htree, hlabels.1.1, fun h => ?_⟩
  rw [h, hlabels.2] at hlabels
  simp at hlabels

end Lowering

end LoopLowering
