import LoopLowering.Proofs.Loops.Targets
import LoopLowering.Proofs.Machine.ProgramPass
import LoopLowering.Proofs.Machine.Suited
import LoopLowering.Proofs.Machine.Turning
import LoopLowering.Proofs.Machine.WholeRun
import LoopLowering.Proofs.Tree.Identity

/-! The pass over the loops with a head of three parts makes lowered forms. The labels that it makes
are numbered, and a body is lowered before the loop around it, so that each new label is unknown to
the body that it guards. -/

namespace LoopLowering

namespace Loops

lemma length_le_total (ns : List Node) : ns.length ≤ Number.total (ns.map Node.size) := by
  rw [total_eq_sum, ← List.length_map (f := Node.size)]
  refine List.length_le_sum_of_one_le _ fun k hk => ?_
  obtain ⟨n, -, rfl⟩ := List.mem_map.mp hk
  exact Node.one_le_size n

lemma length_statementsOf_le (n : Node) : (statementsOf n).length ≤ n.size := by
  unfold statementsOf
  split
  · rename_i mods type ds h
    obtain ⟨t, s⟩ := n
    obtain rfl : s = .localVar mods type ds := h
    have hds := length_le_total ds
    rw [List.length_mapIdx, Node.size_mk]
    simp only [Shape.children, Shape.parts, Part.toList, List.flatMap_cons, List.flatMap_nil,
      List.append_nil, List.map_append, total_eq_sum, List.sum_append] at hds ⊢
    omega
  · exact Node.one_le_size n

lemma length_head_le (t : Tag) (init update : List Node) (cond : Option Node) (body : Node) :
    (init.flatMap statementsOf).length + update.length ≤
      (Node.mk t (.forLoop init cond update body)).size := by
  have hinit : (init.flatMap statementsOf).length ≤ (init.map Node.size).sum := by
    rw [List.length_flatMap]
    exact List.sum_le_sum fun n _ => length_statementsOf_le n
  have hupdate := length_le_total update
  rw [Node.size_mk]
  simp only [Shape.children, Shape.parts, Part.toList, List.flatMap_cons, List.flatMap_nil,
    List.append_nil, List.map_append, total_eq_sum, List.sum_append] at hupdate ⊢
  omega

end Loops

namespace Machine

open Loops

structure ForSetting (S : Setting) (size : Nat) : Prop where
  loose : S.tight = false
  leaves : NoLeaves S
  foreign : S.forbidden .foreignIteration = false
  factor : size + 4 ≤ S.factor

def isUserLabel (l : String) : Prop := isBodyLabel l = false

def labelsBelow (next : Nat) (l : String) : Prop := isUserLabel l ∨ ∃ k < next, l = bodyLabel k

section

variable {S : Setting} {size next : Nat}

lemma labelsBelow_mono {next' : Nat} (h : next ≤ next') (l : String) :
    labelsBelow next l → labelsBelow next' l :=
  Or.imp_right fun ⟨k, hk, hl⟩ => ⟨k, Nat.lt_of_lt_of_le hk h, hl⟩

lemma not_isUserLabel_bodyLabel (k : Nat) : ¬ isUserLabel (bodyLabel k) := by
  rw [isUserLabel, isBodyLabel_bodyLabel]
  exact Bool.noConfusion

lemma not_labelsBelow_bodyLabel (next : Nat) : ¬ labelsBelow next (bodyLabel next) := by
  rintro (h | ⟨k, hk, h⟩)
  · exact not_isUserLabel_bodyLabel next h
  · exact Nat.ne_of_lt hk (bodyLabel_inj h).symm

lemma forsOf_mono {n : Node} (h : n.WellPlaced) (labels : List (Tag × String)) (next : Nat) :
    next ≤ (forsOf n labels next).2 := by
  induction h generalizing labels next with
  | @mk t s head phrases bodies ih =>
    cases hs : labeledBody? s with
    | some p =>
      obtain rfl := labeledBody?_eq_some.mp hs
      rw [forsOf_labeled]
      exact ih _ List.mem_cons_self _ _
    | none =>
      cases hfor : isForLoop s with
      | true =>
        cases s with
        | forLoop init cond update body =>
          rw [forsOf_forLoop phrases]
          refine Nat.le_trans (ih body List.mem_cons_self [] next) ?_
          show (forsOf body [] next).2 ≤ (forAsWhile (labels.map (·.2))
            (.mk t (.forLoop init cond update (forsOf body [] next).1)) (forsOf body [] next).2).2
          by_cases hneeds : NeedsLabel (labels.map (·.2)) update (forsOf body [] next).1
          · rw [forAsWhile_needsLabel _ t init update cond _ _ hneeds]
            exact Nat.le_succ _
          · rw [forAsWhile_plain _ t init update cond _ _ hneeds]
        | _ => cases hfor
      | false =>
        rw [forsOf_mk hs hfor]
        refine (fromLast_between (f := (forsOf · [])) (fun c hc k => ?_)
          (Shape.nodup_steps s) next).1
        rcases Shape.mem_children_iff.mp (Shape.mem_children.mpr ⟨c.1, hc⟩) with hphrase | hbody
        · rw [forsOf_of_quiet (phrases _ hphrase)]
          rfl
        · exact ih _ hbody [] k

structure KeptFor (S : Setting) (bound : String → Prop) (update : List Node) (body new : Node)
    (ss : List Node) (inner : String → Prop) : Prop where
  keeps : Keeps body ss inner
  apart : ∀ e ∈ update, ∀ n ∈ e.names, ¬ inner n
  length : (keptBlock new).2.length = ss.length
  lowers (i : Nat) (n n' : Node) (hn : ss[i]? = some n) (hn' : (keptBlock new).2[i]? = some n')
    {routes : Routes} {names : String → Prop} (h : Suits S isUserLabel routes names [] body) :
    Lowers S bound routes inner [] n n'

lemma keptFor {bound : String → Prop} {t : Tag} {init update : List Node} {cond : Option Node}
    {body new : Node}
    (hblocks : DeclaresInBlocks (.mk t (.forLoop init cond update body)))
    (hapart : updatesApart (.mk t (.forLoop init cond update body)) = true)
    (hown : ¬ IsOwnBlock body → ¬ IsOwnBlock new) (h : Carries S bound isUserLabel body new) :
    ∃ ss inner, KeptFor S bound update body new ss inner := by
  obtain ⟨hblock, hblocks⟩ := Node.forall_nodes_mk.mp hblocks
  have hinside := hblocks body (Shape.mem_children_iff.mpr (.inr List.mem_cons_self))
  by_cases hbody : IsOwnBlock body
  · obtain ⟨tb, ss, rfl, ht⟩ := hbody
    obtain ⟨ss', rfl, hlen, hstatements⟩ := h.statements rfl
    refine ⟨ss, (· ∈ ss.flatMap declaredNames), .own tb ss _, fun e he n hn hmem => ?_, ?_, ?_⟩
    · have := List.all_eq_true.mp (List.all_eq_true.mp hapart n hmem) e he
      simp [hn] at this
    · rw [keptBlock_ownBlock ss' ht]
      exact hlen
    · intro i n n' hn hn' routes names hsuits
      rw [keptBlock_ownBlock ss' ht] at hn'
      have hmem := List.mem_of_getElem? hn
      refine hstatements i n n' hn hn' { hsuits.inner (s := .block ss) hmem (fun x hx => ?_)
        (fun _ _ h => h) hsuits.breaks with scopes := .inr ⟨?_, fun x hx => ?_⟩ }
      · refine hsuits.exits x ?_
        rw [Node.exits_block]
        exact List.mem_flatMap.mpr ⟨n, hmem, hx⟩
      · exact (Node.forall_nodes_mk.mp hinside).2 n (Shape.mem_children_iff.mpr (.inr hmem))
      · exact List.mem_flatMap.mpr ⟨n, hmem, hx⟩
  · have hdeclared : declaredNames body = [] := by
      obtain ⟨tb, s⟩ := body
      have hdeclaration : (Node.mk tb s).shape.isDeclaration = false := by
        simpa [declaresInBlock, Shape.bodies] using hblock
      rw [declaredNames, declared_of_not_declaration hdeclaration, List.map_nil]
    refine ⟨[body], fun _ => False, .other body, fun _ _ _ _ h => h, ?_, ?_⟩
    · rw [keptBlock_of_not_ownBlock (hown hbody)]
      rfl
    · intro i n n' hn hn' routes names hsuits
      rw [keptBlock_of_not_ownBlock (hown hbody)] at hn'
      cases i with
      | succ i => cases hn
      | zero =>
        obtain rfl := Option.some.inj hn
        obtain rfl := Option.some.inj hn'
        refine h.lowers { hsuits with scopes := .inr ⟨hinside, ?_⟩ }
        rw [hdeclared]
        exact List.forall_mem_nil _

section

variable {bound : String → Prop} {routes : Routes} {names : String → Prop} {t : Tag}
  {init update : List Node} {cond : Option Node} {body new : Node} {labels : List (Tag × String)}

lemma forHead (hS : ForSetting S (Node.mk t (.forLoop init cond update body)).size)
    (hbound : ∀ l, isUserLabel l → bound l)
    (h : Suits S isUserLabel routes names []
      (underLabels labels (.mk t (.forLoop init cond update body)))) :
    ForHead S bound routes labels init cond update where
  loose := hS.loose
  leaves := hS.leaves
  bound l hl := hbound _ (h.marks l.2
    (mem_mentions_underLabels.mpr (.inl ⟨l.2, List.mem_map_of_mem hl, rfl⟩)))
  turns l _ c := h.turns c l.2
  avoids e he := h.under.avoids.child (Shape.mem_children_iff.mpr (.inl he))
  factor := by
    have := length_head_le t init update cond body
    have := hS.factor
    omega

lemma KeptFor.retarget {bound' : String → Prop} {ss : List Node} {inner : String → Prop}
    (hk : KeptFor S bound update body new ss inner)
    (hforeign : S.forbidden .foreignIteration = false) (hbound : ∀ l, bound l → bound' l)
    {target : String} (htarget : ¬ bound target) {ls : List String} {routes' : Routes}
    (hbody : Unlabelled ls [] body) (h : Suits S isUserLabel routes names [] body)
    (ht : Turning ls target false ((keptBlock new).2.any (hasContinue ls · false) = true) routes
      routes') (i : Nat) (n n' : Node) (hn : ss[i]? = some n)
    (hn' : ((keptBlock new).2.map (Loops.retarget ls target · false))[i]? = some n') :
    Lowers S bound' routes' inner [] n n' := by
  rw [List.getElem?_map] at hn'
  obtain ⟨m, hm, rfl⟩ := Option.map_eq_some_iff.mp hn'
  refine (hk.lowers i n m hn hm h).retarget hforeign hbound htarget
    (hbody.kept hk.keeps n (List.mem_of_getElem? hn)) (ht.weaken fun hactive => ?_)
  exact List.any_eq_true.mpr ⟨m, List.mem_of_getElem? hm, hactive⟩

lemma map_retarget_eq_self {ls : List String} {target : String} {ss : List Node}
    (h : ¬ ss.any (hasContinue ls · false) = true) :
    ss.map (Loops.retarget ls target · false) = ss := by
  refine (List.map_congr_left fun n hn => ?_).trans (List.map_id ss)
  refine retarget_eq_self (Bool.eq_false_iff.mpr fun hc => h ?_)
  exact List.any_eq_true.mpr ⟨n, hn, hc⟩

lemma carries_forAsWhile {K : Nat} (hplaced : body.WellPlaced)
    (hS : ForSetting S (Node.mk t (.forLoop init cond update body)).size)
    (hblocks : DeclaresInBlocks (.mk t (.forLoop init cond update body)))
    (hupdates : updatesApart (.mk t (.forLoop init cond update body)) = true)
    (hapart : LabelsApart (underLabels labels (.mk t (.forLoop init cond update body))))
    (hown : ¬ IsOwnBlock body → ¬ IsOwnBlock new)
    (h : ∀ K', next ≤ K' → Carries S (labelsBelow K') isUserLabel body new)
    (hK : (forAsWhile (labels.map (·.2)) (.mk t (.forLoop init cond update new)) next).2 ≤ K) :
    Carries S (labelsBelow K) isUserLabel
      (underLabels labels (.mk t (.forLoop init cond update body)))
      (forAsWhile (labels.map (·.2)) (.mk t (.forLoop init cond update new)) next).1 := by
  have hlabels := (labelsApart_underLabels hapart).2
  have hunlabelled : Unlabelled (labels.map (·.2)) [] body :=
    ⟨hplaced, fun l hl hm => hlabels l hl (mentions_child List.mem_cons_self hm), by rintro _ ⟨⟩⟩
  have hshape : ∀ ss, (underLabels labels (.mk t (.forLoop init cond update body))).shape ≠
      .block ss := by cases labels <;> rintro _ ⟨⟩
  have hcatch : ∀ mods name types b,
      (underLabels labels (.mk t (.forLoop init cond update body))).shape ≠
        .catchClause mods name types b := by cases labels <;> rintro _ _ _ _ ⟨⟩
  by_cases hneeds : NeedsLabel (labels.map (·.2)) update new
  · rw [forAsWhile_needsLabel _ t init update cond new next hneeds] at hK ⊢
    obtain ⟨ss, inner, hk⟩ := keptFor hblocks hupdates hown (h next (Nat.le_refl next))
    refine carries_of_lowers hshape hcatch (by rintro _ _ _ _ ⟨⟩) fun routes names hsuits => ?_
    have hloop := hsuits.under
    have hbody := hloop.anywhere.loop (by rintro _ ⟨⟩) List.mem_cons_self rfl
    have htarget : labelsBelow K (bodyLabel next) := .inr ⟨next, hK, rfl⟩
    refine .guardedFor (bodyLabel next) inner (forHead hS (fun l => .inl) hsuits) hk.keeps htarget
      (fun hb => not_isUserLabel_bodyLabel next (hloop.breaks _ hb))
      (fun c => hsuits.turns c _) (by rw [List.length_map, hk.length]) ?_
    exact hk.retarget hS.foreign (labelsBelow_mono (Nat.le_of_succ_le hK))
      (not_labelsBelow_bodyLabel next) hunlabelled hbody (Turning.guarded _ _ _)
  · rw [forAsWhile_plain _ t init update cond new next hneeds] at hK ⊢
    obtain ⟨ss, inner, hk⟩ := keptFor hblocks hupdates hown (h K hK)
    refine carries_of_lowers hshape hcatch (by rintro _ _ _ _ ⟨⟩) fun routes names hsuits => ?_
    have hbody := hsuits.under.anywhere.loop (by rintro _ ⟨⟩) List.mem_cons_self rfl
    by_cases hupdate : update = []
    · refine .forAsWhile inner (forHead hS (fun l => .inl) hsuits) hk.keeps hk.apart
        (.inr ⟨hupdate, rfl⟩) hk.length ?_
      exact fun i n n' hn hn' => hk.lowers i n n' hn hn' hbody
    · have hnone : ¬ (keptBlock new).2.any (hasContinue (labels.map (·.2)) · false) = true :=
        fun hany => hneeds ⟨hupdate, hany⟩
      refine .forAsWhile inner (forHead hS (fun l => .inl) hsuits) hk.keeps hk.apart (.inl rfl)
        hk.length ?_
      have hlowers := hk.retarget hS.foreign (fun _ => id) (not_labelsBelow_bodyLabel K) hunlabelled
        hbody (Turning.passing _ _ _ hnone)
      rwa [map_retarget_eq_self hnone] at hlowers

end

theorem carries_forsOf {n : Node} (h : n.WellPlaced) (labels : List (Tag × String)) (next : Nat)
    {K : Nat} (hK : (forsOf n labels next).2 ≤ K) (hS : ForSetting S n.size)
    (hblocks : DeclaresInBlocks n) (hupdates : UpdatesApart n)
    (hapart : LabelsApart (underLabels labels n)) :
    Carries S (labelsBelow K) isUserLabel (underLabels labels n) (forsOf n labels next).1 := by
  induction h generalizing labels next K with
  | @mk t s head phrases bodies ih =>
    have hinner := (Node.forall_nodes_mk.mp hblocks).2
    obtain ⟨hupdate, hupdates⟩ := Node.forall_nodes_mk.mp hupdates
    have hbody : ∀ c ∈ s.bodies, ∀ labels next {K}, (forsOf c labels next).2 ≤ K →
        LabelsApart (underLabels labels c) →
        Carries S (labelsBelow K) isUserLabel (underLabels labels c) (forsOf c labels next).1 := by
      intro c hc labels next K hK hapart
      have hmem := Shape.mem_children_iff.mpr (.inr hc)
      have hsize := Node.size_lt_of_mem (t := t) hmem
      exact ih c hc labels next hK { hS with factor := by have := hS.factor; omega }
        (hinner c hmem) (hupdates c hmem) hapart
    cases hs : labeledBody? s with
    | some p =>
      obtain rfl := labeledBody?_eq_some.mp hs
      have hlabels : underLabels labels (.mk t (.labeled p.1 p.2)) =
          underLabels (labels ++ [(t, p.1)]) p.2 := (underLabels_append labels [(t, p.1)] p.2).symm
      rw [hlabels] at hapart ⊢
      rw [forsOf_labeled] at hK ⊢
      exact hbody _ List.mem_cons_self _ _ hK hapart
    | none =>
      have hparts : ∀ c ∈ s.bodies, LabelsApart c := fun c hc =>
        labelsApart_child (labelsApart_underLabels hapart).1 hc
      cases hfor : isForLoop s with
      | true =>
        cases s with
        | forLoop init cond update body =>
          rw [forsOf_forLoop phrases] at hK ⊢
          have hwell := bodies body List.mem_cons_self
          refine carries_forAsWhile hwell hS hblocks hupdate hapart
            (fun hnot => not_ownBlock_forsOf hwell (fun _ => hnot) next) (fun K' hK' => ?_) hK
          exact hbody body List.mem_cons_self [] next hK' (hparts body List.mem_cons_self)
        | _ => cases hfor
      | false =>
        have hmono : ∀ c ∈ s.steps, ∀ k, k ≤ (forsOf c.2 [] k).2 := by
          intro c hc k
          rcases Shape.mem_children_iff.mp (Shape.mem_children.mpr ⟨c.1, hc⟩) with hphrase | hbody
          · rw [forsOf_of_quiet (phrases _ hphrase)]
            rfl
          · exact forsOf_mono (bodies _ hbody) [] k
        obtain ⟨-, hlookup⟩ := fromLast_between (f := (forsOf · [])) hmono
          (Shape.nodup_steps s) next
        rw [forsOf_mk hs hfor] at hK ⊢
        refine carries_mapAt hs (fun l => .inl) (fun c hc hphrase => ?_) fun c hc hpart => ?_
        · obtain ⟨k, -, hk⟩ := hlookup c hc
          rw [hk, forsOf_of_quiet (phrases _ hphrase)]
          rfl
        · obtain ⟨k, hle, hk⟩ := hlookup c hc
          rw [hk]
          exact hbody c.2 hpart [] k (Nat.le_trans hle hK) (hparts c.2 hpart)

end

/-- The jumps of a method, a constructor or an initializer have their goals inside of it. -/
def jumpsInside (n : Node) : Bool := (memberBodies n).all fun b => (b.exits []).all (· = .returned)

def isPlainLabel : Mention → Bool
  | .label l => !isBodyLabel l
  | .jump _ => true

/-- The rules for jumps, labels and declarations under which the pass keeps what a program does. -/
structure ForRules (tree : Node) : Prop where
  jumps : ∀ n ∈ tree.nodes, jumpsInside n = true
  labels : ∀ m ∈ mentions tree, isPlainLabel m = true
  apart : LabelsApart tree
  blocks : DeclaresInBlocks tree
  updates : UpdatesApart tree

instance (tree : Node) : Decidable (ForRules tree) :=
  decidable_of_iff ((∀ n ∈ tree.nodes, jumpsInside n = true) ∧
    (∀ m ∈ mentions tree, isPlainLabel m = true) ∧ LabelsApart tree ∧ DeclaresInBlocks tree ∧
      UpdatesApart tree)
    ⟨fun ⟨jumps, labels, apart, blocks, updates⟩ => ⟨jumps, labels, apart, blocks, updates⟩,
      fun h => ⟨h.jumps, h.labels, h.apart, h.blocks, h.updates⟩⟩

lemma hereditary_forRules : Hereditary ForRules := fun t s hs h c hc => {
  jumps := hereditary_nodes _ t s hs h.jumps c hc
  labels := fun m hm => h.labels m (mentions_child hc hm)
  apart := hereditary_nodes _ t s hs h.apart c hc
  blocks := hereditary_nodes _ t s hs h.blocks c hc
  updates := hereditary_nodes _ t s hs h.updates c hc }

def forSetting (size : Nat) (limit limit' : Int) : Setting where
  limit := limit
  limit' := limit'
  factor := size + 4
  strict := false
  tight := false
  forbidden i := i ≠ .foreignIteration
  leaves := {}
  reserved _ := False
  one_le_factor := by omega
  limit_le := by rintro ⟨⟩
  leaves_turns _ _ h := h
  forbids_creation := rfl
  forbids_binding := rfl

lemma forSetting_fits {size n : Nat} (h : n ≤ size) (limit limit' : Int) :
    ForSetting (forSetting size limit limit') n where
  loose := rfl
  leaves := ⟨fun _ h => h, fun _ h => h⟩
  foreign := rfl
  factor := Nat.add_le_add_right h 4

lemma body_forLowers {size : Nat} {limit limit' : Int} {b b' : Node} (hplaced : b.WellPlaced)
    (hsize : b.size ≤ size) (h : ForRules b) (hexits : ∀ x ∈ b.exits [], x = .returned)
    (hb' : ∃ next, b' = (forsOf b [] next).1) :
    BodyLowers (forSetting size limit limit') b b' := by
  obtain ⟨next, rfl⟩ := hb'
  have hcarries := carries_forsOf hplaced [] next le_rfl (forSetting_fits hsize limit limit')
    h.blocks h.updates h.apart
  refine ⟨_, hcarries.lowers ⟨fun _ _ => id, fun l hl => ?_, fun x hx => ?_, fun _ _ => id,
    fun _ => False.elim, .inl fun _ => trivial⟩⟩
  · exact (Bool.not_eq_true' _).mp (h.labels _ hl)
  · rw [hexits x hx]
    trivial

lemma exits_of_jumpsInside {n b : Node} (h : jumpsInside n = true) (hb : b ∈ memberBodies n) :
    ∀ x ∈ b.exits [], x = .returned := by
  simpa using List.all_eq_true.mp h b hb

lemma forLoops_lowers {source : String} {tree : Node} (h : parse .unit source = .ok tree)
    (hrules : ForRules tree) : ∃ p p', Program.ofTree tree = .ok p ∧
      Program.ofTree (Lowering.forLoops tree) = .ok p' ∧
        ∀ limit limit', ProgramLowers (forSetting tree.size limit limit') p p' := by
  have hH := (hereditary_wellPlaced.and (hereditary_size tree.size)).and hereditary_forRules
  have hm : ∃ next, Lowering.forLoops tree = (forsOf tree [] next).1 :=
    ⟨0, Lowering.forLoops_eq_forsOf (wellPlaced_of_parse h)⟩
  obtain ⟨p, p', hp, hp', hpassed⟩ := program_passed passing_forsOf hH (treeOf_parse h)
    ⟨⟨wellPlaced_of_parse h, le_rfl⟩, hrules⟩ hm
  refine ⟨p, p', hp, hp', fun limit limit' => ?_⟩
  refine program_lowers passing_forsOf hH (fun n hn => hn.1.1) hpassed
    fun n hn b hb hbody b' hb' => ?_
  refine body_forLowers hbody.1.1 hbody.1.2 hbody.2 (exits_of_jumpsInside ?_ hb) hb'
  exact (hn.2.jumps n (by simp [Node.nodes_eq]))

end Machine

namespace Lowering

open Machine

/-- Two runs, before and after the pass over the loops with a head of three parts, print the same
and end in the same way if neither is cut short by its bounds, whatever these are. The program keeps
the rules for jumps, labels and declarations, and no failure leaves the frame of a call or of the
initialization of an object behind. -/
theorem run_forLoops {source : String} {tree : Node} (h : parse .unit source = .ok tree)
    (hrules : ForRules tree) (method : String) (className : Option String) {limit limit' : Int}
    (hincidents : ∀ i ∈ (runTree tree limit method className).state.incidents,
      i = .foreignIteration)
    (hwithin : (runTree tree limit method className).Within limit)
    (hwithin' : (runTree (forLoops tree) limit' method className).Within limit') :
    (runTree tree limit method className).Alike
      (runTree (forLoops tree) limit' method className) := by
  obtain ⟨p, p', hp, hp', hlowers⟩ := forLoops_lowers h hrules
  simp only [runTree, hp, hp', Setup.execute_eq_executeAt] at hincidents hwithin hwithin' ⊢
  refine (Setup.executeAt_compares (hlowers limit limit') (by rintro ⟨⟩) method className
    hwithin.nesting ?_ (.inr hwithin')).alike
  rintro (hspent | ⟨i, hi, hforbidden⟩)
  · exact hwithin.steps hspent
  · rw [hincidents i hi] at hforbidden
    cases hforbidden

theorem run_forLoops_continued : ∃ tree, parse .unit
      "class A { void main() { a: for (int i = 0; i < 3; i++) for (;;) { System.out.print(i); continue a; } } }" =
        .ok tree ∧
    ForRules tree ∧
      (∀ i ∈ (runTree tree 200 "main" none).state.incidents, i = .foreignIteration) ∧
      (runTree tree 200 "main" none).Within 200 ∧
      (runTree (forLoops tree) 300 "main" none).Within 300 ∧
      (runTree tree 200 "main" none).state.out = "012" ∧
      (runTree tree 200 "main" none).Alike (runTree (forLoops tree) 300 "main" none) := by
  have hread : ((parse .unit
      "class A { void main() { a: for (int i = 0; i < 3; i++) for (;;) { System.out.print(i); continue a; } } }"
        ).toOption.any fun tree => decide (ForRules tree) &&
          decide ((runTree tree 200 "main" none).state.incidents = []) &&
          (runTree tree 200 "main" none).staysWithin 200 &&
          (runTree (forLoops tree) 300 "main" none).staysWithin 300 &&
          decide ((runTree tree 200 "main" none).state.out = "012")) = true := by
    decide +kernel
  obtain ⟨tree, htree, hrun⟩ := (Option.any_eq_true _ _).mp hread
  simp only [Bool.and_eq_true, decide_eq_true_eq] at hrun
  obtain ⟨⟨⟨⟨hrules, hincidents⟩, hwithin⟩, hwithin'⟩, hout⟩ := hrun
  have hparse := eq_ok_of_toOption htree
  have hforeign : ∀ i ∈ (runTree tree 200 "main" none).state.incidents, i = .foreignIteration :=
    fun i hi => absurd (hincidents ▸ hi) List.not_mem_nil
  have hwithin := Outcome.within_of_staysWithin hwithin
  have hwithin' := Outcome.within_of_staysWithin hwithin'
  exact ⟨tree, hparse, hrules, hforeign, hwithin, hwithin', hout,
    run_forLoops hparse hrules "main" none hforeign hwithin hwithin'⟩

/-- The argument is too large to be converted to the type of the parameter, and the frame of the
call stays. The jump out of `finally` goes on in it, where the lowered loop closes one block more,
which is one too many, before its update. -/
theorem run_forLoops_unbound : ∃ tree, parse .unit
      "class A { void f(double d) { } void main() { long b = 1L << 60; b *= b * b; b *= b * b; for (; b > 0; System.out.print(1)) try { f(b * b); } finally { continue; } } }" =
        .ok tree ∧
    ForRules tree ∧ (runTree tree 100 "main" none).state.incidents = [.brokenBinding] ∧
      (runTree tree 100 "main" none).Within 100 ∧
      (runTree (forLoops tree) 100 "main" none).Within 100 ∧
      (runTree tree 100 "main" none).state.out = "1" ∧
      (runTree (forLoops tree) 100 "main" none).state.out = "" ∧
      ¬ (runTree tree 100 "main" none).Alike (runTree (forLoops tree) 100 "main" none) := by
  have hread : ((parse .unit
      "class A { void f(double d) { } void main() { long b = 1L << 60; b *= b * b; b *= b * b; for (; b > 0; System.out.print(1)) try { f(b * b); } finally { continue; } } }"
        ).toOption.any fun tree => decide (ForRules tree) &&
          decide ((runTree tree 100 "main" none).state.incidents = [.brokenBinding]) &&
          (runTree tree 100 "main" none).staysWithin 100 &&
          (runTree (forLoops tree) 100 "main" none).staysWithin 100 &&
          decide ((runTree tree 100 "main" none).state.out = "1") &&
          decide ((runTree (forLoops tree) 100 "main" none).state.out = "")) = true := by
    decide +kernel
  obtain ⟨tree, htree, hrun⟩ := (Option.any_eq_true _ _).mp hread
  simp only [Bool.and_eq_true, decide_eq_true_eq] at hrun
  obtain ⟨⟨⟨⟨⟨hrules, hincidents⟩, hwithin⟩, hwithin'⟩, hout⟩, hout'⟩ := hrun
  refine ⟨tree, eq_ok_of_toOption htree, hrules, hincidents,
    Outcome.within_of_staysWithin hwithin, Outcome.within_of_staysWithin hwithin', hout, hout',
    fun halike => ?_⟩
  have hsame := halike.out
  rw [hout, hout'] at hsame
  exact absurd hsame (by decide)

end Lowering

end LoopLowering
