import LoopLowering.Proofs.Machine.Descent

/-! A loop with a head of three parts and the block that stands for it, in two runs. -/

namespace LoopLowering.Machine

open Loops

variable {α β γ δ : Type}

def goOn (next : Exec Unit) (ended : Bool) : Exec Bool :=
  if ended then return false else do next; return true

def roundEnd (labels : List String) (next : Exec Unit) (e : Signal) : Exec Bool :=
  Evaluator.bodyEnd labels e >>= goOn next

instance instSteadyGoOn (next : Exec Unit) [Steady next] (ended : Bool) :
    Steady (goOn next ended) := by
  unfold goOn
  infer_instance

instance instSteadyRoundEnd (labels : List String) (next : Exec Unit) [Steady next] (e : Signal) :
    Steady (roundEnd labels next e) := by
  unfold roundEnd
  infer_instance

namespace Evaluator

variable (ev : Evaluator) (labels : List String)

abbrev bodyThen (next : Exec Unit) (body : Node) : Exec Bool :=
  onEnd (ev.exec [] body) (fun _ => goOn next false) (roundEnd labels next)

lemma bodyThen_eq (next : Exec Unit) (body : Node) :
    ev.bodyThen labels next body = ev.runBody labels body >>= goOn next := by
  rw [bodyThen, runBody_eq, bind_eq_onEnd, onEnd_onEnd]
  congr 1
  funext e
  rw [roundEnd, bind_eq_onEnd]

lemma round_eq (body : Node) (next : Exec Unit) :
    (ev.round labels body >>= fun b => if b then do next; return true else return false) = (do
      ev.tick
      ev.bodyThen labels next body) := by
  have hgo : (fun b => if (!b) = true then do next; return true else return false) = goOn next := by
    funext b
    cases b <;> rfl
  rw [bodyThen_eq, ← hgo]
  unfold round
  simp only [bind_assoc, pure_bind]

lemma forRound_eq (cond : Option Node) (update : List Node) (body : Node) :
    ev.forRound labels cond update body = (do
      if ← ev.condition cond then
        ev.tick
        ev.bodyThen labels (ev.evalEach update) body
      else return false) := by
  unfold forRound
  rw [← round_eq]

lemma whileRound_eq (cond body : Node) :
    ev.whileRound labels cond body = (do
      if ← ev.truth cond then
        ev.tick
        ev.bodyThen labels (pure ()) body
      else return false) := by
  unfold whileRound
  rw [← round_eq]
  have hid : (fun b => if b = true then pure () >>= fun _ => pure true else pure false :
      Bool → Exec Bool) = pure := by
    funext b
    cases b <;> rfl
  rw [hid, bind_pure]

end Evaluator

lemma neutral_roundEnd (labels : List String) : Neutral (roundEnd labels (pure ())) where
  exhausted := rfl
  failed _ := rfl
  fault _ := rfl
  ends e := by
    unfold roundEnd
    obtain ⟨b, hb⟩ | hb := (neutral_bodyEnd labels).ends e
    · rw [hb]
      exact .inl ⟨!b, by cases b <;> rfl⟩
    · rw [hb]
      exact .inr rfl

section

variable {S : Setting} {w : World} {links : List Link} {routes inside : Routes}
  {inner : String → Prop} {pre mid post : Credit} {Q : World → α → β → Prop}
  {R : World → γ → δ → Prop} {c : Exec α} {c' : Exec β}

lemma Aligned.close_first {ss ss' : List Bindings}
    (h : Aligned w (.both inner :: links) ss ss') :
    ∃ bs tl bs', ss = bs :: tl ∧ (∀ b ∈ bs', inner b.1) ∧ Aligned w (.hidden bs' :: links) tl ss' := by
  cases h with
  | both _ hnames rest => exact ⟨_, _, _, rfl, hnames, .hidden rest⟩

lemma Meets.popFirst {k k₁ : Credit} {s s' : State}
    (h : Meets S (Returns S w (.both inner :: links) k Q)
      (Fails S w (.both inner :: links) k₁ inside) (c s) (c' s')) :
    Meets S (fun a t b t' => ∃ bs w₁, (∀ x ∈ bs, inner x.1) ∧ w ≤ w₁ ∧
        Related S w₁ (.hidden bs :: links) k t t' ∧ Q w₁ a b)
      (fun e t e' t' => ∃ bs w₁, (∀ x ∈ bs, inner x.1) ∧ w ≤ w₁ ∧
        Related S w₁ (.hidden bs :: links) k₁ t t' ∧ Signal.Rel inside w₁ e e')
      (ensuring c popScope s) (c' s') := by
  have hclose : ∀ {k w₁ t t'}, Related S w₁ (.both inner :: links) k t t' →
      ∃ bs tl bs', t.frame.scopes = bs :: tl ∧ (∀ x ∈ bs', inner x.1) ∧
        Related S w₁ (.hidden bs' :: links) k { t with frame := { t.frame with scopes := tl } } t' := by
    intro k w₁ t t' ht
    obtain ⟨bs, tl, bs', hbs, hnames, htl⟩ := ht.frame.scopes.close_first
    exact ⟨bs, tl, bs', hbs, hnames, ht.store, ⟨ht.frame.className, ht.frame.this, htl⟩, ht.upper,
      ht.lower, ht.intact⟩
  rw [ensuring_eq, ← onEnd_pure_throw c']
  refine h.onEnd ?_ ?_ inferInstance inferInstance inferInstance inferInstance
    (passes_of_eq rfl) (passes_of_eq rfl)
  · rintro a t b t' ⟨w₁, hw, ht, hq⟩
    obtain ⟨bs, tl, bs', hbs, hnames, hrel⟩ := hclose ht
    rw [popScope_bind hbs]
    exact .ok ⟨bs', w₁, hnames, hw, hrel, hq⟩
  · rintro e t e' t' ⟨w₁, hw, ht, he⟩
    obtain ⟨bs, tl, bs', hbs, hnames, hrel⟩ := hclose ht
    rw [lastly_eq _ he.ne_exhausted.1, popScope_bind hbs]
    exact .error ⟨bs', w₁, hnames, hw, hrel, he⟩

lemma Paid.closeFirst {f : α → Exec γ} {f' : β → Exec δ} {g : Signal → Exec γ}
    {g' : Signal → Exec δ} [p : ∀ a, Steady (f a)] [q : ∀ b, Steady (f' b)]
    [m : ∀ e, Steady (g e)] [n : ∀ e, Steady (g' e)]
    (h : Paid S w (.both inner :: links) inside pre mid Q c c')
    (hnext : ∀ w₁ bs a b, (∀ x ∈ bs, inner x.1) → Q w₁ a b →
      Paid S w₁ (.hidden bs :: links) routes mid post R (f a) (f' b))
    (hfail : ∀ w₁ bs e e', (∀ x ∈ bs, inner x.1) → Signal.Rel inside w₁ e e' →
      Paid S w₁ (.hidden bs :: links) routes 0 post R (g e) (g' e'))
    (hx : g .exhausted = MonadExcept.throw .exhausted)
    (hx' : g' .exhausted = MonadExcept.throw .exhausted) :
    Paid S w links routes pre post R (Machine.onEnd (Machine.inScope [] c) f g)
      (Machine.inScope [] (Machine.onEnd c' f' g')) := by
  intro k s s' hs
  have hpushed : Related S w (.both inner :: links) (k + pre)
      { s with frame := { s.frame with scopes := [] :: s.frame.scopes } }
      { s' with frame := { s'.frame with scopes := [] :: s'.frame.scopes } } :=
    hs.withScopes (.both .nil (by simp) hs.frame.scopes)
  have hsecond : Machine.inScope [] (Machine.onEnd c' f' g') s' =
      Machine.onEnd c' (fun b => Machine.ensuring (f' b) popScope)
        (fun e => Machine.ensuring (g' e) popScope)
        { s' with frame := { s'.frame with scopes := [] :: s'.frame.scopes } } := by
    simp only [ensuring_eq]
    rw [← onEnd_onEnd, ← ensuring_eq]
    rfl
  rw [hsecond]
  refine (h k _ _ hpushed).popFirst.onEnd ?_ ?_ p (fun b => inferInstance) m
    (fun e => inferInstance) (passes_of_eq hx) (passes_of_eq ?_)
  · rintro a t b t' ⟨bs, w₁, hnames, hw, ht, hq⟩
    have hend := hnext w₁ bs a b hnames hq k t t' ht
    exact hend.popSecond.earlier hw
  · rintro e t e' t' ⟨bs, w₁, hnames, hw, ht, he⟩
    have hend := hfail w₁ bs e e' hnames he k t t' ht
    exact hend.popSecond.earlier hw
  · rw [hx', ensuring_eq, onEnd_throw]
    rfl

end

def Signal.isLoopJump : Signal → Bool
  | breakTo _ | continueTo _ => true
  | _ => false

lemma labelsEnd_of_not_loopJump {e : Signal} (h : e.isLoopJump = false) (labels : List String) :
    labelsEnd labels e = throw e := by
  cases e with
  | breakTo => cases h
  | continueTo => cases h
  | _ => rfl

lemma roundEnd_of_not_loopJump {e : Signal} (h : e.isLoopJump = false) (labels : List String)
    (next : Exec Unit) : roundEnd labels next e = throw e := by
  cases e with
  | breakTo => cases h
  | continueTo => cases h
  | _ => rfl

lemma Signal.Rel.not_loopJump {r : Routes} {w : World} {e e' : Signal} (h : Signal.Rel r w e e')
    (hbreaks : ∀ l, ¬ r.breaks l) (hstays : ∀ l, ¬ r.stays l) (hturns : ∀ l m, ¬ r.turns l m) :
    e.isLoopJump = false ∧ e'.isLoopJump = false := by
  cases h with
  | breakTo h => exact absurd h (hbreaks _)
  | continueTo h => exact absurd h (hstays _)
  | turned h => exact absurd h (hturns _ _)
  | returned _ => exact ⟨rfl, rfl⟩
  | failure h => cases h <;> exact ⟨rfl, rfl⟩

lemma variableType_copy (type : Node) (dims : Nat) :
    Evaluator.variableType type.copy dims = Evaluator.variableType type dims := by
  obtain ⟨t, s⟩ := type
  cases s <;> rfl

lemma execLocalVar_cons (ev : Evaluator) (type d : Node) (ds : List Node) :
    ev.execLocalVar type (d :: ds) = (do ev.execLocalVar type [d]; ev.execLocalVar type ds) := by
  simp only [Evaluator.execLocalVar]
  split
  · simp only [bind_assoc, pure_bind]
  · rfl

lemma execLocalVar_copy (ev : Evaluator) (type d : Node) :
    ev.execLocalVar type.copy [d] = ev.execLocalVar type [d] := by
  simp only [Evaluator.execLocalVar, variableType_copy]

lemma execAll_append (ev : Evaluator) (ss ss₁ : List Node) :
    ev.execAll (ss ++ ss₁) = (do ev.execAll ss; ev.execAll ss₁) := by
  induction ss with
  | nil => rfl
  | cons s ss ih =>
    show (do ev.exec [] s; ev.execAll (ss ++ ss₁)) = (do (do ev.exec [] s; ev.execAll ss); _)
    rw [ih, bind_assoc]

lemma execAll_singleton (ev : Evaluator) (s : Node) : ev.execAll [s] = ev.exec [] s :=
  bind_pure_unit

section

variable {S : Setting} {w : World} {links : List Link} {routes : Routes} {p p' : Program}
  {m m' : Nat}

lemma Paid.discardSecond {pre post : Credit} {Q : World → α → β → Prop} {c : Exec α} {c' : Exec β}
    (h : Paid S w links routes pre post Q c c') :
    Paid S w links routes pre post Done c (Functor.discard c') := by
  rw [discard_eq, ← onEnd_pure_throw c]
  exact h.onEnd (fun _ _ _ _ _ => .pure trivial) (fun _ _ _ _ he => .throw he) rfl rfl

lemma Paid.exprStmt (hloose : S.tight = false) (hpos : S.strict = true → 0 < m')
    (hm : ∀ i, m' = i + 1 → Matches S (evaluatorAt p S.limit m) (evaluatorAt p' S.limit' i))
    {e : Node} (he : Visible links e) (n : Nat) (w : World) :
    Paid S w links S.leaves (n + 1, 0) (n, 0) Done ((evaluatorAt p S.limit m).eval e)
      ((evaluatorAt p' S.limit' m').exec [] (.plain (.exprStmt e))) := by
  refine .execSecond hpos fun i hi => ?_
  refine .countedSecond (n, 0) 1 (by simp; omega) (by simp [hloose]) fun w₁ _ => ?_
  have heval := ((hm i hi).eval he w₁).extend (n, 0)
  simp only [zero_add] at heval
  exact heval.discardSecond

lemma Paid.updates (hloose : S.tight = false) (hpos : S.strict = true → 0 < m')
    (hm : ∀ i, m' = i + 1 → Matches S (evaluatorAt p S.limit m) (evaluatorAt p' S.limit' i))
    {update : List Node} (he : ∀ e ∈ update, Visible links e) (w : World) :
    Paid S w links S.leaves (update.length, 0) 0 Done ((evaluatorAt p S.limit m).evalEach update)
      ((evaluatorAt p' S.limit' m').execAll (updatesOf update)) := by
  induction update generalizing w with
  | nil => exact .pure trivial
  | cons e es ih =>
    refine (Paid.exprStmt hloose hpos hm (he e List.mem_cons_self) es.length w).bind
      fun w₁ _ _ _ _ => ?_
    exact ih (fun e h => he e (List.mem_cons_of_mem _ h)) w₁

lemma Paid.cutLocalVar (hloose : S.tight = false) (hpos : S.strict = true → 0 < m')
    (hm : ∀ i, m' = i + 1 → Matches S (evaluatorAt p S.limit m) (evaluatorAt p' S.limit' i))
    (mods : List Word) (type : Node) {ds : List Node} (hds : AllAvoid S ds)
    (hf : Fits S S.leaves (fun _ => True) links) (types : Nat → Node)
    (htypes : ∀ i, types i = type ∨ types i = type.copy) (n : Nat) (w : World) :
    Paid S w links S.leaves (n + ds.length, 0) (n, 0) Done
      ((evaluatorAt p S.limit m).execLocalVar type ds)
      ((evaluatorAt p' S.limit' m').execAll
        (ds.mapIdx fun i d => .plain (.localVar mods (types i) [d]))) := by
  induction ds generalizing w types with
  | nil => exact .pure trivial
  | cons d ds ih =>
    rw [execLocalVar_cons, List.mapIdx_cons]
    have hone : Paid S w links S.leaves (n + (d :: ds).length, 0) (n + ds.length, 0) Done
        ((evaluatorAt p S.limit m).execLocalVar type [d])
        ((evaluatorAt p' S.limit' m').exec [] (.plain (.localVar mods (types 0) [d]))) := by
      refine .execSecond hpos fun i hi => ?_
      have htype : ∀ ev : Evaluator, ev.execLocalVar (types 0) [d] = ev.execLocalVar type [d] := by
        intro ev
        rcases htypes 0 with h | h
        · rw [h]
        · rw [h, execLocalVar_copy]
      have hlocal : ∀ w, Sim S w links S.leaves Done
          ((evaluatorAt p S.limit m).execLocalVar type [d])
          ((evaluatorAt p' S.limit' i).execLocalVar type [d]) :=
        (hm i hi).execLocalVar type (fun e he => hds e (by simp_all)) (fun _ _ _ _ _ _ => trivial) hf
      show Paid S w links S.leaves _ _ Done _
        (do Machine.ticks S.limit' 1; (evaluatorAt p' S.limit' i).execLocalVar (types 0) [d])
      rw [htype]
      refine .countedSecond (n + ds.length, 0) 1 (by simp; omega) (by simp [hloose]) fun w₁ _ => ?_
      have hextend := (hlocal w₁).extend (n + ds.length, 0)
      simpa only [zero_add] using hextend
    refine hone.bind fun w₁ _ _ _ _ => ?_
    exact ih (fun e he => hds e (List.mem_cons_of_mem _ he)) (fun i => types (i + 1))
      (fun i => htypes (i + 1)) w₁

lemma Paid.init (hloose : S.tight = false) (hpos : S.strict = true → 0 < m')
    (hm : ∀ i, m' = i + 1 → Matches S (evaluatorAt p S.limit m) (evaluatorAt p' S.limit' i))
    (hsub : ∀ i j, m = j + 1 → m' = i + 1 →
      Matches S (evaluatorAt p S.limit j) (evaluatorAt p' S.limit' i))
    {init : List Node} (h : AllAvoid S init) (hf : Fits S S.leaves (fun _ => True) links) (n : Nat)
    (w : World) :
    Paid S w links S.leaves (n + (init.flatMap statementsOf).length, 0) (n, 0) Done
      ((evaluatorAt p S.limit m).execInit init)
      ((evaluatorAt p' S.limit' m').execAll (init.flatMap statementsOf)) := by
  induction init generalizing w with
  | nil => exact .pure trivial
  | cons e es ih =>
    have he : Avoids S e := h e List.mem_cons_self
    have hnext := ih fun e he => h e (List.mem_cons_of_mem _ he)
    rw [List.flatMap_cons, List.length_append, Nat.add_left_comm, execAll_append]
    by_cases hlocal : Evaluator.isLocalVar e = true
    · have hfirst : (evaluatorAt p S.limit m).execInit (e :: es) = (do
          (evaluatorAt p S.limit m).exec [] e; (evaluatorAt p S.limit m).execInit es) :=
        if_pos hlocal
      rw [hfirst]
      refine Paid.bind (Q := Done) ?_ fun w₁ _ _ _ _ => hnext w₁
      obtain ⟨t, sh⟩ := e
      cases sh with
      | localVar mods type ds =>
        refine .execFirst fun j hj => ?_
        have hds : AllAvoid S ds := fun d hd =>
          he.child (by simp [Shape.children, Shape.parts, Part.toList, hd])
        have hlength : (statementsOf (.mk t (.localVar mods type ds))).length = ds.length :=
          List.length_mapIdx
        rw [hlength, Nat.add_comm]
        have hcut := Paid.cutLocalVar hloose hpos (fun i hi => hsub i j hj hi) mods type hds hf
          (fun i => if i = 0 then type else type.copy) (fun i => by split <;> simp)
          (n + (es.flatMap statementsOf).length)
        exact .countedFirst _ 1 (by simp) (by simp [hloose]) fun w₁ _ => hcut w₁
      | _ => cases hlocal
    · have hfirst : (evaluatorAt p S.limit m).execInit (e :: es) = (do
          let _ ← (evaluatorAt p S.limit m).eval e; (evaluatorAt p S.limit m).execInit es) :=
        if_neg hlocal
      have hstatement : statementsOf e = [.plain (.exprStmt e)] := by
        obtain ⟨t, sh⟩ := e
        cases sh <;> first | rfl | exact absurd rfl hlocal
      rw [hfirst, hstatement, List.length_singleton, Nat.add_comm 1, execAll_singleton]
      exact (Paid.exprStmt hloose hpos hm (hf.visible he) _ w).bind fun w₁ _ _ _ _ => hnext w₁

lemma Paid.conditionOf (hpos : S.strict = true → 0 < m')
    (hm : Matches S (evaluatorAt p S.limit m) (evaluatorAt p' S.limit' m')) {cond : Option Node}
    (h : ∀ e, cond = some e → Visible links e) (w : World) :
    Sim S w links S.leaves (fun _ => Eq) ((evaluatorAt p S.limit m).condition cond)
      ((evaluatorAt p' S.limit' m').truth (Machine.conditionOf cond)) := by
  cases cond with
  | some e => exact hm.truth (h e rfl) w
  | none =>
    cases m' with
    | zero =>
      refine fun _ _ _ _ => .second (Bool.eq_false_iff.mpr fun hs => ?_) (.inl rfl)
      exact (hpos hs).false
    | succ i => exact Paid.pure (a := true) (b := true) rfl

lemma NoLeaves.le (h : NoLeaves S) (routes : Routes) : S.leaves ≤ routes :=
  ⟨fun l hl => (h.breaks l hl).elim, fun l hl => (h.stays l hl).elim,
    fun l m hl => (S.leaves_turns l m hl).elim⟩

lemma NoLeaves.not_loopJump (h : NoLeaves S) {e e' : Signal} (he : Signal.Rel S.leaves w e e') :
    e.isLoopJump = false ∧ e'.isLoopJump = false := he.not_loopJump h.breaks h.stays S.leaves_turns

lemma Signal.Rel.throw_of_not_loopJump {r r₁ : Routes} {e e' : Signal} (h : Signal.Rel r w e e')
    (he : e.isLoopJump = false) : Signal.Rel r₁ w e e' := by
  cases h with
  | breakTo => cases he
  | continueTo => cases he
  | turned => cases he
  | returned h => exact .returned h
  | failure h => exact .failure h

lemma Paid.updatesRound (hleaves : NoLeaves S) (hloose : S.tight = false)
    (hpos : S.strict = true → 0 < m')
    (hm : ∀ i, m' = i + 1 → Matches S (evaluatorAt p S.limit m) (evaluatorAt p' S.limit' i))
    {update : List Node} (he : ∀ e ∈ update, Visible links e) (labels : List String) (w : World) :
    Paid S w links routes (update.length, 0) 0 (fun _ => Eq)
      (goOn ((evaluatorAt p S.limit m).evalEach update) false)
      (Machine.onEnd ((evaluatorAt p' S.limit' m').execAll (updatesOf update))
        (fun _ => goOn (Pure.pure ()) false) (roundEnd labels (Pure.pure ()))) := by
  have hgo : goOn ((evaluatorAt p S.limit m).evalEach update) false =
      Machine.onEnd ((evaluatorAt p S.limit m).evalEach update) (fun _ => Pure.pure true)
        MonadExcept.throw := bind_eq_onEnd _ _
  rw [hgo]
  refine (Paid.updates hloose hpos hm he w).onEnd (fun _ _ _ _ _ => .pure rfl)
    (fun w₁ e e' _ hrel => ?_) rfl rfl
  obtain ⟨hjump, hjump'⟩ := hleaves.not_loopJump hrel
  rw [roundEnd_of_not_loopJump hjump']
  exact .throw (hrel.throw_of_not_loopJump hjump)

def PlainEnds (labels : List String) (update : List Node) (routes inside : Routes) : Prop :=
  inside = routes.passing labels ∨ update = [] ∧ inside = routes.loop labels

lemma Paid.roundEnd_passing {labels : List String} {next : Exec Unit} [Steady next] {e e' : Signal}
    (he : Signal.Rel (routes.passing labels) w e e') :
    Sim S w links routes (fun _ => Eq) (roundEnd labels next e)
      (roundEnd labels (Pure.pure ()) e') := by
  refine (Paid.bodyEnd_passing he).bind fun w₁ b b' _ hb => ?_
  rw [hb.1, hb.2]
  exact .pure rfl

lemma Paid.roundEnd_plain {labels : List String} {update : List Node} {inside : Routes}
    (hinside : PlainEnds labels update routes inside) {e e' : Signal}
    (he : Signal.Rel inside w e e') :
    Sim S w links routes (fun _ => Eq)
      (roundEnd labels ((evaluatorAt p S.limit m).evalEach update) e)
      (roundEnd labels (Pure.pure ()) e') := by
  rcases hinside with rfl | ⟨rfl, rfl⟩
  · exact .roundEnd_passing he
  · refine Paid.bind (.bodyEnd he) fun w₁ b _ _ hb => ?_
    subst hb
    cases b <;> exact .pure rfl

lemma block_append (ev : Evaluator) (t : Tag) (ss ss₁ : List Node) (labels : List String) :
    onEnd (ev.statement [] (.mk t (.block (ss ++ ss₁)))) (fun _ => goOn (pure ()) false)
      (roundEnd labels (pure ())) =
    inScope [] (onEnd (ev.execAll ss)
      (fun _ => onEnd (ev.execAll ss₁) (fun _ => goOn (pure ()) false) (roundEnd labels (pure ())))
      (roundEnd labels (pure ()))) := by
  rw [← onEnd_bind, ← execAll_append]
  exact onEnd_inScope [] _ (fun _ => true) (neutral_roundEnd labels)

lemma Paid.plainRound (hleaves : NoLeaves S) (hloose : S.tight = false)
    (hb : Below S p p' (m + 1)) (hdeep : S.strict = true → 6 * m + 4 ≤ m') {bound inner : String → Prop}
    {labels : List String} {update ss ss' : List Node} {body : Node} {inside : Routes} (tk : Tag)
    (keeps : Keeps body ss inner) (hnames : ∀ e ∈ update, ∀ n ∈ e.names, ¬ inner n)
    (hupdate : ∀ e ∈ update, Visible links e) (hreserved : ∀ x, Link.hides x links → S.reserved x)
    (hinside : PlainEnds labels update routes inside)
    (h : List.Forall₂ (Lowers S bound inside inner []) ss ss') (w : World) :
    Paid S w links routes (update.length + 1, 0) 0 (fun _ => Eq)
      ((evaluatorAt p S.limit m).bodyThen labels ((evaluatorAt p S.limit m).evalEach update) body)
      ((evaluatorAt p' S.limit' m').bodyThen labels (Pure.pure ())
        (.mk tk (.block (ss' ++ updatesOf update)))) := by
  have hneutral := neutral_roundEnd labels
  refine .handledSecond hneutral.exhausted hneutral.failed (fun hs => by have := hdeep hs; omega)
    fun i hi => ?_
  rw [block_append]
  -- The updates run at the end of the scope in the second run.
  have hupdates : ∀ w bs, (∀ x ∈ bs, inner x.1) → Paid S w (.hidden bs :: links) routes
      (update.length, 0) 0 (fun _ => Eq) (goOn ((evaluatorAt p S.limit m).evalEach update) false)
      (Machine.onEnd ((evaluatorAt p' S.limit' i).execAll (updatesOf update))
        (fun _ => goOn (Pure.pure ()) false) (roundEnd labels (Pure.pure ()))) := by
    intro w bs hbs
    refine .updatesRound hleaves hloose (fun hs => by have := hdeep hs; omega) (fun j hj => ?_)
      (fun e he n hn hhides => ?_) labels w
    · exact hb m (Nat.lt_succ_self m) j fun hs => by have := hdeep hs; omega
    · rcases hhides with hhides | hhides
      · obtain ⟨x, hx⟩ := Option.isSome_iff_exists.mp hhides
        obtain ⟨b, hmem, rfl⟩ := mem_keys_of_lookup hx
        exact hnames e he _ hn (hbs b hmem)
      · exact hupdate e he n hn hhides
  cases keeps with
  | own t ss inner =>
    refine .handledFirst rfl (fun _ => rfl) fun j hj => ?_
    refine .counted (update.length, 0) 1 1 (by simp; omega) (by simp [hloose]) fun w₁ _ => ?_
    have hm := hb j (by omega) i fun hs => by have := hdeep hs; omega
    have hfits : Fits S inside inner (.both inner :: links) :=
      ⟨hleaves.le inside, fun _ h => h, hreserved⟩
    have hstatements := (hm.execAll h hfits w₁).extend (update.length, 0)
    simp only [zero_add] at hstatements
    exact hstatements.closeFirst (fun w₂ bs _ _ hbs _ => hupdates w₂ bs hbs)
      (fun w₂ bs e e' _ he => .roundEnd_plain hinside he) rfl rfl
  | other body =>
    refine .countedSecond (update.length, 0) 1 (by simp; omega) (by simp [hloose]) fun w₁ _ => ?_
    refine .inHidden [] ?_
    obtain ⟨body', rfl⟩ : ∃ body', ss' = [body'] := by
      rcases h with _ | ⟨_, h⟩
      cases h
      exact ⟨_, rfl⟩
    rw [execAll_singleton]
    have hm := hb m (Nat.lt_succ_self m) i fun hs => by have := hdeep hs; omega
    have hfits : Fits S inside (fun _ => False) (.hidden [] :: links) :=
      ⟨hleaves.le inside, fun _ h => h.elim, fun x h => hreserved x (h.resolve_left (by rintro ⟨⟩))⟩
    exact (hm.exec (List.forall₂_cons.mp h).1 hfits w₁).onEndHolding
      (fun w₂ _ _ _ _ => hupdates w₂ [] (by rintro _ ⟨⟩))
      (fun w₂ e e' _ he => (Paid.roundEnd_plain hinside he).weaken zero_le le_rfl) rfl rfl

lemma Signal.Rel.guarded_cases {labels : List String} {target : String} {e e' : Signal}
    (h : Signal.Rel (routes.guarded labels target) w e e') :
    (∃ l, continues labels false l = true ∧ e = .continueTo l ∧ e' = .breakTo (some target)) ∨
      Signal.Rel (routes.passing labels) w e e' := by
  cases h with
  | breakTo h => exact .inr (.breakTo h)
  | continueTo h => exact .inr (.continueTo h)
  | @turned l m h =>
    dsimp only [Routes.guarded] at h
    split at h
    · rename_i hl
      exact .inl ⟨l, hl, rfl, by rw [h]⟩
    · rename_i hl
      exact .inr (.turned ⟨Bool.eq_false_iff.mpr hl, h⟩)
  | returned h => exact .inr (.returned h)
  | failure h => exact .inr (.failure h)

lemma labelEnd_of_passing {labels : List String} {target : String} {e e' : Signal}
    (h : Signal.Rel (routes.passing labels) w e e') (hbreaks : ¬ routes.breaks (some target))
    (hturns : ∀ c, ¬ routes.turns c target) : Evaluator.labelEnd target e' = throw e' := by
  cases h with
  | @breakTo l h =>
    refine if_neg fun hl => ?_
    subst hl
    exact hbreaks (h.resolve_left (by rintro ⟨⟩))
  | continueTo h => rfl
  | @turned c l h =>
    refine if_neg fun hl => ?_
    obtain rfl := Option.some.inj hl
    exact hturns c h.2
  | returned h => rfl
  | failure h => cases h <;> rfl

lemma Paid.guardedRound (hleaves : NoLeaves S) (hloose : S.tight = false)
    (hb : Below S p p' (m + 1)) (hdeep : S.strict = true → 6 * m + 4 ≤ m')
    {bound inner : String → Prop} {labels : List String} {target : String}
    {update ss ss' : List Node} {body : Node} (tk : Tag) (keeps : Keeps body ss inner)
    (hupdate : ∀ e ∈ update, Visible links e) (hreserved : ∀ x, Link.hides x links → S.reserved x)
    (hbreaks : ¬ routes.breaks (some target)) (hturns : ∀ c, ¬ routes.turns c target)
    (h : List.Forall₂ (Lowers S bound (routes.guarded labels target) inner []) ss ss') (w : World) :
    Paid S w links routes (update.length + 3, 0) 0 (fun _ => Eq)
      ((evaluatorAt p S.limit m).bodyThen labels ((evaluatorAt p S.limit m).evalEach update) body)
      ((evaluatorAt p' S.limit' m').bodyThen labels (Pure.pure ()) (.plain (.block
        (.plain (.labeled target (.mk tk (.block ss'))) :: updatesOf update)))) := by
  have hneutral := neutral_roundEnd labels
  have hhidden : ∀ x, Link.hides x (.hidden [] :: links) → Link.hides x links :=
    fun x h => h.resolve_left (by rintro ⟨⟩)
  -- Down to the statements of the body in the second run: the block, the label and the body.
  refine .handledSecond hneutral.exhausted hneutral.failed (fun hs => by have := hdeep hs; omega)
    fun i hi => ?_
  have hsecond := block_append (evaluatorAt p' S.limit' i) {}
    [.plain (.labeled target (.mk tk (.block ss')))] (updatesOf update) labels
  rw [execAll_singleton] at hsecond
  rw [Node.plain, ← List.singleton_append, hsecond]
  refine .countedSecond (update.length + 2, 0) 1 (by simp; omega) (by simp [hloose]) fun w₁ _ => ?_
  refine .inHidden [] (.handledSecond hneutral.exhausted hneutral.failed
    (fun hs => by have := hdeep hs; omega) fun i₁ hi₁ => ?_)
  refine .countedSecond (update.length + 1, 0) 1 (by simp; omega) (by simp [hloose])
    fun w₂ _ => ?_
  have hlabel : (evaluatorAt p' S.limit' i₁).statement []
      (.plain (.labeled target (.mk tk (.block ss')))) =
      Machine.onEnd ((evaluatorAt p' S.limit' i₁).exec [target] (.mk tk (.block ss'))) Pure.pure
        (Evaluator.labelEnd target) := Evaluator.execLabeled_eq _ [] target _
  rw [hlabel, onEnd_onEnd]
  refine .handledSecond rfl (fun _ => rfl) (fun hs => by have := hdeep hs; omega) fun i₂ hi₂ => ?_
  refine .countedSecond (update.length, 0) 1 (by simp; omega) (by simp [hloose]) fun w₃ _ => ?_
  have hbody : Sim S w₃ (.hidden [] :: links) (routes.guarded labels target) Done
      ((evaluatorAt p S.limit m).exec [] body)
      (Machine.inScope [] ((evaluatorAt p' S.limit' i₂).execAll ss')) := by
    cases keeps with
    | own t ss inner =>
      refine .execFirst fun j hj => .countedFirst 0 1 (zero_le) (by simp [hloose]) fun w₄ _ => ?_
      have hm := hb j (by omega) i₂ fun hs => by have := hdeep hs; omega
      refine .inScope inner .nil (List.forall_mem_nil _) (hm.execAll h ?_ w₄)
      exact ⟨hleaves.le _, fun _ h => h, fun x h => hreserved x (hhidden x h)⟩
    | other body =>
      have hm := hb m (Nat.lt_succ_self m) i₂ fun hs => by have := hdeep hs; omega
      have hfits : Fits S (routes.guarded labels target) (fun _ => False)
          (.hidden [] :: .hidden [] :: links) :=
        ⟨hleaves.le _, fun _ h => h.elim,
          fun x h => hreserved x (hhidden x (h.resolve_left (by rintro ⟨⟩)))⟩
      have hexec := hm.execAll h hfits w₃
      rw [execAll_singleton] at hexec
      exact .inHidden [] hexec
  have hupdates : ∀ w, Paid S w (.hidden [] :: links) routes (update.length, 0) 0 (fun _ => Eq)
      (goOn ((evaluatorAt p S.limit m).evalEach update) false)
      (Machine.onEnd ((evaluatorAt p' S.limit' i).execAll (updatesOf update))
        (fun _ => goOn (Pure.pure ()) false) (roundEnd labels (Pure.pure ()))) := by
    intro w
    refine .updatesRound hleaves hloose (fun hs => by have := hdeep hs; omega) (fun j hj => ?_)
      (fun e he n hn hhides => hupdate e he n hn (hhidden n hhides)) labels w
    exact hb m (Nat.lt_succ_self m) j fun hs => by have := hdeep hs; omega
  refine hbody.onEndHolding (fun w₄ _ _ _ _ => hupdates w₄) (fun w₄ e e' _ he => ?_) rfl rfl
  obtain ⟨l, hl, rfl, rfl⟩ | he := he.guarded_cases
  · have hfirst : roundEnd labels ((evaluatorAt p S.limit m).evalEach update) (.continueTo l) =
        goOn ((evaluatorAt p S.limit m).evalEach update) false := by
      rw [roundEnd, bodyEnd_continueTo, if_pos hl]
      rfl
    have hcaught : Evaluator.labelEnd target (.breakTo (some target)) = Pure.pure () := if_pos rfl
    rw [hfirst, hcaught]
    exact hupdates w₄
  · rw [labelEnd_of_passing he hbreaks hturns, onEnd_throw]
    exact (Paid.roundEnd_passing he).weaken zero_le le_rfl

lemma Paid.forRounds {bound : String → Prop} {ls : List (Tag × String)} {init update : List Node}
    {cond : Option Node} {body body' : Node} (head : ForHead S bound routes ls init cond update)
    (hm : Matches S (evaluatorAt p S.limit m) (evaluatorAt p' S.limit' m'))
    (hpos : S.strict = true → 0 < m')
    (hcond : ∀ e, cond = some e → Visible links e)
    (hround : ∀ w, Paid S w links (routes.under (ls.map (·.2))) (update.length + 3, 0) 0 (fun _ => Eq)
      ((evaluatorAt p S.limit m).bodyThen (ls.map (·.2)) ((evaluatorAt p S.limit m).evalEach update) body)
      ((evaluatorAt p' S.limit' m').bodyThen (ls.map (·.2)) (Pure.pure ()) body')) (w : World) :
    Sim S w links routes Done
      (catchLabels (ls.map (·.2)) ((evaluatorAt p S.limit m).rounds fun _ =>
        (evaluatorAt p S.limit m).forRound (ls.map (·.2)) cond update body))
      (catchLabels (ls.map (·.2)) ((evaluatorAt p' S.limit' m').execWhile (ls.map (·.2))
        (Machine.conditionOf cond) body')) := by
  have hfactor := head.factor
  have hrounds : Sim S w links (routes.under (ls.map (·.2))) Done
      ((evaluatorAt p S.limit m).rounds fun _ =>
        (evaluatorAt p S.limit m).forRound (ls.map (·.2)) cond update body)
      ((evaluatorAt p' S.limit' m').execWhile (ls.map (·.2)) (Machine.conditionOf cond) body') := by
    refine hm.rounds fun _ w₁ _ => ?_
    rw [Evaluator.forRound_eq, Evaluator.whileRound_eq, evaluatorAt_tick, evaluatorAt_tick]
    refine ((Paid.conditionOf hpos hm hcond w₁).mono (head.leaves.le _)).bind
      fun w₂ x _ _ hx => ?_
    subst hx
    refine .ite (fun _ => ?_) fun _ => .pure rfl
    exact .counted _ 1 1 (by simp; omega) (by simp [head.loose]) fun w₃ _ => hround w₃
  refine hrounds.onEnd (fun _ _ _ _ _ => .pure trivial) (fun w₁ e e' _ he => .labelsEnd he ?_)
    rfl rfl
  intro l hl
  obtain ⟨x, hx, rfl⟩ := List.mem_map.mp hl
  exact head.turns x hx

lemma Paid.loweredFor {bound names : String → Prop} {ls : List (Tag × String)}
    {init update : List Node} {cond : Option Node} {body body' : Node} {d d' : Nat}
    (hb : Below S p p' d) (hdeep : Deep S d d') (t : Tag) (line : Option Nat)
    (head : ForHead S bound routes ls init cond update) (hf : Fits S routes names links)
    (hround : ∀ m m', d = m + 1 + ls.length → (S.strict = true → 6 * m + 4 ≤ m') → ∀ w,
      Paid S w (.both (fun _ => True) :: links) (routes.under (ls.map (·.2)))
        (update.length + 3, 0) 0 (fun _ => Eq)
        ((evaluatorAt p S.limit m).bodyThen (ls.map (·.2)) ((evaluatorAt p S.limit m).evalEach update) body)
        ((evaluatorAt p' S.limit' m').bodyThen (ls.map (·.2)) (Pure.pure ()) body'))
    (w : World) :
    Sim S w links routes Done
      ((evaluatorAt p S.limit d).exec [] (underLabels ls (.mk t (.forLoop init cond update body))))
      ((evaluatorAt p' S.limit' d').exec [] (whileBlock (ls.map (·.2)) line
        (init.flatMap statementsOf) (Machine.conditionOf cond) body')) := by
  have hfactor := head.factor
  have hmul : ls.length ≤ S.factor * ls.length := Nat.le_mul_of_pos_left _ S.one_le_factor
  refine .underLabelsFirst fun m hm => .execSecond (fun hs => by have := hdeep hs; omega)
    fun i hi => ?_
  have hin := hf.opened fun _ => True
  have hinside : Fits S S.leaves (fun _ => True) (.both (fun _ => True) :: links) :=
    ⟨le_rfl, hin.admits, hin.reserved⟩
  have havoids : ∀ e ∈ init ++ cond.toList ++ update, Avoids S e := head.avoids
  refine .counted (ls.length + 1 + (init.flatMap statementsOf).length, 0) _ _ ?_
    (by simp [head.loose]) fun w₁ _ => ?_
  · simp only [Nat.mul_succ]
    omega
  show Paid S w₁ links routes _ _ Done (catchLabels (ls.map (·.2)) (Machine.inScope [] (do
    (evaluatorAt p S.limit m).execInit init
    (evaluatorAt p S.limit m).rounds fun _ =>
      (evaluatorAt p S.limit m).forRound (ls.map (·.2)) cond update body)))
    (Machine.inScope [] ((evaluatorAt p' S.limit' i).execAll (init.flatMap statementsOf ++
      [relabel (ls.map (·.2)) (.plain (.whileLoop (Machine.conditionOf cond) body'))])))
  rw [catchLabels_inScope, execAll_append, execAll_singleton, catchLabels, onEnd_bind,
    bind_eq_onEnd ((evaluatorAt p' S.limit' i).execAll _)]
  refine .inScope (fun _ => True) .nil (List.forall_mem_nil _) ?_
  have hinit : Paid S w₁ (.both (fun _ => True) :: links) S.leaves
      (ls.length + 1 + (init.flatMap statementsOf).length, 0) (ls.length + 1, 0) Done
      ((evaluatorAt p S.limit m).execInit init)
      ((evaluatorAt p' S.limit' i).execAll (init.flatMap statementsOf)) := .init head.loose
    (fun hs => by have := hdeep hs; omega)
    (fun j hj => hb m (by omega) j fun hs => by have := hdeep hs; omega)
    (fun j j₁ hj₁ hj => hb j₁ (by omega) j fun hs => by have := hdeep hs; omega)
    (fun e he => havoids e (by simp [he])) hinside (ls.length + 1) w₁
  refine hinit.onEnd (fun w₂ _ _ _ _ => ?_) (fun w₂ e e' _ he => ?_) rfl rfl
  · rw [relabel_eq_underLabels]
    refine .underLabelsSecond (fun hs => by have := hdeep hs; simp; omega) fun m' hm' => ?_
    rw [map_snd_plain, List.length_map, List.length_map] at *
    refine .countedSecond 0 _ (by simp) (by simp [head.loose]) fun w₃ _ => ?_
    have hdepth : S.strict = true → 6 * m + 4 ≤ m' := fun hs => by have := hdeep hs; omega
    exact .forRounds head (hb m (by omega) m' fun hs => by have := hdepth hs; omega)
      (fun hs => by have := hdepth hs; omega)
      (fun e he => hin.visible (havoids e (by simp [he]))) (hround m m' hm hdepth) w₃
  · obtain ⟨hjump, hjump'⟩ := head.leaves.not_loopJump he
    rw [labelsEnd_of_not_loopJump hjump]
    exact .throw (he.throw_of_not_loopJump hjump)

end

end LoopLowering.Machine
