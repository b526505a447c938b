import LoopLowering.Proofs.Machine.ElementLoop

/-! Two programs whose bodies are lowered forms of each other run alike. -/

namespace LoopLowering.Machine

open Loops

section

variable {S : Setting} {w : World} {links : List Link} {routes : Routes}
  {bound names : String → Prop} {labels : List String} {p p' : Program} {d d' : Nat}

lemma Below.counted (hb : Below S p p' d) (hdeep : Deep S d d') {n n' : Node}
    (h : ∀ m m', Matches S (evaluatorAt p S.limit m) (evaluatorAt p' S.limit' m') → ∀ w,
      Sim S w links routes Done ((evaluatorAt p S.limit m).statement labels n)
        ((evaluatorAt p' S.limit' m').statement labels n')) (w : World) :
    Sim S w links routes Done ((evaluatorAt p S.limit d).exec labels n)
      ((evaluatorAt p' S.limit' d').exec labels n') := by
  have hone := S.one_le_factor
  refine .execFirst fun m hm => .execSecond (fun hs => by have := hdeep hs; omega) fun m' hm' => ?_
  refine .counted 0 1 1 (by simp; omega) (fun _ => le_rfl) fun w₁ _ => h m m' ?_ w₁
  exact hb m (by omega) m' fun hs => by have := hdeep hs; omega

lemma option_of_isSome {α β : Type} {R : α → β → Prop} {a : Option α} {b : Option β}
    (hsome : b.isSome = a.isSome) (h : ∀ x y, a = some x → b = some y → R x y) :
    Option.Rel R a b := by
  cases a with
  | none =>
    cases b with
    | none => exact .none
    | some y => cases hsome
  | some x =>
    cases b with
    | none => cases hsome
    | some y => exact .some (h x y rfl rfl)

lemma handlers_of_alike {cs cs' : List Node} (h : List.Forall₂ HandlersAlike cs cs')
    (hbodies : ∀ (i : Nat) t t' mods name types b b',
      cs[i]? = some (.mk t (.catchClause mods name types b)) →
      cs'[i]? = some (.mk t' (.catchClause mods name types b')) →
      Lowers S bound routes (fun _ => True) [] b b') :
    List.Forall₂ (Matches.Handlers S bound routes) cs cs' := by
  refine forall₂_of_getElem? h.length_eq.symm fun i c c' hc hc' => ?_
  have halike := forall₂_getElem? h i
  rw [hc, hc'] at halike
  cases halike with
  | some halike =>
    cases halike with
    | handler t t' mods name types b b' =>
      exact .handler (hbodies i t t' mods name types b b' hc hc')
    | neither h h' => exact .neither h h'

lemma statement_inert (ev : Evaluator) (t : Tag) {s : Shape Node} (h : isInert s = true) :
    ev.statement labels (.mk t s) = (liftM (fail (.badStatement s.kind) : StoreM Unit)) := by
  cases s <;> first | rfl | cases h

lemma Below.exec (hb : Below S p p' d) (hdeep : Deep S d d') {n n' : Node}
    (h : Lowers S bound routes names labels n n') (hf : Fits S routes names links) (w : World) :
    Sim S w links routes Done ((evaluatorAt p S.limit d).exec labels n)
      ((evaluatorAt p' S.limit' d').exec labels n') := by
  cases h with
  | block hlen h =>
    refine hb.counted hdeep (fun m m' hm w => ?_) w
    refine .inScope (fun _ => True) .nil (List.forall_mem_nil _) ?_
    exact hm.execAll (forall₂_of_getElem? hlen h) (hf.opened fun _ => True) w
  | localVar h hds => exact hb.counted hdeep (fun m m' hm w => hm.execLocalVar _ h hds hf w) w
  | exprStmt h =>
    refine hb.counted hdeep (fun m m' hm w => ?_) w
    exact ((hm.eval (hf.visible h) w).mono hf.leaves).discard
  | ifElse hcond ha hsome hb' =>
    exact hb.counted hdeep (fun m m' hm w => hm.execIf hcond ha (option_of_isSome hsome hb') hf) w
  | whileLoop hcond hbody => exact hb.counted hdeep (fun m m' hm w => hm.execWhile hcond hbody hf) w
  | doWhile hcond hbody => exact hb.counted hdeep (fun m m' hm w => hm.execDoWhile hcond hbody hf) w
  | forLoop hhead hbody => exact hb.counted hdeep (fun m m' hm w => hm.execFor hhead hbody hf) w
  | forEach hiterable hbody =>
    exact hb.counted hdeep (fun m m' hm w => hm.execForEach _ hiterable hbody hf) w
  | returnStmt h => exact hb.counted hdeep (fun m m' hm w => hm.execReturn h hf) w
  | throwStmt h => exact hb.counted hdeep (fun m m' hm w => hm.execThrow h hf) w
  | breakStmt h => exact hb.counted hdeep (fun m m' hm w => .throw (.breakTo h)) w
  | continueStmt h => exact hb.counted hdeep (fun m m' hm w => .throw (.continueTo h)) w
  | turned h => exact hb.counted hdeep (fun m m' hm w => .throw (.turned h)) w
  | tryStmt hbody hhandlers hbodies hsome hlast =>
    have hcs := handlers_of_alike hhandlers hbodies
    have hl := option_of_isSome hsome hlast
    exact hb.counted hdeep (fun m m' hm w => hm.execTry hbody hcs hl hf) w
  | labeled hl hturns hbody =>
    exact hb.counted hdeep (fun m m' hm w => hm.execLabeled hturns hbody hf) w
  | emptyStmt => exact hb.counted hdeep (fun m m' hm w => .pure trivial) w
  | classDecl => exact hb.counted hdeep (fun m m' hm w => .lift (.fail _)) w
  | inert h h' hkind =>
    refine hb.counted hdeep (fun m m' hm w => ?_) w
    rw [statement_inert _ _ h, statement_inert _ _ h', hkind]
    exact .lift (.fail _)
  | forAsWhile inner head keeps hnames hinside hlen h =>
    refine .loweredFor hb hdeep _ _ head hf (fun m m' hm hdepth w => ?_) w
    refine Paid.weaken (.plainRound head.leaves head.loose (fun i hi => hb i (by omega)) hdepth _
      keeps hnames (fun e he => (hf.opened names).visible (head.avoids e (by simp [he])))
      (hf.opened names).reserved hinside (forall₂_of_getElem? hlen h) w) ?_ le_rfl
    exact ⟨Nat.add_le_add_left (by omega) _, le_rfl⟩
  | guardedFor target inner head keeps htarget hbreaks hturns hlen h =>
    refine .loweredFor hb hdeep _ _ head hf (fun m m' hm hdepth w => ?_) w
    exact .guardedRound head.leaves head.loose (fun i hi => hb i (by omega)) hdepth _ keeps
      (fun e he => (hf.opened names).visible (head.avoids e (by simp [he])))
      (hf.opened names).reserved hbreaks hturns (forall₂_of_getElem? hlen h) w
  | forEachAsWhile head keeps hlen h =>
    exact .loweredForEach hb hdeep head keeps (forall₂_of_getElem? hlen h) hf _ _ _ _ _ _ _ _ w

theorem matches_evaluatorAt (hp : ProgramLowers S p p') (hdeep : Deep S d d') :
    Matches S (evaluatorAt p S.limit d) (evaluatorAt p' S.limit' d') := by
  induction d using Nat.strong_induction_on generalizing d' with
  | _ d ih =>
    refine ⟨by cases d <;> rfl, by cases d' <;> rfl, ?_, fun {links e} he w => ?_,
      fun h hf w => Below.exec (fun m hm m' => ih m hm) hdeep h hf w⟩
    · rw [evaluatorAt_program, evaluatorAt_program]
      exact hp
    · cases d with
      | zero => exact fun _ _ _ _ => .first (.inl rfl)
      | succ m =>
        refine .evalSecond (fun hs => by have := hdeep hs; omega) fun m' hm' => ?_
        have hbelow : Deep S m m' := fun hs => by have := hdeep hs; omega
        exact (ih m (Nat.lt_succ_self m) hbelow).expression he w

end

end LoopLowering.Machine
