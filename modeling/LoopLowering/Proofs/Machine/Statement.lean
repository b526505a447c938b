import LoopLowering.Proofs.Machine.Expression

/-! Statements in two runs, one rule for each form that the two programs share. -/

namespace LoopLowering.Machine

open Loops

variable {α β : Type}

lemma forall₂_of_getElem? {R : α → β → Prop} {xs : List α} {ys : List β}
    (hlen : ys.length = xs.length)
    (h : ∀ (i : Nat) a b, xs[i]? = some a → ys[i]? = some b → R a b) : List.Forall₂ R xs ys := by
  induction xs generalizing ys with
  | nil =>
    obtain rfl := List.eq_nil_of_length_eq_zero hlen
    exact .nil
  | cons x xs ih =>
    cases ys with
    | nil => cases hlen
    | cons y ys =>
      refine .cons (h 0 x y rfl rfl) (ih (Nat.succ.inj hlen) fun i a b ha hb => ?_)
      exact h (i + 1) a b (by simpa using ha) (by simpa using hb)

section

variable {S : Setting} {w : World} {links : List Link} {routes : Routes} {labels : List String}

lemma Meets.repeatFrom {Inv : Nat → State → State → Prop} {Post : State → State → Prop}
    {err : Signal → State → Signal → State → Prop} {round round' : Nat → Exec Bool}
    [∀ i, Steady (round i)] [∀ i, Steady (round' i)]
    (h : ∀ i s s', Inv i s s' →
      Meets S (fun b t b' t' => b' = b ∧ if b then Inv (i + 1) t t' else Post t t') err (round i s)
        (round' i s'))
    {n n' : Nat} (i : Nat) (hn : S.strict = true → n ≤ n') {s s' : State} (hs : Inv i s s') :
    Meets S (fun _ t _ t' => Post t t') err (repeatFrom round n i s)
      (Machine.repeatFrom round' n' i s') := by
  induction n generalizing n' i s s' with
  | zero => exact .first (.inl rfl)
  | succ n ih =>
    cases n' with
    | zero =>
      refine .second (Bool.eq_false_iff.mpr fun hstrict => ?_) (.inl rfl)
      exact absurd (hn hstrict) (Nat.not_succ_le_zero n)
    | succ n' =>
      unfold Machine.repeatFrom
      rw [bind_eq_onEnd, bind_eq_onEnd]
      refine (h i s s' hs).onEnd ?_ (fun _ _ _ _ he => .error he) inferInstance inferInstance
        inferInstance inferInstance (passes_of_eq rfl) (passes_of_eq rfl)
      rintro b t b' t' ⟨rfl, ht⟩
      cases b' with
      | true => exact ih (i + 1) (fun hstrict => Nat.le_of_succ_le_succ (hn hstrict)) ht
      | false => exact .ok ht

lemma Setting.rounds_le (hs : S.strict = true) : S.limit.toNat + 2 ≤ S.limit'.toNat + 2 := by
  have hone := S.one_le_factor
  have hlimit := S.limit_le hs
  rcases lt_or_ge S.limit 0 with hneg | hpos
  · omega
  · have hmul : (1 : Int) * S.limit ≤ S.factor * S.limit :=
      Int.mul_le_mul_of_nonneg_right (by exact_mod_cast hone) hpos
    omega

lemma Signal.Rel.loop_cases {e e' : Signal} (h : Signal.Rel (routes.loop labels) w e e') :
    (∃ l, continues labels false l = true ∧ e = .continueTo l ∧ e' = .continueTo l) ∨
      Signal.Rel (routes.passing labels) w e e' := by
  cases h with
  | breakTo h => exact .inr (.breakTo h)
  | @continueTo l h =>
    cases hl : continues labels false l with
    | true => exact .inl ⟨l, hl, rfl, rfl⟩
    | false =>
      refine .inr (.continueTo ⟨hl, h.resolve_left fun hc => ?_⟩)
      rw [hl] at hc
      cases hc
  | turned h => exact .inr (.turned h)
  | returned h => exact .inr (.returned h)
  | failure h => exact .inr (.failure h)

lemma bodyEnd_continueTo (l : Option String) : Evaluator.bodyEnd labels (.continueTo l) =
    if continues labels false l then return false else throw (.continueTo l) := by
  cases l <;> rfl

lemma Paid.bodyEnd_passing {e e' : Signal} (he : Signal.Rel (routes.passing labels) w e e')
    {pre : Credit} : Paid S w links routes pre pre (fun _ b b' => b = true ∧ b' = true)
      (Evaluator.bodyEnd labels e) (Evaluator.bodyEnd labels e') := by
  cases he with
  | @breakTo l h =>
    cases l with
    | none => exact .pure ⟨rfl, rfl⟩
    | some l => exact .throw (.breakTo (h.resolve_left nofun))
  | continueTo h =>
    rw [bodyEnd_continueTo, if_neg (Bool.eq_false_iff.mp h.1)]
    exact .throw (.continueTo h.2)
  | turned h =>
    rw [bodyEnd_continueTo, if_neg (Bool.eq_false_iff.mp h.1)]
    exact .throw (.turned h.2)
  | returned h => exact .throw (.returned h)
  | failure h =>
    have hthrow : Paid S w links routes pre pre (fun _ b b' => b = true ∧ b' = true)
        (MonadExcept.throw e : Exec Bool) (MonadExcept.throw e' : Exec Bool) := .throw (.failure h)
    cases h <;> exact hthrow

lemma Paid.bodyEnd {e e' : Signal} (he : Signal.Rel (routes.loop labels) w e e') {pre : Credit} :
    Paid S w links routes pre pre (fun _ => Eq) (Evaluator.bodyEnd labels e)
      (Evaluator.bodyEnd labels e') := by
  obtain ⟨l, hl, rfl, rfl⟩ | he := he.loop_cases
  · rw [bodyEnd_continueTo, if_pos hl]
    exact .pure rfl
  · refine (Paid.bodyEnd_passing he).imp ?_
    rintro w₁ _ _ - ⟨rfl, rfl⟩
    rfl

lemma Paid.labelEnd {l : String} {e e' : Signal} (he : Signal.Rel (routes.label l) w e e')
    (hturns : ∀ c, ¬ routes.turns c l) {pre : Credit} :
    Paid S w links routes pre pre Done (Evaluator.labelEnd l e) (Evaluator.labelEnd l e') := by
  cases he with
  | @breakTo b h => exact .ite (fun _ => .pure trivial) fun hb => .throw (.breakTo (h.resolve_left hb))
  | continueTo h => exact .throw (.continueTo h)
  | @turned c m h =>
    have hm : ¬ some m = some l := fun hm => hturns c (Option.some.inj hm ▸ h)
    dsimp only [Evaluator.labelEnd]
    rw [if_neg hm]
    exact .throw (.turned h)
  | returned h => exact .throw (.returned h)
  | failure h =>
    have hthrow : Paid S w links routes pre pre Done (MonadExcept.throw e : Exec Unit)
        (MonadExcept.throw e' : Exec Unit) := .throw (.failure h)
    cases h <;> exact hthrow

lemma Paid.ensuring {Q : World → α → β → Prop} (hQ : ∀ w w₁ a b, w ≤ w₁ → Q w a b → Q w₁ a b)
    {c : Exec α} {c' : Exec β} {last last' : Exec Unit} [Steady last] [Steady last']
    (h : Sim S w links routes Q c c') (hlast : ∀ w, Sim S w links routes Done last last') :
    Sim S w links routes Q (ensuring c last) (Machine.ensuring c' last') := by
  rw [ensuring_eq, ensuring_eq]
  refine h.onEnd (fun w₁ a b _ hq => ?_) (fun w₁ e e' _ he => ?_) rfl rfl
  · exact (hlast w₁).bind fun w₂ _ _ hw _ => .pure (hQ w₁ w₂ a b hw hq)
  · rw [lastly_eq _ he.ne_exhausted.1, lastly_eq _ he.ne_exhausted.2]
    exact (hlast w₁).bind fun w₂ _ _ hw _ => .throw (he.extend hw.1)

lemma Paid.note (i : Incident) {pre : Credit} :
    Paid S w links routes pre pre Done (note i) (Machine.note i) := by
  intro k s s' hs
  by_cases hi : S.forbidden i = true
  · exact .first (.inr ⟨i, List.mem_cons_self, hi⟩)
  · refine .ok ⟨w, le_rfl, ⟨hs.store, hs.frame, hs.upper, hs.lower, ?_⟩, trivial⟩
    rintro (hspent | ⟨i₁, hmem, hi₁⟩)
    · exact hs.intact (.inl hspent)
    · rcases List.mem_cons.mp hmem with rfl | hmem
      · exact hi hi₁
      · exact hs.intact (.inr ⟨i₁, hmem, hi₁⟩)

end

namespace Routes

variable {S : Setting} {routes : Routes}

lemma leaves_le_loop (h : S.leaves ≤ routes) (labels : List String) :
    S.leaves ≤ routes.loop labels :=
  ⟨fun l hl => .inr (h.1 l hl), fun l hl => .inr (h.2.1 l hl),
    fun l m hl => (S.leaves_turns l m hl).elim⟩

lemma leaves_le_label (h : S.leaves ≤ routes) (l : String) : S.leaves ≤ routes.label l :=
  ⟨fun b hb => .inr (h.1 b hb), h.2⟩

end Routes

namespace Fits

variable {S : Setting} {routes : Routes} {names : String → Prop} {links : List Link}

lemma loop (h : Fits S routes names links) (labels : List String) :
    Fits S (routes.loop labels) names links where
  __ := h
  leaves := Routes.leaves_le_loop h.leaves labels

lemma label (h : Fits S routes names links) (l : String) : Fits S (routes.label l) names links where
  __ := h
  leaves := Routes.leaves_le_label h.leaves l

lemma opened (h : Fits S routes names links) (names₁ : String → Prop) :
    Fits S routes names₁ (.both (fun _ => True) :: links) where
  leaves := h.leaves
  admits _ _ := trivial
  reserved := h.reserved

end Fits

namespace Matches

variable {S : Setting} {ev ev' : Evaluator} {w : World} {links : List Link} {routes : Routes}
  {bound names : String → Prop} {labels : List String} {v v' : Value}

lemma truthIn (hm : Matches S ev ev') {e : Node} (h : Visible links e)
    (hr : S.leaves ≤ routes) (w : World) :
    Sim S w links routes (fun _ => Eq) (ev.truth e) (ev'.truth e) := (hm.truth h w).mono hr

lemma runBody (hm : Matches S ev ev') {body body' : Node}
    (h : Lowers S bound (routes.loop labels) names [] body body')
    (hf : Fits S (routes.loop labels) names links) (w : World) :
    Sim S w links routes (fun _ => Eq) (ev.runBody labels body) (ev'.runBody labels body') := by
  rw [Evaluator.runBody_eq, Evaluator.runBody_eq]
  exact (hm.exec h hf w).onEnd (fun _ _ _ _ _ => .pure rfl) (fun _ _ _ _ he => .bodyEnd he) rfl rfl

lemma rounds (hm : Matches S ev ev') {round round' : Nat → Exec Bool} [∀ i, Steady (round i)]
    [∀ i, Steady (round' i)]
    (h : ∀ i w₁, w ≤ w₁ → Sim S w₁ links routes (fun _ => Eq) (round i) (round' i)) :
    Sim S w links routes Done (ev.rounds round) (ev'.rounds round') := by
  intro k s s' hs
  unfold Evaluator.rounds
  rw [hm.limit, hm.limit']
  have hround : ∀ i t t', (∃ w₁, w ≤ w₁ ∧ Related S w₁ links (k + 0) t t') →
      Meets S (fun b u b' u' => b' = b ∧ if b then (∃ w₁, w ≤ w₁ ∧ Related S w₁ links (k + 0) u u')
        else ∃ w₁, w ≤ w₁ ∧ Related S w₁ links (k + 0) u u') (Fails S w links k routes)
        (round i t) (round' i t') := by
    rintro i t t' ⟨w₁, hw₁, ht⟩
    refine (h i w₁ hw₁ k t t' ht).imp ?_ ?_
    · rintro b u b' u' ⟨w₂, hw₂, hu, hb⟩
      exact ⟨hb.symm, by split <;> exact ⟨w₂, hw₁.trans hw₂, hu⟩⟩
    · rintro e u e' u' ⟨w₂, hw₂, hu, he⟩
      exact ⟨w₂, hw₁.trans hw₂, hu, he⟩
  refine (Meets.repeatFrom hround 0 (fun hs => S.rounds_le hs) ⟨w, le_rfl, hs⟩).imp ?_
    fun _ _ _ _ h => h
  rintro _ t _ t' ⟨w₁, hw₁, ht⟩
  exact ⟨w₁, hw₁, ht, trivial⟩

lemma condition (hm : Matches S ev ev') {cond : Option Node}
    (h : ∀ e, cond = some e → Visible links e) (w : World) :
    Sim S w links S.leaves (fun _ => Eq) (ev.condition cond) (ev'.condition cond) := by
  cases cond with
  | none => exact .pure rfl
  | some e => exact hm.truth (h e rfl) w

lemma execReturn (hm : Matches S ev ev') {e : Option Node} (h : AllAvoid S e.toList)
    (hf : Fits S routes names links) :
    Sim S w links routes Done (ev.execReturn e) (ev'.execReturn e) := by
  cases e with
  | none => exact .throw (.returned (.same rfl))
  | some e =>
    have he : Visible links e := hf.visible (h e (by simp))
    exact ((hm.eval he w).mono hf.leaves).bind fun _ _ _ _ hx => .throw (.returned hx)

lemma execThrow (hm : Matches S ev ev') {e : Node} (h : Avoids S e)
    (hf : Fits S routes names links) :
    Sim S w links routes Done (ev.execThrow e) (ev'.execThrow e) := by
  refine ((hm.eval (hf.visible h) w).mono hf.leaves).bind fun w₁ x x' _ hx => ?_
  rw [isNull_rel hx]
  exact .ite (fun _ => .lift agree_nullPointer) fun _ => .throw (.failure (.thrown hx))

lemma execLabeled (hm : Matches S ev ev') {l : String} {body body' : Node}
    (hturns : ∀ c, ¬ routes.turns c l)
    (h : Lowers S bound (routes.label l) names (labels ++ [l]) body body')
    (hf : Fits S routes names links) :
    Sim S w links routes Done (ev.execLabeled labels l body) (ev'.execLabeled labels l body') := by
  rw [Evaluator.execLabeled_eq, Evaluator.execLabeled_eq]
  exact (hm.exec h (hf.label l) w).onEnd (fun _ _ _ _ _ => .pure trivial)
    (fun _ _ _ _ he => .labelEnd he hturns) rfl rfl

variable [ev.Steady] [ev'.Steady]

lemma round (hm : Matches S ev ev') {body body' : Node}
    (h : Lowers S bound (routes.loop labels) names [] body body')
    (hf : Fits S (routes.loop labels) names links) (w : World) :
    Sim S w links routes (fun _ => Eq) (ev.round labels body) (ev'.round labels body') := by
  refine hm.tick.bind fun w₁ _ _ _ _ => (hm.runBody h hf w₁).bind fun w₂ b _ _ hb => ?_
  subst hb
  exact .pure rfl

lemma execAll (hm : Matches S ev ev') {ss ss' : List Node}
    (h : List.Forall₂ (Lowers S bound routes names []) ss ss') (hf : Fits S routes names links)
    (w : World) : Sim S w links routes Done (ev.execAll ss) (ev'.execAll ss') := by
  induction h generalizing w with
  | nil => exact .pure trivial
  | cons hd _ ih => exact (hm.exec hd hf w).bind fun w₁ _ _ _ _ => ih w₁

lemma execLocalVar (hm : Matches S ev ev') (type : Node) {ds : List Node} (h : AllAvoid S ds)
    (hds : Declares names ds) (hf : Fits S routes names links) (w : World) :
    Sim S w links routes Done (ev.execLocalVar type ds) (ev'.execLocalVar type ds) := by
  induction ds generalizing w with
  | nil => exact .pure trivial
  | cons d ds ih =>
    have hnext := ih (fun d hd => h d (List.mem_cons_of_mem _ hd))
      fun d hd => hds d (List.mem_cons_of_mem _ hd)
    obtain ⟨t, sh⟩ := d
    cases sh with
    | declarator name dims init =>
      have hinit : ∀ e, init = some e → Visible links e := by
        intro e he
        refine hf.visible ((h _ List.mem_cons_self).child ?_)
        simp [Shape.children, Shape.parts, Part.toList, he]
      refine (Paid.lift (Q := fun _ => Eq) (agree_variableType type dims)).bind
        fun w₁ t _ _ ht => ?_
      subst ht
      refine ((hm.initialValue t hinit w₁).mono hf.leaves).bind fun w₂ x x' _ hx => ?_
      have hadmits : Link.admits name links :=
        hf.admits name (hds _ List.mem_cons_self name dims init rfl)
      exact (Paid.declare hadmits hx _ _).bind fun w₃ _ _ _ _ => hnext w₃
    | _ => exact .lift (.raise _)

lemma execIf (hm : Matches S ev ev') {cond a a' : Node} {b b' : Option Node}
    (hcond : Avoids S cond) (ha : Lowers S bound routes names [] a a')
    (hb : Option.Rel (Lowers S bound routes names []) b b') (hf : Fits S routes names links) :
    Sim S w links routes Done (ev.execIf cond a b) (ev'.execIf cond a' b') := by
  refine (hm.truthIn (hf.visible hcond) hf.leaves w).bind fun w₁ x _ _ hx => ?_
  subst hx
  refine .ite (fun _ => hm.exec ha hf w₁) fun _ => ?_
  cases hb with
  | none => exact .pure trivial
  | some hb => exact hm.exec hb hf w₁

lemma execWhile (hm : Matches S ev ev') {cond body body' : Node} (hcond : Avoids S cond)
    (h : Lowers S bound (routes.loop labels) names [] body body') (hf : Fits S routes names links) :
    Sim S w links routes Done (ev.execWhile labels cond body) (ev'.execWhile labels cond body') := by
  refine hm.rounds fun _ w _ => ?_
  refine (hm.truthIn (hf.visible hcond) hf.leaves w).bind fun w₁ x _ _ hx => ?_
  subst hx
  refine .ite (fun _ => ?_) fun _ => .pure rfl
  exact hm.round h (hf.loop labels) w₁

lemma execDoWhile (hm : Matches S ev ev') {cond body body' : Node} (hcond : Avoids S cond)
    (h : Lowers S bound (routes.loop labels) names [] body body') (hf : Fits S routes names links) :
    Sim S w links routes Done (ev.execDoWhile labels body cond)
      (ev'.execDoWhile labels body' cond) := by
  refine hm.rounds fun _ w _ => ?_
  refine (hm.round h (hf.loop labels) w).bind
    fun w₁ x _ _ hx => ?_
  subst hx
  exact .ite (fun _ => hm.truthIn (hf.visible hcond) hf.leaves w₁) fun _ => .pure rfl

lemma execInit (hm : Matches S ev ev') {es : List Node} (h : AllAvoid S es)
    (hf : Fits S routes (fun _ => True) links) (w : World) :
    Sim S w links routes Done (ev.execInit es) (ev'.execInit es) := by
  induction es generalizing w with
  | nil => exact .pure trivial
  | cons e es ih =>
    have hnext := ih fun e he => h e (List.mem_cons_of_mem _ he)
    have he : Avoids S e := h e List.mem_cons_self
    refine .ite (fun hlocal => ?_) fun _ => ?_
    · obtain ⟨t, sh⟩ := e
      cases sh with
      | localVar mods type ds =>
        have hds : AllAvoid S ds := fun d hd =>
          he.child (by simp [Shape.children, Shape.parts, Part.toList, hd])
        have hsame : Lowers S (fun _ => True) routes (fun _ => True) []
            (.mk t (.localVar mods type ds)) (.mk t (.localVar mods type ds)) :=
          .localVar hds fun _ _ _ _ _ _ => trivial
        exact (hm.exec hsame hf w).bind fun w₁ _ _ _ _ => hnext w₁
      | _ => cases hlocal
    · exact ((hm.eval (hf.visible he) w).mono hf.leaves).bind fun w₁ _ _ _ _ => hnext w₁

lemma evalEach (hm : Matches S ev ev') {es : List Node} (h : ∀ e ∈ es, Visible links e)
    (w : World) : Sim S w links S.leaves Done (ev.evalEach es) (ev'.evalEach es) := by
  induction es generalizing w with
  | nil => exact .pure trivial
  | cons e es ih =>
    refine (hm.eval (h e List.mem_cons_self) w).bind fun w₁ _ _ _ _ => ?_
    exact ih (fun e he => h e (List.mem_cons_of_mem _ he)) w₁

lemma execFor (hm : Matches S ev ev') {init : List Node} {cond : Option Node} {update : List Node}
    {body body' : Node} (hhead : AllAvoid S (init ++ cond.toList ++ update))
    (h : Lowers S bound (routes.loop labels) (fun _ => True) [] body body')
    (hf : Fits S routes names links) :
    Sim S w links routes Done (ev.execFor labels init cond update body)
      (ev'.execFor labels init cond update body') := by
  have hin := hf.opened fun _ => True
  refine .inScope (fun _ => True) .nil (by simp) ?_
  refine (hm.execInit (fun e he => hhead e (by simp [he])) hin w).bind fun w₁ _ _ _ _ => ?_
  refine hm.rounds fun _ w _ => ?_
  refine ((hm.condition (fun e he => hin.visible (hhead e (by simp [he]))) w).mono hf.leaves).bind
    fun w₂ x _ _ hx => ?_
  subst hx
  refine .ite (fun _ => ?_) fun _ => .pure rfl
  refine (hm.round h (hin.loop labels) w₂).bind fun w₃ y _ _ hy => ?_
  subst hy
  refine .ite (fun _ => ?_) fun _ => .pure rfl
  refine ((hm.evalEach (fun e he => hin.visible (hhead e (by simp [he]))) w₃).mono hf.leaves).bind
    fun w₄ _ _ _ _ => .pure rfl

lemma noteForeign (hv : Value.Rel w v v') :
    Sim S w links routes Done (Evaluator.noteForeign v) (Evaluator.noteForeign v') := by
  refine (Paid.lift (Q := Heap.Rel) agree_heap).bind fun w₁ h h' hw hh => ?_
  rw [option_isSome (hh.list? (hv.mono hw)), isNull_rel hv]
  exact .ite (fun _ => .note _) fun _ => .pure trivial

lemma forEachRound (hm : Matches S ev ev') (type name : Node) (hv : Value.Rel w v v')
    {body body' : Node}
    (h : Lowers S bound (routes.loop labels) (fun _ => True) [] body body')
    (hf : Fits S routes names links) (i : Nat) :
    Sim S w links routes (fun _ => Eq) (ev.forEachRound labels type name v body i)
      (ev'.forEachRound labels type name v' body' i) := by
  refine Paid.bind (p := fun _ => ?_) (q := fun _ => ?_) (Paid.lift (Q := Items) (agree_elements hv))
    fun w₁ xs ys _ hxs => ?_
  · split <;> infer_instance
  · split <;> infer_instance
  obtain ⟨hi, hi'⟩ | ⟨x, y, hi, hi', hx⟩ := option_cases (hxs.getElem? i)
  · rw [hi, hi']
    exact .pure rfl
  rw [hi, hi']
  refine hm.tick.bind fun w₂ _ _ hw₂ _ => ?_
  refine (Paid.lift (Q := fun _ => Eq) (agree_faultless (nameOf name))).bind
    fun w₃ n _ hw₃ hn => ?_
  subst hn
  refine (Paid.lift (Q := Value.Rel) (agree_coerceTo type ((hx.mono hw₂).mono hw₃))).bind
    fun w₄ a a' _ ha => ?_
  have hbody := hm.runBody h ((hf.opened fun _ => True).loop labels) w₄
  refine Paid.bind (.inScope (fun _ => True) (.cons ⟨rfl, ha⟩ .nil) (fun _ _ => trivial) hbody)
    fun w₅ b _ _ hb => ?_
  subst hb
  exact .pure rfl

lemma execForEach (hm : Matches S ev ev') (var : Node) {iterable body body' : Node}
    (hiterable : Avoids S iterable)
    (h : Lowers S bound (routes.loop labels) (fun _ => True) [] body body')
    (hf : Fits S routes names links) :
    Sim S w links routes Done (ev.execForEach labels var iterable body)
      (ev'.execForEach labels var iterable body') := by
  have hrest : ∀ w, Sim S w links routes Done (do
      let v ← ev.eval iterable
      Evaluator.noteForeign v
      let _ ← Evaluator.elements v
      let p ← Evaluator.loopVariable var
      ev.rounds (ev.forEachRound labels p.1 p.2 v body)) (do
      let v ← ev'.eval iterable
      Evaluator.noteForeign v
      let _ ← Evaluator.elements v
      let p ← Evaluator.loopVariable var
      ev'.rounds (ev'.forEachRound labels p.1 p.2 v body')) := by
    intro w
    refine ((hm.eval (hf.visible hiterable) w).mono hf.leaves).bind fun w₁ v v' _ hv => ?_
    refine (noteForeign hv).bind fun w₂ _ _ hw₂ _ => ?_
    refine (Paid.lift (Q := Items) (agree_elements (hv.mono hw₂))).bind fun w₃ _ _ hw₃ _ => ?_
    refine (Paid.lift (Q := fun _ => Eq) (agree_loopVariable var)).bind fun w₄ p _ hw₄ hp => ?_
    subst hp
    have hv₄ : Value.Rel w₄ v v' := ((hv.mono hw₂).mono hw₃).mono hw₄
    exact hm.rounds fun i w₅ hw₅ => hm.forEachRound p.1 p.2 (hv₄.mono hw₅) h hf i
  exact .ite (fun _ => (Paid.note _).bind fun w₁ _ _ _ _ => hrest w₁) fun _ => hrest w

inductive Handlers (S : Setting) (bound : String → Prop) (routes : Routes) : Node → Node → Prop
  | handler {t t' mods name types b b'} (h : Lowers S bound routes (fun _ => True) [] b b') :
    Handlers S bound routes (.mk t (.catchClause mods name types b))
      (.mk t' (.catchClause mods name types b'))
  | neither {c c' : Node} (h : ∀ mods name types b, c.shape ≠ .catchClause mods name types b)
      (h' : ∀ mods name types b, c'.shape ≠ .catchClause mods name types b) :
    Handlers S bound routes c c'

lemma handle (hm : Matches S ev ev') {cs cs' : List Node}
    (h : List.Forall₂ (Handlers S bound routes) cs cs') (hv : Value.Rel w v v')
    (hf : Fits S routes names links) :
    Sim S w links routes Done (ev.handle v cs) (ev'.handle v' cs') := by
  induction h generalizing w with
  | nil => exact .throw (.failure (.thrown hv))
  | @cons c c' cs cs' hd _ ih =>
    cases hd with
    | @handler t t' mods name types b b' h =>
      refine (Paid.lift (Q := fun _ => Eq) (agree_anyCatches hv types)).bind fun w₁ x _ hw hx => ?_
      subst hx
      refine .ite (fun _ => ?_) fun _ => ih (hv.mono hw)
      refine .inScope (fun _ => True) (.cons ⟨rfl, hv.mono hw⟩ .nil) (fun _ _ => trivial) ?_
      exact hm.exec h (hf.opened _) w₁
    | neither h h' =>
      obtain ⟨t, sh⟩ := c
      obtain ⟨t', sh'⟩ := c'
      have hraise : ev.handle v (.mk t sh :: cs) = liftM (raise .noSuchPart : StoreM Unit) := by
        cases sh <;> first | rfl | exact absurd rfl (h _ _ _ _)
      have hraise' : ev'.handle v' (.mk t' sh' :: cs') = liftM (raise .noSuchPart : StoreM Unit) := by
        cases sh' <;> first | rfl | exact absurd rfl (h' _ _ _ _)
      rw [hraise, hraise']
      exact .lift (.raise _)

lemma execTry (hm : Matches S ev ev') {body body' : Node} {cs cs' : List Node}
    {last last' : Option Node} (hbody : Lowers S bound routes names [] body body')
    (hcs : List.Forall₂ (Handlers S bound routes) cs cs')
    (hlast : Option.Rel (Lowers S bound routes names []) last last')
    (hf : Fits S routes names links) :
    Sim S w links routes Done (ev.execTry body cs last) (ev'.execTry body' cs' last') := by
  refine .ensuring (fun _ _ _ _ _ h => h) ?_ fun w => ?_
  · rw [Evaluator.execGuarded_eq, Evaluator.execGuarded_eq]
    refine Paid.onEnd (hm.exec hbody hf w)
      (fun _ _ _ _ _ => .pure trivial) (fun w₁ e e' _ he => ?_) rfl rfl
    cases he with
    | breakTo h => exact .throw (.breakTo h)
    | continueTo h => exact .throw (.continueTo h)
    | turned h => exact .throw (.turned h)
    | returned h => exact .throw (.returned h)
    | failure h =>
      cases h with
      | thrown h => exact hm.handle hcs h hf
      | failed e => exact .throw (.failure (.failed e))
      | fault f => exact .throw (.failure (.fault f))
  · cases hlast with
    | none => exact .pure trivial
    | some h => exact hm.exec h hf w

end Matches

end LoopLowering.Machine
