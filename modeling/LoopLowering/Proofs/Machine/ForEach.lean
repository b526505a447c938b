import LoopLowering.Proofs.Machine.ForLoop

/-! A loop over elements and the loop over an iterator that stands for it, in two runs. The iterator
and its variable exist in the second run only. -/

namespace LoopLowering.Machine

open Loops

variable {α β : Type} {S : Setting} {w : World} {links : List Link} {routes : Routes}

namespace World

def withCursor (w : World) (j a i : Nat) : World where
  image := w.image
  pinned := (j, ⟨a, i⟩) :: w.pinned
  lists := a :: w.lists

end World

lemma Related.repin {k : Credit} {s s' : State} (h : Related S w links k s s') {w₁ : World}
    (himage : w₁.image = w.image)
    (hpinned : ∀ x ∈ w₁.pinned, s'.heap.iterators[x.1]? = some x.2 ∧ x.1 ∉ w₁.image)
    (hlists : ∀ i ∈ w₁.lists, (s.heap.objects[i]?.map Object.isList).getD false = true) :
    Related S w₁ links k s s' := by
  have hinitial : w.image <+: w₁.image := himage ▸ List.prefix_rfl
  refine ⟨⟨⟨?_, h.store.heap.complexes, ?_, ?_, ?_, hpinned, hlists⟩, ?_, h.store.out, h.store.err⟩,
    ⟨h.frame.className, h.frame.this, h.frame.scopes.extend hinitial⟩, h.upper, h.lower, h.intact⟩
  · exact h.store.heap.objects.imp fun _ _ => .extend hinitial
  · rw [himage]
    exact h.store.heap.image_length
  · rw [himage]
    exact h.store.heap.image_nodup
  · rw [himage]
    exact h.store.heap.cursor
  · exact h.store.statics.imp fun _ _ hc => ⟨hc.1, hc.2.extend hinitial⟩

lemma Related.forget {k : Credit} {s s' : State} {j a i : Nat}
    (h : Related S (w.withCursor j a i) links k s s') : Related S w links k s s' :=
  h.repin rfl (fun x hx => h.store.heap.pinned x (List.mem_cons_of_mem _ hx))
    fun i hi => h.store.heap.lists i (List.mem_cons_of_mem _ hi)

lemma World.le_withCursor {w w₁ : World} {j a i : Nat} (h : w.withCursor j a i ≤ w₁) :
    ∃ w₂, w ≤ w₂ ∧ w₁ = w₂.withCursor j a i := by
  refine ⟨{ w with image := w₁.image }, ⟨h.1, rfl, rfl⟩, ?_⟩
  obtain ⟨image, pinned, lists⟩ := w₁
  obtain ⟨-, hpinned, hlists⟩ := h
  dsimp only at hpinned hlists
  rw [World.withCursor, ← hpinned, ← hlists]
  rfl

lemma Related.cursor {k : Credit} {s s' : State} {j a i : Nat}
    (h : Related S (w.withCursor j a i) links k s s') :
    s'.heap.iterators[j]? = some ⟨a, i⟩ ∧ j ∉ w.image ∧ ∃ xs ys,
      (Value.ref (.object a)).list? s.heap = some xs ∧
      (Value.ref (.object a)).list? s'.heap = some ys ∧ Items w xs ys := by
  obtain ⟨hcursor, hj⟩ := h.store.heap.pinned (j, ⟨a, i⟩) List.mem_cons_self
  have hlist := h.store.heap.lists a List.mem_cons_self
  have hsome : ((Value.ref (.object a)).list? s.heap).isSome = true := by
    cases ho : s.heap.objects[a]? with
    | none => simp [ho] at hlist
    | some o =>
      have hobject : (Value.ref (.object a)).object? s.heap = some o := ho
      rw [ho] at hlist
      rw [Value.list?, hobject]
      cases o with
      | list xs b => rfl
      | _ => cases hlist
  refine ⟨hcursor, hj, ?_⟩
  have hrel : Value.Rel (w.withCursor j a i) (.ref (.object a)) (.ref (.object a)) := .same rfl
  obtain ⟨hn, -⟩ | ⟨xs, ys, hxs, hys, hitems⟩ := option_cases (h.store.heap.list? hrel)
  · rw [hn] at hsome
    cases hsome
  · have hinitial : (w.withCursor j a i).image <+: w.image := List.prefix_rfl
    exact ⟨xs, ys, hxs, hys, hitems.extend hinitial⟩

def State.moved (st : State) (j : Nat) (c : Cursor) : State :=
  { st with heap := { st.heap with iterators := st.heap.iterators.setIfInBounds j c } }

lemma Related.move {k : Credit} {s s' : State} {j a i : Nat} (hpinned : ∀ x ∈ w.pinned, x.1 ≠ j)
    (h : Related S (w.withCursor j a i) links k s s') :
    Related S (w.withCursor j a (i + 1)) links k s (s'.moved j ⟨a, i + 1⟩) := by
  obtain ⟨hcursor, hj, -⟩ := h.cursor
  have hlt : j < s'.heap.iterators.size := (Array.getElem?_eq_some_iff.mp hcursor).1
  have hmoved : Related S w links k s (s'.moved j ⟨a, i + 1⟩) := by
    have hforget := h.forget
    refine ⟨⟨⟨hforget.store.heap.objects, hforget.store.heap.complexes,
      hforget.store.heap.image_length, hforget.store.heap.image_nodup, ?_, ?_, hforget.store.heap.lists⟩, hforget.store.statics,
      hforget.store.out, hforget.store.err⟩, hforget.frame, hforget.upper, hforget.lower,
      hforget.intact⟩
    · intro i₁ j₁ hij
      have hne : j ≠ j₁ := fun heq => hj (heq ▸ List.mem_of_getElem? hij)
      show (s'.heap.iterators.setIfInBounds j _)[j₁]? = _
      rw [Array.getElem?_setIfInBounds_ne hne]
      exact hforget.store.heap.cursor i₁ j₁ hij
    · intro x hx
      obtain ⟨hold, hmem⟩ := hforget.store.heap.pinned x hx
      refine ⟨?_, hmem⟩
      show (s'.heap.iterators.setIfInBounds j _)[x.1]? = _
      rw [Array.getElem?_setIfInBounds_ne (hpinned x hx).symm]
      exact hold
  refine hmoved.repin rfl (fun x hx => ?_) h.store.heap.lists
  rcases List.mem_cons.mp hx with rfl | hx
  · refine ⟨?_, hj⟩
    show (s'.heap.iterators.setIfInBounds j _)[j]? = _
    simp [hlt]
  · exact hmoved.store.heap.pinned x hx

section

variable (p : Program) (limit : Int)

lemma evalName_of_scopesValue (ev : Evaluator) {st : State} {x : String} {v : Value}
    (h : scopesValue st.frame.scopes x = some v) : ev.evalName x st = .ok v st := by
  have hvalue : (st.resolve x).bind (st.valueOf x) = some v := by
    have hsome : (st.frame.scopes.findIdx? fun bs => (bs.lookup x).isSome).isSome = true := by
      rw [findIdx?_isSome, h]
      rfl
    obtain ⟨d, hd⟩ := Option.isSome_iff_exists.mp hsome
    have heq := scopesValue_eq st.frame.scopes x
    rw [hd, h] at heq
    rw [State.resolve, hd]
    exact heq
  exact ev.evalName_of_value hvalue

lemma eval_iteratorCall {st : State} {x : String} {j : Nat} {c : Cursor}
    (hx : scopesValue st.frame.scopes (iteratorName x) = some (.ref (.iterator j)))
    (hc : st.heap.iterators[j]? = some c) (method : String) (d : Nat) :
    (evaluatorAt p limit d).eval (iteratorCall x method) st =
      if d < 2 then .error .exhausted st
      else (liftM (callIterator j c method []) : Exec Value) st := by
  rcases d with _ | _ | d
  · rfl
  · rfl
  · have hname : (evaluatorAt p limit (d + 1)).eval (.plain (.ident (iteratorName x))) st =
        .ok (.ref (.iterator j)) st := evalName_of_scopesValue (evaluatorAt p limit d) hx
    have hobject : (Value.ref (.iterator j)).object? st.heap =
        some (.iterator c.list c.position) := by
      show st.heap.iterators[j]?.map _ = _
      rw [hc]
      rfl
    have hfound : (evaluatorAt p limit (d + 1)).callFound st.heap (.ref (.iterator j)) method [] =
        liftM (callMethod (.ref (.iterator j)) method []) := by
      unfold Evaluator.callFound
      rw [hobject]
    have hmethod : callMethod (.ref (.iterator j)) method [] st.toStore =
        callIterator j c method [] st.toStore := by
      simp only [callMethod, heap_bind, hc]
    rw [if_neg (by omega)]
    show (EStateM.bind ((evaluatorAt p limit (d + 1)).eval (.plain (.ident (iteratorName x))))
      fun v => (evaluatorAt p limit (d + 1)).callOn v method []) st = _
    rw [EStateM.bind, hname]
    show (evaluatorAt p limit (d + 1)).callFound st.heap (.ref (.iterator j)) method [] st = _
    rw [hfound, liftM_apply, liftM_apply, hmethod]

lemma truth_hasNext {st : State} {x : String} {j a i : Nat} {ys : Array Value}
    (hx : scopesValue st.frame.scopes (iteratorName x) = some (.ref (.iterator j)))
    (hc : st.heap.iterators[j]? = some ⟨a, i⟩)
    (hys : (Value.ref (.object a)).list? st.heap = some ys) (d : Nat) :
    (evaluatorAt p limit d).truth (iteratorCall x "hasNext") st =
      if d < 2 then .error .exhausted st else .ok (decide (i < ys.size)) st := by
  show (EStateM.bind ((evaluatorAt p limit d).eval (iteratorCall x "hasNext")) fun v => _) st = _
  rw [EStateM.bind, eval_iteratorCall p limit hx hc]
  by_cases hd : d < 2
  · rw [if_pos hd, if_pos hd]
  · have hnext : callIterator j ⟨a, i⟩ "hasNext" [] st.toStore =
        .ok (.bool (decide (i < ys.size))) st.toStore := by
      simp only [callIterator, heap_bind, hys]
      rfl
    rw [if_neg hd, if_neg hd, liftM_apply, hnext]
    rfl

lemma eval_next {st : State} {x : String} {j a i : Nat} {ys : Array Value} {y : Value}
    (hx : scopesValue st.frame.scopes (iteratorName x) = some (.ref (.iterator j)))
    (hc : st.heap.iterators[j]? = some ⟨a, i⟩)
    (hys : (Value.ref (.object a)).list? st.heap = some ys) (hy : ys[i]? = some y) (d : Nat) :
    (evaluatorAt p limit d).eval (iteratorCall x "next") st =
      if d < 2 then .error .exhausted st else .ok y (st.moved j ⟨a, i + 1⟩) := by
  rw [eval_iteratorCall p limit hx hc]
  split
  · rfl
  · have hnext : callIterator j ⟨a, i⟩ "next" [] st.toStore =
        .ok y (st.moved j ⟨a, i + 1⟩).toStore := by
      simp only [callIterator, heap_bind, hys, Option.getD_some, hy]
      rfl
    rw [liftM_apply, hnext]
    rfl

def elementOf (type : Node) (v : Value) : Except Fault Value := do (← typeInfo type).coerce v

def elementVariable (type : Node) (x : String) (v : Value) : Variable :=
  ⟨x, v, (typeInfo type).toOption, false⟩

lemma inScope_next {st : State} {x : String} {j a i : Nat} {ys : Array Value} {y : Value}
    (hx : scopesValue st.frame.scopes (iteratorName x) = some (.ref (.iterator j)))
    (hc : st.heap.iterators[j]? = some ⟨a, i⟩)
    (hys : (Value.ref (.object a)).list? st.heap = some ys) (hy : ys[i]? = some y) (d : Nat)
    (type : Node) (next : Exec β) {g : Signal → Exec β} (hg : Neutral g) :
    inScope [] (onEnd ((evaluatorAt p limit d).execLocalVar type
      [.plain (.declarator x 0 (some (iteratorCall x "next")))]) (fun _ => next) g) st =
    if d < 2 then
      .error .exhausted { st with frame := { st.frame with scopes := [] :: st.frame.scopes } }
    else match elementOf type y with
      | .ok v => inScope [elementVariable type x v] next (st.moved j ⟨a, i + 1⟩)
      | .error f => .error (.fault f) (st.moved j ⟨a, i + 1⟩) := by
  obtain ⟨st₁, hst₁⟩ : ∃ st₁, st₁ = ({ st with frame := { st.frame with
    scopes := [] :: st.frame.scopes } } : State) := ⟨_, rfl⟩
  have hx₁ : scopesValue st₁.frame.scopes (iteratorName x) = some (.ref (.iterator j)) := by
    rw [hst₁]
    exact hx
  have hc₁ : st₁.heap.iterators[j]? = some ⟨a, i⟩ := by rw [hst₁]; exact hc
  have hys₁ : (Value.ref (.object a)).list? st₁.heap = some ys := by rw [hst₁]; exact hys
  have heval := eval_next p limit hx₁ hc₁ hys₁ hy d
  have hlocal : (evaluatorAt p limit d).execLocalVar type
      [.plain (.declarator x 0 (some (iteratorCall x "next")))] st₁ =
      if d < 2 then .error .exhausted st₁
      else match elementOf type y with
        | .ok v => declare x v (typeInfo type).toOption (st₁.moved j ⟨a, i + 1⟩)
        | .error f => .error (.fault f) (st₁.moved j ⟨a, i + 1⟩) := by
    show (EStateM.bind (EStateM.bind ((evaluatorAt p limit d).eval (iteratorCall x "next"))
      fun v => liftM (faultless (elementOf type v)))
        fun v => (do declare x v (typeInfo type).toOption; pure ())) st₁ = _
    rw [EStateM.bind, EStateM.bind, heval]
    by_cases hd : d < 2
    · rw [if_pos hd, if_pos hd]
    · rw [if_neg hd, if_neg hd]
      dsimp only
      cases elementOf type y with
      | ok v =>
        rw [hst₁]
        rfl
      | error f => rfl
  show ensuring (onEnd _ _ _) popScope { st with frame := { st.frame with
    scopes := [] :: st.frame.scopes } } = _
  rw [← hst₁, ensuring_eq, onEnd_onEnd]
  unfold onEnd
  rw [hlocal]
  by_cases hd : d < 2
  · rw [if_pos hd, if_pos hd]
    dsimp only
    rw [hg.exhausted]
    rfl
  · rw [if_neg hd, if_neg hd]
    cases elementOf type y with
    | ok v =>
      have hdeclare : declare x v (typeInfo type).toOption (st₁.moved j ⟨a, i + 1⟩) =
          .ok () { st.moved j ⟨a, i + 1⟩ with
            frame := { st.frame with
              scopes := [elementVariable type x v] :: st.frame.scopes } } := by
        rw [hst₁]
        rfl
      dsimp only
      rw [hdeclare]
      show _ = ensuring next popScope _
      rw [ensuring_eq]
      rfl
    | error f =>
      dsimp only
      rw [hg.fault, hst₁]
      rfl

end

def PopsTo (S : Setting) (w : World) (links : List Link) (k : Credit) (t t' : State) : Prop :=
  ∃ bs tl bs' tl', t.frame.scopes = bs :: tl ∧ t'.frame.scopes = bs' :: tl' ∧
    Related S w links k { t with frame := { t.frame with scopes := tl } }
      { t' with frame := { t'.frame with scopes := tl' } }

lemma Related.pop_merged {k : Credit} {t t' : State}
    (h : Related S w (.merged :: links) k t t') : ∃ bs tl, t.frame.scopes = bs :: tl ∧
      PopsTo S w links k { t with frame := { t.frame with scopes := tl } } t' := by
  have hscopes := h.frame.scopes
  generalize hss : t.frame.scopes = ss at hscopes
  generalize hss' : t'.frame.scopes = ss' at hscopes
  cases hscopes with
  | merged _ rest => exact ⟨_, _, rfl, _, _, _, _, rfl, hss', h.withScopes rest⟩

lemma Paid.inMerged {pre post : Credit} {Q : World → α → β → Prop} {c : Exec α} {c' : Exec β}
    {bs bs' : Bindings} (hbs : bs.Rel w bs')
    (h : Paid S w (.merged :: links) routes pre post Q c c') :
    Paid S w links routes pre post Q (Machine.inScope bs (Machine.inScope [] c))
      (Machine.inScope bs' c') := by
  intro k s s' hs
  have hstart : Related S w (.merged :: links) (k + pre)
      { s with frame := { s.frame with scopes := [] :: bs :: s.frame.scopes } }
      { s' with frame := { s'.frame with scopes := bs' :: s'.frame.scopes } } :=
    hs.withScopes (.merged (fun n => hbs.lookup n) hs.frame.scopes)
  have hinner : Meets S (fun a t b t' => ∃ w₁, w ≤ w₁ ∧ PopsTo S w₁ links (k + post) t t' ∧ Q w₁ a b)
      (fun e t e' t' => ∃ w₁, w ≤ w₁ ∧ PopsTo S w₁ links k t t' ∧ Signal.Rel routes w₁ e e')
      (Machine.inScope [] c { s with frame := { s.frame with scopes := bs :: s.frame.scopes } })
      (c' { s' with frame := { s'.frame with scopes := bs' :: s'.frame.scopes } }) := by
    show Meets S _ _ (Machine.ensuring c popScope _) _
    rw [ensuring_eq, ← onEnd_pure_throw c']
    refine (h k _ _ hstart).onEnd ?_ ?_ inferInstance inferInstance inferInstance inferInstance
      (passes_of_eq rfl) (passes_of_eq rfl)
    · rintro a t b t' ⟨w₁, hw, ht, hq⟩
      obtain ⟨bs, tl, htop, hpops⟩ := ht.pop_merged
      rw [popScope_bind htop]
      exact .ok ⟨w₁, hw, hpops, hq⟩
    · rintro e t e' t' ⟨w₁, hw, ht, he⟩
      obtain ⟨bs, tl, htop, hpops⟩ := ht.pop_merged
      rw [lastly_eq _ he.ne_exhausted.1, popScope_bind htop]
      exact .error ⟨w₁, hw, hpops, he⟩
  show Meets S _ _ (Machine.ensuring (Machine.inScope [] c) popScope _)
    (Machine.ensuring c' popScope _)
  rw [ensuring_eq, ensuring_eq]
  refine hinner.onEnd ?_ ?_ inferInstance inferInstance inferInstance inferInstance
    (passes_of_eq rfl) (passes_of_eq rfl)
  · rintro a t b t' ⟨w₁, hw, ⟨_, _, _, _, htop, htop', ht⟩, hq⟩
    rw [popScope_bind htop, popScope_bind htop']
    exact .ok ⟨w₁, hw, ht, hq⟩
  · rintro e t e' t' ⟨w₁, hw, ⟨_, _, _, _, htop, htop', ht⟩, he⟩
    rw [lastly_eq _ he.ne_exhausted.1, lastly_eq _ he.ne_exhausted.2, popScope_bind htop,
      popScope_bind htop']
    exact .error ⟨w₁, hw, ht, he⟩

lemma forEachRound_apply (ev : Evaluator) (labels : List String) (type body : Node) (td : Tag)
    (x : String) {a i : Nat} {st : State} {xs : Array Value}
    (hxs : (Value.ref (.object a)).list? st.heap = some xs) :
    ev.forEachRound labels type (.mk td (.declarator x 0 none)) (.ref (.object a)) body i st =
      match xs[i]? with
      | none => .ok false st
      | some v => (do
          ev.tick
          let v ← faultless (elementOf type v)
          inScope [elementVariable type x v] (ev.bodyThen labels (pure ()) body) : Exec Bool)
            st := by
  have hscope : ∀ bs, (do return !(← inScope bs (ev.runBody labels body))) =
      inScope bs (ev.bodyThen labels (pure ()) body) := by
    intro bs
    have hgo : goOn (pure ()) = fun b => pure !b := by
      funext b
      cases b <;> rfl
    rw [Evaluator.bodyThen_eq, bind_eq_onEnd, bind_eq_onEnd, hgo]
    exact onEnd_inScope bs (ev.runBody labels body) not neutral_throw
  have helements : Evaluator.elements (.ref (.object a)) st.toStore = .ok xs st.toStore := by
    unfold Evaluator.elements
    rw [heap_bind, hxs]
    rfl
  unfold Evaluator.forEachRound
  simp only [hscope]
  show EStateM.bind (liftM (Evaluator.elements (.ref (.object a)))) _ st = _
  rw [EStateM.bind, liftM_apply, helements]
  dsimp only
  cases xs[i]? <;> rfl

end LoopLowering.Machine
