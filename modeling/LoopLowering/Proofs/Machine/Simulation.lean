import LoopLowering.Proofs.Machine.Growth
import LoopLowering.Proofs.Machine.Scope
import Mathlib.Algebra.Group.Prod
import Mathlib.Algebra.GroupWithZero.Nat
import Mathlib.Algebra.Order.Group.Nat
import Mathlib.Algebra.Order.Monoid.Prod
import Mathlib.Order.Lattice

/-! Two runs side by side. Related computations start in related states and end in the same way, in
related states again, unless one of the runs is stopped by its bounds. The second run may count
other numbers of steps; a ledger keeps the two counts within a factor of each other. -/

namespace LoopLowering.Machine

variable {α β γ δ : Type}

structure Routes where
  breaks : Option String → Prop := fun _ => False
  stays : Option String → Prop := fun _ => False
  turns : Option String → String → Prop := fun _ _ => False

instance : Preorder Routes where
  le r r₁ := (∀ l, r.breaks l → r₁.breaks l) ∧ (∀ l, r.stays l → r₁.stays l) ∧
    ∀ l m, r.turns l m → r₁.turns l m
  le_refl _ := ⟨fun _ h => h, fun _ h => h, fun _ _ h => h⟩
  le_trans _ _ _ h₁ h₂ := ⟨fun l h => h₂.1 l (h₁.1 l h), fun l h => h₂.2.1 l (h₁.2.1 l h),
    fun l m h => h₂.2.2 l m (h₁.2.2 l m h)⟩

inductive Signal.Rel (routes : Routes) (w : World) : Signal → Signal → Prop
  | breakTo {l : Option String} (h : routes.breaks l) : Rel routes w (.breakTo l) (.breakTo l)
  | continueTo {l : Option String} (h : routes.stays l) :
    Rel routes w (.continueTo l) (.continueTo l)
  | turned {l : Option String} {m : String} (h : routes.turns l m) :
    Rel routes w (.continueTo l) (.breakTo (some m))
  | returned {v v' : Value} (h : Value.Rel w v v') : Rel routes w (.returned v) (.returned v')
  | failure {e e' : Signal} (h : Failure w e e') : Rel routes w e e'

lemma Signal.Rel.mono {r r₁ : Routes} (hr : r ≤ r₁) {w : World} {e e' : Signal}
    (h : Signal.Rel r w e e') : Signal.Rel r₁ w e e' := by
  cases h with
  | breakTo h => exact .breakTo (hr.1 _ h)
  | continueTo h => exact .continueTo (hr.2.1 _ h)
  | turned h => exact .turned (hr.2.2 _ _ h)
  | returned h => exact .returned h
  | failure h => exact .failure h

lemma Signal.Rel.extend {routes : Routes} {w w₁ : World} (hw : w.image <+: w₁.image)
    {e e' : Signal} (h : Signal.Rel routes w e e') : Signal.Rel routes w₁ e e' := by
  cases h with
  | breakTo h => exact .breakTo h
  | continueTo h => exact .continueTo h
  | turned h => exact .turned h
  | returned h => exact .returned (h.extend hw)
  | failure h =>
    cases h with
    | thrown h => exact .failure (.thrown (h.extend hw))
    | failed e => exact .failure (.failed e)
    | fault f => exact .failure (.fault f)

/-- What two runs are compared under: the bounds on their steps, and by what factor the second may
count more. In a strict comparison the second bound leaves room for that, in a tight one the second
run counts no fewer steps. Runs with forbidden incidents are not compared. -/
structure Setting where
  limit : Int
  limit' : Int
  factor : Nat
  strict : Bool
  tight : Bool
  forbidden : Incident → Bool
  leaves : Routes
  reserved : String → Prop
  one_le_factor : 1 ≤ factor
  limit_le : strict = true → factor * limit ≤ limit'
  leaves_turns : ∀ l m, ¬ leaves.turns l m
  forbids_creation : forbidden .brokenCreation = true
  forbids_binding : forbidden .brokenBinding = true

def spent (limit : Int) (st : State) : Prop := 0 < st.steps ∧ limit < st.steps

def Stopped (lost : State → Prop) : EStateM.Result Signal State α → Prop
  | .ok _ st => lost st
  | .error e st => e = .exhausted ∨ lost st

lemma spent_mono {limit : Int} {s t : State} (h : s.trace ≤ t.trace) (hs : spent limit s) :
    spent limit t := by
  have hsteps : s.steps ≤ t.steps := h.1
  unfold spent at *
  omega

lemma Stopped.of_lost {lost : State → Prop} {r : EStateM.Result Signal State α}
    (h : lost (finalState r)) : Stopped lost r := by
  cases r with
  | ok a st => exact h
  | error e st => exact .inr h

def Passes (g : Signal → Exec α) : Prop := ∀ t, ∃ u, g .exhausted t = .error .exhausted u

lemma passes_of_eq {g : Signal → Exec α} (h : g .exhausted = throw .exhausted) : Passes g :=
  fun t => ⟨t, by rw [h]; rfl⟩

lemma Stopped.onEnd {lost : State → Prop} (hlost : ∀ s t, s.trace ≤ t.trace → lost s → lost t)
    {c : Exec α} {f : α → Exec β} {g : Signal → Exec β} (hf : ∀ a, Steady (f a))
    (hg : ∀ e, Steady (g e)) (hx : Passes g) {s : State}
    (h : Stopped lost (c s)) : Stopped lost (onEnd c f g s) := by
  unfold Machine.onEnd
  generalize c s = r at h ⊢
  cases r with
  | ok a t => exact .of_lost (hlost _ _ ((hf a).trace_le t) h)
  | error e t =>
    rcases h with rfl | h
    · obtain ⟨u, hu⟩ := hx t
      show Stopped lost (g .exhausted t)
      rw [hu]
      exact .inl rfl
    · exact .of_lost (hlost _ _ ((hg e).trace_le t) h)

namespace Setting

variable (S : Setting)

def Lost (st : State) : Prop := spent S.limit st ∨ ∃ i ∈ st.incidents, S.forbidden i = true

lemma lost_mono {s t : State} (h : s.trace ≤ t.trace) (hs : S.Lost s) : S.Lost t := by
  rcases hs with hs | ⟨i, hi, hf⟩
  · exact .inl (spent_mono h hs)
  · exact .inr ⟨i, h.2.1.subset hi, hf⟩

end Setting

structure Frame.Rel (w : World) (links : List Link) (f f' : Frame) : Prop where
  className : f'.className = f.className
  this : f'.this = f.this
  scopes : Aligned w links f.scopes f'.scopes

lemma Frame.Rel.mono {w w₁ : World} (hw : w ≤ w₁) {links : List Link} {f f' : Frame}
    (h : Frame.Rel w links f f') : Frame.Rel w₁ links f f' := { h with scopes := h.scopes.extend hw.1 }

/-- The steps in hand: how many the second run may still count, and the first. -/
abbrev Credit := Nat × Nat

structure Related (S : Setting) (w : World) (links : List Link) (k : Credit) (s s' : State) :
    Prop where
  store : Store.Rel w s.toStore s'.toStore
  frame : Frame.Rel w links s.frame s'.frame
  upper : s'.steps + k.1 ≤ S.factor * s.steps
  lower : S.tight = true → s.steps + k.2 ≤ s'.steps
  intact : ¬ S.Lost s

/-- The ends of two runs: one of them was stopped, or both ended in the same way. -/
inductive Meets (S : Setting) (ok : α → State → β → State → Prop)
    (err : Signal → State → Signal → State → Prop) :
    EStateM.Result Signal State α → EStateM.Result Signal State β → Prop
  | first {r : EStateM.Result Signal State α} {r' : EStateM.Result Signal State β}
      (h : Stopped S.Lost r) : Meets S ok err r r'
  | second {r : EStateM.Result Signal State α} {r' : EStateM.Result Signal State β}
      (hs : S.strict = false) (h : Stopped (spent S.limit') r') : Meets S ok err r r'
  | ok {a : α} {b : β} {s s' : State} (h : ok a s b s') : Meets S ok err (.ok a s) (.ok b s')
  | error {e e' : Signal} {s s' : State} (h : err e s e' s') :
    Meets S ok err (.error e s) (.error e' s')

section

variable {S : Setting} {w : World} {links : List Link} {routes : Routes}

lemma Meets.onEnd {ok : α → State → β → State → Prop} {ok₁ : γ → State → δ → State → Prop}
    {err err₁ : Signal → State → Signal → State → Prop} {c : Exec α} {c' : Exec β}
    {f : α → Exec γ} {f' : β → Exec δ} {g : Signal → Exec γ} {g' : Signal → Exec δ} {s s' : State}
    (h : Meets S ok err (c s) (c' s'))
    (hok : ∀ a t b t', ok a t b t' → Meets S ok₁ err₁ (f a t) (f' b t'))
    (herr : ∀ e t e' t', err e t e' t' → Meets S ok₁ err₁ (g e t) (g' e' t'))
    (hf : ∀ a, Steady (f a)) (hf' : ∀ b, Steady (f' b)) (hg : ∀ e, Steady (g e))
    (hg' : ∀ e, Steady (g' e)) (hx : Passes g) (hx' : Passes g') :
    Meets S ok₁ err₁ (onEnd c f g s) (Machine.onEnd c' f' g' s') := by
  generalize hr : c s = r at h
  generalize hr' : c' s' = r' at h
  cases h with
  | first h => exact .first (.onEnd (fun _ _ => S.lost_mono) hf hg hx (hr ▸ h))
  | second hs h => exact .second hs (.onEnd (fun _ _ => spent_mono) hf' hg' hx' (hr' ▸ h))
  | ok h =>
    unfold Machine.onEnd
    rw [hr, hr']
    exact hok _ _ _ _ h
  | error h =>
    unfold Machine.onEnd
    rw [hr, hr']
    exact herr _ _ _ _ h

lemma Meets.imp {ok ok₁ : α → State → β → State → Prop}
    {err err₁ : Signal → State → Signal → State → Prop}
    {r : EStateM.Result Signal State α} {r' : EStateM.Result Signal State β}
    (h : Meets S ok err r r') (hok : ∀ a t b t', ok a t b t' → ok₁ a t b t')
    (herr : ∀ e t e' t', err e t e' t' → err₁ e t e' t') : Meets S ok₁ err₁ r r' := by
  cases h with
  | first h => exact .first h
  | second hs h => exact .second hs h
  | ok h => exact .ok (hok _ _ _ _ h)
  | error h => exact .error (herr _ _ _ _ h)

def Returns (S : Setting) (w : World) (links : List Link) (k : Credit)
    (Q : World → α → β → Prop) : α → State → β → State → Prop := fun a t b t' =>
  ∃ w₁, w ≤ w₁ ∧ Related S w₁ links k t t' ∧ Q w₁ a b

def Fails (S : Setting) (w : World) (links : List Link) (k : Credit) (routes : Routes) :
    Signal → State → Signal → State → Prop := fun e t e' t' =>
  ∃ w₁, w ≤ w₁ ∧ Related S w₁ links k t t' ∧ Signal.Rel routes w₁ e e'

lemma Meets.earlier {w₁ : World} {k k₁ : Credit} {Q : World → α → β → Prop}
    {r : EStateM.Result Signal State α} {r' : EStateM.Result Signal State β}
    (h : Meets S (Returns S w₁ links k Q) (Fails S w₁ links k₁ routes) r r') (hw : w ≤ w₁) :
    Meets S (Returns S w links k Q) (Fails S w links k₁ routes) r r' :=
  h.imp (fun _ _ _ _ ⟨w₂, hw₂, h⟩ => ⟨w₂, hw.trans hw₂, h⟩)
    fun _ _ _ _ ⟨w₂, hw₂, h⟩ => ⟨w₂, hw.trans hw₂, h⟩

def Paid (S : Setting) (w : World) (links : List Link) (routes : Routes) (pre post : Credit)
    (Q : World → α → β → Prop) (c : Exec α) (c' : Exec β) : Prop :=
  ∀ k s s', Related S w links (k + pre) s s' →
    Meets S (Returns S w links (k + post) Q) (Fails S w links k routes) (c s) (c' s')

abbrev Sim (S : Setting) (w : World) (links : List Link) (routes : Routes)
    (Q : World → α → β → Prop) (c : Exec α) (c' : Exec β) : Prop :=
  Paid S w links routes 0 0 Q c c'

def Done : World → α → β → Prop := fun _ _ _ => True

namespace Related

variable {k k₁ : Credit} {s s' : State}

lemma credit (h : Related S w links k s s') (hk : k₁ ≤ k) : Related S w links k₁ s s' where
  __ := h
  upper := by
    have := h.upper
    have := hk.1
    omega
  lower ht := by
    have := h.lower ht
    have := hk.2
    omega

lemma withFrame (h : Related S w links k s s') {links₁ : List Link} {f f' : Frame}
    (hf : Frame.Rel w links₁ f f') :
    Related S w links₁ k { s with frame := f } { s' with frame := f' } where
  store := h.store
  frame := hf
  upper := h.upper
  lower := h.lower
  intact := h.intact

lemma withScopes (h : Related S w links k s s') {links₁ : List Link} {ss ss' : List Bindings}
    (hss : Aligned w links₁ ss ss') :
    Related S w links₁ k { s with frame := { s.frame with scopes := ss } }
      { s' with frame := { s'.frame with scopes := ss' } } :=
  h.withFrame ⟨h.frame.className, h.frame.this, hss⟩

lemma withStore (h : Related S w links k s s') {w₁ : World} (hw : w ≤ w₁) {st st' : Store}
    (hst : Store.Rel w₁ st st') :
    Related S w₁ links k { s with toStore := st } { s' with toStore := st' } where
  store := hst
  frame := h.frame.mono hw
  upper := h.upper
  lower := h.lower
  intact := h.intact

lemma lift {Q : World → α → β → Prop} {pre : Credit} (h : Related S w links (k + pre) s s')
    {c : StoreM α} {c' : StoreM β} (hends : Ends w (Q w) (c s.toStore) (c' s'.toStore)) :
    Meets S (Returns S w links (k + pre) Q) (Fails S w links k routes) ((liftM c : Exec α) s)
      ((liftM c' : Exec β) s') := by
  rw [liftM_apply, liftM_apply]
  generalize c s.toStore = r at hends ⊢
  generalize c' s'.toStore = r' at hends ⊢
  cases hends with
  | ok hst hq => exact .ok ⟨w, le_rfl, h.withStore le_rfl hst, hq⟩
  | error hst he =>
    exact .error ⟨w, le_rfl, (h.withStore le_rfl hst).credit le_self_add, .failure he⟩
  | exhausted => exact .first (.inl rfl)

end Related

namespace Paid

variable {pre mid post : Credit} {Q : World → α → β → Prop} {R : World → γ → δ → Prop}
  {c : Exec α} {c' : Exec β}

lemma mono {routes₁ : Routes} (h : Paid S w links routes pre post Q c c')
    (hr : routes ≤ routes₁) : Paid S w links routes₁ pre post Q c c' :=
  fun k s s' hs => (h k s s' hs).imp (fun _ _ _ _ h => h)
    fun _ _ _ _ ⟨w₁, hw, hs, he⟩ => ⟨w₁, hw, hs, he.mono hr⟩

lemma imp {Q₁ : World → α → β → Prop} (h : Paid S w links routes pre post Q c c')
    (hQ : ∀ w₁ a b, w ≤ w₁ → Q w₁ a b → Q₁ w₁ a b) : Paid S w links routes pre post Q₁ c c' :=
  fun k s s' hs => (h k s s' hs).imp
    (fun _ _ _ _ ⟨w₁, hw, hs, hq⟩ => ⟨w₁, hw, hs, hQ w₁ _ _ hw hq⟩) fun _ _ _ _ h => h

lemma done (h : Paid S w links routes pre post Q c c') : Paid S w links routes pre post Done c c' :=
  h.imp fun _ _ _ _ _ => trivial

lemma weaken {pre₁ post₁ : Credit} (h : Paid S w links routes pre post Q c c') (hpre : pre ≤ pre₁)
    (hpost : post₁ ≤ post) : Paid S w links routes pre₁ post₁ Q c c' :=
  fun k s s' hs => (h k s s' (hs.credit (add_le_add_right hpre k))).imp
    (fun _ _ _ _ ⟨w₁, hw, hs, hq⟩ => ⟨w₁, hw, hs.credit (add_le_add_right hpost k), hq⟩)
    fun _ _ _ _ h => h

lemma extend (h : Paid S w links routes pre post Q c c') (x : Credit) :
    Paid S w links routes (pre + x) (post + x) Q c c' := by
  intro k s s' hs
  have heq : ∀ y : Credit, k + (y + x) = k + x + y := fun y => by
    rw [add_comm y x, add_assoc]
  rw [heq] at hs ⊢
  refine (h (k + x) s s' hs).imp (fun _ _ _ _ h => h) fun _ _ _ _ ⟨w₁, hw, hs, he⟩ => ?_
  exact ⟨w₁, hw, hs.credit le_self_add, he⟩

lemma pure {a : α} {b : β} (h : Q w a b) :
    Paid S w links routes pre pre Q (pure a) (pure b) :=
  fun _ _ _ hs => .ok ⟨w, le_rfl, hs, h⟩

lemma throw {e e' : Signal} (h : Signal.Rel routes w e e') :
    Paid S w links routes pre post Q (throw e : Exec α) (throw e' : Exec β) :=
  fun _ _ _ hs => .error ⟨w, le_rfl, hs.credit le_self_add, h⟩

lemma bind {f : α → Exec γ} {f' : β → Exec δ} [p : ∀ a, Steady (f a)] [q : ∀ b, Steady (f' b)]
    (h : Paid S w links routes pre mid Q c c')
    (hnext : ∀ w₁ a b, w ≤ w₁ → Q w₁ a b → Paid S w₁ links routes mid post R (f a) (f' b)) :
    Paid S w links routes pre post R (c >>= f) (c' >>= f') := by
  intro k s s' hs
  rw [bind_eq_onEnd, bind_eq_onEnd]
  refine (h k s s' hs).onEnd ?_ ?_ p q Steady.instThrow Steady.instThrow
    (passes_of_eq rfl) (passes_of_eq rfl)
  · rintro a t b t' ⟨w₁, hw, ht, hq⟩
    exact (hnext w₁ a b hw hq k t t' ht).earlier hw
  · exact fun _ _ _ _ h => .error h

lemma onEndWith (x : Credit) {f : α → Exec γ} {f' : β → Exec δ} {g : Signal → Exec γ}
    {g' : Signal → Exec δ} {routes₁ : Routes} [p : ∀ a, Steady (f a)] [q : ∀ b, Steady (f' b)]
    [m : ∀ e, Steady (g e)] [n : ∀ e, Steady (g' e)] (h : Paid S w links routes pre mid Q c c')
    (hnext : ∀ w₁ a b, w ≤ w₁ → Q w₁ a b → Paid S w₁ links routes₁ (x + mid) post R (f a) (f' b))
    (hfail : ∀ w₁ e e', w ≤ w₁ → Signal.Rel routes w₁ e e' →
      Paid S w₁ links routes₁ x post R (g e) (g' e'))
    (hx : g .exhausted = MonadExcept.throw .exhausted)
    (hx' : g' .exhausted = MonadExcept.throw .exhausted) :
    Paid S w links routes₁ (x + pre) post R (onEnd c f g) (Machine.onEnd c' f' g') := by
  intro k s s' hs
  rw [← add_assoc] at hs
  refine (h (k + x) s s' hs).onEnd ?_ ?_ p q m n (passes_of_eq hx) (passes_of_eq hx')
  · rintro a t b t' ⟨w₁, hw, ht, hq⟩
    rw [add_assoc] at ht
    exact (hnext w₁ a b hw hq k t t' ht).earlier hw
  · rintro e t e' t' ⟨w₁, hw, ht, he⟩
    exact (hfail w₁ e e' hw he k t t' ht).earlier hw

lemma onEnd {f : α → Exec γ} {f' : β → Exec δ} {g : Signal → Exec γ} {g' : Signal → Exec δ}
    {routes₁ : Routes} [∀ a, Steady (f a)] [∀ b, Steady (f' b)] [m : ∀ e, Steady (g e)]
    [n : ∀ e, Steady (g' e)] (h : Paid S w links routes pre mid Q c c')
    (hnext : ∀ w₁ a b, w ≤ w₁ → Q w₁ a b → Paid S w₁ links routes₁ mid post R (f a) (f' b))
    (hfail : ∀ w₁ e e', w ≤ w₁ → Signal.Rel routes w₁ e e' →
      Paid S w₁ links routes₁ 0 post R (g e) (g' e'))
    (hx : g .exhausted = MonadExcept.throw .exhausted)
    (hx' : g' .exhausted = MonadExcept.throw .exhausted) :
    Paid S w links routes₁ pre post R (onEnd c f g) (Machine.onEnd c' f' g') := by
  have hkeep := h.onEndWith 0 (fun w₁ a b hw hq => by rw [zero_add]; exact hnext w₁ a b hw hq)
    hfail hx hx'
  rwa [zero_add] at hkeep

lemma onEndHolding {f : α → Exec γ} {f' : β → Exec δ} {g : Signal → Exec γ} {g' : Signal → Exec δ}
    {routes₁ : Routes} [∀ a, Steady (f a)] [∀ b, Steady (f' b)] [m : ∀ e, Steady (g e)]
    [n : ∀ e, Steady (g' e)] (h : Sim S w links routes Q c c')
    (hnext : ∀ w₁ a b, w ≤ w₁ → Q w₁ a b → Paid S w₁ links routes₁ pre post R (f a) (f' b))
    (hfail : ∀ w₁ e e', w ≤ w₁ → Signal.Rel routes w₁ e e' →
      Paid S w₁ links routes₁ pre post R (g e) (g' e'))
    (hx : g .exhausted = MonadExcept.throw .exhausted)
    (hx' : g' .exhausted = MonadExcept.throw .exhausted) :
    Paid S w links routes₁ pre post R (Machine.onEnd c f g) (Machine.onEnd c' f' g') := by
  have hkeep := h.onEndWith pre (fun w₁ a b hw hq => by rw [add_zero]; exact hnext w₁ a b hw hq)
    hfail hx hx'
  rwa [add_zero] at hkeep

lemma discard (h : Paid S w links routes pre post Q c c') :
    Paid S w links routes pre post Done (discard c) (Functor.discard c') := by
  rw [discard_eq, discard_eq]
  refine h.onEnd (fun _ _ _ _ _ => .pure trivial) (fun _ _ _ _ he => .throw he) rfl rfl

lemma lift {c : StoreM α} {c' : StoreM β} (h : Agree w (Q w) c c') :
    Paid S w links routes pre pre Q (liftM c : Exec α) (liftM c' : Exec β) :=
  fun _ _ _ hs => hs.lift (h _ _ hs.store)

lemma ite {p : Prop} [Decidable p] {d : Exec α} {d' : Exec β}
    (hc : p → Paid S w links routes pre post Q c c')
    (hd : ¬ p → Paid S w links routes pre post Q d d') :
    Paid S w links routes pre post Q (if p then c else d) (if p then c' else d') := by
  split
  · exact hc ‹_›
  · exact hd ‹_›

end Paid

def ticks (limit : Int) : Nat → Exec Unit
  | 0 => return
  | n + 1 => do tick limit; ticks limit n

lemma ticks_one (limit : Int) : ticks limit 1 = tick limit := by
  funext st
  show EStateM.bind (tick limit) _ st = _
  unfold EStateM.bind
  cases tick limit st <;> rfl

instance instSteadyTicks (limit : Int) (n : Nat) : Steady (ticks limit n) := by
  induction n with
  | zero => exact Steady.instPure _
  | succ n ih =>
    unfold ticks
    infer_instance

lemma ticks_cases (limit : Int) (n : Nat) (st : State) :
    ((n = 0 ∨ ((st.steps + n : Nat) : Int) ≤ limit) ∧ ticks limit n st = .ok () (st.counted n)) ∨
      ∃ m, 0 < m ∧ m ≤ n ∧ limit < ((st.steps + m : Nat) : Int) ∧
        ticks limit n st = .error (.failed (.stepLimit limit)) (st.counted m) := by
  induction n generalizing st with
  | zero => exact .inl ⟨.inl rfl, rfl⟩
  | succ n ih =>
    have hstep : ticks limit (n + 1) st = EStateM.bind (tick limit) (fun _ => ticks limit n) st := rfl
    by_cases hlimit : limit < ((st.steps + 1 : Nat) : Int)
    · refine .inr ⟨1, Nat.one_pos, Nat.le_add_left _ _, hlimit, ?_⟩
      rw [hstep, EStateM.bind, tick_apply, if_pos hlimit]
    have hnext : ticks limit (n + 1) st = ticks limit n (st.counted 1) := by
      rw [hstep, EStateM.bind, tick_apply, if_neg hlimit]
    have hsum : ∀ m, (st.counted 1).counted m = st.counted (m + 1) := by
      intro m
      simp only [State.counted, Nat.add_assoc, Nat.add_comm 1]
    have hsteps : (st.counted 1).steps = st.steps + 1 := rfl
    rw [hnext]
    rcases ih (st.counted 1) with ⟨hn, heq⟩ | ⟨m, hm, hmn, hlt, heq⟩
    · refine .inl ⟨.inr ?_, by rw [heq, hsum]⟩
      rcases hn with rfl | hn <;> omega
    · refine .inr ⟨m + 1, Nat.succ_pos _, Nat.succ_le_succ hmn, by omega, by rw [heq, hsum]⟩

namespace Setting

lemma room (S : Setting) (hs : S.strict = true) {n m : Nat} (hn : (n : Int) ≤ S.limit)
    (hm : m ≤ S.factor * n) : (m : Int) ≤ S.limit' := by
  have hmul : (S.factor : Int) * n ≤ S.factor * S.limit :=
    Int.mul_le_mul_of_nonneg_left hn (Int.natCast_nonneg _)
  have hcast : (m : Int) ≤ S.factor * n := by exact_mod_cast hm
  exact hcast.trans (hmul.trans (S.limit_le hs))

end Setting

lemma Related.withSteps {k k₁ : Credit} {s s' : State} (h : Related S w links k s s') {n n' : Nat}
    (hlimit : n = s.steps ∨ (n : Int) ≤ S.limit) (hu : n' + k₁.1 ≤ S.factor * n)
    (hl : S.tight = true → n + k₁.2 ≤ n') :
    Related S w links k₁ { s with steps := n } { s' with steps := n' } where
  store := h.store
  frame := h.frame
  upper := hu
  lower := hl
  intact := by
    rintro (hspent | hbad)
    · rcases hlimit with rfl | hlimit
      · exact h.intact (.inl hspent)
      · exact absurd hspent.2 (not_lt.mpr hlimit)
    · exact h.intact (.inr hbad)

lemma ticks_bind {limit : Int} {n : Nat} {st : State} (h : ticks limit n st = .ok () (st.counted n))
    (c : Exec α) : (do ticks limit n; c) st = c (st.counted n) := by
  show EStateM.bind (ticks limit n) _ st = _
  rw [EStateM.bind, h]

lemma ticks_bind_stopped {lost : State → Prop} {limit : Int} {n : Nat} {st t : State} {e : Signal}
    (h : ticks limit n st = .error e t) (ht : lost t) (c : Exec α) :
    Stopped lost ((do ticks limit n; c) st) := by
  show Stopped lost (EStateM.bind (ticks limit n) _ st)
  rw [EStateM.bind, h]
  exact .inr ht

lemma Meets.counted {ok : α → State → β → State → Prop} {err : Signal → State → Signal → State → Prop}
    {c : Exec α} {c' : Exec β} (a b : Nat) (pre post : Credit) {k : Credit} {s s' : State}
    (hs : Related S w links (k + pre) s s') (hu : b + post.1 ≤ S.factor * a + pre.1)
    (hl : S.tight = true → a + post.2 ≤ b + pre.2)
    (h : Related S w links (k + post) (s.counted a) (s'.counted b) →
      Meets S ok err (c (s.counted a)) (c' (s'.counted b))) :
    Meets S ok err ((do ticks S.limit a; c) s) ((do ticks S.limit' b; c') s') := by
  have hupper := hs.upper
  simp only [Prod.fst_add] at hupper
  have hmul : S.factor * (s.steps + a) = S.factor * s.steps + S.factor * a := Nat.mul_add _ _ _
  rcases ticks_cases S.limit a s with ⟨ha, heq⟩ | ⟨m, hm, -, hlt, heq⟩
  · rcases ticks_cases S.limit' b s' with ⟨hb, heq'⟩ | ⟨m, hm, hmb, hlt, heq'⟩
    · rw [ticks_bind heq, ticks_bind heq']
      refine h (hs.withSteps ?_ ?_ fun ht => ?_)
      · rcases ha with rfl | ha
        · exact .inl rfl
        · exact .inr ha
      · simp only [Prod.fst_add]
        omega
      · have hlower := hs.lower ht
        have hcredit := hl ht
        simp only [Prod.snd_add] at hlower ⊢
        omega
    · have hspent : spent S.limit' (s'.counted m) := ⟨Nat.add_pos_right _ hm, hlt⟩
      cases hstrict : S.strict with
      | false => exact .second hstrict (ticks_bind_stopped heq' hspent c')
      | true =>
        -- The first run has counted a step, or there would be no credit.
        have hpos : 0 < s.steps + a := by
          rcases Nat.eq_zero_or_pos (s.steps + a) with h | h
          · rw [h, Nat.mul_zero] at hmul
            omega
          · exact h
        have hlimit : ((s.steps + a : Nat) : Int) ≤ S.limit := by
          rcases ha with rfl | ha
          · by_contra hlt
            exact hs.intact (.inl ⟨hpos, not_le.mp hlt⟩)
          · exact ha
        refine absurd hlt (not_lt.mpr (S.room hstrict hlimit ?_))
        omega
  · exact .first (ticks_bind_stopped heq (.inl ⟨Nat.add_pos_right _ hm, hlt⟩) c)

lemma Paid.ticks (a b : Nat) {pre post : Credit} (hu : b + post.1 ≤ S.factor * a + pre.1)
    (hl : S.tight = true → a + post.2 ≤ b + pre.2) :
    Paid S w links routes pre post Done (ticks S.limit a) (Machine.ticks S.limit' b) := by
  intro k s s' hs
  have hcounted : Meets S (Returns S w links (k + post) Done) (Fails S w links k routes)
      ((do Machine.ticks S.limit a; Pure.pure ()) s)
      ((do Machine.ticks S.limit' b; Pure.pure ()) s') :=
    .counted a b pre post hs hu hl fun hs => .ok ⟨w, le_rfl, hs, trivial⟩
  simpa only [bind_pure_unit] using hcounted

lemma Paid.tick {pre : Credit} :
    Paid S w links routes pre pre Done (tick S.limit) (Machine.tick S.limit') := by
  have hone := S.one_le_factor
  rw [← ticks_one, ← ticks_one]
  exact .ticks 1 1 (by omega) fun _ => le_rfl

section

variable {pre post : Credit} {Q : World → α → β → Prop} {c : Exec α} {c' : Exec β}

lemma popScope_apply {st : State} {bs : Bindings} {ss : List Bindings}
    (h : st.frame.scopes = bs :: ss) :
    popScope st = .ok () { st with frame := { st.frame with scopes := ss } } := by
  unfold popScope
  rw [h]

lemma popScope_bind {st : State} {bs : Bindings} {ss : List Bindings}
    (h : st.frame.scopes = bs :: ss) (x : Exec α) :
    (do popScope; x) st = x { st with frame := { st.frame with scopes := ss } } := by
  show EStateM.bind popScope _ st = _
  rw [EStateM.bind, popScope_apply h]

lemma Signal.Rel.ne_exhausted {e e' : Signal} (h : Signal.Rel routes w e e') :
    e ≠ .exhausted ∧ e' ≠ .exhausted := by
  cases h with
  | failure h => cases h <;> exact ⟨nofun, nofun⟩
  | _ => exact ⟨nofun, nofun⟩

lemma Meets.popBoth {k k₁ : Credit} {links₁ : List Link} {s s' : State}
    (h : Meets S (Returns S w links₁ k Q) (Fails S w links₁ k₁ routes) (c s) (c' s'))
    (hpop : ∀ w₁ ss ss', Aligned w₁ links₁ ss ss' →
      ∃ bs tl bs' tl', ss = bs :: tl ∧ ss' = bs' :: tl' ∧ Aligned w₁ links tl tl') :
    Meets S (Returns S w links k Q) (Fails S w links k₁ routes)
      (ensuring c popScope s) (ensuring c' popScope s') := by
  rw [ensuring_eq, ensuring_eq]
  refine h.onEnd ?_ ?_ inferInstance inferInstance inferInstance inferInstance
    (passes_of_eq rfl) (passes_of_eq rfl)
  · rintro a t b t' ⟨w₁, hw, ht, hq⟩
    obtain ⟨bs, tl, bs', tl', hbs, hbs', htl⟩ := hpop w₁ _ _ ht.frame.scopes
    rw [popScope_bind hbs, popScope_bind hbs']
    exact .ok ⟨w₁, hw, ht.withScopes htl, hq⟩
  · rintro e t e' t' ⟨w₁, hw, ht, he⟩
    obtain ⟨bs, tl, bs', tl', hbs, hbs', htl⟩ := hpop w₁ _ _ ht.frame.scopes
    rw [lastly_eq _ he.ne_exhausted.1, lastly_eq _ he.ne_exhausted.2, popScope_bind hbs,
      popScope_bind hbs']
    exact .error ⟨w₁, hw, ht.withScopes htl, he⟩

lemma Aligned.pop_both {names : String → Prop} {ss ss' : List Bindings}
    (h : Aligned w (.both names :: links) ss ss') :
    ∃ bs tl bs' tl', ss = bs :: tl ∧ ss' = bs' :: tl' ∧ Aligned w links tl tl' := by
  cases h with
  | both _ _ rest => exact ⟨_, _, _, _, rfl, rfl, rest⟩

lemma Aligned.pop_hidden {bs : Bindings} {ss ss' : List Bindings}
    (h : Aligned w (.hidden bs :: links) ss ss') :
    ∃ bs' tl', ss' = bs' :: tl' ∧ Aligned w links ss tl' := by
  cases h with
  | hidden rest => exact ⟨_, _, rfl, rest⟩

lemma Meets.popHidden {k k₁ : Credit} {s s' : State}
    (h : Meets S (fun a t b t' => ∃ bs, Returns S w (.hidden bs :: links) k Q a t b t')
      (fun e t e' t' => ∃ bs, Fails S w (.hidden bs :: links) k₁ routes e t e' t') (c s) (c' s')) :
    Meets S (Returns S w links k Q) (Fails S w links k₁ routes) (c s)
      (ensuring c' popScope s') := by
  rw [ensuring_eq, ← onEnd_pure_throw c]
  refine h.onEnd ?_ ?_ inferInstance inferInstance inferInstance inferInstance
    (passes_of_eq rfl) (passes_of_eq rfl)
  · rintro a t b t' ⟨bs, w₁, hw, ht, hq⟩
    obtain ⟨bs', tl', hbs', htl⟩ := ht.frame.scopes.pop_hidden
    rw [popScope_bind hbs']
    exact .ok ⟨w₁, hw, ht.withScopes htl, hq⟩
  · rintro e t e' t' ⟨bs, w₁, hw, ht, he⟩
    obtain ⟨bs', tl', hbs', htl⟩ := ht.frame.scopes.pop_hidden
    rw [lastly_eq _ he.ne_exhausted.2, popScope_bind hbs']
    exact .error ⟨w₁, hw, ht.withScopes htl, he⟩

lemma Meets.popSecond {k k₁ : Credit} {s s' : State} {bs : Bindings}
    (h : Meets S (Returns S w (.hidden bs :: links) k Q) (Fails S w (.hidden bs :: links) k₁ routes)
      (c s) (c' s')) :
    Meets S (Returns S w links k Q) (Fails S w links k₁ routes) (c s) (ensuring c' popScope s') :=
  (h.imp (fun _ _ _ _ h => ⟨bs, h⟩) fun _ _ _ _ h => ⟨bs, h⟩).popHidden

lemma Paid.inScope (names : String → Prop) {bs bs' : Bindings} (hbs : bs.Rel w bs')
    (hnames : ∀ b ∈ bs', names b.name) (h : Paid S w (.both names :: links) routes pre post Q c c') :
    Paid S w links routes pre post Q (inScope bs c) (Machine.inScope bs' c') := by
  intro k s s' hs
  refine (h k _ _ (hs.withScopes (.both hbs hnames hs.frame.scopes))).popBoth ?_
  exact fun _ _ _ => Aligned.pop_both

lemma Paid.inHidden (bs : Bindings) (h : Paid S w (.hidden bs :: links) routes pre post Q c c') :
    Paid S w links routes pre post Q c (Machine.inScope bs c') := by
  intro k s s' hs
  exact (h k s _ (hs.withScopes (.hidden hs.frame.scopes))).popSecond

lemma declare_apply {st : State} {bs : Bindings} {ss : List Bindings}
    (h : st.frame.scopes = bs :: ss) (n : String) (v : Value) (type : Option TypeInfo) :
    declare n v type st = .ok () { st with frame :=
      { st.frame with scopes := bs.put n v (.declaration type) :: ss } } := by
  unfold declare
  rw [h]

lemma Paid.declare {n : String} (hn : Link.admits n links) {v v' : Value} (hv : Value.Rel w v v')
    (type type' : Option TypeInfo) :
    Paid S w links routes pre pre Done (declare n v type) (Machine.declare n v' type') := by
  intro k s s' hs
  obtain ⟨bs, tl, bs', tl', hbs, hbs', h⟩ :=
    hs.frame.scopes.declare hn hv (.declaration type) (.declaration type')
  rw [declare_apply hbs, declare_apply hbs']
  exact .ok ⟨w, le_rfl, hs.withScopes h, trivial⟩

lemma Paid.getFrame :
    Paid S w links routes pre pre (fun w f f' => Frame.Rel w links f f') getFrame Machine.getFrame :=
  fun _ _ _ hs => .ok ⟨w, le_rfl, hs, hs.frame⟩

lemma Meets.restore {k k₁ : Credit} {links₁ : List Link} {s s' : State}
    (h : Meets S (Returns S w links₁ k Q) (Fails S w links₁ k₁ routes) (c s) (c' s')) {f f' : Frame}
    (hf : Frame.Rel w links f f') :
    Meets S (Returns S w links k Q) (Fails S w links k₁ routes)
      (ensuring c (setFrame f) s) (ensuring c' (setFrame f') s') := by
  rw [ensuring_eq, ensuring_eq]
  refine h.onEnd ?_ ?_ inferInstance inferInstance inferInstance inferInstance
    (passes_of_eq rfl) (passes_of_eq rfl)
  · rintro a t b t' ⟨w₁, hw, ht, hq⟩
    exact .ok ⟨w₁, hw, ht.withFrame (hf.mono hw), hq⟩
  · rintro e t e' t' ⟨w₁, hw, ht, he⟩
    rw [lastly_eq _ he.ne_exhausted.1, lastly_eq _ he.ne_exhausted.2]
    exact .error ⟨w₁, hw, ht.withFrame (hf.mono hw), he⟩

lemma Meets.noting {ok : α → State → β → State → Prop}
    {err : Signal → State → Signal → State → Prop} {i : Incident} {s s' : State}
    (h : Meets S ok err (c s) (c' s')) (hi : S.forbidden i = true) :
    Meets S ok (fun _ _ _ _ => False) (noting i c s) (Machine.noting i c' s') := by
  rw [noting_eq, noting_eq]
  refine h.onEnd (fun _ _ _ _ h => .ok h) ?_ inferInstance inferInstance inferInstance inferInstance
    (fun _ => ⟨_, rfl⟩) (fun _ => ⟨_, rfl⟩)
  intro e t e' t' _
  exact .first (.inr (.inr ⟨i, List.mem_cons_self, hi⟩))

end

end

end LoopLowering.Machine
