import LoopLowering.Proofs.Grammar.Running

/-! Parsers that do the same on tokens that stand at other places, as long as closing marks that touch
still touch. -/

namespace LoopLowering

structure Token.Like (t u : Token) : Prop where
  kind : t.kind = u.kind
  value : t.value = u.value

lemma Token.Like.text {t u : Token} (h : t.Like u) : t.text = u.text := by
  rw [Token.text, Token.text, h.value]

namespace Grammar

/-- The same tokens at other places. A `>` touches the mark behind it, with which it may form an
operator, in both lists or in neither. -/
inductive Respaced : List Token → List Token → Prop
  | nil : Respaced [] []
  | cons {t u : Token} {ts us : List Token} (like : t.Like u)
      (touch : t.kind = .mark ">" → headKind ts = .mark ">" ∨ headKind ts = .mark ">=" →
        touches t (tokenAt ts 0) = touches u (tokenAt us 0))
      (rest : Respaced ts us) : Respaced (t :: ts) (u :: us)

namespace Respaced

variable {ts us : List Token}

lemma length (h : Respaced ts us) : ts.length = us.length := by
  induction h with
  | nil => rfl
  | cons _ _ _ ih => rw [List.length_cons, List.length_cons, ih]

lemma ne_nil (h : Respaced ts us) (hne : ts ≠ []) : us ≠ [] := by
  rintro rfl
  exact hne (List.length_eq_zero_iff.mp h.length)

lemma tokenAt (h : Respaced ts us) (k : Nat) : (tokenAt ts k).Like (tokenAt us k) := by
  induction h generalizing k with
  | nil => exact ⟨rfl, rfl⟩
  | @cons t u ts us like _ rest ih =>
    cases ts with
    | nil =>
      cases rest
      cases k <;> exact like
    | cons t' ts =>
      cases k with
      | zero => exact like
      | succ k =>
        rw [tokenAt_succ (by simp), tokenAt_succ (rest.ne_nil (by simp))]
        exact ih k

lemma headKind (h : Respaced ts us) : headKind ts = headKind us := (h.tokenAt 0).kind

lemma touches (h : Respaced ts us) (k : Nat) (ht : (Grammar.tokenAt ts k).kind = .mark ">")
    (hu : (Grammar.tokenAt ts (k + 1)).kind = .mark ">" ∨
      (Grammar.tokenAt ts (k + 1)).kind = .mark ">=") :
    touches (Grammar.tokenAt ts k) (Grammar.tokenAt ts (k + 1)) =
      touches (Grammar.tokenAt us k) (Grammar.tokenAt us (k + 1)) := by
  induction h generalizing k with
  | nil => rfl
  | @cons t u ts us like touch rest ih =>
    cases ts with
    | nil =>
      -- Past the end stands the last token again, which does not touch itself.
      cases rest
      have hsame : ∀ t : Token, Grammar.touches t t = false := fun t => by simp [Grammar.touches]
      cases k <;> exact (hsame t).trans (hsame u).symm
    | cons t' ts =>
      have hne := rest.ne_nil (by simp)
      cases k with
      | zero =>
        rw [tokenAt_succ (by simp)] at hu ⊢
        rw [tokenAt_succ hne]
        exact touch ht hu
      | succ k =>
        rw [tokenAt_succ (by simp)] at ht hu ⊢
        rw [tokenAt_succ (by simp), tokenAt_succ hne, tokenAt_succ hne]
        exact ih k ht hu

lemma tail (h : Respaced ts us) : Respaced ts.tail us.tail := by
  cases h with
  | nil => exact .nil
  | cons _ _ rest => exact rest

lemma drop (h : Respaced ts us) (n : Nat) : Respaced (ts.drop n) (us.drop n) := by
  induction n generalizing ts us with
  | zero => exact h
  | succ n ih =>
    rw [← List.drop_tail, ← List.drop_tail]
    exact ih h.tail

end Respaced

inductive Outcome {α β : Type} (R : α → β → Prop) :
    Except Failure (α × List Token) → Except Failure (β × List Token) → Prop
  | read {a : α} {b : β} {ts us : List Token} (related : R a b) (rest : Respaced ts us) :
      Outcome R (.ok (a, ts)) (.ok (b, us))
  | rejected {cause : Cause} {t u : Token} :
      Outcome R (.error (.rejected cause t)) (.error (.rejected cause u))
  | exhausted : Outcome R (.error .exhausted) (.error .exhausted)

def Agree {α β : Type} (R : α → β → Prop) (p : Parser α) (q : Parser β) : Prop :=
  ∀ ⦃ts us⦄, Respaced ts us → Outcome R (p ts) (q us)

abbrev Uniform {α : Type} (p : Parser α) : Prop := Agree Eq p p

namespace Agree

variable {α β γ δ : Type} {R : α → β → Prop} {S : γ → δ → Prop} {k : TokenKind}

section

variable {p : Parser α} {q : Parser β} {f : α → Parser γ} {g : β → Parser δ}

lemma pure {a : α} {b : β} (h : R a b) : Agree R (Pure.pure a) (Pure.pure b) := fun _ _ hts => .read h hts

lemma mono {T : α → β → Prop} (h : Agree R p q) (hT : ∀ a b, R a b → T a b) : Agree T p q := by
  intro ts us hts
  have houtcome := h hts
  generalize p ts = x, q us = y at houtcome
  cases houtcome with
  | read hab hrest => exact .read (hT _ _ hab) hrest
  | rejected => exact .rejected
  | exhausted => exact .exhausted

lemma bind (hp : Agree R p q) (hf : ∀ a b, R a b → Agree S (f a) (g b)) :
    Agree S (p >>= f) (q >>= g) := by
  intro ts us hts
  have houtcome := hp hts
  simp only [Bind.bind, StateT.bind]
  generalize p ts = x, q us = y at houtcome
  cases houtcome with
  | read hab hrest => exact hf _ _ hab hrest
  | rejected => exact .rejected
  | exhausted => exact .exhausted

lemma map {h : α → γ} {h' : β → δ} (hp : Agree R p q) (hS : ∀ a b, R a b → S (h a) (h' b)) :
    Agree S (h <$> p) (h' <$> q) := by
  rw [map_eq_pure_bind, map_eq_pure_bind]
  exact hp.bind fun a b hab => .pure (hS a b hab)

lemma bindMap {f : γ → Parser δ} {g : γ → Parser δ} {h : α → γ} {h' : β → γ} {S : δ → δ → Prop}
    (hp : Agree R p q) (hf : ∀ a b, R a b → Agree S (f (h a)) (g (h' b))) :
    Agree S (h <$> p >>= f) (h' <$> q >>= g) := by
  rw [bind_map_left, bind_map_left]
  exact hp.bind hf

lemma rejectAt (cause : Cause) (t u : Token) :
    Agree R (Grammar.rejectAt cause t) (Grammar.rejectAt cause u) := fun _ _ _ => .rejected

lemma exhausted : Agree R Grammar.exhausted Grammar.exhausted := fun _ _ _ => .exhausted

lemma get {f : List Token → Parser α} {g : List Token → Parser β}
    (h : ∀ ts us, Respaced ts us → Agree R (f ts) (g us)) : Agree R (get >>= f) (get >>= g) :=
  fun ts us hts => h ts us hts hts

lemma set {ts us : List Token} (h : Respaced ts us) : Agree (α := PUnit) Eq (set ts) (set us) :=
  fun _ _ _ => .read rfl h

lemma splitting {f : List Token → α × List Token} (h : ∀ ⦃ts us⦄, Respaced ts us →
      (f ts).1 = (f us).1 ∧ Respaced (f ts).2 (f us).2) : Uniform (splitting f) :=
  fun _ _ hts => .read (h hts).1 (h hts).2

end

section

variable {p : Parser α} {f : α → Parser γ} {g : α → Parser δ}

lemma same (hp : Uniform p) (hf : ∀ a, Agree S (f a) (g a)) : Agree S (p >>= f) (p >>= g) :=
  hp.bind fun a _ hab => hab ▸ hf a

lemma attempt {f : Option α → Parser γ} {g : Option α → Parser δ} (hp : Uniform p)
    (hf : ∀ o, Agree S (f o) (g o)) :
    Agree S (Grammar.attempt p >>= f) (Grammar.attempt p >>= g) := by
  refine same (fun ts us hts => ?_) hf
  have houtcome := hp hts
  simp only [Grammar.attempt]
  generalize p ts = x, p us = y at houtcome
  cases houtcome with
  | read hab hrest => exact .read (congrArg some hab) hrest
  | rejected => exact .read rfl hts
  | exhausted => exact .exhausted

end

section

variable {p p' : Parser α} {q q' : Parser β} {f : Token → Parser α} {g : Token → Parser β}

lemma ite {c : Prop} [Decidable c] (hp : Agree R p q) (hq : Agree R p' q') :
    Agree R (if c then p else p') (if c then q else q') := by
  split
  · exact hp
  · exact hq

lemma current (hf : ∀ t u, t.Like u → Agree R (f t) (g u)) :
    Agree R (current >>= f) (current >>= g) :=
  fun _ _ hts => hf _ _ (hts.tokenAt 0) hts

lemma reject (cause : Cause) : Agree R (reject cause) (Grammar.reject cause) :=
  current fun t u _ => .rejectAt cause t u

lemma rejectThen (cause : Cause) {f : γ → Parser α} {g : δ → Parser β} :
    Agree R (Grammar.reject cause >>= f) (Grammar.reject cause >>= g) :=
  .bind (R := fun _ _ => False) (.reject cause) nofun

lemma advance (hf : ∀ t u, t.Like u → Agree R (f t) (g u)) :
    Agree R (advance >>= f) (advance >>= g) := by
  refine .bind (R := Token.Like) (fun _ _ hts => .read (hts.tokenAt 0) ?_) hf
  rw [(hts.tokenAt 0).kind]
  split
  · exact hts
  · exact hts.tail

lemma check {f : Bool → Parser α} {g : Bool → Parser β} (hf : ∀ b, Agree R (f b) (g b)) :
    Agree R (check k >>= f) (check k >>= g) := by
  refine same (fun ts us hts => ?_) hf
  rw [check_run, check_run, hts.headKind]
  exact .read rfl hts

lemma checkNext {f : Bool → Parser α} {g : Bool → Parser β} (hf : ∀ b, Agree R (f b) (g b)) :
    Agree R (checkNext k >>= f) (checkNext k >>= g) := by
  refine same (fun ts us hts => ?_) hf
  rw [checkNext_run, checkNext_run, (hts.tokenAt 1).kind]
  exact .read rfl hts

lemma ifCheck (hyes : Agree R p q) (hno : Agree R p' q') :
    Agree R (Grammar.check k >>= fun b => if b = true then p else p')
      (Grammar.check k >>= fun b => if b = true then q else q') :=
  check fun _ => .ite hyes hno

lemma ifCheckAny {ks : List TokenKind} (hyes : Agree R p q) (hno : Agree R p' q') :
    Agree R (checkAny ks >>= fun b => if b = true then p else p')
      (checkAny ks >>= fun b => if b = true then q else q') := by
  refine same (fun ts us hts => ?_) fun _ => .ite hyes hno
  rw [checkAny_run, checkAny_run, hts.headKind]
  exact .read rfl hts

lemma expect (hf : ∀ t u, t.Like u → Agree R (f t) (g u)) :
    Agree R (expect k >>= f) (expect k >>= g) := by
  refine .bind (R := Token.Like) (.ifCheck (fun _ _ hts => ?_) (.reject _)) hf
  have := advance (fun t u htu => .pure htu) hts
  rwa [bind_pure] at this

lemma accept {f : Bool → Parser α} {g : Bool → Parser β} (hf : ∀ b, Agree R (f b) (g b)) :
    Agree R (accept k >>= f) (accept k >>= g) :=
  same (.ifCheck (advance fun _ _ _ => .pure rfl) (.pure rfl)) hf

lemma ifAccept (hyes : Agree R p q) (hno : Agree R p' q') :
    Agree R (Grammar.accept k >>= fun b => if b = true then p else p')
      (Grammar.accept k >>= fun b => if b = true then q else q') :=
  accept fun _ => .ite hyes hno

end

end Agree

end Grammar

end LoopLowering
