import LoopLowering.Proofs.Grammar.ExpressionTrees
import LoopLowering.Proofs.Token.Genuine

/-! Parsers that either read something from the tokens of a text or reject one of these tokens. They
do not look behind the token that ends the text: with others behind it they do the same. -/

namespace LoopLowering.Grammar

def Ended : List Token → Prop
  | [] => False
  | t :: ts => if t.kind = .finish then ts = [] else Ended ts

namespace Ended

variable {t : Token} {ts us beyond : List Token} {k : Nat}

lemma ne_nil (h : Ended ts) : ts ≠ [] := by
  rintro rfl
  exact h

lemma tail (h : Ended (t :: ts)) (ht : t.kind ≠ .finish) : Ended ts := by
  rwa [Ended, if_neg ht] at h

lemma eq_nil (h : Ended (t :: ts)) (ht : t.kind = .finish) : ts = [] := by
  rwa [Ended, if_pos ht] at h

lemma of_append (h : Ended (us ++ ts)) (hus : ∀ t ∈ us, t.kind ≠ .finish) : Ended ts := by
  induction us with
  | nil => exact h
  | cons u us ih =>
    obtain ⟨hu, hus⟩ := List.forall_mem_cons.mp hus
    exact ih (h.tail hu) hus

lemma append (hus : ∀ t ∈ us, t.kind ≠ .finish) (h : Ended ts) : Ended (us ++ ts) := by
  induction us with
  | nil => exact h
  | cons u us ih =>
    obtain ⟨hu, hus⟩ := List.forall_mem_cons.mp hus
    rw [List.cons_append, Ended, if_neg hu]
    exact ih hus

lemma eq_singleton (h : Ended ts) (hts : headKind ts = .finish) : ∃ t, ts = [t] ∧ t.kind = .finish := by
  cases ts with
  | nil => exact h.elim
  | cons t ts => exact ⟨t, by rw [h.eq_nil hts], hts⟩

lemma tokenAt_append (h : k < ts.length) : tokenAt (ts ++ beyond) k = tokenAt ts k := by
  rw [tokenAt, tokenAt, List.getElem?_append_left h, List.getElem?_eq_getElem h]
  rfl

lemma tokenAt_zero (h : Ended ts) : tokenAt (ts ++ beyond) 0 = tokenAt ts 0 :=
  tokenAt_append (List.length_pos_iff.mpr h.ne_nil)

lemma headKind_append (h : Ended ts) : headKind (ts ++ beyond) = headKind ts := by
  rw [headKind, headKind, h.tokenAt_zero]

lemma tokenAt_mem (h : Ended ts) : tokenAt ts 0 ∈ ts := by
  cases ts with
  | nil => exact h.elim
  | cons t ts => exact List.mem_cons_self

lemma succ_lt (h : Ended ts) (hk : k < ts.length) (hkind : (tokenAt ts k).kind ≠ .finish) :
    k + 1 < ts.length := by
  induction ts generalizing k with
  | nil => exact h.elim
  | cons t ts ih =>
    by_cases ht : t.kind = .finish
    · obtain rfl := h.eq_nil ht
      obtain rfl : k = 0 := by simpa using hk
      exact absurd ht hkind
    · have hts := h.tail ht
      cases k with
      | zero => simpa using List.length_pos_iff.mpr hts.ne_nil
      | succ k =>
        rw [tokenAt_succ hts.ne_nil] at hkind
        rw [List.length_cons] at hk ⊢
        have hlt := ih hts (Nat.lt_of_succ_lt_succ hk) hkind
        omega

end Ended

/-- On some of the tokens `origin` of a text, `p` either reads something that has a property together
with the number of tokens left, or it rejects one of the tokens `origin`. With the tokens `beyond`
behind the end of the text, `q` does the same. -/
def Decides {α : Type} (beyond origin ts : List Token) (p q : Parser α) (Q : α → Nat → Prop) :
    Prop :=
  Ended ts → ts <:+ origin →
    (∃ a rest, p ts = .ok (a, rest) ∧ q (ts ++ beyond) = .ok (a, rest ++ beyond) ∧ Ended rest ∧
      rest <:+ origin ∧ Q a rest.length) ∨
    ∃ cause, ∃ found ∈ origin, p ts = .error (.rejected cause found) ∧
      q (ts ++ beyond) = .error (.rejected cause found)

namespace Decides

variable {α β : Type} {beyond origin ts us : List Token} {k : TokenKind}
  {Q : α → Nat → Prop} {R : β → Nat → Prop}

section

variable {p q : Parser α} {f g : α → Parser β}

lemma ended (h : Ended ts → Decides beyond origin ts p q Q) : Decides beyond origin ts p q Q :=
  fun hts => h hts hts

lemma within {gain least : Nat} (h : Decides beyond ts ts p q fun _ left => left + least ≤ ts.length)
    (hgain : ts.length + gain ≤ origin.length + least) :
    Decides beyond origin ts p q fun _ left => left + gain ≤ origin.length := by
  intro hts hsuffix
  rcases h hts (List.suffix_refl ts) with ⟨a, rest, hp, hq, hrest, hle, hlen⟩ |
    ⟨cause, found, hfound, hp, hq⟩
  · exact .inl ⟨a, rest, hp, hq, hrest, hle.trans hsuffix, by omega⟩
  · exact .inr ⟨cause, found, hsuffix.subset hfound, hp, hq⟩

lemma pure (a : α) (h : Q a ts.length) : Decides beyond origin ts (pure a) (pure a) Q :=
  fun hts hsuffix => .inl ⟨a, ts, rfl, rfl, hts, hsuffix, h⟩

lemma bind (hp : Decides beyond ts ts p q Q)
    (hf : ∀ a rest, Q a rest.length → Decides beyond origin rest (f a) (g a) R) :
    Decides beyond origin ts (p >>= f) (q >>= g) R := by
  intro hts hsuffix
  rcases hp hts (List.suffix_refl ts) with ⟨a, rest, hp, hq, hrest, hle, ha⟩ |
    ⟨cause, found, hfound, hp, hq⟩
  · rw [bind_of_ok hp, bind_of_ok hq]
    exact hf a rest ha hrest (hle.trans hsuffix)
  · refine .inr ⟨cause, found, hsuffix.subset hfound, ?_, ?_⟩
    · simp only [Bind.bind, StateT.bind, hp, Except.bind]
    · simp only [Bind.bind, StateT.bind, hq, Except.bind]

lemma map {h : α → β} (hp : Decides beyond origin ts p q fun a left => R (h a) left) :
    Decides beyond origin ts (h <$> p) (h <$> q) R := by
  intro hts hsuffix
  rcases hp hts hsuffix with ⟨a, rest, hp, hq, hrest⟩ | ⟨cause, found, hfound, hp, hq⟩
  · exact .inl ⟨h a, rest, map_of_ok hp, map_of_ok hq, hrest⟩
  · refine .inr ⟨cause, found, hfound, ?_, ?_⟩
    · simp only [Functor.map, StateT.map, hp, Bind.bind, Except.bind]
    · simp only [Functor.map, StateT.map, hq, Bind.bind, Except.bind]

lemma bindMap {γ : Type} {h : α → γ} {f g : γ → Parser β} (hp : Decides beyond ts ts p q Q)
    (hf : ∀ a rest, Q a rest.length → Decides beyond origin rest (f (h a)) (g (h a)) R) :
    Decides beyond origin ts (h <$> p >>= f) (h <$> q >>= g) R := by
  rw [bind_map_left, bind_map_left]
  exact .bind hp hf

lemma ite {c : Prop} [Decidable c] {p' q' : Parser α} (hp : c → Decides beyond origin ts p q Q)
    (hq : ¬ c → Decides beyond origin ts p' q' Q) :
    Decides beyond origin ts (if c then p else p') (if c then q else q') Q := by
  split
  · exact hp ‹_›
  · exact hq ‹_›

lemma look {a : α} (hp : p ts = .ok (a, ts))
    (hq : Ended ts → q (ts ++ beyond) = .ok (a, ts ++ beyond))
    (hf : Decides beyond origin ts (f a) (g a) R) :
    Decides beyond origin ts (p >>= f) (q >>= g) R := by
  intro hts hsuffix
  rw [bind_of_ok hp, bind_of_ok (hq hts)]
  exact hf hts hsuffix

lemma get {f g : List Token → Parser β}
    (hf : Decides beyond origin ts (f ts) (g (ts ++ beyond)) R) :
    Decides beyond origin ts (get >>= f) (get >>= g) R :=
  hf

end

section

variable {f g : Token → Parser β} {p q p' q' : Parser β}

lemma current (hf : Decides beyond origin ts (f (tokenAt ts 0)) (g (tokenAt ts 0)) R) :
    Decides beyond origin ts (current >>= f) (current >>= g) R :=
  .look (current_run ts) (fun hts => by rw [current_run, hts.tokenAt_zero]) hf

lemma check {f g : Bool → Parser β} (hf : Decides beyond origin ts
      (f (decide (headKind ts = k))) (g (decide (headKind ts = k))) R) :
    Decides beyond origin ts (check k >>= f) (check k >>= g) R :=
  .look (check_run k ts) (fun hts => by rw [check_run, hts.headKind_append]) hf

lemma ifCheck (hyes : headKind ts = k → Decides beyond origin ts p q R)
    (hno : headKind ts ≠ k → Decides beyond origin ts p' q' R) :
    Decides beyond origin ts (Grammar.check k >>= fun b => if b = true then p else p')
      (Grammar.check k >>= fun b => if b = true then q else q') R :=
  .check (.ite (fun h => hyes (of_decide_eq_true h)) fun h => hno fun hk => h (decide_eq_true hk))

lemma ifCheckAny {ks : List TokenKind} (hyes : headKind ts ∈ ks → Decides beyond origin ts p q R)
    (hno : headKind ts ∉ ks → Decides beyond origin ts p' q' R) :
    Decides beyond origin ts (checkAny ks >>= fun b => if b = true then p else p')
      (checkAny ks >>= fun b => if b = true then q else q') R := by
  refine .look (checkAny_run ks ts) (fun hts => by rw [checkAny_run, hts.headKind_append]) (.ite ?_ ?_)
  · exact fun h => hyes (List.contains_iff_mem.mp h)
  · exact fun h => hno fun hk => h (List.contains_iff_mem.mpr hk)

lemma checkNext {f g : Bool → Parser β}
    (hf : ∀ b b', (headKind ts ≠ .finish → b = b') → Decides beyond origin ts (f b) (g b') R) :
    Decides beyond origin ts (checkNext k >>= f) (checkNext k >>= g) R := by
  intro hts hsuffix
  rw [bind_of_ok (checkNext_run k ts), bind_of_ok (checkNext_run k (ts ++ beyond))]
  refine hf _ _ (fun hkind => ?_) hts hsuffix
  rw [Ended.tokenAt_append (hts.succ_lt (List.length_pos_iff.mpr hts.ne_nil) hkind)]

lemma advance (hk : headKind ts ≠ .finish)
    (hf : ∀ t us, us.length + 1 = ts.length → Decides beyond origin us (f t) (g t) R) :
    Decides beyond origin ts (advance >>= f) (advance >>= g) R := by
  intro hts hsuffix
  cases ts with
  | nil => exact hts.elim
  | cons t us =>
    rw [List.cons_append, bind_of_ok (advance_cons (t := t) hk), bind_of_ok (advance_cons (t := t) hk)]
    exact hf t us rfl (hts.tail hk) ((List.suffix_cons t us).trans hsuffix)

lemma skip (hf : ∀ t us, us.length ≤ ts.length → Decides beyond origin us (f t) (g t) R) :
    Decides beyond origin ts (Grammar.advance >>= f) (Grammar.advance >>= g) R := by
  by_cases hk : headKind ts = .finish
  · refine .ended fun hts => .look (a := tokenAt ts 0) ?_ (fun _ => ?_) (hf _ ts (Nat.le_refl _))
    · rw [Grammar.advance]
      exact congrArg Except.ok (Prod.ext rfl (if_pos hk))
    · rw [Grammar.advance, hts.tokenAt_zero]
      exact congrArg Except.ok (Prod.ext rfl (if_pos hk))
  · exact .advance hk fun t us hus => hf t us (by omega)

lemma reject (cause : Cause) :
    Decides beyond origin ts (reject cause : Parser β) (Grammar.reject cause) R := by
  intro hts hsuffix
  refine .inr ⟨cause, tokenAt ts 0, hsuffix.subset hts.tokenAt_mem, rfl, ?_⟩
  rw [Grammar.reject, bind_of_ok (current_run _), hts.tokenAt_zero]
  rfl

lemma rejectThen (cause : Cause) {f g : α → Parser β} :
    Decides beyond origin ts (Grammar.reject cause >>= f) (Grammar.reject cause >>= g) R := by
  intro hts hsuffix
  refine .inr ⟨cause, tokenAt ts 0, hsuffix.subset hts.tokenAt_mem, rfl, ?_⟩
  have hrun : (Grammar.reject cause : Parser α) (ts ++ beyond) =
      .error (.rejected cause (tokenAt (ts ++ beyond) 0)) := rfl
  simp only [Bind.bind, StateT.bind, hrun, Except.bind, hts.tokenAt_zero]

lemma expect (hk : k ≠ .finish)
    (hf : ∀ t us, us.length + 1 = ts.length → Decides beyond origin us (f t) (g t) R) :
    Decides beyond origin ts (expect k >>= f) (expect k >>= g) R := by
  rw [Grammar.expect, bind_assoc, bind_assoc]
  refine .check ?_
  by_cases hts : headKind ts = k
  · rw [decide_eq_true hts, if_pos rfl]
    exact .advance (hts ▸ hk) hf
  · rw [decide_eq_false hts, if_neg (by simp)]
    exact .rejectThen _

lemma accept (hk : k ≠ .finish) {f g : Bool → Parser β}
    (hyes : ∀ us, us.length + 1 = ts.length → Decides beyond origin us (f true) (g true) R)
    (hno : headKind ts ≠ k → Decides beyond origin ts (f false) (g false) R) :
    Decides beyond origin ts (accept k >>= f) (accept k >>= g) R := by
  rw [Grammar.accept, bind_assoc, bind_assoc]
  refine .check ?_
  by_cases hts : headKind ts = k
  · rw [decide_eq_true hts, if_pos rfl, bind_assoc, bind_assoc]
    exact .advance (hts ▸ hk) fun _ us hus => hyes us hus
  · rw [decide_eq_false hts, if_neg (by simp)]
    exact hno hts

lemma ifAccept (hk : k ≠ .finish)
    (hyes : ∀ us, us.length + 1 = ts.length → Decides beyond origin us p q R)
    (hno : headKind ts ≠ k → Decides beyond origin ts p' q' R) :
    Decides beyond origin ts (Grammar.accept k >>= fun b => if b = true then p else p')
      (Grammar.accept k >>= fun b => if b = true then q else q') R :=
  .accept hk (fun us hus => by rw [if_pos rfl, if_pos rfl]; exact hyes us hus)
    fun h => by rw [if_neg (by simp), if_neg (by simp)]; exact hno h

end

lemma attempt {p q : Parser α} {f g : Option α → Parser β} (hp : Decides beyond ts ts p q Q)
    (hsome : ∀ a rest, Q a rest.length → Decides beyond origin rest (f (some a)) (g (some a)) R)
    (hnone : Decides beyond origin ts (f none) (g none) R) :
    Decides beyond origin ts (attempt p >>= f) (attempt q >>= g) R := by
  intro hts hsuffix
  rcases hp hts (List.suffix_refl ts) with ⟨a, rest, hp, hq, hrest, hle, ha⟩ |
    ⟨cause, found, hfound, hp, hq⟩
  · rw [bind_of_ok (attempt_ok hp), bind_of_ok (attempt_ok hq)]
    exact hsome a rest ha hrest (hle.trans hsuffix)
  · have hp' : Grammar.attempt p ts = .ok (none, ts) := by rw [Grammar.attempt, hp]
    have hq' : Grammar.attempt q (ts ++ beyond) = .ok (none, ts ++ beyond) := by
      rw [Grammar.attempt, hq]
    rw [bind_of_ok hp', bind_of_ok hq']
    exact hnone hts hsuffix

lemma rewind {f g : PUnit → Parser β} (hus : Ended us) (hsuffix : us <:+ origin)
    (hf : Decides beyond origin us (f ()) (g ()) R) :
    Decides beyond origin ts (set us >>= f) (set (us ++ beyond) >>= g) R :=
  fun _ _ => hf hus hsuffix

lemma splitting {f : List Token → α × List Token}
    (hf : Ended ts → f (ts ++ beyond) = ((f ts).1, (f ts).2 ++ beyond) ∧ Ended (f ts).2 ∧
      (f ts).2 <:+ ts) :
    Decides beyond ts ts (splitting f) (splitting f) fun _ left => left + 0 ≤ ts.length := by
  intro hts _
  obtain ⟨heq, hrest, hsuffix⟩ := hf hts
  exact .inl ⟨(f ts).1, (f ts).2, rfl, congrArg Except.ok heq, hrest, hsuffix, hsuffix.length_le⟩

end Decides

abbrev Gains {α : Type} (beyond : List Token) (gain : Nat) (ts : List Token) (p q : Parser α) :
    Prop :=
  Decides beyond ts ts p q fun _ left => left + gain ≤ ts.length

def Decisive {α : Type} (beyond : List Token) (gain least n : Nat) (rule : Nat → Parser α) : Prop :=
  ∀ ts m, 16 * ts.length + least ≤ n → n ≤ m → Gains beyond gain ts (rule n) (rule m)

lemma Decisive.zero {α : Type} {beyond : List Token} {gain least : Nat} {rule : Nat → Parser α}
    (h : 0 < least) : Decisive beyond gain least 0 rule := fun _ _ hn => by omega

lemma Decisive.succ {α : Type} {beyond : List Token} {gain least n : Nat} {rule : Nat → Parser α}
    (h : ∀ ts m, 16 * ts.length + least ≤ n + 1 → n ≤ m →
      Gains beyond gain ts (rule (n + 1)) (rule (m + 1))) :
    Decisive beyond gain least (n + 1) rule := by
  intro ts m hn hm
  obtain ⟨m, rfl⟩ := Nat.exists_eq_add_of_lt hm
  exact h ts _ hn (by omega)

end LoopLowering.Grammar
