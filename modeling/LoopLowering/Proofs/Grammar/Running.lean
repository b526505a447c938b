import LoopLowering.Grammar.Entry
import LoopLowering.Proofs.Token.Spelling

/-! Running parsers on tokens: what each elementary parser does with the first tokens, and the tokens
of items one by one. -/

namespace LoopLowering

lemma eq_ok_of_toOption {α ε : Type} {r : Except ε α} {a : α} (h : r.toOption = some a) :
    r = .ok a := by
  cases r with
  | error e => cases h
  | ok b => exact congrArg Except.ok (Option.some.inj h)

namespace Realizes

variable {x : String} {l : List Item} {ts : List Token}

lemma of_mark (h : Realizes (Item.mark x :: l) ts) :
    ∃ t us, ts = t :: us ∧ t.kind = .mark x ∧ t.text = x ∧ Realizes l us := by
  obtain ⟨t, us, rfl, hk, hv, h⟩ := h.of_cons
  exact ⟨t, us, rfl, hk, by rw [Token.text, hv]; rfl, h⟩

lemma of_word (h : Realizes (Item.word x :: l) ts) :
    ∃ t us, ts = t :: us ∧ t.kind = .word x ∧ t.text = x ∧ Realizes l us := by
  obtain ⟨t, us, rfl, hk, hv, h⟩ := h.of_cons
  exact ⟨t, us, rfl, hk, by rw [Token.text, hv]; rfl, h⟩

lemma of_name (h : Realizes (Item.name x :: l) ts) :
    ∃ t us, ts = t :: us ∧ t.kind = .ident ∧ t.text = x ∧ Realizes l us := by
  obtain ⟨t, us, rfl, hk, hv, h⟩ := h.of_cons
  exact ⟨t, us, rfl, hk, by rw [Token.text, hv]; rfl, h⟩

end Realizes

namespace Grammar

variable {α β : Type}

def headKind (ts : List Token) : TokenKind := (tokenAt ts 0).kind

@[simp] lemma headKind_cons (t : Token) (ts : List Token) : headKind (t :: ts) = t.kind := rfl

@[simp] lemma tokenAt_zero (t : Token) (ts : List Token) : tokenAt (t :: ts) 0 = t := rfl

lemma tokenAt_succ {ts : List Token} (hts : ts ≠ []) (t : Token) (k : Nat) :
    tokenAt (t :: ts) (k + 1) = tokenAt ts k := by
  cases ts with
  | nil => exact absurd rfl hts
  | cons u us => simp [tokenAt]

lemma headKind_items {i : Item} {is : List Item} {us : List Token} (h : Realizes is us)
    (hi : is.head? = some i) (rest : List Token) : headKind (us ++ rest) = i.kind := by
  cases h with
  | nil => cases hi
  | cons kind => cases hi; exact kind

lemma bind_of_ok {p : Parser α} {f : α → Parser β} {ts l : List Token} {a : α}
    (h : p ts = .ok (a, l)) : (p >>= f) ts = f a l := by
  simp only [bind, StateT.bind, h, Except.bind]

lemma map_of_ok {p : Parser α} {f : α → β} {ts us : List Token} {a : α}
    (h : p ts = .ok (a, us)) : (f <$> p) ts = .ok (f a, us) := by
  rw [map_eq_pure_bind, bind_of_ok h]
  rfl

@[simp] lemma pure_run (a : α) (ts : List Token) : (pure a : Parser α) ts = .ok (a, ts) := rfl

lemma check_run (k : TokenKind) (ts : List Token) :
    check k ts = .ok (decide (headKind ts = k), ts) := rfl

lemma checkAny_run (ks : List TokenKind) (ts : List Token) :
    checkAny ks ts = .ok (ks.contains (headKind ts), ts) := rfl

lemma current_run (ts : List Token) : current ts = .ok (tokenAt ts 0, ts) := rfl

lemma get_run (ts : List Token) : (get : Parser (List Token)) ts = .ok (ts, ts) := rfl

lemma checkNext_run (k : TokenKind) (ts : List Token) :
    checkNext k ts = .ok (decide ((tokenAt ts 1).kind = k), ts) := rfl

lemma splitting_of_eq {f : List Token → α × List Token} {ts us : List Token} {a : α}
    (h : f ts = (a, us)) : splitting f ts = .ok (a, us) := by
  rw [splitting, h]

section

variable {k : TokenKind} {t : Token} {l : List Token}

lemma advance_cons (h : t.kind ≠ .finish) : advance (t :: l) = .ok (t, l) := by
  simp [advance, h]

lemma check_yes (h : headKind l = k) : check k l = .ok (true, l) := by
  rw [check_run, h, decide_eq_true rfl]

lemma check_no (h : headKind l ≠ k) : check k l = .ok (false, l) := by
  rw [check_run, decide_eq_false h]

lemma checkAny_yes {ks : List TokenKind} (h : headKind l ∈ ks) : checkAny ks l = .ok (true, l) := by
  rw [checkAny_run, List.contains_iff_mem.mpr h]

lemma checkAny_no {ks : List TokenKind} (h : headKind l ∉ ks) :
    checkAny ks l = .ok (false, l) := by
  rw [checkAny_run, List.contains_eq_mem, decide_eq_false h]

lemma accept_yes (h : t.kind = k) (hk : k ≠ .finish) : accept k (t :: l) = .ok (true, l) := by
  rw [accept, bind_of_ok (check_yes (l := t :: l) h), if_pos rfl, bind_of_ok (advance_cons (h ▸ hk))]
  rfl

lemma accept_no (h : headKind l ≠ k) : accept k l = .ok (false, l) := by
  rw [accept, bind_of_ok (check_no h), if_neg (by simp)]
  rfl

lemma expect_yes (h : t.kind = k) (hk : k ≠ .finish) : expect k (t :: l) = .ok (t, l) := by
  rw [expect, bind_of_ok (check_yes (l := t :: l) h), if_pos rfl, advance_cons (h ▸ hk)]

lemma attempt_ok {p : Parser α} {a : α} {us : List Token} (h : p l = .ok (a, us)) :
    attempt p l = .ok (some a, us) := by
  rw [attempt, h]

end

end Grammar

lemma Spells.tokenize {s : String} {is : List Item} {next : Option Char → Prop}
    (h : Spells s.toList is next) (hend : next none) :
    ∃ ts, tokenize s = .ok ts ∧ Realizes is ts := by
  obtain ⟨ts, line, hts, hpieces⟩ := h.read [] hend 1 0
  rw [List.append_nil] at hpieces
  refine ⟨ts, ?_, hts⟩
  have hall : Token.pieces 1 0 0 s.toList = .ok (ts.map Token.Piece.token) := by
    rw [hpieces]
    exact congrArg Except.ok (List.append_nil _)
  have htokens : (ts.map Token.Piece.token).filterMap (·.token?) = ts := by
    rw [List.filterMap_map]
    exact List.filterMap_some
  have hlegal : (ts.map Token.Piece.token).filterMap (·.illegal?) = [] := by
    rw [List.filterMap_map]
    exact List.filterMap_eq_nil_iff.mpr fun _ _ => rfl
  rw [LoopLowering.tokenize]
  simp only [hall, hlegal, htokens]

lemma Spells.parse {k : TextKind} {s : String} {is : List Item} {next : Option Char → Prop}
    (h : Spells s.toList is next) (hend : next none) {Q : Node → Prop}
    (hrule : ∀ (n : Nat) (ts : List Token) (t : Token), LoopLowering.tokenize s = .ok ts →
      Grammar.closed s ts = ts ++ [t] → Realizes is ts → t.kind = .finish →
        16 * (ts ++ [t]).length + 64 ≤ n →
          ∃ r, Grammar.rule k n (ts ++ [t]) = .ok (r, [t]) ∧ Q r) :
    ∃ r, parse k s = .ok r ∧ Q r := by
  obtain ⟨ts, htokens, hts⟩ := h.tokenize hend
  obtain ⟨t, ht, hclosed⟩ : ∃ t : Token, t.kind = .finish ∧ Grammar.closed s ts = ts ++ [t] :=
    ⟨_, rfl, rfl⟩
  obtain ⟨r, hread, hr⟩ :=
    hrule (Grammar.nesting (ts ++ [t])) ts t htokens hclosed hts ht (Nat.le_refl _)
  have hwhole : (Grammar.whole k (Grammar.nesting (Grammar.closed s ts))).run
      (Grammar.closed s ts) = .ok (r, [t]) := by
    rw [StateT.run, Grammar.whole, hclosed, Grammar.bind_of_ok hread,
      Grammar.bind_of_ok (Grammar.check_yes (l := [t]) ht), if_pos rfl]
    rfl
  refine ⟨r, ?_, hr⟩
  rw [LoopLowering.parse, htokens]
  simp only [bind, Except.bind, hwhole]
  rfl

end LoopLowering
