import LoopLowering.Proofs.Grammar.DeclarationAgreeing
import LoopLowering.Proofs.Token.Insertion

/-! Blanks between the tokens of a text do not change what is read from it, unless they come between
closing marks that touch. -/

namespace LoopLowering

namespace Grammar

variable {ts : List Token} {t u : Token} {p lines n : Nat}

/-- An offset lies between a `>` and a `>` or `>=` that touches it. -/
def BetweenClosers (ts : List Token) (p : Nat) : Prop :=
  ∃ t ∈ ts, ∃ u ∈ ts, t.kind = .mark ">" ∧ (u.kind = .mark ">" ∨ u.kind = .mark ">=") ∧
    touches t u = true ∧ u.start = p

lemma like_shifted (t : Token) : t.Like (t.shifted p lines n) := by
  rw [Token.shifted]
  split
  · exact ⟨rfl, rfl⟩
  · exact ⟨rfl, rfl⟩

lemma shifted_start (t : Token) :
    (t.shifted p lines n).start = if p ≤ t.start then t.start + n else t.start := by
  rw [Token.shifted]
  split <;> rfl

lemma touches_shifted (h : touches t u = true → u.start ≠ p) :
    touches t u = touches (t.shifted p lines n) (u.shifted p lines n) := by
  simp only [touches, decide_eq_true_eq, shifted_start] at h ⊢
  refine decide_eq_decide.mpr ?_
  split_ifs <;> omega

lemma respaced_map {σ : Token → Token} {e e' : Token} (hend : e.kind = .finish) (he : e.Like e')
    (hlike : ∀ t : Token, t.Like (σ t))
    (htouch : ∀ t ∈ ts, ∀ u ∈ ts, t.kind = .mark ">" → u.kind = .mark ">" ∨ u.kind = .mark ">=" →
      touches t u = touches (σ t) (σ u)) :
    Respaced (ts ++ [e]) (ts.map σ ++ [e']) := by
  induction ts with
  | nil => exact .cons he (fun ht => by rw [hend] at ht; cases ht) .nil
  | cons t ts ih =>
    refine .cons (hlike t) (fun ht hnext => ?_) (ih fun t ht u hu =>
      htouch t (List.mem_cons_of_mem _ ht) u (List.mem_cons_of_mem _ hu))
    cases ts with
    | nil =>
      have hfinish : headKind [e] = .finish := hend
      simp [hfinish] at hnext
    | cons u ts => exact htouch t (by simp) u (by simp) ht hnext

lemma respaced_closed {source source' : String} (h : ¬ BetweenClosers ts p) :
    Respaced (closed source ts) (closed source' (ts.map (Token.shifted p lines n))) := by
  refine respaced_map rfl ⟨rfl, rfl⟩ like_shifted fun t ht u hu htkind hukind => ?_
  exact touches_shifted fun htouch hstart => h ⟨t, ht, u, hu, htkind, hukind, htouch, hstart⟩

end Grammar

open Grammar

lemma parse_of_tokenize (k : TextKind) {source : String} {ts : List Token}
    (h : tokenize source = .ok ts) :
    parse k source = match whole k (nesting (closed source ts)) (closed source ts) with
      | .ok (t, _) => .ok t
      | .error e => .error (.rejected (e.diagnostic source.toList)) := by
  rw [parse, h]
  rfl

lemma parse_respaced {k : TextKind} {source source' : String} {ts us : List Token} {tree : Node}
    (hts : tokenize source = .ok ts) (hus : tokenize source' = .ok us)
    (h : Respaced (closed source ts) (closed source' us)) (hparse : parse k source = .ok tree) :
    ∃ tree', parse k source' = .ok tree' ∧ tree'.Alike tree := by
  have hnesting : nesting (closed source ts) = nesting (closed source' us) := by
    rw [nesting, nesting, h.length]
  rw [parse_of_tokenize k hts] at hparse
  rw [parse_of_tokenize k hus, ← hnesting]
  have houtcome := whole_agree k (nesting (closed source ts)) h
  generalize whole k (nesting (closed source ts)) (closed source ts) = x,
    whole k (nesting (closed source ts)) (closed source' us) = y at hparse houtcome
  cases houtcome with
  | read hab _ =>
    obtain rfl := Except.ok.inj hparse
    exact ⟨_, rfl, hab.symm⟩
  | rejected => cases hparse
  | exhausted => cases hparse

/-- Blanks in front of a token, or behind the text, leave the kinds and values of the tokens as they
are. If they do not come between closing marks that touch, they leave the tree as it is, up to the
numbers of lines. -/
theorem parse_insertAt (k : TextKind) {source : String} {tree : Node}
    (h : parse k source = .ok tree) :
    ∃ ts, tokenize source = .ok ts ∧
      ∀ (p : Nat) (w : String), (p = source.length ∨ ∃ t ∈ ts, t.start = p) →
        (∀ c ∈ w.toList, c = ' ' ∨ c = '\t' ∨ c = '\n') →
          ∃ ts', tokenize (insertAt source p w) = .ok ts' ∧
            ts'.map Token.face = ts.map Token.face ∧
            (¬ BetweenClosers ts p →
              ∃ tree', parse k (insertAt source p w) = .ok tree' ∧ tree'.Alike tree) := by
  obtain ⟨ts, hts⟩ : ∃ ts, tokenize source = .ok ts := by
    cases hts : tokenize source with
    | ok ts => exact ⟨ts, rfl⟩
    | error e =>
      rw [parse, hts] at h
      cases h
  refine ⟨ts, hts, fun p w hp hw => ?_⟩
  have hblank : ∀ c ∈ w.toList, Token.isBlankOrNewline c = true := by
    intro c hc
    rcases hw c hc with rfl | rfl | rfl <;> rfl
  have hinsert := tokenize_insertAt hts hp hblank
  refine ⟨_, hinsert, ?_, fun hbetween => parse_respaced hts hinsert (respaced_closed hbetween) h⟩
  rw [List.map_map]
  exact List.map_congr_left fun t _ =>
    Prod.ext (like_shifted t).kind.symm (like_shifted t).value.symm

theorem parse_insertAt_shift : ∃ tree, parse .statement "if (a >>b) c();" = .ok tree ∧
    ∃ tree', parse .statement "if (a >>\n b) c();" = .ok tree' ∧ tree'.Alike tree := by
  cases h : parse .statement "if (a >>b) c();" with
  | ok tree =>
    obtain ⟨ts, hts, hinsert⟩ := parse_insertAt .statement h
    have htokens : tokenize "if (a >>b) c();" = .ok [⟨.word "if", .text "if", 1, 0⟩,
      ⟨.mark "(", .text "(", 1, 3⟩, ⟨.ident, .text "a", 1, 4⟩, ⟨.mark ">", .text ">", 1, 6⟩,
      ⟨.mark ">", .text ">", 1, 7⟩, ⟨.ident, .text "b", 1, 8⟩, ⟨.mark ")", .text ")", 1, 9⟩,
      ⟨.ident, .text "c", 1, 11⟩, ⟨.mark "(", .text "(", 1, 12⟩, ⟨.mark ")", .text ")", 1, 13⟩,
      ⟨.mark ";", .text ";", 1, 14⟩] := rfl
    obtain rfl := Except.ok.inj (hts.symm.trans htokens)
    obtain ⟨-, -, -, hsame⟩ := hinsert 8 "\n "
      (.inr ⟨⟨.ident, .text "b", 1, 8⟩, by simp, rfl⟩) (forall_mem_of_all (by decide))
    obtain ⟨tree', htree', halike⟩ := hsame (by simp [BetweenClosers, touches])
    exact ⟨tree, rfl, tree', htree', halike⟩
  | error e =>
    have hok : (parse .statement "if (a >>b) c();").isOk = true := by decide +kernel
    rw [h] at hok
    cases hok

end LoopLowering
