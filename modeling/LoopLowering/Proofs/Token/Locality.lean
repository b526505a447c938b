import LoopLowering.Proofs.Token.Extent

/-! A lexeme depends on its own characters only: with a blank or the end of the text behind it, it is
the same. -/

namespace LoopLowering.Token

open Text

def Local (g : List Char → Nat) : Prop :=
  ∀ ⦃x y : List Char⦄, g (x ++ y) ≤ x.length → g (x ++ y) = g x

def Local? (f : List Char → Option Nat) : Prop :=
  ∀ ⦃x y : List Char⦄, (∀ n ∈ f (x ++ y), n ≤ x.length) → f (x ++ y) = f x

section

variable {n : Nat} {x y cs : List Char}

lemma leading_local (p : Char → Bool) : Local (leading p) := by
  intro x y h
  rw [leading, List.takeWhile_append] at h ⊢
  split
  · rename_i hall
    rw [if_pos hall, List.length_append] at h
    rw [leading, hall, List.length_append]
    omega
  · rfl

lemma Local.drop {g : List Char → Nat} (hg : Local g) (hn : n ≤ x.length)
    (h : n + g ((x ++ y).drop n) ≤ x.length) : g ((x ++ y).drop n) = g (x.drop n) := by
  rw [List.drop_append_of_le_length hn] at h ⊢
  exact hg (by rw [List.length_drop]; omega)

lemma wholeLength_digit {c : Char} (hc : isDecimal c = true) (cs : List Char) :
    wholeLength (c :: cs) = leading (fun c => isDecimal c || c = '_') (c :: cs) := by
  simp [wholeLength, hc]

lemma wholeLength_local : Local wholeLength := by
  intro x y h
  cases x with
  | nil => exact Nat.le_zero.mp h
  | cons c x =>
    by_cases hc : isDecimal c = true
    · rw [List.cons_append, wholeLength_digit hc, ← List.cons_append] at h
      rw [List.cons_append, wholeLength_digit hc, wholeLength_digit hc, ← List.cons_append]
      exact leading_local _ h
    · simp [wholeLength, hc]

lemma suffixLength_local (letters : List Char) : Local (suffixLength letters) := by
  intro x y h
  cases x with
  | nil => exact Nat.le_zero.mp h
  | cons c x => rfl

def signLength (cs : List Char) : Nat :=
  if cs.head? = some '+' || cs.head? = some '-' then 1 else 0

lemma exponentLength_letter {c : Char} (hc : (decide (c = 'e') || decide (c = 'E')) = true)
    (cs : List Char) :
    exponentLength (c :: cs) = if leading isDecimal (cs.drop (signLength cs)) = 0 then 0
      else 1 + signLength cs + leading isDecimal (cs.drop (signLength cs)) := by
  rw [exponentLength, if_pos hc]
  rfl

lemma exponentLength_local : Local exponentLength := by
  intro x y h
  cases x with
  | nil => exact Nat.le_zero.mp h
  | cons c x =>
    rw [List.cons_append] at h ⊢
    by_cases hc : (decide (c = 'e') || decide (c = 'E')) = true
    · rw [exponentLength_letter hc] at h ⊢
      rw [exponentLength_letter hc]
      cases x with
      | nil =>
        -- A letter alone is no exponent, and one with digits is longer.
        have hnone : leading isDecimal (([] : List Char).drop (signLength [])) = 0 := rfl
        rw [List.nil_append, List.length_singleton] at h
        rw [List.nil_append, if_pos hnone]
        split at h
        · exact if_pos ‹_›
        · omega
      | cons d x =>
        have hsign : signLength (d :: x ++ y) = signLength (d :: x) := rfl
        have hle : signLength (d :: x) ≤ (d :: x).length := by
          rw [signLength, List.length_cons]
          split <;> omega
        have hdigits : leading isDecimal ((d :: x ++ y).drop (signLength (d :: x))) =
            leading isDecimal ((d :: x).drop (signLength (d :: x))) := by
          refine (leading_local isDecimal).drop hle ?_
          rw [hsign, List.length_cons] at h
          split at h <;> omega
        rw [hsign, hdigits]
    · rw [exponentLength, exponentLength, if_neg hc, if_neg hc]

def scaleLength (n : Nat) (cs : List Char) : Nat :=
  exponentLength (cs.drop n) +
    suffixLength floatSuffix (cs.drop (n + exponentLength (cs.drop n)))

lemma scaleLength_local (hn : n ≤ x.length) (h : n + scaleLength n (x ++ y) ≤ x.length) :
    scaleLength n (x ++ y) = scaleLength n x := by
  rw [scaleLength] at h ⊢
  rw [scaleLength]
  have hexponent := exponentLength_local.drop (x := x) (y := y) hn (by omega)
  rw [hexponent] at h ⊢
  rw [(suffixLength_local floatSuffix).drop (x := x) (y := y) (by omega) (by omega)]

lemma floatLength?_point {rest : List Char} (hwhole : wholeLength cs = n)
    (hrest : cs.drop n = '.' :: rest) :
    floatLength? cs = if n = 0 ∧ leading isDecimal rest = 0 then none
      else some (n + 1 + leading isDecimal rest + scaleLength (n + 1 + leading isDecimal rest) cs) := by
  rw [floatLength?, hwhole, hrest]
  simp only [Bool.and_eq_true, decide_eq_true_eq, scaleLength, Nat.add_assoc]

lemma floatLength?_noPoint (hwhole : wholeLength cs = n) (hrest : (cs.drop n).head? ≠ some '.') :
    floatLength? cs = if n = 0 ∨ scaleLength n cs = 0 then none else some (n + scaleLength n cs) := by
  rw [floatLength?, hwhole]
  dsimp only
  split
  · rename_i h
    exact absurd (by rw [h]; rfl) hrest
  · rw [Nat.add_assoc, ← scaleLength]
    split
    · rw [if_pos (.inl ‹_›)]
    · split
      · rw [if_neg (by omega)]
      · rw [if_pos (by omega)]

lemma wholeLength_lt_floatLength? (h : floatLength? cs = some n) : wholeLength cs < n := by
  by_cases hpoint : ∃ rest, cs.drop (wholeLength cs) = '.' :: rest
  · obtain ⟨rest, hrest⟩ := hpoint
    rw [floatLength?_point rfl hrest] at h
    split at h
    · cases h
    · obtain rfl := Option.some.inj h
      omega
  · have hhead : (cs.drop (wholeLength cs)).head? ≠ some '.' := fun hhead =>
      hpoint ⟨_, (List.cons_head?_tail hhead).symm⟩
    rw [floatLength?_noPoint rfl hhead] at h
    split at h
    · cases h
    · obtain rfl := Option.some.inj h
      omega

lemma wholeLength_full (h : x.length ≤ wholeLength (x ++ y)) : wholeLength x = x.length := by
  cases x with
  | nil => rfl
  | cons c x =>
    by_cases hc : isDecimal c = true
    · rw [List.cons_append, wholeLength_digit hc, ← List.cons_append, leading,
        List.takeWhile_append] at h
      rw [wholeLength_digit hc, leading]
      split at h
      · assumption
      · exact Nat.le_antisymm (List.takeWhile_sublist _).length_le h
    · simp [wholeLength, hc] at h

lemma floatLength?_digits_only (h : wholeLength x = x.length) : floatLength? x = none := by
  have hnil : x.drop x.length = [] := List.drop_length
  rw [floatLength?_noPoint h (by rw [hnil]; nofun), scaleLength, hnil]
  simp [exponentLength, suffixLength]

lemma floatLength?_local : Local? floatLength? := by
  intro x y h
  by_cases hlt : wholeLength (x ++ y) < x.length
  · have hwhole := wholeLength_local hlt.le
    rw [hwhole] at hlt
    have hdrop : (x ++ y).drop _ = _ ++ y := List.drop_append_of_le_length hlt.le
    have hlength := List.length_drop (i := wholeLength x) (l := x)
    cases hrest : x.drop (wholeLength x) with
    | nil =>
      rw [hrest, List.length_nil] at hlength
      omega
    | cons c rest =>
      rw [hrest, List.length_cons] at hlength
      rw [hrest, List.cons_append] at hdrop
      by_cases hc : c = '.'
      · subst hc
        rw [floatLength?_point hwhole hdrop] at h ⊢
        rw [floatLength?_point rfl hrest]
        have hdigits : leading isDecimal (rest ++ y) = leading isDecimal rest := by
          refine leading_local _ ?_
          split at h
          · omega
          · have := h _ rfl
            omega
        rw [hdigits] at h ⊢
        split
        · rfl
        · rename_i hsome
          rw [if_neg hsome] at h
          have := h _ rfl
          rw [scaleLength_local (by omega) this]
      · rw [floatLength?_noPoint hwhole (by rw [hdrop]; simpa using hc)] at h ⊢
        rw [floatLength?_noPoint rfl (by rw [hrest]; simpa using hc)]
        by_cases hzero : wholeLength x = 0
        · rw [if_pos (.inl hzero), if_pos (.inl hzero)]
        · rw [scaleLength_local hlt.le]
          split at h
          · omega
          · exact h _ rfl
  · rw [floatLength?_digits_only (wholeLength_full (Nat.le_of_not_lt hlt)),
      Option.eq_none_iff_forall_ne_some]
    intro n hn
    have := wholeLength_lt_floatLength? hn
    have := h n hn
    omega

lemma basedLength?_local (letters : List Char) (p : Char → Bool) :
    Local? (basedLength? letters p) := by
  have hlong : ∀ {cs n}, basedLength? letters p cs = some n → 2 < n := by
    intro cs n h
    unfold basedLength? at h
    split at h
    · dsimp only at h
      split at h
      · rename_i hdigits
        obtain rfl := Option.some.inj h
        simp only [Bool.and_eq_true, decide_eq_true_eq] at hdigits
        omega
      · cases h
    · cases h
  intro x y h
  match x with
  | [] | [c] =>
    -- The letter that marks the base is missing.
    have hnone : ∀ {cs}, (∀ n ∈ basedLength? letters p cs, n ≤ 1) →
        basedLength? letters p cs = none := by
      intro cs h
      rw [Option.eq_none_iff_forall_ne_some]
      intro n hn
      have := hlong hn
      have := h n hn
      omega
    rw [hnone fun n hn => Nat.le_trans (h n hn) (by simp)]
    simp [basedLength?]
  | c :: d :: x =>
    by_cases hc : c = '0'
    · subst hc
      rw [List.cons_append, List.cons_append, basedLength?] at h ⊢
      rw [basedLength?]
      by_cases hd : letters.contains d = true
      · have hdigits : leading (fun e => p e || e = '_') (x ++ y) =
            leading (fun e => p e || e = '_') x := by
          refine leading_local _ ?_
          by_cases hzero : leading (fun e => p e || e = '_') (x ++ y) = 0
          · omega
          · have := h _ (if_pos (by simp only [hd, Bool.true_and, decide_eq_true_eq]; omega))
            rw [List.length_cons, List.length_cons] at this
            omega
        rw [hdigits]
      · rw [Bool.not_eq_true] at hd
        simp only [hd, Bool.false_and, Bool.false_eq_true, if_false]
    · rw [List.cons_append, basedLength?_of_ne_zero hc, basedLength?_of_ne_zero hc]

lemma Local?.or {f g : List Char → Option Nat} (hf : Local? f) (hg : Local? g) :
    Local? fun cs => (f cs).or (g cs) := by
  intro x y h
  dsimp only at h ⊢
  cases hfirst : f (x ++ y) with
  | none =>
    rw [← hf (y := y) (by simp [hfirst]), hfirst, Option.none_or, Option.none_or]
    exact hg (by simpa [hfirst] using h)
  | some n =>
    have hn : n ≤ x.length := h n (by simp [hfirst])
    rw [← hf (y := y) (by simpa [hfirst] using hn), hfirst, Option.some_or, Option.some_or]

lemma Local?.suffixed {f : List Char → Option Nat} (hf : Local? f) (letters : List Char) :
    Local? fun cs => (f cs).map fun n => n + suffixLength letters (cs.drop n) := by
  intro x y h
  dsimp only at h ⊢
  cases hfirst : f (x ++ y) with
  | none => rw [← hf (y := y) (by simp [hfirst]), hfirst, Option.map_none, Option.map_none]
  | some n =>
    have hn : n + suffixLength letters ((x ++ y).drop n) ≤ x.length := h _ (by simp [hfirst])
    have hle : n ≤ x.length := by omega
    rw [← hf (y := y) (by simpa [hfirst] using hle), hfirst, Option.map_some, Option.map_some,
      (suffixLength_local letters).drop hle hn]

lemma wholeLength?_local : Local? fun cs => if wholeLength cs = 0 then none else some (wholeLength cs) := by
  intro x y h
  dsimp only at h ⊢
  rw [wholeLength_local]
  split at h
  · omega
  · exact h _ rfl

lemma integerLength?_local : Local? integerLength? :=
  (((basedLength?_local ..).or ((basedLength?_local ..).or wholeLength?_local)).suffixed _)

end

end LoopLowering.Token
