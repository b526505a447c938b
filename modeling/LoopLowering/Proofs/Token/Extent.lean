import LoopLowering.Proofs.Token.Lexeme
import Mathlib.Data.List.TakeWhile

/-! How far lexemes reach: each has at least one character, ends inside the text, and stays on one
line. -/

namespace LoopLowering.Token

open Text Number

def Without (d : Char) (n : Nat) (cs : List Char) : Prop := n ≤ cs.length ∧ d ∉ cs.take n

abbrev OneLine := Without '\n'

namespace Without

variable {n m : Nat} {c d : Char} {cs : List Char}

lemma zero (cs : List Char) : Without d 0 cs := ⟨Nat.zero_le _, by simp⟩

lemma cons (hc : c ≠ d) (h : Without d n cs) : Without d (n + 1) (c :: cs) := by
  refine ⟨Nat.succ_le_succ h.1, ?_⟩
  rw [List.take_succ_cons, List.mem_cons, not_or]
  exact ⟨hc.symm, h.2⟩

lemma single (hc : c ≠ d) : Without d 1 (c :: cs) := .cons hc (.zero cs)

lemma add (h : Without d n cs) (h' : Without d m (cs.drop n)) : Without d (n + m) cs := by
  have hlength := h'.1
  rw [List.length_drop] at hlength
  refine ⟨by have := h.1; omega, ?_⟩
  rw [List.take_add, List.mem_append, not_or]
  exact ⟨h.2, h'.2⟩

lemma leading {p : Char → Bool} (hp : p d = false) (cs : List Char) :
    Without d (Token.leading p cs) cs := by
  refine ⟨(List.takeWhile_sublist p).length_le, fun hmem => ?_⟩
  have hinitial := List.prefix_iff_eq_take.mp (List.takeWhile_prefix p (l := cs))
  rw [Token.leading, ← hinitial] at hmem
  rw [List.mem_takeWhile_imp hmem] at hp
  cases hp

end Without

def blanks : List Char := [' ', '\t', '\r', Char.ofNat 12, '\n']

lemma mem_blanks {c : Char} (h : isBlankOrNewline c = true) : c ∈ blanks := by
  simpa [isBlankOrNewline, blanks, or_assoc] using h

variable {n : Nat} {c d : Char} {cs : List Char}

section

variable (hd : d ∈ blanks)

include hd

lemma wholeLength_without (cs : List Char) : Without d (wholeLength cs) cs := by
  have key : ∀ d ∈ blanks, (isDecimal d || d = '_') = false := forall_mem_of_all (by decide)
  rw [wholeLength]
  split
  · exact .leading (key d hd) cs
  · exact .zero cs

lemma exponentLength_without (cs : List Char) : Without d (exponentLength cs) cs := by
  have key : ∀ d ∈ blanks, ¬ (d = 'e' ∨ d = 'E') ∧ d ≠ '+' ∧ d ≠ '-' ∧ isDecimal d = false :=
    forall_mem_of_all (by decide)
  obtain ⟨hletters, hplus, hminus, hdecimal⟩ := key d hd
  cases cs with
  | nil => exact .zero []
  | cons c cs =>
    rw [exponentLength]
    split
    · rename_i hc
      have hletter : Without d 1 (c :: cs) := .single (by rintro rfl; simp_all)
      have hsign : Without d (if cs.head? = some '+' || cs.head? = some '-' then 1 else 0) cs := by
        split
        · rename_i hsign
          cases cs with
          | nil => simp at hsign
          | cons e cs => exact .single (by rintro rfl; simp_all)
        · exact .zero _
      generalize (if cs.head? = some '+' || cs.head? = some '-' then 1 else 0) = sign at *
      dsimp only
      split
      · exact .zero _
      · rw [Nat.add_assoc]
        exact hletter.add (hsign.add (.leading hdecimal _))
    · exact .zero _

omit hd in
lemma suffixLength_without {letters : List Char} (h : d ∉ letters) (cs : List Char) :
    Without d (suffixLength letters cs) cs := by
  cases cs with
  | nil => exact .zero []
  | cons c cs =>
    rw [suffixLength]
    split
    · rename_i hc
      exact .single (by rintro rfl; exact h (List.contains_iff_mem.mp hc))
    · exact .zero _

lemma floatLength?_extent (h : floatLength? cs = some n) : 0 < n ∧ Without d n cs := by
  have key : ∀ d ∈ blanks, d ∉ floatSuffix ∧ '.' ≠ d ∧ isDecimal d = false :=
    forall_mem_of_all (by decide)
  obtain ⟨hsuffix, hpoint, hdecimal⟩ := key d hd
  have hwhole := wholeLength_without hd cs
  rw [floatLength?] at h
  dsimp only at h
  split at h
  · rename_i rest hrest
    split at h
    · cases h
    · obtain rfl := Option.some.inj h
      refine ⟨by omega, .add (.add ?_ (exponentLength_without hd _)) (suffixLength_without hsuffix _)⟩
      refine .add (.add hwhole (hrest ▸ .single hpoint)) ?_
      rw [← List.drop_drop, hrest]
      exact .leading hdecimal rest
  · split at h
    · cases h
    · split at h
      · obtain rfl := Option.some.inj h
        exact ⟨by omega, .add (.add hwhole (exponentLength_without hd _))
          (suffixLength_without hsuffix _)⟩
      · cases h

omit hd in
lemma basedLength?_extent {letters : List Char} {p : Char → Bool} (hzero : '0' ≠ d)
    (hletters : d ∉ letters) (hp : (p d || d = '_') = false)
    (h : basedLength? letters p cs = some n) : 0 < n ∧ Without d n cs := by
  unfold basedLength? at h
  split at h
  · rename_i c cs
    dsimp only at h
    split at h
    · rename_i hc
      obtain rfl := Option.some.inj h
      have hletter : c ≠ d := by
        rintro rfl
        exact hletters (List.contains_iff_mem.mp (Bool.and_eq_true_iff.mp hc).1)
      exact ⟨by omega, .cons hzero (.cons hletter (.leading hp cs))⟩
    · cases h
  · cases h

lemma integerLength?_extent (h : integerLength? cs = some n) : 0 < n ∧ Without d n cs := by
  have key : ∀ d ∈ blanks, '0' ≠ d ∧ d ∉ ['x', 'X'] ∧ d ∉ ['b', 'B'] ∧ d ∉ ['l', 'L'] ∧
      (isHex d || d = '_') = false ∧ ((decide (d = '0' ∨ d = '1') || d = '_') = false) :=
    forall_mem_of_all (by decide)
  obtain ⟨hzero, hx, hb, hl, hhex, hbinary⟩ := key d hd
  rw [integerLength?, Option.map_eq_some_iff] at h
  obtain ⟨m, hm, rfl⟩ := h
  have hdigits : 0 < m ∧ Without d m cs := by
    rw [Option.or_eq_some_iff, Option.or_eq_some_iff] at hm
    rcases hm with hm | ⟨-, hm | ⟨-, hm⟩⟩
    · exact basedLength?_extent hzero hx hhex hm
    · exact basedLength?_extent hzero hb (by simpa using hbinary) hm
    · split at hm
      · cases hm
      · obtain rfl := Option.some.inj hm
        exact ⟨Nat.pos_of_ne_zero ‹_›, wholeLength_without hd cs⟩
  exact ⟨by omega, hdigits.2.add (suffixLength_without hl _)⟩

end

lemma unicodeLength?_oneLine (h : unicodeLength? cs = some n) : OneLine n cs := by
  rw [unicodeLength?] at h
  split at h
  · rename_i hu
    obtain rfl := Option.some.inj h
    simp only [Bool.and_eq_true, decide_eq_true_eq] at hu
    obtain ⟨⟨-, hlength⟩, hhex⟩ := hu
    refine .add (.leading (by decide) cs) ⟨?_, fun hmem => ?_⟩
    · have := List.length_take_le' 4 (cs.drop (leading (· = 'u') cs))
      omega
    · exact absurd (List.all_eq_true.mp hhex _ hmem) (by decide)
  · cases h

lemma escapeLengths_oneLine (h : n ∈ escapeLengths cs) (hquote : cs[n]? = some singleQuote) :
    OneLine n cs := by
  simp only [escapeLengths, List.mem_append, Option.mem_toList, List.mem_map, List.mem_reverse,
    List.mem_range] at h
  rcases h with (h | ⟨m, hm, rfl⟩) | h
  · exact unicodeLength?_oneLine h
  · have hle := Nat.lt_of_lt_of_le hm (Nat.min_le_right _ _)
    obtain ⟨hlength, hnone⟩ := Without.leading (d := '\n') (p := isOctal) (by decide) cs
    refine ⟨by omega, fun hmem => hnone ?_⟩
    exact (List.take_prefix_take_left hle).subset hmem
  · split at h
    · cases h
    · rename_i hhead
      obtain rfl := List.mem_singleton.mp h
      cases cs with
      | nil => cases hquote
      | cons c cs => exact .single (by rintro rfl; exact hhead rfl)

lemma charLength?_extent (h : charLength? cs = some n) : 0 < n ∧ OneLine n cs := by
  unfold charLength? at h
  split at h
  · rename_i q c cs
    split at h
    · cases h
    · rename_i hstart
      simp only [Bool.or_eq_true, decide_eq_true_eq, not_or, not_not] at hstart
      obtain ⟨⟨rfl, -⟩, hc⟩ := hstart
      have hquote : singleQuote ≠ '\n' := by decide
      split at h
      · rw [Option.map_eq_some_iff] at h
        obtain ⟨m, hm, rfl⟩ := h
        have hclose := List.find?_some hm
        simp only [decide_eq_true_eq] at hclose
        have hescape := escapeLengths_oneLine (List.mem_of_find?_eq_some hm) hclose
        refine ⟨by omega, .cons hquote (.cons hc (hescape.add (m := 1) ?_))⟩
        rw [List.drop_eq_getElem_cons (List.getElem?_eq_some_iff.mp hclose).1,
          (List.getElem?_eq_some_iff.mp hclose).2]
        exact .single hquote
      · split at h
        · rename_i hclose
          obtain rfl := Option.some.inj h
          cases cs with
          | nil => cases hclose
          | cons d cs =>
            obtain rfl := Option.some.inj hclose
            exact ⟨by omega, .cons hquote (.cons hc (.single hquote))⟩
        · cases h
  · cases h

lemma stringTail?_oneLine (h : stringTail? cs = some n) : OneLine n cs := by
  fun_induction stringTail? cs generalizing n with
  | case1 => cases h
  | case2 =>
    obtain rfl := Option.some.inj h
    exact .single (by decide)
  | case3 => cases h
  | case4 c cs hc ih =>
    obtain ⟨m, hm, rfl⟩ := Option.map_eq_some_iff.mp h
    exact .cons (by decide) (.cons hc (ih hm))
  | case5 => cases h
  | case6 c cs _ _ hc ih =>
    obtain ⟨m, hm, rfl⟩ := Option.map_eq_some_iff.mp h
    simp only [Bool.or_eq_true, decide_eq_true_eq, not_or] at hc
    exact .cons hc.1 (ih hm)

lemma stringLength?_extent (h : stringLength? cs = some n) : 0 < n ∧ OneLine n cs := by
  unfold stringLength? at h
  split at h
  · obtain ⟨m, hm, rfl⟩ := Option.map_eq_some_iff.mp h
    exact ⟨by omega, .cons (by decide) (stringTail?_oneLine hm)⟩
  · cases h

lemma identPart_oneLine (cs : List Char) : OneLine (cs.takeWhile isIdentPart).length cs :=
  .leading (p := isIdentPart) (by decide) cs

lemma mark_extent {m : String} (h : marks.find? (fun m => m.toList.isPrefixOf cs) = some m) :
    0 < m.length ∧ OneLine m.length cs := by
  have key : ∀ m ∈ marks, 0 < m.toList.length ∧ '\n' ∉ m.toList := by decide
  obtain ⟨hpos, hline⟩ := key m (List.mem_of_find?_eq_some h)
  have hinitial := List.find?_some h
  obtain ⟨rest, rfl⟩ := List.isPrefixOf_iff_prefix.mp hinitial
  rw [← String.length_toList]
  exact ⟨hpos, by simp, by simpa using hline⟩

inductive Rule (c : Char) (cs : List Char) : Lexeme → Prop
  | blank (starts : isBlankOrNewline c = true) : Rule c cs .blank
  | comment {n : Nat} (length : commentLength? (c :: cs) = some n) : Rule c cs (.comment n)
  | float {n : Nat} (length : floatLength? (c :: cs) = some n) :
      Rule c cs (floatLexeme ((c :: cs).take n))
  | integer {n : Nat} (noFloat : floatLength? (c :: cs) = none)
      (length : integerLength? (c :: cs) = some n) : Rule c cs (integerLexeme ((c :: cs).take n))
  | char {n : Nat} (length : charLength? (c :: cs) = some n) :
      Rule c cs (quotedLexeme .char ((c :: cs).take n))
  | string {n : Nat} (length : stringLength? (c :: cs) = some n) :
      Rule c cs (quotedLexeme .string ((c :: cs).take n))
  | ident (starts : isIdentStart c = true) :
      Rule c cs (identLexeme ((c :: cs).takeWhile isIdentPart))
  | mark : Rule c cs (markLexeme (c :: cs))

lemma rule_lexemeAt (c : Char) (cs : List Char) : Rule c cs (lexemeAt c cs) := by
  unfold lexemeAt
  dsimp only
  split
  · exact .blank ‹_›
  split
  · exact .comment ‹_›
  split
  · exact .float ‹_›
  split
  · exact .integer (Option.eq_none_iff_forall_ne_some.mpr ‹_›) ‹_›
  split
  · exact .char ‹_›
  split
  · exact .string ‹_›
  split
  · exact .ident ‹_›
  · exact .mark

def IsLiteral (n : Nat) (lexeme : Lexeme) : Prop :=
  lexeme = .malformed ∨ ∃ k v, lexeme = .token (.literal k) v n

lemma floatLexeme_literal (cs : List Char) : IsLiteral cs.length (floatLexeme cs) := by
  unfold floatLexeme
  dsimp only
  split
  · exact .inr ⟨_, _, rfl⟩
  · exact .inl rfl

lemma integerLexeme_literal (cs : List Char) : IsLiteral cs.length (integerLexeme cs) := by
  unfold integerLexeme
  dsimp only
  split
  · exact .inr ⟨_, _, rfl⟩
  · exact .inl rfl

lemma quotedLexeme_literal (q : LiteralKind) (cs : List Char) :
    IsLiteral cs.length (quotedLexeme q cs) := by
  unfold quotedLexeme
  split
  · exact .inr ⟨_, _, rfl⟩
  · exact .inl rfl

inductive Start (c : Char) (cs : List Char) : Lexeme → Prop
  | blank (blank : isBlankOrNewline c = true) : Start c cs .blank
  | comment {n : Nat} (length : commentLength? (c :: cs) = some n) : Start c cs (.comment n)
  | token {n : Nat} {k : TokenKind} {v : Constant} (pos : 0 < n) (line : OneLine n (c :: cs))
      (inner : k ≠ .finish) : Start c cs (.token k v n)
  | malformed : Start c cs .malformed
  | illegal : Start c cs .illegal

lemma IsLiteral.start {lexeme : Lexeme} (hn : 0 < n ∧ OneLine n (c :: cs))
    (h : IsLiteral ((c :: cs).take n).length lexeme) : Start c cs lexeme := by
  rw [List.length_take, Nat.min_eq_left hn.2.1] at h
  rcases h with rfl | ⟨k, v, rfl⟩
  · exact .malformed
  · exact .token hn.1 hn.2 (by rintro ⟨⟩)

lemma start_lexemeAt (c : Char) (cs : List Char) : Start c cs (lexemeAt c cs) := by
  have hnewline : '\n' ∈ blanks := by decide
  have hrule := rule_lexemeAt c cs
  generalize lexemeAt c cs = lexeme at hrule
  cases hrule with
  | blank hc => exact .blank hc
  | comment hn => exact .comment hn
  | float hn => exact (floatLexeme_literal _).start (floatLength?_extent hnewline hn)
  | integer _ hn => exact (integerLexeme_literal _).start (integerLength?_extent hnewline hn)
  | char hn => exact (quotedLexeme_literal .char _).start (charLength?_extent hn)
  | string hn => exact (quotedLexeme_literal .string _).start (stringLength?_extent hn)
  | ident hc =>
    refine .token ?_ (identPart_oneLine _) ?_
    · rw [List.takeWhile_cons, isIdentPart_of_start hc, if_pos rfl]
      exact Nat.succ_pos _
    · split <;> rintro ⟨⟩
  | mark =>
    rw [markLexeme]
    split
    · rename_i m hm
      have hextent := mark_extent hm
      exact .token hextent.1 hextent.2 (by rintro ⟨⟩)
    · exact .illegal

end LoopLowering.Token
