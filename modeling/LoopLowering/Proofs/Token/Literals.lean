import LoopLowering.Proofs.Token.Numbers
import LoopLowering.Proofs.Token.Tiling

/-! Which literals are read: a scan fails at a literal without a value, and a character literal
stands for one character unless its escape is an octal code too large for three digits. -/

namespace LoopLowering

namespace Token

open Text Number

lemma escapeAt_eq_none_iff {c : Char} {cs : List Char} :
    escapeAt c cs = none ↔ c = 'u' ∧ unicodeLength? (c :: cs) = none := by
  rw [escapeAt]
  split
  · rename_i hc
    simp [hc]
  · rename_i hc
    split <;> simp [hc]

lemma unescapeFrom_drop (n : Nat) (cs : List Char) :
    unescapeFrom n cs = unescapeFrom 0 (cs.drop n) := by
  induction n generalizing cs with
  | zero => rfl
  | succ n ih =>
    cases cs with
    | nil => rfl
    | cons c cs => exact ih cs

inductive Unescapes : List Char → List Char → Prop
  | plain {c : Char} {cs : List Char} (plain : c = '\\' → cs = []) : Unescapes (c :: cs) cs
  | escape {c e : Char} {n : Nat} {cs : List Char} (escape : escapeAt c cs = some (e, n)) :
      Unescapes ('\\' :: c :: cs) ((c :: cs).drop n)

/-- Some escape starts with a `u` and has not the digits of a code behind it. -/
def LostEscape (cs : List Char) : Prop :=
  ∃ rest, Relation.ReflTransGen Unescapes cs ('\\' :: 'u' :: rest) ∧
    unicodeLength? ('u' :: rest) = none

lemma unescape_plain {c : Char} {cs : List Char} (h : c = '\\' → cs = []) :
    unescape (c :: cs) = (unescape cs).map (c :: ·) := by
  rw [unescape, unescapeFrom]
  · rfl
  · rintro d ds rfl rfl
    cases h rfl

lemma unescape_escape_cons (c : Char) (cs : List Char) :
    unescape ('\\' :: c :: cs) = (escapeAt c cs).bind fun p =>
      (unescape ((c :: cs).drop p.2)).map (p.1 :: ·) := by
  rw [unescape, unescapeFrom]
  cases escapeAt c cs with
  | none => rfl
  | some p =>
    simp only [Option.bind_eq_bind, Option.bind_some, unescapeFrom_drop p.2, unescape]
    cases unescapeFrom 0 ((c :: cs).drop p.2) <;> rfl

lemma Unescapes.eq_none {cs ds : List Char} (h : Unescapes cs ds) (hds : unescape ds = none) :
    unescape cs = none := by
  cases h with
  | plain hplain => rw [unescape_plain hplain, hds, Option.map_none]
  | escape hescape => simp [unescape_escape_cons, hescape, hds]

lemma unescape_eq_none_iff {cs : List Char} : unescape cs = none ↔ LostEscape cs := by
  constructor
  · induction hn : cs.length using Nat.strongRecOn generalizing cs with
    | ind n ih =>
      intro h
      subst hn
      -- Whatever stands in front, what fails is the rest, which is shorter.
      have hnext : ∀ {ds}, Unescapes cs ds → ds.length < cs.length → unescape ds = none →
          LostEscape cs := by
        intro ds hstep hlt hds
        obtain ⟨rest, hreach, hrest⟩ := ih _ hlt rfl hds
        exact ⟨rest, hreach.head hstep, hrest⟩
      cases cs with
      | nil => cases h
      | cons c cs =>
        by_cases hc : c = '\\' → cs = []
        · rw [unescape_plain hc, Option.map_eq_none_iff] at h
          exact hnext (.plain hc) (by simp) h
        · rw [Classical.not_imp] at hc
          obtain ⟨rfl, hne⟩ := hc
          obtain ⟨d, ds, rfl⟩ := List.exists_cons_of_ne_nil hne
          rw [unescape_escape_cons] at h
          cases hescape : escapeAt d ds with
          | none =>
            obtain ⟨rfl, hnone⟩ := escapeAt_eq_none_iff.mp hescape
            exact ⟨ds, .refl, hnone⟩
          | some p =>
            rw [hescape, Option.bind_some, Option.map_eq_none_iff] at h
            exact hnext (.escape hescape) (by simp only [List.length_cons, List.length_drop]; omega) h
  · rintro ⟨rest, hreach, hrest⟩
    induction hreach using Relation.ReflTransGen.head_induction_on with
    | refl => rw [unescape_escape_cons, escapeAt_eq_none_iff.mpr ⟨rfl, hrest⟩, Option.bind_none]
    | head hstep _ ih => exact hstep.eq_none ih

/-- A character literal whose escape has three octal digits, the first of them from four on. -/
def LongOctal (text : List Char) : Prop :=
  ∃ a b c rest, text = singleQuote :: '\\' :: a :: b :: c :: singleQuote :: rest ∧ '4' ≤ a ∧
    ∀ d ∈ [a, b, c], isOctal d = true

lemma charLength?_inner {text : List Char} {n : Nat} (h : charLength? text = some n) :
    (∃ c rest, text = singleQuote :: c :: singleQuote :: rest ∧ c ≠ '\\' ∧ n = 3) ∨
    ∃ escape rest, text = singleQuote :: '\\' :: (escape ++ singleQuote :: rest) ∧
      escape.length ∈ escapeLengths (escape ++ singleQuote :: rest) ∧ n = escape.length + 3 := by
  unfold charLength? at h
  split at h
  · rename_i q c cs
    split at h
    · cases h
    · rename_i hstart
      simp only [Bool.or_eq_true, decide_eq_true_eq, not_or, not_not] at hstart
      obtain ⟨⟨rfl, -⟩, -⟩ := hstart
      split at h
      · rename_i hc
        obtain ⟨m, hm, rfl⟩ := Option.map_eq_some_iff.mp h
        have hclose := List.find?_some hm
        simp only [decide_eq_true_eq] at hclose
        obtain ⟨hlt, hget⟩ := List.getElem?_eq_some_iff.mp hclose
        have hsplit : cs = cs.take m ++ singleQuote :: cs.drop (m + 1) := by
          rw [← hget, ← List.drop_eq_getElem_cons, List.take_append_drop]
        have hlength : (cs.take m).length = m := by
          rw [List.length_take, Nat.min_eq_left hlt.le]
        refine .inr ⟨cs.take m, cs.drop (m + 1), by rw [← hsplit, hc], ?_, by rw [hlength]⟩
        rw [← hsplit, hlength]
        exact List.mem_of_find?_eq_some hm
      · rename_i hc
        split at h
        · rename_i hclose
          cases cs with
          | nil => cases hclose
          | cons d cs =>
            obtain rfl := Option.some.inj hclose
            exact .inl ⟨c, cs, rfl, hc, (Option.some.inj h).symm⟩
        · cases h
  · cases h

lemma unicodeLength?_append {cs rest : List Char} (h : unicodeLength? (cs ++ rest) = some cs.length) :
    unicodeLength? cs = some cs.length := by
  rw [unicodeLength?] at h
  split at h
  · rename_i hu
    have hlength := Option.some.inj h
    simp only [Bool.and_eq_true, decide_eq_true_eq] at hu
    obtain ⟨⟨hpos, -⟩, hhex⟩ := hu
    have hus : leading (· = 'u') cs = leading (· = 'u') (cs ++ rest) := by
      have hle : ((cs ++ rest).takeWhile (· = 'u')).length ≤ cs.length := by
        rw [leading] at hlength
        omega
      rw [leading, leading, List.takeWhile_append]
      split
      · rename_i hall
        rw [List.takeWhile_append, if_pos hall, List.length_append, ← hall] at hle
        have hnil : rest.takeWhile (· = 'u') = [] := List.length_eq_zero_iff.mp (by omega)
        rw [hnil, List.append_nil, hall]
      · rfl
    have hdigits : ((cs ++ rest).drop (leading (· = 'u') cs)).take 4 =
        (cs.drop (leading (· = 'u') cs)).take 4 := by
      rw [List.drop_append_of_le_length (by omega), List.take_append_of_le_length (by simp; omega)]
    rw [← hus, hdigits] at hhex
    rw [← hus] at hpos hlength
    rw [unicodeLength?]
    have hfour : ((cs.drop (leading (· = 'u') cs)).take 4).length = 4 := by simp; omega
    simp only [hpos, hfour, hhex, decide_true, Bool.and_self, if_true, hlength]
  · cases h

lemma escapeAt_of_lengths {d e : Char} {ds rest : List Char} {n : Nat}
    (hlength : (d :: ds).length ∈ escapeLengths (d :: ds ++ rest))
    (h : escapeAt d ds = some (e, n)) :
    n = (d :: ds).length ∨ ∃ b c, ds = [b, c] ∧ n = 2 ∧ '4' ≤ d ∧ ∀ a ∈ [d, b, c], isOctal a = true := by
  simp only [escapeLengths, List.mem_append, Option.mem_toList, List.mem_map, List.mem_reverse,
    List.mem_range] at hlength
  rcases hlength with (hlength | ⟨m, hm, hmn⟩) | hlength
  · have hunicode := unicodeLength?_append hlength
    have hd : d = 'u' := by
      by_contra hne
      rw [unicodeLength?] at hunicode
      simp [leading, hne] at hunicode
    rw [escapeAt, if_pos hd, hunicode] at h
    exact .inl (Prod.mk.inj (Option.some.inj h)).2.symm
  · have hle := Nat.le_min.mp hm
    have hoctal : ∀ c ∈ d :: ds, isOctal c = true := by
      intro c hc
      have hinitial : d :: ds <+: (d :: ds ++ rest).takeWhile isOctal := by
        refine List.prefix_of_prefix_length_le (List.prefix_append _ _)
          (List.takeWhile_prefix isOctal) ?_
        rw [← hmn]
        exact hle.2
      exact List.mem_takeWhile_imp (hinitial.subset hc)
    obtain ⟨hd, hds⟩ := List.forall_mem_cons.mp hoctal
    have hu : d ≠ 'u' := by
      rintro rfl
      revert hd
      decide
    have htake : ∀ k, (ds.take k).takeWhile isOctal = ds.take k := fun k =>
      List.takeWhile_eq_self_iff.mpr fun c hc => hds c (List.mem_of_mem_take hc)
    rw [escapeAt, if_neg hu, if_pos hd] at h
    simp only [htake, List.length_cons, List.length_take] at h
    obtain ⟨-, hn⟩ := Prod.mk.inj (Option.some.inj h)
    rw [List.length_cons] at hmn
    have hthree := hle.1
    split at hn
    · left
      rw [List.length_cons]
      omega
    · rename_i hlarge
      rcases ds with _ | ⟨b, _ | ⟨c, _ | ⟨_, _⟩⟩⟩
      · exact .inl (by simpa using hn.symm)
      · exact .inl (by simpa using hn.symm)
      · refine .inr ⟨b, c, rfl, by simpa using hn.symm, ?_, hoctal⟩
        have : ¬ d.toNat ≤ 51 := hlarge
        exact show 52 ≤ d.toNat by omega
      · simp only [List.length_cons] at hmn
        omega
  · split at hlength
    · cases hlength
    · obtain rfl : ds = [] := by simpa using hlength
      rw [escapeAt] at h
      split at h
      · rename_i hu
        subst hu
        have hnone : unicodeLength? ['u'] = none := by decide
        rw [hnone] at h
        cases h
      · split at h
        · exact .inl (by simpa using (Prod.mk.inj (Option.some.inj h)).2.symm)
        · exact .inl (by simpa using (Prod.mk.inj (Option.some.inj h)).2.symm)

lemma charLength?_value {text s : List Char} {n : Nat} (h : charLength? text = some n)
    (hs : unescape ((text.take n).drop 1).dropLast = some s) :
    s.length = 1 ∨ s.length = 2 ∧ LongOctal text := by
  rcases charLength?_inner h with ⟨c, rest, rfl, hc, rfl⟩ | ⟨escape, rest, rfl, hlength, rfl⟩
  · have hinner : unescape [c] = some s := hs
    rw [unescape_plain fun h => absurd h hc] at hinner
    obtain rfl := Option.some.inj hinner
    exact .inl rfl
  · have hinner : ((singleQuote :: '\\' :: (escape ++ singleQuote :: rest)).take
        (escape.length + 3)).drop 1 = ('\\' :: escape) ++ [singleQuote] := by
      rw [List.take_succ_cons, List.drop_succ_cons, List.drop_zero, List.take_succ_cons,
        List.take_length_add_append, List.take_succ_cons, List.take_zero, List.cons_append]
    rw [hinner, List.dropLast_concat] at hs
    cases escape with
    | nil =>
      obtain rfl : s = ['\\'] := (Option.some.inj hs).symm
      exact .inl rfl
    | cons d ds =>
      rw [unescape_escape_cons] at hs
      obtain ⟨⟨e, k⟩, hescape, hs⟩ := Option.bind_eq_some_iff.mp hs
      obtain ⟨s, hrest, rfl⟩ := Option.map_eq_some_iff.mp hs
      rcases escapeAt_of_lengths hlength hescape with rfl | ⟨b, c, rfl, rfl, hlarge, hoctal⟩
      · rw [List.drop_length] at hrest
        obtain rfl := Option.some.inj hrest
        exact .inl rfl
      · have hc : c ≠ '\\' := by
          rintro rfl
          exact absurd (hoctal '\\' (by simp)) (by decide)
        have hlast : unescape [c] = some s := hrest
        rw [unescape_plain fun h => absurd h hc] at hlast
        obtain rfl := Option.some.inj hlast
        exact .inr ⟨rfl, d, b, c, rest, rfl, hlarge, hoctal⟩

lemma lexemeAt_char {c : Char} {cs : List Char} {v : Constant} {n : Nat}
    (h : lexemeAt c cs = .token (.literal .char) v n) :
    ∃ s, v = .text s ∧ (s.length = 1 ∨ s.length = 2 ∧ LongOctal (c :: cs)) := by
  have hrule := rule_lexemeAt c cs
  generalize lexemeAt c cs = lexeme at h hrule
  cases hrule with
  | blank => cases h
  | comment => cases h
  | float =>
    unfold floatLexeme at h
    dsimp only at h
    split at h
    · have hkind := TokenKind.literal.inj (Lexeme.token.inj h).1
      split at hkind
      · split at hkind <;> cases hkind
      · cases hkind
    · cases h
  | integer =>
    unfold integerLexeme at h
    dsimp only at h
    split at h
    · have hkind := TokenKind.literal.inj (Lexeme.token.inj h).1
      split at hkind
      · split at hkind <;> cases hkind
      · cases hkind
    · cases h
  | @char m hm =>
    unfold quotedLexeme at h
    split at h
    · rename_i inner hinner
      obtain ⟨-, rfl, -⟩ := Lexeme.token.inj h
      refine ⟨_, rfl, ?_⟩
      rw [String.length_ofList]
      exact charLength?_value hm hinner
    · cases h
  | string =>
    unfold quotedLexeme at h
    split at h
    · cases h
    · cases h
  | ident =>
    obtain ⟨hkind, -, -⟩ := Lexeme.token.inj h
    split at hkind <;> cases hkind
  | mark =>
    unfold markLexeme at h
    split at h <;> cases h

/-- A text starts with a number or a literal between quotes that stands for nothing. -/
inductive Valueless (text : List Char) : Prop
  | integer {n : Nat} (noFloat : floatLength? text = none) (length : integerLength? text = some n)
      (digits : NoInteger (integerDigits (text.take n)))
  | char {n : Nat} (length : charLength? text = some n)
      (escape : LostEscape ((text.take n).drop 1).dropLast)
  | string {n : Nat} (length : stringLength? text = some n)
      (escape : LostEscape ((text.take n).drop 1).dropLast)

lemma quotedLexeme_eq_malformed_iff {k : LiteralKind} {cs : List Char} :
    quotedLexeme k cs = .malformed ↔ LostEscape (cs.drop 1).dropLast := by
  rw [← unescape_eq_none_iff, quotedLexeme]
  cases unescape (cs.drop 1).dropLast <;> simp

lemma isDecimal_of_integerLength? {c : Char} {cs : List Char} {n : Nat}
    (h : integerLength? (c :: cs) = some n) : isDecimal c = true := by
  by_contra hc
  rw [integerLength?_of_not_decimal (by simpa using hc)] at h
  cases h

lemma lexemeAt_eq_malformed_iff {c : Char} {cs : List Char} :
    lexemeAt c cs = .malformed ↔ Valueless (c :: cs) := by
  constructor
  · intro h
    have hrule := rule_lexemeAt c cs
    generalize lexemeAt c cs = lexeme at h hrule
    cases hrule with
    | blank => cases h
    | comment => cases h
    | float hn => exact absurd h (floatLexeme_ne_malformed hn)
    | integer hfloat hn => exact .integer hfloat hn ((integerLexeme_eq_malformed_iff hn).mp h)
    | char hn => exact .char hn (quotedLexeme_eq_malformed_iff.mp h)
    | string hn => exact .string hn (quotedLexeme_eq_malformed_iff.mp h)
    | ident => cases h
    | mark =>
      unfold markLexeme at h
      split at h <;> cases h
  · intro h
    cases h with
    | integer noFloat length digits =>
      have hdecimal := isDecimal_of_integerLength? length
      have hne : ∀ d, isDecimal d = false → c ≠ d := by
        rintro d hd rfl
        rw [hdecimal] at hd
        cases hd
      have hblank : isBlankOrNewline c = false := by
        simp [isBlankOrNewline, hne ' ' (by decide), hne '\t' (by decide), hne '\r' (by decide),
          hne (Char.ofNat 12) (by decide), hne '\n' (by decide)]
      simp [lexemeAt, hblank, commentLength?_of_ne (hne '/' (by decide)), noFloat, length,
        (integerLexeme_eq_malformed_iff length).mpr digits]
    | char length escape =>
      obtain rfl : c = singleQuote := by
        by_contra hne
        rw [charLength?_of_ne hne] at length
        cases length
      have hblank : isBlankOrNewline singleQuote = false := by decide
      have hdecimal : isDecimal singleQuote = false := by decide
      simp [lexemeAt, hblank, commentLength?_of_ne (show singleQuote ≠ '/' by decide),
        floatLength?_of_not_decimal hdecimal (by decide), integerLength?_of_not_decimal hdecimal,
        length, quotedLexeme_eq_malformed_iff.mpr escape]
    | string length escape =>
      obtain rfl : c = '"' := by
        by_contra hne
        rw [stringLength?_of_ne hne] at length
        cases length
      have hblank : isBlankOrNewline '"' = false := by decide
      have hdecimal : isDecimal '"' = false := by decide
      simp [lexemeAt, hblank, commentLength?_of_ne (show '"' ≠ '/' by decide),
        floatLength?_of_not_decimal hdecimal (by decide), integerLength?_of_not_decimal hdecimal,
        charLength?_of_ne (show '"' ≠ singleQuote by decide), length,
        quotedLexeme_eq_malformed_iff.mpr escape]

def Lexeme.width : Lexeme → Option Nat
  | .blank | .illegal => some 1
  | .comment n | .token _ _ n => some n
  | .malformed => none

/-- A scan goes from a text to the rest of it behind its first lexeme. -/
inductive Passes : List Char → List Char → Prop
  | lexeme {c : Char} {cs : List Char} {n : Nat} (width : (lexemeAt c cs).width = some n) :
      Passes (c :: cs) ((c :: cs).drop n)

/-- A scan of a text comes to a rest of it. -/
abbrev Reaches : List Char → List Char → Prop := Relation.ReflTransGen Passes

lemma width_pos {c : Char} {cs : List Char} {n : Nat} (h : (lexemeAt c cs).width = some n) :
    0 < n ∧ n ≤ (c :: cs).length := by
  have hstart := start_lexemeAt c cs
  generalize lexemeAt c cs = lexeme at h hstart
  cases hstart with
  | blank =>
    obtain rfl := Option.some.inj h
    exact ⟨Nat.one_pos, by simp⟩
  | comment hn =>
    obtain rfl := Option.some.inj h
    exact ⟨(commentLength?_skips hn).1, (commentLength?_skips hn).2.1⟩
  | token hpos hline =>
    obtain rfl := Option.some.inj h
    exact ⟨hpos, hline.1⟩
  | malformed => cases h
  | illegal =>
    obtain rfl := Option.some.inj h
    exact ⟨Nat.one_pos, by simp⟩

lemma pieces_error_of_width {c : Char} {cs : List Char} {n : Nat}
    (h : (lexemeAt c cs).width = some n) (line start : Nat) : ∃ line' start', ∀ f,
      pieces line start 0 (c :: cs) = .error f ↔ pieces line' start' 0 ((c :: cs).drop n) = .error f := by
  obtain ⟨hpos, hn⟩ := width_pos h
  obtain ⟨m, rfl⟩ := Nat.exists_eq_succ_of_ne_zero (Nat.ne_of_gt hpos)
  have hpast := pieces_past (Nat.le_of_succ_le_succ hn) (if c = '\n' then line + 1 else line)
    (start + 1)
  refine ⟨(if c = '\n' then line + 1 else line) + (cs.take m).count '\n', start + 1 + m, fun f => ?_⟩
  rw [List.drop_succ_cons, ← hpast, pieces]
  cases hlex : lexemeAt c cs with
  | blank =>
    rw [hlex] at h
    obtain rfl : m = 0 := by simpa using (Option.some.inj h).symm
    rfl
  | comment k =>
    rw [hlex] at h
    obtain rfl : k = m + 1 := Option.some.inj h
    rfl
  | malformed => rw [hlex] at h; cases h
  | token k v l =>
    rw [hlex] at h
    obtain rfl : l = m + 1 := Option.some.inj h
    dsimp only
    rw [Nat.add_sub_cancel]
    cases pieces (if c = '\n' then line + 1 else line) (start + 1) m cs <;>
      simp [bind, Except.bind, pure, Except.pure]
  | illegal =>
    rw [hlex] at h
    obtain rfl : m = 0 := by simpa using (Option.some.inj h).symm
    dsimp only
    cases pieces (if c = '\n' then line + 1 else line) (start + 1) 0 cs <;>
      simp [bind, Except.bind, pure, Except.pure]

lemma pieces_error_iff {cs : List Char} {f : Fault} (line start : Nat) :
    pieces line start 0 cs = .error f ↔ f = .badValue ∧ ∃ rest, Reaches cs rest ∧ Valueless rest := by
  constructor
  · induction hn : cs.length using Nat.strongRecOn generalizing cs line start with
    | ind n ih =>
      subst hn
      intro h
      cases cs with
      | nil => cases h
      | cons c cs =>
        cases hwidth : (lexemeAt c cs).width with
        | none =>
          have hlex : lexemeAt c cs = .malformed := by
            cases hlex : lexemeAt c cs with
            | malformed => rfl
            | _ => rw [hlex] at hwidth; cases hwidth
          rw [pieces, hlex] at h
          exact ⟨(Except.error.inj h).symm, _, .refl, lexemeAt_eq_malformed_iff.mp hlex⟩
        | some n =>
          obtain ⟨line', start', hnext⟩ := pieces_error_of_width hwidth line start
          obtain ⟨hpos, -⟩ := width_pos hwidth
          obtain ⟨hf, rest, hreach, hrest⟩ := ih _ (by rw [List.length_drop]; simp; omega) line'
            start' rfl ((hnext f).mp h)
          exact ⟨hf, rest, hreach.head (.lexeme hwidth), hrest⟩
  · rintro ⟨rfl, rest, hreach, hrest⟩
    induction hreach using Relation.ReflTransGen.head_induction_on generalizing line start with
    | refl =>
      cases rest with
      | nil => cases hrest with
        | integer _ length => cases length
        | char length => cases length
        | string length => cases length
      | cons c cs => rw [pieces, lexemeAt_eq_malformed_iff.mpr hrest]
    | head hstep _ ih =>
      cases hstep with
      | lexeme width =>
        obtain ⟨line', start', hnext⟩ := pieces_error_of_width width line start
        exact (hnext _).mpr (ih line' start')

end Token

lemma tokenize_fault_iff {source : String} {f : Fault} :
    tokenize source = .error (.fault f) ↔ Token.pieces 1 0 0 source.toList = .error f := by
  unfold tokenize
  dsimp only
  split
  · rename_i e he
    rw [he]
    exact ⟨fun h => by cases h; rfl, fun h => by cases h; rfl⟩
  · rename_i ps hps
    rw [hps]
    split
    · exact ⟨nofun, nofun⟩
    · exact ⟨nofun, nofun⟩

/-- A text is split into tokens, or rejected with a place, unless the scan comes to a literal without
a value; a character literal is one character, or two for a code of three octal digits from four
hundred on. -/
theorem literals_convert (source : String) :
    (∀ f, tokenize source = .error (.fault f) ↔
      f = .badValue ∧ ∃ rest, Token.Reaches source.toList rest ∧ Token.Valueless rest) ∧
    ∀ ts, tokenize source = .ok ts → ∀ t ∈ ts, t.kind = .literal .char →
      ∃ s, t.value = .text s ∧
        (s.length = 1 ∨ s.length = 2 ∧ Token.LongOctal (source.toList.drop t.start)) := by
  refine ⟨fun f => tokenize_fault_iff.trans (Token.pieces_error_iff 1 0), fun ts hts t ht hkind => ?_⟩
  obtain ⟨stops, htiles, -⟩ := tiles_of_tokenize hts
  obtain ⟨stop, hends⟩ := htiles.endsAt t ht
  obtain ⟨c, cs, htext, hlex⟩ := hends.lexeme
  rw [hkind] at hlex
  rw [htext]
  exact Token.lexemeAt_char hlex

theorem literals_convert_code :
    let source := "'\\477' 0x1F"
    let ts : List Token := [⟨.literal .char, .text "'7", 1, 0⟩, ⟨.literal .int, .int 31, 1, 7⟩]
    tokenize source = .ok ts ∧ ∀ t ∈ ts, t.kind = .literal .char →
      ∃ s, t.value = .text s ∧
        (s.length = 1 ∨ s.length = 2 ∧ Token.LongOctal (source.toList.drop t.start)) :=
  ⟨rfl, (literals_convert _).2 _ rfl⟩

/-- Not every literal that is recognized has a value, and not every character literal is one
character. -/
theorem literals_unconverted :
    tokenize "08" = .error (.fault .badValue) ∧ tokenize "0x_" = .error (.fault .badValue) ∧
      tokenize "\"\\u\"" = .error (.fault .badValue) ∧
        tokenize "'\\477'" = .ok [⟨.literal .char, .text "'7", 1, 0⟩] :=
  ⟨rfl, rfl, rfl, rfl⟩

end LoopLowering
