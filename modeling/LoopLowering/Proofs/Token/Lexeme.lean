import LoopLowering.Layout.Expression
import LoopLowering.Proofs.Token.Spelling

/-! What single lexemes spell: marks, words, names and numbers, each before a character that does
not make it longer. -/

namespace LoopLowering

namespace Token

open Text Number

lemma isDecimal_range {c : Char} (h : isDecimal c = true) :
    48 ≤ c.toNat ∧ c.toNat < 58 ∨ 1632 ≤ c.toNat := by
  have hzeros : ∀ z ∈ decimalZeros, z = 48 ∨ 1632 ≤ z := by decide
  rw [isDecimal, decimalValue?, Option.isSome_map, List.find?_isSome] at h
  obtain ⟨z, hz, hc⟩ := h
  have hrange := Bool.and_eq_true_iff.mp hc
  simp only [decide_eq_true_eq] at hrange
  rcases hzeros z hz with rfl | hz <;> omega

structure StartsNoLiteral (c : Char) : Prop where
  blank : isBlankOrNewline c = false
  decimal : isDecimal c = false
  single : c ≠ singleQuote
  double : c ≠ '"'

section

variable {c : Char} {cs : List Char}

lemma wholeLength_of_not_decimal (h : isDecimal c = false) : wholeLength (c :: cs) = 0 := by
  simp [wholeLength, h]

lemma floatLength?_of_not_decimal (h : isDecimal c = false) (hdot : c ≠ '.') (cs : List Char) :
    floatLength? (c :: cs) = none := by
  rw [floatLength?, wholeLength_of_not_decimal h]
  simp only [List.drop_zero]
  split
  · rename_i heq
    exact absurd (List.cons.inj heq).1 hdot
  · simp

lemma basedLength?_of_ne_zero {letters : List Char} {p : Char → Bool} (h : c ≠ '0') :
    basedLength? letters p (c :: cs) = none := by
  unfold basedLength?
  split
  · rename_i heq
    exact absurd (List.cons.inj heq).1 h
  · rfl

lemma ne_zero_of_not_decimal (h : isDecimal c = false) : c ≠ '0' := by
  rintro rfl
  cases h

lemma integerLength?_of_not_decimal (h : isDecimal c = false) :
    integerLength? (c :: cs) = none := by
  have hzero := ne_zero_of_not_decimal h
  simp [integerLength?, basedLength?_of_ne_zero hzero, wholeLength_of_not_decimal h]

lemma charLength?_of_ne (h : c ≠ singleQuote) : charLength? (c :: cs) = none := by
  cases cs <;> simp [charLength?, h]

lemma stringLength?_of_ne (h : c ≠ '"') : stringLength? (c :: cs) = none := by
  unfold stringLength?
  split
  · rename_i heq
    exact absurd (List.cons.inj heq).1 h
  · rfl

lemma commentLength?_of_ne (h : c ≠ '/') : commentLength? (c :: cs) = none := by
  unfold commentLength?
  split
  · rename_i heq
    exact absurd (List.cons.inj heq).1 h
  · rename_i heq
    exact absurd (List.cons.inj heq).1 h
  · rfl

lemma lexemeAt_word_or_mark (h : StartsNoLiteral c) (hcomment : commentLength? (c :: cs) = none)
    (hfloat : floatLength? (c :: cs) = none) :
    lexemeAt c cs = if isIdentStart c then identLexeme ((c :: cs).takeWhile isIdentPart)
      else markLexeme (c :: cs) := by
  simp [lexemeAt, h.blank, hcomment, hfloat, integerLength?_of_not_decimal h.decimal,
    charLength?_of_ne h.single, stringLength?_of_ne h.double]

end

def joins (m : String) (c : Char) : Bool :=
  marks.any fun l => (m.toList ++ [c]).isPrefixOf l.toList

def MarkEnds (m : String) (next : Option Char) : Prop :=
  ∀ c, next = some c → joins m c = false ∧ (m = "/" → c ≠ '/' ∧ c ≠ '*') ∧
    (m = "." → isDecimal c = false)

lemma marks_sorted : marks.Pairwise fun a b => b.toList.length ≤ a.toList.length ∧ a ≠ b := by
  decide

lemma markLexeme_append {m : String} (hm : m ∈ marks) {rest : List Char}
    (h : ∀ c, rest.head? = some c → joins m c = false) :
    markLexeme (m.toList ++ rest) = .token (.mark m) (.text m) m.length := by
  have hfind : marks.find? (fun l => l.toList.isPrefixOf (m.toList ++ rest)) = some m := by
    rw [List.find?_eq_some_iff_append]
    refine ⟨by simp, ?_⟩
    obtain ⟨as, bs, hsplit⟩ := List.append_of_mem hm
    refine ⟨as, bs, hsplit, fun a ha => ?_⟩
    have hsorted := marks_sorted
    rw [hsplit, List.pairwise_append] at hsorted
    obtain ⟨hlen, hne⟩ := hsorted.2.2 a ha m List.mem_cons_self
    rw [Bool.not_eq_true', ← Bool.not_eq_true, List.isPrefixOf_iff_prefix]
    intro hinitial
    -- An earlier mark is as long as this one at least, so it would contain the next character.
    obtain ⟨tail, htail⟩ := List.prefix_of_prefix_length_le (List.prefix_append m.toList rest)
      hinitial hlen
    cases tail with
    | nil =>
      rw [List.append_nil] at htail
      exact hne (String.toList_inj.mp htail.symm)
    | cons c tail =>
      rw [← htail, List.prefix_append_right_inj] at hinitial
      obtain ⟨rest', rfl⟩ := hinitial
      have hjoin := h c rfl
      rw [joins, List.any_eq_false] at hjoin
      refine hjoin a (hsplit ▸ List.mem_append_left _ ha) ?_
      rw [List.isPrefixOf_iff_prefix, ← htail]
      exact ⟨tail, by simp⟩
  rw [markLexeme, hfind]

def startsMark (m : String) : Bool :=
  match m.toList with
  | [] => false
  | c :: cs => !isBlankOrNewline c && !isDecimal c && c != singleQuote && c != '"' &&
      !isIdentStart c && (c != '/' || (m == "/" || cs == ['='])) &&
      (c != '.' || (m == "." || cs == ['.', '.']))

lemma marks_start : ∀ m ∈ marks, ∃ c cs, m.toList = c :: cs ∧ isBlankOrNewline c = false ∧
    isDecimal c = false ∧ c ≠ singleQuote ∧ c ≠ '"' ∧ isIdentStart c = false ∧
    (c = '/' → m = "/" ∨ cs = ['=']) ∧ (c = '.' → m = "." ∨ cs = ['.', '.']) := by
  have hall : marks.all startsMark = true := by decide
  intro m hm
  have hstart := List.all_eq_true.mp hall m hm
  unfold startsMark at hstart
  cases hm : m.toList with
  | nil =>
    rw [hm] at hstart
    cases hstart
  | cons c cs =>
    rw [hm] at hstart
    simp only [Bool.and_eq_true, Bool.not_eq_true', bne_iff_ne, Bool.or_eq_true, beq_iff_eq]
      at hstart
    obtain ⟨⟨⟨⟨⟨⟨hblank, hdecimal⟩, hsingle⟩, hdouble⟩, hident⟩, hslash⟩, hdot⟩ := hstart
    exact ⟨c, cs, rfl, hblank, hdecimal, hsingle, hdouble, hident,
      fun hc => hslash.resolve_left (absurd hc), fun hc => hdot.resolve_left (absurd hc)⟩

lemma lexemeAt_mark {m : String} (hm : m ∈ marks) {c : Char} {cs : List Char}
    (hcs : m.toList = c :: cs) {rest : List Char} (hrest : MarkEnds m rest.head?) :
    lexemeAt c (cs ++ rest) = .token (.mark m) (.text m) (cs.length + 1) := by
  obtain ⟨c', cs', hcs', hblank, hdecimal, hsingle, hdouble, hident, hslash, hdot⟩ :=
    marks_start m hm
  obtain ⟨rfl, rfl⟩ := List.cons.inj (hcs.symm.trans hcs')
  have hcomment : commentLength? (c :: (cs ++ rest)) = none := by
    by_cases hc : c = '/'
    · subst hc
      rcases hslash rfl with rfl | rfl
      · obtain rfl : cs = [] := (List.cons.inj hcs).2.symm
        cases rest with
        | nil => rfl
        | cons d rest =>
          obtain ⟨-, hne, -⟩ := hrest d rfl
          have := hne rfl
          simp [commentLength?, this.1, this.2]
      · simp [commentLength?]
    · exact commentLength?_of_ne hc
  have hfloat : floatLength? (c :: (cs ++ rest)) = none := by
    by_cases hc : c = '.'
    · subst hc
      have hleading : leading isDecimal (cs ++ rest) = 0 := by
        rcases hdot rfl with rfl | rfl
        · obtain rfl : cs = [] := (List.cons.inj hcs).2.symm
          cases rest with
          | nil => rfl
          | cons d rest => simp [leading, (hrest d rfl).2.2 rfl]
        · simp [leading, hdecimal]
      simp [floatLength?, wholeLength_of_not_decimal hdecimal, hleading]
    · exact floatLength?_of_not_decimal hdecimal hc _
  rw [lexemeAt_word_or_mark ⟨hblank, hdecimal, hsingle, hdouble⟩ hcomment hfloat, hident]
  have hmark := markLexeme_append hm fun d hd => (hrest d hd).1
  have hlength : m.length = cs.length + 1 := by rw [← String.length_toList, hcs]; rfl
  rw [hcs, hlength] at hmark
  exact hmark

def continuations (m : String) : List Char :=
  marks.filterMap fun l => if m.toList.isPrefixOf l.toList then l.toList[m.toList.length]? else none

lemma joins_eq_false {m : String} {c : Char} (h : c ∉ continuations m) : joins m c = false := by
  rw [joins, List.any_eq_false]
  intro l hl hinitial
  obtain ⟨rest, hrest⟩ := List.isPrefixOf_iff_prefix.mp hinitial
  refine h (List.mem_filterMap.mpr ⟨l, hl, ?_⟩)
  rw [if_pos (List.isPrefixOf_iff_prefix.mpr ⟨[c] ++ rest, by rw [← List.append_assoc, hrest]⟩),
    ← hrest, List.append_assoc]
  simp

lemma markEnds_of_notMem {m : String} {next : Option Char} (h : ∀ c ∈ next, c ∉ continuations m)
    (hslash : m ≠ "/") (hdot : m ≠ ".") : MarkEnds m next := fun c hc =>
  ⟨joins_eq_false (h c hc), fun hm => absurd hm hslash, fun hm => absurd hm hdot⟩

def soloMarks : List String :=
  ["(", ")", "[", "]", "\x7b", "\x7d", ",", ";", "?", ":", "~", "@", "++", "--", "..."]

lemma soloMarks_end : ∀ m ∈ soloMarks, m ∈ marks ∧ ∀ next, MarkEnds m next := by
  have key : ∀ m ∈ soloMarks, m ∈ marks ∧ m ≠ "/" ∧ m ≠ "." ∧ continuations m = [] := by
    decide
  intro m hm
  obtain ⟨hmem, hslash, hdot, hnone⟩ := key m hm
  exact ⟨hmem, fun next => markEnds_of_notMem (by simp [hnone]) hslash hdot⟩

lemma markEnds_space : ∀ m ∈ marks, MarkEnds m (some ' ') := by
  have key : ∀ m ∈ marks, joins m ' ' = false := by decide
  rintro m hm c ⟨⟩
  exact ⟨key m hm, fun _ => by decide, fun _ => by decide⟩

end Token

namespace Spells

open Token Text Number

lemma mark {m : String} (hm : m ∈ marks) : Spells m.toList [Item.mark m] (MarkEnds m) := by
  obtain ⟨c, cs, hcs, -⟩ := marks_start m hm
  rw [hcs]
  exact token fun rest hrest => lexemeAt_mark hm hcs hrest

lemma solo {m : String} (hm : m ∈ soloMarks) (next : Option Char → Prop) :
    Spells m.toList [Item.mark m] next :=
  (mark (soloMarks_end m hm).1).mono fun c _ => (soloMarks_end m hm).2 c

end Spells

namespace Token

open Text Number

def IsWord (s : String) : Prop :=
  ∃ c cs, s.toList = c :: cs ∧ isIdentStart c = true ∧ ∀ d ∈ cs, isIdentPart d = true

def IsName (s : String) : Prop := IsWord s ∧ s ∉ reservedWords

lemma isWord_iff {s : String} : IsWord s ↔
    (s.toList.head?.any isIdentStart && s.toList.tail.all isIdentPart) = true := by
  rw [IsWord]
  cases s.toList <;> simp

instance : DecidablePred IsWord := fun _ => decidable_of_iff' _ isWord_iff

instance : DecidablePred IsName := fun s =>
  inferInstanceAs (Decidable (IsWord s ∧ s ∉ reservedWords))

def WordEnds (next : Option Char) : Prop := ∀ c, next = some c → isIdentPart c = false

lemma isIdentStart_range {c : Char} (h : isIdentStart c = true) :
    65 ≤ c.toNat ∧ c.toNat ≤ 90 ∨ 97 ≤ c.toNat ∧ c.toNat ≤ 122 ∨ c.toNat = 95 ∨ c.toNat = 36 := by
  unfold isIdentStart Char.isAlpha Char.isUpper Char.isLower at h
  simp only [Bool.or_eq_true, Bool.and_eq_true, decide_eq_true_eq] at h
  rcases h with ((⟨h1, h2⟩ | ⟨h1, h2⟩) | rfl) | rfl
  · exact .inl ⟨h1, h2⟩
  · exact .inr (.inl ⟨h1, h2⟩)
  · decide
  · decide

lemma isIdentPart_of_start {c : Char} (h : isIdentStart c = true) : isIdentPart c = true := by
  simp only [isIdentStart, isIdentPart, Char.isAlphanum, Bool.or_eq_true] at h ⊢
  tauto

lemma startsNoLiteral_of_identStart {c : Char} (h : isIdentStart c = true) :
    StartsNoLiteral c ∧ c ≠ '/' ∧ c ≠ '.' := by
  have hrange := isIdentStart_range h
  have hne : ∀ d : Char, ¬ (65 ≤ d.toNat ∧ d.toNat ≤ 90 ∨ 97 ≤ d.toNat ∧ d.toNat ≤ 122 ∨
      d.toNat = 95 ∨ d.toNat = 36) → c ≠ d := by
    rintro d hd rfl
    exact hd hrange
  refine ⟨⟨?_, ?_, hne _ (by decide), hne _ (by decide)⟩, hne _ (by decide), hne _ (by decide)⟩
  · simp [isBlankOrNewline, hne ' ' (by decide), hne '\t' (by decide), hne '\r' (by decide),
      hne (Char.ofNat 12) (by decide), hne '\n' (by decide)]
  · rw [← Bool.not_eq_true]
    intro hdecimal
    have := isDecimal_range hdecimal
    omega

lemma reservedWords_isWord : ∀ w ∈ reservedWords, IsWord w := by
  decide

end Token

namespace Spells

open Token Text Number

lemma identLike {s : String} (hs : IsWord s) :
    Spells s.toList [⟨if reservedWords.contains s then .word s else .ident, .text s, false⟩]
      WordEnds := by
  obtain ⟨c, cs, hcs, hstart, hpart⟩ := hs
  rw [hcs]
  refine token fun rest hrest => ?_
  obtain ⟨hliteral, hslash, hdot⟩ := startsNoLiteral_of_identStart hstart
  have htake : (c :: (cs ++ rest)).takeWhile isIdentPart = c :: cs := by
    rw [List.takeWhile_cons, isIdentPart_of_start hstart, if_pos rfl,
      List.takeWhile_append_of_pos hpart]
    cases rest with
    | nil => simp
    | cons d rest => simp [hrest d rfl]
  rw [lexemeAt_word_or_mark hliteral (commentLength?_of_ne hslash)
    (floatLength?_of_not_decimal hliteral.decimal hdot _), hstart, if_pos rfl, htake, identLexeme,
    ← hcs, String.ofList_toList]
  simp [hcs]

lemma name {x : String} (hx : IsName x) : Spells x.toList [Item.name x] WordEnds := by
  have h := identLike hx.1
  rwa [if_neg (by simpa using hx.2)] at h

lemma word {w : String} (hw : w ∈ reservedWords) : Spells w.toList [Item.word w] WordEnds := by
  have h := identLike (reservedWords_isWord w hw)
  rwa [if_pos (by simpa using hw)] at h

end Spells

namespace Token

open Text Number

def NumberEnds (next : Option Char) : Prop :=
  ∀ c, next = some c → isDecimal c = false ∧ c ≠ '_' ∧ c ≠ '.' ∧ c ≠ 'e' ∧ c ≠ 'E' ∧
    c ∉ floatSuffix ∧ c ≠ 'l' ∧ c ≠ 'L' ∧ c ∉ ['x', 'X'] ∧ c ∉ ['b', 'B']

lemma digitChar_facts : ∀ d < 10, isDecimal (Nat.digitChar d) = true ∧
    digitValue? (Nat.digitChar d) = some d ∧ Nat.digitChar d ∉ floatSuffix ∧
    Nat.digitChar d ≠ '_' ∧ Nat.digitChar d ≠ 'l' ∧ Nat.digitChar d ≠ 'L' ∧
    isBlankOrNewline (Nat.digitChar d) = false ∧ Nat.digitChar d ≠ '/' ∧
    (Nat.digitChar d = '0' → d = 0) := by
  decide

lemma mem_toDigits {n : Nat} {c : Char} (h : c ∈ Nat.toDigits 10 n) :
    ∃ d < 10, c = Nat.digitChar d := by
  induction n using Nat.strongRecOn with
  | ind n ih =>
    by_cases hn : n < 10
    · rw [Nat.toDigits_of_lt_base hn, List.mem_singleton] at h
      exact ⟨n, hn, h⟩
    · rw [Nat.toDigits_of_base_le (by omega) (by omega), List.mem_append,
        List.mem_singleton] at h
      rcases h with h | h
      · exact ih (n / 10) (by omega) h
      · exact ⟨n % 10, by omega, h⟩

lemma toDigits_ne_nil (n : Nat) : Nat.toDigits 10 n ≠ [] := by
  by_cases hn : n < 10
  · simp [Nat.toDigits_of_lt_base hn]
  · simp [Nat.toDigits_of_base_le (b := 10) (n := n) (by omega) (by omega)]

lemma toDigits_zero {n : Nat} {cs : List Char} (h : Nat.toDigits 10 n = '0' :: cs) : cs = [] := by
  induction n using Nat.strongRecOn generalizing cs with
  | ind n ih =>
    by_cases hn : n < 10
    · rw [Nat.toDigits_of_lt_base hn] at h
      exact (List.cons.inj h).2.symm
    · rw [Nat.toDigits_of_base_le (by omega) (by omega)] at h
      obtain ⟨c, ds, hds⟩ := List.exists_cons_of_ne_nil (toDigits_ne_nil (n / 10))
      rw [hds, List.cons_append] at h
      obtain ⟨rfl, -⟩ := List.cons.inj h
      obtain rfl := ih (n / 10) (by omega) hds
      -- The other digits are those of zero, so the number has one digit only.
      have hone : n / 10 < 10 := by
        by_contra hlt
        rw [Nat.toDigits_of_base_le (by omega) (by omega)] at hds
        have := congrArg List.length hds
        have hpos := List.length_pos_of_ne_nil (toDigits_ne_nil (n / 10 / 10))
        simp only [List.length_append, List.length_singleton] at this
        omega
      rw [Nat.toDigits_of_lt_base hone] at hds
      have := (digitChar_facts (n / 10) hone).2.2.2.2.2.2.2.2 (List.cons.inj hds).1
      omega

lemma readNat?_toDigits (n : Nat) : readNat? 10 (Nat.toDigits 10 n) = some n := by
  have key : ∀ n : Nat, (Nat.toDigits 10 n).foldlM (fun n c => do
      let v ← digitValue? c
      if v < 10 then some (n * 10 + v) else none) 0 = some n := by
    intro n
    induction n using Nat.strongRecOn with
    | ind n ih =>
      by_cases hn : n < 10
      · simp [Nat.toDigits_of_lt_base hn, (digitChar_facts n hn).2.1, hn]
      · have hlt : n % 10 < 10 := by omega
        rw [Nat.toDigits_of_base_le (by omega) (by omega), List.foldlM_append,
          ih (n / 10) (by omega)]
        simp only [Option.bind_eq_bind, Option.bind_some, List.foldlM_cons, List.foldlM_nil,
          (digitChar_facts _ hlt).2.1, hlt, if_true]
        simp only [Option.pure_def]
        congr 1
        omega
  have hne : (Nat.toDigits 10 n).isEmpty = false := by
    simp [toDigits_ne_nil n]
  rw [readNat?, hne]
  exact key n

section

variable {n : Nat} {rest : List Char}

lemma takeWhile_digits (p : Char → Bool) (hp : ∀ c ∈ Nat.toDigits 10 n, p c = true)
    (hrest : ∀ c, rest.head? = some c → p c = false) :
    (Nat.toDigits 10 n ++ rest).takeWhile p = Nat.toDigits 10 n := by
  rw [List.takeWhile_append_of_pos hp]
  cases rest with
  | nil => simp
  | cons d rest => simp [hrest d rfl]

lemma wholeLength_digits (hrest : ∀ c, rest.head? = some c → isDecimal c = false ∧ c ≠ '_') :
    wholeLength (Nat.toDigits 10 n ++ rest) = (Nat.toDigits 10 n).length := by
  have hall : ∀ c ∈ Nat.toDigits 10 n, (isDecimal c || c = '_') = true := by
    intro c hc
    obtain ⟨d, hd, rfl⟩ := mem_toDigits hc
    simp [(digitChar_facts d hd).1]
  have hhead : ((Nat.toDigits 10 n ++ rest).head?.map isDecimal).getD false = true := by
    obtain ⟨c, cs, hcs⟩ := List.exists_cons_of_ne_nil (toDigits_ne_nil n)
    obtain ⟨d, hd, rfl⟩ := mem_toDigits (hcs ▸ List.mem_cons_self : c ∈ Nat.toDigits 10 n)
    simp [hcs, (digitChar_facts d hd).1]
  rw [wholeLength, hhead, if_pos rfl, leading, takeWhile_digits _ hall]
  intro c hc
  obtain ⟨hdecimal, hne⟩ := hrest c hc
  simp [hdecimal, hne]

lemma exponentLength_of_head (h : ∀ c, rest.head? = some c → c ≠ 'e' ∧ c ≠ 'E') :
    exponentLength rest = 0 := by
  cases rest with
  | nil => rfl
  | cons c rest => simp [exponentLength, h c rfl]

lemma suffixLength_of_head {letters : List Char} (h : ∀ c, rest.head? = some c → c ∉ letters) :
    suffixLength letters rest = 0 := by
  cases rest with
  | nil => rfl
  | cons c rest => simp [suffixLength, h c rfl]

lemma floatLength?_digits (hrest : ∀ c, rest.head? = some c → isDecimal c = false ∧ c ≠ '_' ∧
    c ≠ '.' ∧ c ≠ 'e' ∧ c ≠ 'E' ∧ c ∉ floatSuffix) :
    floatLength? (Nat.toDigits 10 n ++ rest) = none := by
  have hpos := List.length_pos_of_ne_nil (toDigits_ne_nil n)
  rw [floatLength?, wholeLength_digits fun c hc => ⟨(hrest c hc).1, (hrest c hc).2.1⟩]
  simp only [List.drop_left]
  split
  · exact absurd rfl (hrest '.' rfl).2.2.1
  · rw [exponentLength_of_head fun c hc => ⟨(hrest c hc).2.2.2.1, (hrest c hc).2.2.2.2.1⟩]
    simp only [Nat.add_zero, List.drop_left,
      suffixLength_of_head fun c hc => (hrest c hc).2.2.2.2.2]
    simp

lemma basedLength?_digits {letters : List Char} {p : Char → Bool}
    (hrest : ∀ c, rest.head? = some c → c ∉ letters) :
    basedLength? letters p (Nat.toDigits 10 n ++ rest) = none := by
  obtain ⟨c, cs, hcs⟩ := List.exists_cons_of_ne_nil (toDigits_ne_nil n)
  rw [hcs, List.cons_append]
  by_cases hc : c = '0'
  · subst hc
    obtain rfl := toDigits_zero hcs
    cases rest with
    | nil => rfl
    | cons d rest => simp [basedLength?, hrest d rfl]
  · exact basedLength?_of_ne_zero hc

lemma integerLength?_digits (rest : List Char)
    (hrest : ∀ c, rest.head? = some c → isDecimal c = false ∧ c ≠ '_' ∧
    c ∉ ['x', 'X'] ∧ c ∉ ['b', 'B']) :
    integerLength? (Nat.toDigits 10 n ++ rest) =
      some ((Nat.toDigits 10 n).length + suffixLength ['l', 'L'] rest) := by
  have hne : (Nat.toDigits 10 n).length ≠ 0 := by simp [toDigits_ne_nil n]
  rw [integerLength?, basedLength?_digits fun c hc => (hrest c hc).2.2.1,
    basedLength?_digits fun c hc => (hrest c hc).2.2.2,
    wholeLength_digits fun c hc => ⟨(hrest c hc).1, (hrest c hc).2.1⟩]
  simp [hne]

lemma integerValue?_digits : integerValue? (Nat.toDigits 10 n) = some n := by
  have hvalue := readNat?_toDigits n
  unfold integerValue?
  split
  · rename_i c cs hcs
    cases toDigits_zero hcs
  · exact hvalue

lemma filter_digits : (Nat.toDigits 10 n).filter (fun c => c ≠ 'l' && c ≠ 'L' && c ≠ '_') =
    Nat.toDigits 10 n := by
  rw [List.filter_eq_self]
  intro c hc
  obtain ⟨d, hd, rfl⟩ := mem_toDigits hc
  obtain ⟨-, -, -, h1, h2, h3, -⟩ := digitChar_facts d hd
  simp [h1, h2, h3]

lemma lexemeAt_digits {c : Char} {cs : List Char} (hcs : Nat.toDigits 10 n = c :: cs)
    (hfloat : floatLength? (c :: (cs ++ rest)) = none) {k : Nat}
    (hint : integerLength? (c :: (cs ++ rest)) = some k) :
    lexemeAt c (cs ++ rest) = integerLexeme ((c :: (cs ++ rest)).take k) := by
  obtain ⟨d, hd, rfl⟩ := mem_toDigits (hcs ▸ List.mem_cons_self : c ∈ Nat.toDigits 10 n)
  obtain ⟨-, -, -, -, -, -, hblank, hslash, -⟩ := digitChar_facts d hd
  simp [lexemeAt, hblank, commentLength?_of_ne hslash, hfloat, hint]

end

end Token

namespace Spells

open Token Text Number

lemma int (n : Nat) :
    Spells (Nat.toDigits 10 n) [⟨.literal .int, .int n, false⟩] NumberEnds := by
  obtain ⟨c, cs, hcs⟩ := List.exists_cons_of_ne_nil (toDigits_ne_nil n)
  rw [hcs]
  refine token fun rest hrest => ?_
  have hfloat : floatLength? (Nat.toDigits 10 n ++ rest) = none := floatLength?_digits fun d hd => by
    have := hrest d hd
    exact ⟨this.1, this.2.1, this.2.2.1, this.2.2.2.1, this.2.2.2.2.1, this.2.2.2.2.2.1⟩
  have hint := integerLength?_digits (n := n) rest fun d hd => by
    have := hrest d hd
    exact ⟨this.1, this.2.1, this.2.2.2.2.2.2.2.2⟩
  have hsuffix : suffixLength ['l', 'L'] rest = 0 := suffixLength_of_head fun d hd => by
    have := hrest d hd
    simp [this.2.2.2.2.2.2.1, this.2.2.2.2.2.2.2.1]
  rw [hsuffix, Nat.add_zero] at hint
  have hlast : ∀ d, (Nat.toDigits 10 n).getLast? = some d → d ≠ 'l' ∧ d ≠ 'L' := by
    intro d hd
    obtain ⟨e, he, rfl⟩ := mem_toDigits (List.mem_of_getLast? hd)
    obtain ⟨-, -, -, -, h1, h2, -⟩ := digitChar_facts e he
    exact ⟨h1, h2⟩
  rw [hcs, List.cons_append] at hfloat hint
  rw [lexemeAt_digits hcs hfloat hint, ← List.cons_append, List.take_left, ← hcs]
  rw [integerLexeme, filter_digits, integerValue?_digits]
  cases hd : (Nat.toDigits 10 n).getLast? with
  | none => exact absurd (List.getLast?_eq_none_iff.mp hd) (toDigits_ne_nil n)
  | some d => simp [hlast d hd, hcs]

lemma long (n : Nat) (next : Option Char → Prop) :
    Spells (Nat.toDigits 10 n ++ ['L']) [⟨.literal .long, .int n, false⟩] next := by
  obtain ⟨c, cs, hcs⟩ := List.exists_cons_of_ne_nil (toDigits_ne_nil n)
  rw [hcs, List.cons_append]
  refine token fun rest _ => ?_
  have hfloat : floatLength? (Nat.toDigits 10 n ++ 'L' :: rest) = none :=
    floatLength?_digits fun d hd => by
      obtain rfl : 'L' = d := Option.some.inj hd
      decide
  have hint := integerLength?_digits (n := n) ('L' :: rest) fun d hd => by
    obtain rfl : 'L' = d := Option.some.inj hd
    decide
  have hsuffix : suffixLength ['l', 'L'] ('L' :: rest) = 1 := by simp [suffixLength]
  rw [hcs, List.cons_append] at hfloat hint
  rw [List.append_assoc, List.singleton_append, lexemeAt_digits hcs hfloat hint, hsuffix]
  have htake : (c :: (cs ++ 'L' :: rest)).take ((c :: cs).length + 1) =
      Nat.toDigits 10 n ++ ['L'] := by
    rw [hcs, ← List.cons_append, List.take_length_add_append]
    rfl
  have hfilter : (Nat.toDigits 10 n ++ ['L']).filter (fun c => c ≠ 'l' && c ≠ 'L' && c ≠ '_') =
      Nat.toDigits 10 n := by
    rw [List.filter_append, filter_digits]
    simp
  have hlast : (Nat.toDigits 10 n ++ ['L']).getLast? = some 'L' := List.getLast?_concat ..
  rw [htake, integerLexeme, hfilter, integerValue?_digits, hlast]
  simp [hcs]

end Spells

end LoopLowering
