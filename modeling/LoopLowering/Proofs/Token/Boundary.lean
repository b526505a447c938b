import LoopLowering.Proofs.Token.Literals
import LoopLowering.Proofs.Token.Locality
import LoopLowering.Proofs.Token.Quoted
import Mathlib.Data.List.Find

/-! A lexeme stays the same when blanks are put where it ends, or further behind. -/

namespace LoopLowering.Token

open Text

section

variable {n : Nat} {c d : Char} {x y z w cs : List Char}

lemma Without.le_length (h : Without d n (x ++ d :: z)) : n ≤ x.length := by
  by_contra hlt
  refine h.2 (List.mem_take_iff_getElem.mpr ⟨x.length, ?_, ?_⟩)
  · have := h.1
    omega
  · simp

lemma Local?.blank {f : List Char → Option Nat} (hf : Local? f)
    (hd : ∀ n ∈ f (x ++ d :: z), Without d n (x ++ d :: z)) (h : ∀ n ∈ f (x ++ y), n ≤ x.length) :
    f (x ++ d :: z) = f (x ++ y) :=
  (hf fun n hn => (hd n hn).le_length).trans (hf h).symm

lemma commentTail?_cons (c : Char) (cs : List Char) :
    commentTail? (c :: cs) = if c = '*' ∧ cs.head? = some '/' then some 2
      else (commentTail? cs).map (· + 1) := by
  split
  · rename_i h
    obtain ⟨rfl, hslash⟩ := h
    cases cs with
    | nil => cases hslash
    | cons d cs =>
      obtain rfl := Option.some.inj hslash
      rfl
  · rename_i h
    rw [commentTail?]
    rintro rest rfl rfl
    exact h ⟨rfl, rfl⟩

lemma commentTail?_append (h : commentTail? (x ++ y) = some n) (hn : n ≤ x.length) (z : List Char) :
    commentTail? (x ++ z) = some n := by
  induction x generalizing n with
  | nil =>
    obtain ⟨body, rest, -, rfl, -⟩ := commentTail?_spec h
    cases hn
  | cons c x ih =>
    rw [List.cons_append, commentTail?_cons] at h ⊢
    cases x with
    | nil =>
      obtain ⟨body, rest, -, rfl, -⟩ := commentTail?_spec (commentTail?_cons c _ ▸ h)
      simp at hn
    | cons d x =>
      rw [List.cons_append, List.head?_cons] at h ⊢
      split at h
      · rename_i hend
        rw [if_pos hend, h]
      · rename_i hend
        obtain ⟨m, hm, rfl⟩ := Option.map_eq_some_iff.mp h
        rw [if_neg hend, ← List.cons_append, ih hm (Nat.le_of_succ_le_succ hn), Option.map_some]

lemma commentTail?_blank (hw : ∀ d ∈ w, isBlankOrNewline d = true) (hne : w ≠ [])
    (h : commentTail? (x ++ y) = none) : commentTail? (x ++ (w ++ y)) = none := by
  have key : isBlankOrNewline '*' = false ∧ isBlankOrNewline '/' = false := by decide
  induction x with
  | nil =>
    clear hne
    induction w with
    | nil => exact h
    | cons d w ih =>
      obtain ⟨hd, hw⟩ := List.forall_mem_cons.mp hw
      have hstar : d ≠ '*' := by rintro rfl; rw [key.1] at hd; cases hd
      have hrest := ih hw
      rw [List.nil_append] at hrest
      rw [List.nil_append, List.cons_append, commentTail?_cons, if_neg fun hend => hstar hend.1,
        hrest, Option.map_none]
  | cons c x ih =>
    rw [List.cons_append, commentTail?_cons] at h ⊢
    split at h
    · cases h
    · rename_i hend
      rw [ih (Option.map_eq_none_iff.mp h), Option.map_none, if_neg]
      rintro ⟨rfl, hslash⟩
      cases x with
      | nil =>
        obtain ⟨d, w, rfl⟩ := List.exists_cons_of_ne_nil hne
        obtain rfl := Option.some.inj hslash
        have hd := hw '/' List.mem_cons_self
        rw [key.2] at hd
        cases hd
      | cons d x => exact hend ⟨rfl, hslash⟩

lemma commentLength?_blank (hw : ∀ d ∈ w, isBlankOrNewline d = true) (hne : w ≠ [])
    (h : commentLength? (c :: (x ++ y)) = none) : commentLength? (c :: (x ++ (w ++ y))) = none := by
  by_cases hc : c = '/'
  · subst hc
    cases x with
    | nil =>
      obtain ⟨d, w, rfl⟩ := List.exists_cons_of_ne_nil hne
      have key : isBlankOrNewline '/' = false ∧ isBlankOrNewline '*' = false := by decide
      have hd := hw d List.mem_cons_self
      have hslash : d ≠ '/' := by rintro rfl; rw [key.1] at hd; cases hd
      have hstar : d ≠ '*' := by rintro rfl; rw [key.2] at hd; cases hd
      simp [commentLength?, hslash, hstar]
    | cons e x =>
      rw [List.cons_append] at h ⊢
      by_cases hslash : e = '/'
      · subst hslash
        cases h
      · by_cases hstar : e = '*'
        · subst hstar
          exact Option.map_eq_none_iff.mpr
            (commentTail?_blank hw hne (Option.map_eq_none_iff.mp h))
        · simp [commentLength?, hslash, hstar]
  · exact commentLength?_of_ne hc

lemma stringTail?_append (h : stringTail? cs = some n) (z : List Char) :
    stringTail? (cs.take n ++ z) = some n := by
  fun_induction stringTail? cs generalizing n with
  | case1 => cases h
  | case2 =>
    obtain rfl := Option.some.inj h
    rfl
  | case3 => cases h
  | case4 c cs hc ih =>
    obtain ⟨m, hm, rfl⟩ := Option.map_eq_some_iff.mp h
    rw [List.take_succ_cons, List.take_succ_cons, List.cons_append, List.cons_append, stringTail?,
      if_neg hc, ih hm, Option.map_some]
  | case5 => cases h
  | case6 c cs hquote _ hc ih =>
    obtain ⟨m, hm, rfl⟩ := Option.map_eq_some_iff.mp h
    simp only [Bool.or_eq_true, decide_eq_true_eq, not_or] at hc
    rw [List.take_succ_cons, ← List.singleton_append, List.append_assoc,
      stringTail?_plain (by simpa using ⟨hquote, hc.2, hc.1⟩), ih hm, Option.map_some]
    rfl

lemma stringLength?_append (h : stringLength? cs = some n) (z : List Char) :
    stringLength? (cs.take n ++ z) = some n := by
  unfold stringLength? at h
  split at h
  · obtain ⟨m, hm, rfl⟩ := Option.map_eq_some_iff.mp h
    rw [List.take_succ_cons, List.cons_append, stringLength?, stringTail?_append hm,
      Option.map_some]
  · cases h

lemma leading_stop {p : Char → Bool} (hd : p d = false) (x z : List Char) :
    leading p (x ++ d :: z) = leading p x := by
  rw [leading, leading, List.takeWhile_append, List.takeWhile_cons, hd]
  split
  · rename_i hall
    simp [hall]
  · rfl

lemma unicodeLength?_stop (hu : d ≠ 'u') (hd : isHex d = false) (x z : List Char) :
    unicodeLength? (x ++ d :: z) = unicodeLength? x := by
  have hle : leading (· = 'u') x ≤ x.length := (List.takeWhile_sublist _).length_le
  rw [unicodeLength?, unicodeLength?, leading_stop (by simpa using hu),
    List.drop_append_of_le_length hle]
  generalize x.drop (leading (· = 'u') x) = digits
  by_cases hfour : 4 ≤ digits.length
  · rw [List.take_append_of_le_length hfour]
  · -- The character itself would be one of the four digits.
    have hmem : d ∈ (digits ++ d :: z).take 4 := by
      rw [List.take_append, List.mem_append, List.take_cons (by omega)]
      exact .inr List.mem_cons_self
    have hnone : ((digits ++ d :: z).take 4).all isHex = false :=
      List.all_eq_false.mpr ⟨d, hmem, by simp [hd]⟩
    have hshort : ¬ (digits.take 4).length = 4 := by
      rw [List.length_take]
      omega
    simp only [hnone, hshort, Bool.and_false, decide_false, Bool.false_and, Bool.false_eq_true, if_false]

lemma escapeLengths_stop (hx : x ≠ []) (z : List Char) :
    escapeLengths (x ++ singleQuote :: z) = escapeLengths x := by
  obtain ⟨e, x, rfl⟩ := List.exists_cons_of_ne_nil hx
  rw [escapeLengths, escapeLengths, leading_stop (by decide), unicodeLength?_stop (by decide)
    (by decide), List.cons_append, List.head?_cons, List.head?_cons]

lemma escapeLengths_le (hx : x ≠ []) (h : n ∈ escapeLengths x) : n ≤ x.length := by
  have hpos := List.length_pos_of_ne_nil hx
  simp only [escapeLengths, List.mem_append, Option.mem_toList, List.mem_map, List.mem_reverse,
    List.mem_range] at h
  rcases h with (h | ⟨m, hm, rfl⟩) | h
  · exact (unicodeLength?_oneLine h).1
  · have hle : leading isOctal x ≤ x.length := (List.takeWhile_sublist _).length_le
    omega
  · split at h
    · cases h
    · obtain rfl := List.mem_singleton.mp h
      exact hpos

lemma charLength?_escape (cs : List Char) :
    charLength? (singleQuote :: '\\' :: cs) =
      ((escapeLengths cs).find? fun n => cs[n]? = some singleQuote).map (· + 3) := by
  rfl

lemma charLength?_append (h : charLength? cs = some n) (z : List Char) :
    charLength? (cs.take n ++ z) = some n := by
  rcases charLength?_inner h with ⟨c, rest, rfl, hc, rfl⟩ | ⟨escape, rest, rfl, hmem, rfl⟩
  · rw [← h]
    simp [charLength?, hc]
  · have hne : escape ≠ [] := by
      rintro rfl
      revert hmem
      simp [escapeLengths, leading, unicodeLength?]
    have htake : (singleQuote :: '\\' :: (escape ++ singleQuote :: rest)).take
        (escape.length + 3) = singleQuote :: '\\' :: (escape ++ [singleQuote]) := by
      rw [List.take_succ_cons, List.take_succ_cons, List.take_length_add_append,
        List.take_succ_cons, List.take_zero]
    rw [htake, ← h, List.cons_append, List.cons_append, List.append_assoc, List.singleton_append,
      charLength?_escape, charLength?_escape, escapeLengths_stop hne, escapeLengths_stop hne]
    congr 1
    refine List.find?_congr fun m hm => ?_
    -- Up to the closing quote the texts are the same.
    have hle := escapeLengths_le hne hm
    rw [List.getElem?_append, List.getElem?_append]
    split
    · rfl
    · rw [Nat.sub_eq_zero_of_le hle]
      rfl

lemma find?_mark {m : String} (hm : marks.find? (fun m => m.toList.isPrefixOf (x ++ y)) = some m)
    (hle : m.length ≤ x.length) (hd : d ∈ blanks) (z : List Char) :
    marks.find? (fun m => m.toList.isPrefixOf (x ++ d :: z)) = some m := by
  have key : ∀ d ∈ blanks, ∀ m ∈ marks, d ∉ m.toList := forall_mem_of_all (by decide)
  -- A mark holds no blank, so that it is one of the old text.
  have hold : ∀ l ∈ marks, l.toList.isPrefixOf (x ++ d :: z) = true → l.toList <+: x := by
    intro l hl h
    obtain ⟨rest, hrest⟩ := List.isPrefixOf_iff_prefix.mp h
    refine List.prefix_of_prefix_length_le ⟨rest, hrest⟩ (List.prefix_append _ _) ?_
    have hwithout : Without d l.toList.length (x ++ d :: z) := by
      rw [← hrest]
      exact ⟨by simp, by simpa using key d hd l hl⟩
    exact hwithout.le_length
  rw [List.find?_eq_some_iff_append] at hm ⊢
  obtain ⟨hfound, front, back, hsplit, hfront⟩ := hm
  refine ⟨?_, front, back, hsplit, fun l hl => ?_⟩
  · obtain ⟨rest, hrest⟩ := List.isPrefixOf_iff_prefix.mp hfound
    have hinitial : m.toList <+: x :=
      List.prefix_of_prefix_length_le ⟨rest, hrest⟩ (List.prefix_append _ _)
        (by rwa [String.length_toList])
    exact List.isPrefixOf_iff_prefix.mpr (hinitial.trans (List.prefix_append _ _))
  · have hl' : l ∈ marks := hsplit ▸ List.mem_append_left _ hl
    by_contra hinitial
    have := hold l hl' (by simpa using hinitial)
    have hnone := hfront l hl
    rw [List.isPrefixOf_iff_prefix.mpr (this.trans (List.prefix_append _ _))] at hnone
    cases hnone

lemma IsLiteral.width {lexeme : Lexeme} {m : Nat} (h : IsLiteral n lexeme)
    (hm : lexeme.width = some m) : n = m := by
  rcases h with rfl | ⟨k, v, rfl⟩
  · cases hm
  · exact Option.some.inj hm

lemma markLexeme_quote {q : Char} (hq : IsQuote q) (cs : List Char) :
    markLexeme (q :: cs) = .illegal := by
  rcases hq with rfl | rfl <;> simp [markLexeme, marks, singleQuote]

lemma takeWhile_eq_take (p : Char → Bool) (cs : List Char) :
    cs.takeWhile p = cs.take (leading p cs) :=
  List.prefix_iff_eq_take.mp (List.takeWhile_prefix p)

def Kept (n : Nat) (old new : Lexeme) : Prop := old.width = some n → old ≠ .illegal → new = old

lemma Kept.rule {o o' : Option Nat} {f f' : Nat → Lexeme} {rest rest' : Lexeme}
    (hsome : ∀ m, o = some m → (f m).width = some n → o' = some m ∧ f' m = f m)
    (hrest : o = none → Kept n rest rest') (hnone : o = none → rest ≠ .illegal → o' = none) :
    Kept n (o.elim rest f) (o'.elim rest' f') := by
  intro hwidth hlegal
  cases ho : o with
  | some m =>
    rw [ho] at hwidth
    obtain ⟨ho', hm⟩ := hsome m ho hwidth
    rw [ho']
    exact hm
  | none =>
    rw [ho] at hwidth hlegal
    rw [hnone ho hlegal]
    exact hrest ho hwidth hlegal

lemma Kept.literal {o o' : Option Nat} {f : List Char → Lexeme} {old new : List Char} {k : Nat}
    {rest rest' : Lexeme} (htake : ∀ m ≤ k, new.take m = old.take m) (hn : n ≤ k)
    (hf : ∀ cs, IsLiteral cs.length (f cs)) (hlength : ∀ m, o = some m → m ≤ old.length)
    (hsome : ∀ m, o = some m → m ≤ k → o' = some m) (hrest : o = none → Kept n rest rest')
    (hnone : o = none → rest ≠ .illegal → o' = none) :
    Kept n (o.elim rest fun m => f (old.take m)) (o'.elim rest' fun m => f (new.take m)) := by
  refine .rule (fun m hm hwidth => ?_) hrest hnone
  have hmn := (hf _).width hwidth
  rw [List.length_take, Nat.min_eq_left (hlength m hm)] at hmn
  subst hmn
  exact ⟨hsome m hm hn, by rw [htake m hn]⟩

lemma lexemeAt_rules (hblank : isBlankOrNewline c = false) (cs : List Char) :
    lexemeAt c cs = (commentLength? (c :: cs)).elim
      ((floatLength? (c :: cs)).elim
        ((integerLength? (c :: cs)).elim
          ((charLength? (c :: cs)).elim
            ((stringLength? (c :: cs)).elim
              (if isIdentStart c then identLexeme ((c :: cs).takeWhile isIdentPart)
                else markLexeme (c :: cs))
              fun n => quotedLexeme .string ((c :: cs).take n))
            fun n => quotedLexeme .char ((c :: cs).take n))
          fun n => integerLexeme ((c :: cs).take n))
        fun n => floatLexeme ((c :: cs).take n))
      .comment := by
  unfold lexemeAt
  simp only [hblank, Bool.false_eq_true, if_false]
  cases commentLength? (c :: cs) <;> cases floatLength? (c :: cs) <;>
    cases integerLength? (c :: cs) <;> cases charLength? (c :: cs) <;>
    cases stringLength? (c :: cs) <;> rfl

lemma identLexeme_blank (hd : d ∈ blanks) (hn : n ≤ x.length) :
    Kept n (identLexeme ((x ++ y).takeWhile isIdentPart))
      (identLexeme ((x ++ d :: z).takeWhile isIdentPart)) := by
  have key : ∀ d ∈ blanks, isIdentPart d = false := forall_mem_of_all (by decide)
  intro hwidth _
  have hlength : leading isIdentPart (x ++ y) = n := Option.some.inj hwidth
  subst hlength
  have hsame : leading isIdentPart (x ++ d :: z) = leading isIdentPart (x ++ y) :=
    (leading_stop (key d hd) x z).trans (leading_local _ hn).symm
  rw [takeWhile_eq_take, takeWhile_eq_take, hsame, List.take_append_of_le_length hn,
    List.take_append_of_le_length hn]

lemma markLexeme_blank (hd : d ∈ blanks) (hn : n ≤ x.length) :
    Kept n (markLexeme (x ++ y)) (markLexeme (x ++ d :: z)) := by
  intro hwidth hlegal
  unfold markLexeme at hwidth hlegal ⊢
  cases hm : marks.find? fun m => m.toList.isPrefixOf (x ++ y) with
  | none => exact absurd (by rw [hm]) hlegal
  | some m =>
    rw [hm] at hwidth
    obtain rfl := Option.some.inj hwidth
    rw [find?_mark hm hn hd]

/-- A lexeme that ends in front of blanks, or where blanks are put, stays the same; for a comment to
the end of its line this is assumed. -/
lemma lexemeAt_blank (hw : ∀ d ∈ w, isBlankOrNewline d = true) (hne : w ≠ [])
    (hn : n ≤ x.length + 1) (hcomment : commentLength? (c :: (x ++ y)) = some n →
      commentLength? (c :: (x ++ (w ++ y))) = some n) :
    Kept n (lexemeAt c (x ++ y)) (lexemeAt c (x ++ (w ++ y))) := by
  obtain ⟨d, w, rfl⟩ := List.exists_cons_of_ne_nil hne
  have hd := mem_blanks (hw d List.mem_cons_self)
  have htake : ∀ m ≤ x.length + 1, (c :: (x ++ (d :: w ++ y))).take m = (c :: (x ++ y)).take m := by
    intro m hm
    rw [← List.cons_append, ← List.cons_append, List.take_append_of_le_length hm,
      List.take_append_of_le_length hm]
  have hsplit : ∀ m ≤ x.length + 1, c :: (x ++ (d :: w ++ y)) =
      (c :: (x ++ y)).take m ++ (c :: (x ++ (d :: w ++ y))).drop m := by
    intro m hm
    rw [← htake m hm, List.take_append_drop]
  have hnone := commentLength?_blank (c := c) (x := x) (y := y) hw hne
  have hfloat : (∀ m ∈ floatLength? (c :: (x ++ y)), m ≤ x.length + 1) →
      floatLength? (c :: (x ++ (d :: w ++ y))) = floatLength? (c :: (x ++ y)) :=
    floatLength?_local.blank (x := c :: x) fun m hm => (floatLength?_extent hd hm).2
  have hinteger : (∀ m ∈ integerLength? (c :: (x ++ y)), m ≤ x.length + 1) →
      integerLength? (c :: (x ++ (d :: w ++ y))) = integerLength? (c :: (x ++ y)) :=
    integerLength?_local.blank (x := c :: x) fun m hm => (integerLength?_extent hd hm).2
  by_cases hblank : isBlankOrNewline c = true
  · intro _ _
    simp only [lexemeAt, hblank, if_true]
  rw [Bool.not_eq_true] at hblank
  rw [lexemeAt_rules hblank, lexemeAt_rules hblank]
  refine .rule (fun m hm hwidth => ?_) (fun hc => ?_) fun hc _ => hnone hc
  · obtain rfl := Option.some.inj hwidth
    exact ⟨hcomment hm, rfl⟩
  refine .literal htake hn floatLexeme_literal (fun m hm => (floatLength?_extent hd hm).2.1)
    (fun m hm hle => (hfloat (by simpa [hm] using hle)).trans hm) (fun hf => ?_)
    fun hf _ => (hfloat (by simp [hf])).trans hf
  refine .literal htake hn integerLexeme_literal (fun m hm => (integerLength?_extent hd hm).2.1)
    (fun m hm hle => (hinteger (by simpa [hm] using hle)).trans hm) (fun hi => ?_)
    fun hi _ => (hinteger (by simp [hi])).trans hi
  -- A quote that starts no literal would be illegal.
  refine .literal htake hn (quotedLexeme_literal .char) (fun m hm => (charLength?_extent hm).2.1)
    (fun m hm hle => ?_) (fun hq => ?_) fun hq hlegal => charLength?_of_ne ?_
  · rw [hsplit m hle]
    exact charLength?_append hm _
  · refine .literal htake hn (quotedLexeme_literal .string)
      (fun m hm => (stringLength?_extent hm).2.1) (fun m hm hle => ?_) (fun hs => ?_)
      fun hs hlegal => stringLength?_of_ne ?_
    · rw [hsplit m hle]
      exact stringLength?_append hm _
    · split
      · exact identLexeme_blank (x := c :: x) hd hn
      · exact markLexeme_blank (x := c :: x) hd hn
    · rintro rfl
      refine hlegal ?_
      rw [if_neg (by decide), markLexeme_quote (.inl rfl)]
  · rintro rfl
    refine hlegal ?_
    rw [stringLength?_of_ne (by decide), Option.elim_none, if_neg (by decide),
      markLexeme_quote (.inr rfl)]

lemma lexemeAt_comment (h : commentLength? (c :: cs) = some n) : lexemeAt c cs = .comment n := by
  have hc : c = '/' := by
    by_contra hne
    rw [commentLength?_of_ne hne] at h
    cases h
  have hblank : isBlankOrNewline c = false := by rw [hc]; rfl
  rw [lexemeAt_rules hblank, h, Option.elim_some]

lemma leading_append {p : Char → Bool} (h : leading p x = x.length) (z : List Char) :
    leading p (x ++ z) = x.length + leading p z := by
  rw [leading] at h
  rw [leading, List.takeWhile_append, if_pos h, List.length_append, leading]

lemma commentLength?_append (h : commentLength? (c :: (x ++ y)) = some n) (hn : n ≤ x.length + 1)
    (z : List Char) : commentLength? (c :: (x ++ z)) = some n ∨
      (n = x.length + 1 ∧ (∀ d ∈ y.head?, d = '\n') ∧
        ∃ m ≤ z.length, commentLength? (c :: (x ++ z)) = some (n + m)) := by
  cases x with
  | nil =>
    have : 2 ≤ n := by
      unfold commentLength? at h
      split at h
      · obtain rfl := Option.some.inj h
        omega
      · obtain ⟨m, -, rfl⟩ := Option.map_eq_some_iff.mp h
        omega
      · cases h
    rw [List.length_nil] at hn
    omega
  | cons e x =>
    rw [List.cons_append] at h ⊢
    rw [List.length_cons] at hn ⊢
    by_cases hline : c = '/' ∧ e = '/'
    · obtain ⟨rfl, rfl⟩ := hline
      rw [commentLength?] at h ⊢
      obtain rfl := Option.some.inj h
      have hlocal := leading_local (· ≠ '\n') (x := x) (y := y) (by omega)
      by_cases hall : leading (· ≠ '\n') x = x.length
      · refine .inr ⟨by omega, fun d hd => ?_, leading (· ≠ '\n') z,
          (List.takeWhile_sublist _).length_le, ?_⟩
        · by_contra hne
          obtain ⟨y, rfl⟩ : ∃ ys, y = d :: ys := ⟨y.tail, (List.cons_head?_tail hd).symm⟩
          rw [leading_append hall, leading, List.takeWhile_cons, if_pos (by simpa using hne),
            List.length_cons] at hlocal
          omega
        · rw [leading_append hall, hlocal, hall]
          congr 1
          omega
      · left
        rw [leading] at hall
        rw [hlocal, leading, leading, List.takeWhile_append, if_neg hall]
    · by_cases hblock : c = '/' ∧ e = '*'
      · obtain ⟨rfl, rfl⟩ := hblock
        obtain ⟨m, hm, rfl⟩ := Option.map_eq_some_iff.mp h
        left
        rw [commentLength?, commentTail?_append hm (by omega) z, Option.map_some]
      · have hnone : commentLength? (c :: e :: (x ++ y)) = none := by
          unfold commentLength?
          split
          · simp_all
          · simp_all
          · rfl
        rw [hnone] at h
        cases h

end

end LoopLowering.Token
