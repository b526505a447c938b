import LoopLowering.Proofs.Token.Lexeme

/-! Character and string literals: reading takes back what writing has escaped. -/

namespace LoopLowering

namespace Token

open Text Layout

def IsQuote (q : Char) : Prop := q = '"' ∨ q = singleQuote

lemma escapeChar_cases {q : Char} (hq : IsQuote q) (c : Char) :
    (∃ d, escapeChar q c = ['\\', d] ∧ namedEscape d = c ∧ d ≠ 'u' ∧ isOctal d = false ∧ d ≠ '\n') ∨
    (c.toNat < 32 ∧ escapeChar q c = '\\' :: 'u' :: hexDigits 4 c.toNat) ∨
    (escapeChar q c = [c] ∧ c ≠ '\\' ∧ c ≠ '\n' ∧ c ≠ q) := by
  have hquote : namedEscape q = q ∧ q ≠ 'u' ∧ isOctal q = false ∧ q ≠ '\n' := by
    rcases hq with rfl | rfl <;> decide
  unfold escapeChar
  split
  · subst_vars
    exact .inl ⟨'n', rfl, by decide⟩
  split
  · subst_vars
    exact .inl ⟨'t', rfl, by decide⟩
  split
  · subst_vars
    exact .inl ⟨'b', rfl, by decide⟩
  split
  · subst_vars
    exact .inl ⟨'r', rfl, by decide⟩
  split
  · subst_vars
    exact .inl ⟨'f', rfl, by decide⟩
  split
  · subst_vars
    exact .inl ⟨'\\', rfl, by decide⟩
  split
  · rename_i hc
    exact .inl ⟨c, rfl, by simpa [hc] using hquote⟩
  split
  · rename_i h
    exact .inr (.inl ⟨h, rfl⟩)
  · exact .inr (.inr ⟨rfl, ‹_›, ‹_›, ‹_›⟩)

lemma hexDigits_code : ∀ n < 32, valueOf 16 (hexDigits 4 n) = n ∧
    (hexDigits 4 n).all isHex = true ∧ (hexDigits 4 n).length = 4 ∧
    (hexDigits 4 n).head? = some '0' ∧
      (hexDigits 4 n).all (fun d => d ≠ '"' ∧ d ≠ '\\' ∧ d ≠ '\n') = true := by
  decide

lemma unicodeLength?_code {n : Nat} (hn : n < 32) (rest : List Char) :
    unicodeLength? ('u' :: hexDigits 4 n ++ rest) = some 5 := by
  obtain ⟨-, hhex, hlength, hhead, -⟩ := hexDigits_code n hn
  have hus : leading (· = 'u') ('u' :: hexDigits 4 n ++ rest) = 1 := by
    cases hd : hexDigits 4 n with
    | nil => simp [hd] at hlength
    | cons d ds =>
      obtain rfl : d = '0' := by simpa [hd] using hhead
      simp [leading]
  have htake : (hexDigits 4 n ++ rest).take 4 = hexDigits 4 n := List.take_left' hlength
  rw [unicodeLength?, hus]
  simp [htake, hlength, hhex]

lemma unescapeFrom_skip (xs rest : List Char) :
    unescapeFrom xs.length (xs ++ rest) = unescapeFrom 0 rest := by
  induction xs with
  | nil => rfl
  | cons x xs ih => exact ih

lemma unescape_escapeChar {q : Char} (hq : IsQuote q) (c : Char) (rest : List Char) :
    unescapeFrom 0 (escapeChar q c ++ rest) = (unescapeFrom 0 rest).map (c :: ·) := by
  rcases escapeChar_cases hq c with ⟨d, heq, hnamed, hu, hoctal, -⟩ | ⟨hlt, heq⟩ | ⟨heq, hne, -, -⟩
  · have hat : escapeAt d rest = some (c, 1) := by simp [escapeAt, hu, hoctal, hnamed]
    have hskip := unescapeFrom_skip [d] rest
    rw [heq, List.cons_append, List.singleton_append, unescapeFrom, hat]
    simp only [Option.bind_eq_bind, Option.bind_some]
    rw [show unescapeFrom 1 (d :: rest) = unescapeFrom 0 rest from hskip]
    cases unescapeFrom 0 rest <;> rfl
  · obtain ⟨hvalue, -, hlength, -⟩ := hexDigits_code c.toNat hlt
    have hat : escapeAt 'u' (hexDigits 4 c.toNat ++ rest) = some (c, 5) := by
      have hdrop : (('u' :: (hexDigits 4 c.toNat ++ rest)).take 5).drop 1 =
          hexDigits 4 c.toNat := by
        rw [List.take_succ_cons, List.drop_succ_cons, List.drop_zero, List.take_left' hlength]
      have hunicode := unicodeLength?_code hlt rest
      rw [List.cons_append] at hunicode
      rw [escapeAt, if_pos rfl, hunicode]
      simp only [Option.map_some, Nat.reduceSub, hdrop, hvalue, Char.ofNat_toNat]
    have hskip := unescapeFrom_skip ('u' :: hexDigits 4 c.toNat) rest
    rw [List.length_cons, hlength, List.cons_append] at hskip
    rw [heq, List.cons_append, List.cons_append, unescapeFrom, hat]
    simp only [Option.bind_eq_bind, Option.bind_some]
    rw [hskip]
    cases unescapeFrom 0 rest <;> rfl
  · rw [heq, List.singleton_append, unescapeFrom]
    intro d ds hc
    exact absurd hc hne

lemma unescape_escape {q : Char} (hq : IsQuote q) (cs : List Char) :
    unescape (cs.flatMap (escapeChar q)) = some cs := by
  induction cs with
  | nil => rfl
  | cons c cs ih =>
    rw [List.flatMap_cons, unescape, unescape_escapeChar hq]
    rw [unescape] at ih
    rw [ih, Option.map_some]

lemma stringTail?_plain {ds rest : List Char} (h : ∀ d ∈ ds, d ≠ '"' ∧ d ≠ '\\' ∧ d ≠ '\n') :
    stringTail? (ds ++ rest) = (stringTail? rest).map (· + ds.length) := by
  induction ds with
  | nil => simp
  | cons d ds ih =>
    obtain ⟨hd, hds⟩ := List.forall_mem_cons.mp h
    have hcons : stringTail? (d :: (ds ++ rest)) = (stringTail? (ds ++ rest)).map (· + 1) := by
      rw [stringTail?.eq_def]
      split
      · cases ‹d :: (ds ++ rest) = []›
      · rename_i heq
        exact absurd (List.cons.inj heq).1 hd.1
      · rename_i heq
        exact absurd (List.cons.inj heq).1 hd.2.1
      · rename_i heq
        obtain ⟨rfl, rfl⟩ := List.cons.inj heq
        simp [hd.2.1, hd.2.2]
    rw [List.cons_append, hcons, ih hds, Option.map_map, List.length_cons]
    congr 1

lemma stringTail?_escapeChar (c : Char) (rest : List Char) :
    stringTail? (escapeChar '"' c ++ rest) =
      (stringTail? rest).map (· + (escapeChar '"' c).length) := by
  rcases escapeChar_cases (.inl rfl) c with ⟨d, heq, -, -, -, hd⟩ | ⟨hlt, heq⟩ | ⟨heq, h1, h2, h3⟩
  · rw [heq]
    simp [stringTail?, hd]
  · obtain ⟨-, -, hlength, -, hall⟩ := hexDigits_code c.toNat hlt
    have hplain : ∀ d ∈ hexDigits 4 c.toNat, d ≠ '"' ∧ d ≠ '\\' ∧ d ≠ '\n' :=
      forall_mem_of_all hall
    rw [heq, List.cons_append, List.cons_append]
    simp only [stringTail?, stringTail?_plain hplain, hlength, List.length_cons, Option.map_map]
    rw [if_neg (by decide)]
    congr 1
  · rw [heq]
    exact stringTail?_plain (by simp [h1, h2, h3])

lemma stringTail?_escape (cs rest : List Char) :
    stringTail? (cs.flatMap (escapeChar '"') ++ '"' :: rest) =
      some ((cs.flatMap (escapeChar '"')).length + 1) := by
  induction cs with
  | nil => rfl
  | cons c cs ih =>
    rw [List.flatMap_cons, List.append_assoc, stringTail?_escapeChar, ih, Option.map_some,
      List.length_append]
    congr 1
    omega

lemma quotedLexeme_escape {q : Char} (hq : IsQuote q) (kind : LiteralKind) (cs : List Char) :
    quotedLexeme kind (q :: cs.flatMap (escapeChar q) ++ [q]) =
      .token (.literal kind) (.text (String.ofList cs))
        ((cs.flatMap (escapeChar q) ++ [q]).length + 1) := by
  have hinner : ((q :: cs.flatMap (escapeChar q) ++ [q]).drop 1).dropLast =
      cs.flatMap (escapeChar q) := by
    rw [List.cons_append, List.drop_succ_cons, List.drop_zero, List.dropLast_concat]
  rw [quotedLexeme, hinner, unescape_escape hq]
  rfl

lemma charLength?_escapeChar (c : Char) (rest : List Char) :
    charLength? (singleQuote :: (escapeChar singleQuote c ++ singleQuote :: rest)) =
      some ((escapeChar singleQuote c).length + 2) := by
  rcases escapeChar_cases (.inr rfl) c with ⟨d, heq, -, hu, hoctal, hd⟩ | ⟨hlt, heq⟩ |
    ⟨heq, h1, h2, h3⟩
  · have hunicode : unicodeLength? (d :: singleQuote :: rest) = none := by
      simp [unicodeLength?, leading, hu]
    have hlengths : escapeLengths (d :: singleQuote :: rest) = [1] := by
      simp [escapeLengths, hunicode, leading, hoctal, hd]
    rw [heq]
    simp [charLength?, hlengths, show ('\\' : Char) ≠ singleQuote by decide]
  · obtain ⟨-, -, hlength, -⟩ := hexDigits_code c.toNat hlt
    have hunicode := unicodeLength?_code hlt (singleQuote :: rest)
    rw [List.cons_append] at hunicode
    have hat : ('u' :: (hexDigits 4 c.toNat ++ singleQuote :: rest))[5]? = some singleQuote := by
      rw [List.getElem?_cons_succ, List.getElem?_append_right (by omega), hlength]
      rfl
    rw [heq, List.cons_append, List.cons_append]
    simp only [charLength?, escapeLengths, hunicode, Option.toList_some, List.cons_append,
      List.find?_cons, hat, decide_true, Option.map_some, if_true]
    rw [if_neg (by decide), List.length_cons, List.length_cons, hlength]
  · rw [heq]
    simp [charLength?, h1, h2, h3]

lemma lexemeAt_stringText (s : String) (rest : List Char) :
    lexemeAt '"' (s.toList.flatMap (escapeChar '"') ++ '"' :: rest) =
      .token (.literal .string) (.text s)
        ((s.toList.flatMap (escapeChar '"') ++ ['"']).length + 1) := by
  have hlength : stringLength? ('"' :: (s.toList.flatMap (escapeChar '"') ++ '"' :: rest)) =
      some ((s.toList.flatMap (escapeChar '"')).length + 1 + 1) := by
    rw [stringLength?, stringTail?_escape, Option.map_some]
  have hdecimal : isDecimal '"' = false := by decide
  have hfloat := floatLength?_of_not_decimal hdecimal (by decide)
    (s.toList.flatMap (escapeChar '"') ++ '"' :: rest)
  have htake : ('"' :: (s.toList.flatMap (escapeChar '"') ++ '"' :: rest)).take
      ((s.toList.flatMap (escapeChar '"')).length + 1 + 1) =
        '"' :: s.toList.flatMap (escapeChar '"') ++ ['"'] := by
    rw [List.take_succ_cons, List.take_length_add_append]
    rfl
  simp only [lexemeAt, show isBlankOrNewline '"' = false by decide,
    commentLength?_of_ne (c := '"') (by decide), hfloat, integerLength?_of_not_decimal hdecimal,
    charLength?_of_ne (c := '"') (by decide), hlength, Bool.false_eq_true, if_false]
  rw [htake, quotedLexeme_escape (.inl rfl), String.ofList_toList]

lemma lexemeAt_charText (c : Char) (rest : List Char) :
    lexemeAt singleQuote (escapeChar singleQuote c ++ singleQuote :: rest) =
      .token (.literal .char) (.text (String.singleton c))
        ((escapeChar singleQuote c ++ [singleQuote]).length + 1) := by
  have hlength := charLength?_escapeChar c rest
  have hdecimal : isDecimal singleQuote = false := by decide
  have hfloat := floatLength?_of_not_decimal hdecimal (by decide)
    (escapeChar singleQuote c ++ singleQuote :: rest)
  have htake : (singleQuote :: (escapeChar singleQuote c ++ singleQuote :: rest)).take
      ((escapeChar singleQuote c).length + 2) =
        singleQuote :: escapeChar singleQuote c ++ [singleQuote] := by
    rw [show (escapeChar singleQuote c).length + 2 = (escapeChar singleQuote c).length + 1 + 1
      from rfl, List.take_succ_cons, List.take_length_add_append]
    rfl
  have hread := quotedLexeme_escape (.inr rfl) .char [c]
  rw [List.flatMap_singleton] at hread
  simp only [lexemeAt, show isBlankOrNewline singleQuote = false by decide,
    commentLength?_of_ne (c := singleQuote) (by decide), hfloat,
    integerLength?_of_not_decimal hdecimal, hlength, Bool.false_eq_true, if_false]
  rw [htake, hread]
  rfl

lemma tokenize_lexeme {c : Char} {cs : List Char} {k : TokenKind} {v : Constant}
    (h : lexemeAt c cs = .token k v (cs.length + 1)) {source : String}
    (hsource : source.toList = c :: cs) : tokenize source = .ok [⟨k, v, 1, 0⟩] := by
  obtain ⟨line, hpieces⟩ := pieces_token (r := []) (by rwa [List.append_nil]) 1 0
  rw [List.append_nil] at hpieces
  rw [tokenize, hsource]
  simp only [hpieces]
  rfl

end Token

open Token Text Layout

/-- A string or a character that is escaped between quotes is split into one literal, with the
string or the character as its value. -/
theorem tokenize_escaped (s : String) (c : Char) :
    tokenize (String.singleton '"' ++ escape '"' s ++ String.singleton '"') =
        .ok [⟨.literal .string, .text s, 1, 0⟩] ∧
      tokenize (String.singleton singleQuote ++ escape singleQuote (String.singleton c) ++
          String.singleton singleQuote) =
        .ok [⟨.literal .char, .text (String.singleton c), 1, 0⟩] := by
  constructor
  · refine tokenize_lexeme (lexemeAt_stringText s []) ?_
    simp only [escape, String.toList_append, String.toList_singleton, String.toList_ofList]
    rfl
  · refine tokenize_lexeme (lexemeAt_charText c []) ?_
    simp only [escape, String.toList_append, String.toList_singleton, String.toList_ofList,
      List.flatMap_singleton]
    rfl

namespace Spells

lemma string (s : String) (next : Option Char → Prop) :
    Spells ('"' :: s.toList.flatMap (escapeChar '"') ++ ['"'])
      [⟨.literal .string, .text s, false⟩] next := by
  rw [List.cons_append]
  refine token fun rest _ => ?_
  rw [List.append_assoc, List.singleton_append, lexemeAt_stringText]

lemma char (c : Char) (next : Option Char → Prop) :
    Spells (singleQuote :: escapeChar singleQuote c ++ [singleQuote])
      [⟨.literal .char, .text (String.singleton c), false⟩] next := by
  rw [List.cons_append]
  refine token fun rest _ => ?_
  rw [List.append_assoc, List.singleton_append, lexemeAt_charText]

end Spells

end LoopLowering
