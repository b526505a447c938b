import LoopLowering.Proofs.Syntax.Expression
import Mathlib.Data.List.TakeWhile

/-! The tokens of a text: names are names, and each token has a value that its kind can have. -/

namespace LoopLowering

namespace Token

def Genuine (t : Token) : Prop :=
  match t.kind with
  | .ident => ∃ x, t.value = .text x ∧ IsName x
  | .literal k => k ∉ [LiteralKind.boolean, .null] ∧ k.Holds t.value
  | .word w => t.value = .text w ∧ w ∈ reservedWords
  | .mark m => t.value = .text m
  | .finish => True

section

variable {k : TokenKind} {v : Constant} {n : Nat}

lemma genuine_of_floatLexeme {cs : List Char} (h : floatLexeme cs = .token k v n) (line start : Nat) :
    Genuine ⟨k, v, line, start⟩ := by
  unfold floatLexeme at h
  dsimp only at h
  split at h
  · rename_i x _
    obtain ⟨rfl, rfl, -⟩ := Lexeme.token.inj h
    cases hlast : cs.getLast? with
    | none => exact ⟨by decide, x, rfl⟩
    | some c =>
      dsimp only [Genuine]
      split
      · exact ⟨by decide, x, rfl⟩
      · exact ⟨by decide, x, rfl⟩
  · cases h

lemma genuine_of_integerLexeme {cs : List Char} (h : integerLexeme cs = .token k v n)
    (line start : Nat) : Genuine ⟨k, v, line, start⟩ := by
  unfold integerLexeme at h
  dsimp only at h
  split at h
  · rename_i m _
    obtain ⟨rfl, rfl, -⟩ := Lexeme.token.inj h
    cases hlast : cs.getLast? with
    | none => exact ⟨by decide, m, rfl⟩
    | some c =>
      dsimp only [Genuine]
      split
      · exact ⟨by decide, m, rfl⟩
      · exact ⟨by decide, m, rfl⟩
  · cases h

lemma genuine_of_quotedLexeme {q : LiteralKind} (hq : q = .char ∨ q = .string) {cs : List Char}
    (h : quotedLexeme q cs = .token k v n) (line start : Nat) : Genuine ⟨k, v, line, start⟩ := by
  unfold quotedLexeme at h
  split at h
  · obtain ⟨rfl, rfl, -⟩ := Lexeme.token.inj h
    rcases hq with rfl | rfl <;> exact ⟨by decide, _, rfl⟩
  · cases h

lemma genuine_of_identLexeme {c : Char} {cs : List Char} (hc : isIdentStart c = true)
    (h : identLexeme ((c :: cs).takeWhile isIdentPart) = .token k v n) (line start : Nat) :
    Genuine ⟨k, v, line, start⟩ := by
  have hword : IsWord (String.ofList ((c :: cs).takeWhile isIdentPart)) := by
    refine ⟨c, cs.takeWhile isIdentPart, ?_, hc, fun d hd => List.mem_takeWhile_imp hd⟩
    rw [String.toList_ofList, List.takeWhile_cons, isIdentPart_of_start hc, if_pos rfl]
  obtain ⟨rfl, rfl, -⟩ := Lexeme.token.inj h
  by_cases hmem : String.ofList ((c :: cs).takeWhile isIdentPart) ∈ reservedWords
  · simp only [List.contains_iff_mem.mpr hmem, if_true]
    exact ⟨rfl, hmem⟩
  · rw [if_neg (by simpa using hmem)]
    exact ⟨_, rfl, hword, hmem⟩

lemma genuine_of_lexemeAt {c : Char} {cs : List Char} (h : lexemeAt c cs = .token k v n)
    (line start : Nat) : Genuine ⟨k, v, line, start⟩ := by
  unfold lexemeAt at h
  dsimp only at h
  split at h
  · cases h
  split at h
  · cases h
  split at h
  · exact genuine_of_floatLexeme h line start
  split at h
  · exact genuine_of_integerLexeme h line start
  split at h
  · exact genuine_of_quotedLexeme (.inl rfl) h line start
  split at h
  · exact genuine_of_quotedLexeme (.inr rfl) h line start
  split at h
  · rename_i hc
    exact genuine_of_identLexeme hc h line start
  · unfold markLexeme at h
    split at h
    · obtain ⟨rfl, rfl, -⟩ := Lexeme.token.inj h
      rfl
    · cases h

end

lemma genuine_of_pieces {line start skip : Nat} {cs : List Char} {ps : List Piece}
    (h : pieces line start skip cs = .ok ps) : ∀ t, Piece.token t ∈ ps → t.Genuine := by
  induction cs generalizing line start skip ps with
  | nil =>
    obtain rfl := Except.ok.inj h
    simp
  | cons c cs ih =>
    cases skip with
    | succ skip => exact ih h
    | zero =>
      rw [pieces] at h
      cases hlex : lexemeAt c cs with
      | blank => rw [hlex] at h; exact ih h
      | comment n => rw [hlex] at h; exact ih h
      | malformed => rw [hlex] at h; cases h
      | token k v n =>
        rw [hlex] at h
        simp only [bind, Except.bind] at h
        split at h
        · cases h
        · rename_i rest hrest
          obtain rfl := Except.ok.inj h
          intro t ht
          rcases List.mem_cons.mp ht with ht | ht
          · obtain rfl := Piece.token.inj ht
            exact genuine_of_lexemeAt hlex line start
          · exact ih hrest t ht
      | illegal =>
        rw [hlex] at h
        simp only [bind, Except.bind] at h
        split at h
        · cases h
        · rename_i rest hrest
          obtain rfl := Except.ok.inj h
          intro t ht
          exact ih hrest t ((List.mem_cons.mp ht).resolve_left (by rintro ⟨⟩))

end Token

def Genuine (ts : List Token) : Prop := ∀ t ∈ ts, t.Genuine

lemma genuine_of_tokenize {source : String} {ts : List Token} (h : tokenize source = .ok ts) :
    Genuine ts := by
  unfold tokenize at h
  dsimp only at h
  split at h
  · cases h
  · rename_i ps hps
    split at h
    · obtain rfl := Except.ok.inj h
      intro t ht
      obtain ⟨p, hp, hpt⟩ := List.mem_filterMap.mp ht
      cases p with
      | token u =>
        obtain rfl := Option.some.inj hpt
        exact Token.genuine_of_pieces hps u hp
      | illegal => cases hpt
    · cases h

end LoopLowering
