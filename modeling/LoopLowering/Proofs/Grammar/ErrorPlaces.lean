import LoopLowering.Proofs.Grammar.Totality

/-! Where syntax errors are reported: at the token that is rejected. Of the end of a text the column
is that of the end, but the line is that of the last token. -/

namespace LoopLowering

/-- An error with the line and the column of an offset of a text. -/
def Diagnostic.At (d : Diagnostic) (text : List Char) (p : Nat) : Prop :=
  ∃ line column : Nat, d.line = some (line : Int) ∧ d.column = some (column : Int) ∧
    Token.Position text p line column

def rejection? : Except ReadError Node → Option Diagnostic
  | .error (.rejected d) => some d
  | _ => none

lemma eq_of_rejection? {r : Except ReadError Node} {d : Diagnostic} (h : rejection? r = some d) :
    r = .error (.rejected d) := by
  match r, h with
  | .error (.rejected d'), h => exact congrArg (Except.error ∘ ReadError.rejected) (Option.some.inj h)

namespace Grammar

/-- Where the last token of a text starts, or the text if it has none. -/
def lastStart (ts : List Token) : Nat := (ts.getLast?.map (·.start)).getD 0

lemma endOf_line {source : String} {ts : List Token} (h : tokenize source = .ok ts) :
    (endOf source ts).line = 1 + (source.toList.take (lastStart ts)).count '\n' := by
  obtain ⟨stops, -, hplaces⟩ := tiles_of_tokenize h
  cases hlast : ts.getLast? with
  | none => simp [endOf, lastStart, hlast]
  | some t =>
    have hline := (hplaces t (List.mem_of_getLast? hlast)).line_eq
    simpa [endOf, lastStart, hlast] using hline

lemma endOf_position {source : String} {ts : List Token} (h : tokenize source = .ok ts) :
    Token.Position source.toList source.toList.length (endOf source ts).line
        (columnOf source.toList source.toList.length) ↔
      '\n' ∉ source.toList.drop (lastStart ts) := by
  have hsplit : source.toList.count '\n' = (source.toList.take (lastStart ts)).count '\n' +
      (source.toList.drop (lastStart ts)).count '\n' := by
    rw [← List.count_append, List.take_append_drop]
  have hend := Token.position_columnOf (Nat.le_refl source.toList.length)
  rw [List.take_length] at hend
  rw [endOf_line h, ← List.count_eq_zero]
  constructor
  · intro hplace
    have hline := hplace.line_eq
    rw [List.take_length] at hline
    omega
  · intro hnone
    rw [hnone, Nat.add_zero] at hsplit
    exact hsplit ▸ hend

end Grammar

open Grammar

/-- The place of a syntax error is that of the token that is rejected, or that of the end of the text
if no newline stands behind the start of its last token. -/
theorem rejection_places (k : TextKind) {source : String} {ts : List Token} {d : Diagnostic}
    (h : tokenize source = .ok ts) (hp : parse k source = .error (.rejected d)) :
    ∃ cause found, d = (Failure.rejected cause found).diagnostic source.toList ∧
      (found ∈ ts ∧ d.At source.toList found.start ∨
        found = endOf source ts ∧
          d.line = some ↑(1 + (source.toList.take (lastStart ts)).count '\n') ∧
          d.column = some ↑(columnOf source.toList source.toList.length) ∧
          (d.At source.toList source.toList.length ↔
            '\n' ∉ source.toList.drop (lastStart ts))) := by
  cases reading_of_tokenize k h with
  | read tree result =>
    rw [result] at hp
    cases hp
  | rejected cause found known result =>
    rw [result] at hp
    obtain rfl := ReadError.rejected.inj (Except.error.inj hp)
    refine ⟨cause, found, rfl, ?_⟩
    rcases List.mem_append.mp known with hfound | hfound
    · obtain ⟨stops, -, hplaces⟩ := tiles_of_tokenize h
      exact .inl ⟨hfound, _, _, rfl, rfl, hplaces found hfound⟩
    · obtain rfl : found = endOf source ts := List.mem_singleton.mp hfound
      have hstart : (endOf source ts).start = source.toList.length := String.length_toList.symm
      refine .inr ⟨rfl, ?_, ?_, ?_⟩
      · rw [← endOf_line h]
        rfl
      · rw [← hstart]
        rfl
      · rw [← endOf_position h]
        constructor
        · rintro ⟨line, column, hline, hcolumn, hplace⟩
          obtain rfl : (endOf source ts).line = line := Int.ofNat_inj.mp (Option.some.inj hline)
          obtain rfl : columnOf source.toList (endOf source ts).start = column :=
            Int.ofNat_inj.mp (Option.some.inj hcolumn)
          rwa [hstart] at hplace
        · exact fun hplace => ⟨_, _, rfl, by rw [← hstart]; rfl, hplace⟩

theorem rejection_places_operand :
    let source := "a +\n  ;"
    let ts : List Token := [⟨.ident, .text "a", 1, 0⟩, ⟨.mark "+", .text "+", 1, 2⟩,
      ⟨.mark ";", .text ";", 2, 6⟩]
    let d : Diagnostic :=
      { message := "Erro sintático: esperava expressão, encontrado ';'", line := some 2, column := some 3 }
    tokenize source = .ok ts ∧ parse .expression source = .error (.rejected d) ∧
      ∃ cause found, d = (Failure.rejected cause found).diagnostic source.toList ∧
        (found ∈ ts ∧ d.At source.toList found.start ∨
          found = endOf source ts ∧
            d.line = some ↑(1 + (source.toList.take (lastStart ts)).count '\n') ∧
            d.column = some ↑(columnOf source.toList source.toList.length) ∧
            (d.At source.toList source.toList.length ↔
              '\n' ∉ source.toList.drop (lastStart ts))) :=
  have hrun := eq_of_rejection? (by decide +kernel)
  ⟨rfl, hrun, rejection_places .expression rfl hrun⟩

/-- A missing brace is reported on the line of the last token, at a column that this line does not
have. -/
theorem rejection_misplaced :
    let source := "class A \x7b\n            "
    let ts : List Token := [⟨.word "class", .text "class", 1, 0⟩, ⟨.ident, .text "A", 1, 6⟩,
      ⟨lbrace, .text "\x7b", 1, 8⟩]
    let d : Diagnostic :=
      { message := "Erro sintático: esperava '\x7d', encontrado fim do ficheiro", line := some 1,
        column := some 13 }
    tokenize source = .ok ts ∧ parse .unit source = .error (.rejected d) ∧
      ∀ p ≤ source.toList.length, ¬ d.At source.toList p := by
  refine ⟨rfl, eq_of_rejection? (by decide +kernel), fun p hp => ?_⟩
  rintro ⟨line, column, hline, hcolumn, hplace⟩
  obtain rfl : 1 = line := Int.ofNat_inj.mp (Option.some.inj hline)
  obtain rfl : 13 = column := Int.ofNat_inj.mp (Option.some.inj hcolumn)
  have key : ∀ p ≤ 22, 1 = 1 + ("class A \x7b\n            ".toList.take p).count '\n' → p ≤ 9 := by
    decide
  have hle := key p hp hplace.line_eq
  obtain ⟨start, -, hdistance⟩ := hplace.column_eq
  omega

end LoopLowering
