import LoopLowering.Proofs.Grammar.Nesting

/-! Operators are found at the front of their tokens, and where no operator follows an expression
ends. -/

namespace LoopLowering.Grammar

def closing : List TokenKind := [rparen, rbracket, comma, semicolon, rbrace, colon, .finish]

def operandOpen : List TokenKind := [dot, lbracket, lbrace, .mark "++", .mark "--"] ++ castFollow

structure Stops (ts : List Token) : Prop where
  operand : headKind ts ∉ operandOpen
  connective : connectiveAt ts = none
  question : headKind ts ≠ .mark "?"

lemma connectiveAt_of_kind {ts : List Token} {m : String} (h : headKind ts = .mark m)
    (hgt : m ≠ ">") (hbinary : m ∉ binaryMarks) : connectiveAt ts = none := by
  have hkind : (tokenAt ts 0).kind = .mark m := h
  simp [connectiveAt, hkind, hgt, hbinary]

lemma closers_of_ne {ts : List Token} (h : headKind ts ≠ .mark ">") : closers ts = 0 := by
  have hkind : (tokenAt ts 0).kind ≠ .mark ">" := h
  simp [closers, hkind]

lemma assignOpAt_of_kind {ts : List Token} {m : String} (h : headKind ts = .mark m)
    (hgt : m ≠ ">") (hassign : m ∉ ["=", "+=", "-=", "*=", "/=", "%=", "&=", "|=", "^=", "<<="]) :
    assignOpAt ts = none := by
  have hkind : (tokenAt ts 0).kind = .mark m := h
  have hclosers : closers ts = 0 := closers_of_ne (by rw [h]; simpa using hgt)
  simp only [List.mem_cons, not_or] at hassign
  simp [assignOpAt, hkind, hassign, hclosers, closersThenGe]

lemma stops_of_closing {ts : List Token} (h : headKind ts ∈ closing) :
    Stops ts ∧ assignOpAt ts = none := by
  have hopen : ∀ k ∈ closing, k ∉ operandOpen ∧ k ≠ .mark "?" := by decide
  obtain ⟨hoperand, hquestion⟩ := hopen _ h
  have hfinish : headKind ts = .finish → connectiveAt ts = none ∧ assignOpAt ts = none := by
    intro h
    have hkind : (tokenAt ts 0).kind = .finish := h
    simp [connectiveAt, assignOpAt, hkind]
  have key : ∀ k ∈ closing, k = .finish ∨ ∃ m ∈ [")", "]", ",", ";", "\x7d", ":"], k = .mark m := by
    decide
  have hmarks : ∀ m ∈ [")", "]", ",", ";", "\x7d", ":"], m ≠ ">" ∧ m ∉ binaryMarks ∧
      m ∉ ["=", "+=", "-=", "*=", "/=", "%=", "&=", "|=", "^=", "<<="] := by
    decide
  rcases key _ h with h | ⟨m, hm, h⟩
  · exact ⟨⟨hoperand, (hfinish h).1, hquestion⟩, (hfinish h).2⟩
  · obtain ⟨hgt, hbinary, hassign⟩ := hmarks m hm
    exact ⟨⟨hoperand, connectiveAt_of_kind h hgt hbinary, hquestion⟩,
      assignOpAt_of_kind h hgt hassign⟩

def NoCloser (ts : List Token) : Prop :=
  ts ≠ [] ∧ headKind ts ≠ .mark ">" ∧ headKind ts ≠ .mark ">="

section

variable {t u v : Token} {l : List Token}

lemma closers_one (ht : t.kind = .mark ">") (hts : NoCloser l) :
    closers (t :: l) = 1 ∧ closersThenGe (t :: l) 1 = false := by
  have h1 : (tokenAt (t :: l) 1).kind = headKind l := by rw [tokenAt_succ hts.1]; rfl
  constructor
  · simp [closers, ht, h1, hts.2.1]
  · simp [closersThenGe, h1, hts.2.2]

lemma closers_two (ht : t.kind = .mark ">") (hu : u.kind = .mark ">") (htu : touches t u = true)
    (hts : NoCloser l) :
    closers (t :: u :: l) = 2 ∧ closersThenGe (t :: u :: l) 2 = false := by
  have h1 : tokenAt (t :: u :: l) 1 = u := rfl
  have h2 : (tokenAt (t :: u :: l) 2).kind = headKind l := by
    rw [tokenAt_succ (by simp), tokenAt_succ hts.1]
    rfl
  constructor
  · simp [closers, ht, h1, hu, htu, h2, hts.2.1]
  · simp [closersThenGe, h2, hts.2.2]

lemma closers_three (ht : t.kind = .mark ">") (hu : u.kind = .mark ">") (hv : v.kind = .mark ">")
    (htu : touches t u = true) (huv : touches u v = true) :
    closers (t :: u :: v :: l) = 3 ∧ closersThenGe (t :: u :: v :: l) 3 = false := by
  have h1 : tokenAt (t :: u :: v :: l) 1 = u := rfl
  have h2 : tokenAt (t :: u :: v :: l) 2 = v := rfl
  constructor
  · simp [closers, ht, h1, hu, htu, h2, hv, huv]
  · simp [closersThenGe]

lemma closers_one_ge (ht : t.kind = .mark ">") (hu : u.kind = .mark ">=")
    (htu : touches t u = true) :
    closers (t :: u :: l) = 1 ∧ closersThenGe (t :: u :: l) 1 = true := by
  have h1 : tokenAt (t :: u :: l) 1 = u := rfl
  constructor
  · simp [closers, ht, h1, hu]
  · simp [closersThenGe, h1, hu, htu]

lemma closers_two_ge (ht : t.kind = .mark ">") (hu : u.kind = .mark ">") (hv : v.kind = .mark ">=")
    (htu : touches t u = true) (huv : touches u v = true) :
    closers (t :: u :: v :: l) = 2 ∧ closersThenGe (t :: u :: v :: l) 2 = true := by
  have h1 : tokenAt (t :: u :: v :: l) 1 = u := rfl
  have h2 : tokenAt (t :: u :: v :: l) 2 = v := rfl
  constructor
  · simp [closers, ht, h1, hu, htu, h2, hv]
  · simp [closersThenGe, h1, h2, hv, huv]

end

lemma of_shift {m : String} {us : List Token}
    (h : Realizes [Item.mark ">", Item.gluedMark m] us) :
    ∃ t u, us = [t, u] ∧ t.kind = .mark ">" ∧ u.kind = .mark m ∧ touches t u = true := by
  cases h with
  | cons ht _ glue h =>
    cases h with
    | cons hu _ _ h =>
      cases h
      exact ⟨_, _, rfl, ht, hu, glue _ rfl rfl _ rfl⟩

lemma of_longShift {m : String} {us : List Token}
    (h : Realizes [Item.mark ">", Item.gluedMark ">", Item.gluedMark m] us) :
    ∃ t u v, us = [t, u, v] ∧ t.kind = .mark ">" ∧ u.kind = .mark ">" ∧ v.kind = .mark m ∧
      touches t u = true ∧ touches u v = true := by
  cases h with
  | cons ht _ glue h =>
    cases h with
    | cons hu _ glue' h =>
      cases h with
      | cons hv _ _ h =>
        cases h
        exact ⟨_, _, _, rfl, ht, hu, hv, glue _ rfl rfl _ rfl, glue' _ rfl rfl _ rfl⟩

lemma connectiveAt_mark {o : BinaryOp} (hop : o.symbol ∈ binaryMarks)
    (hsymbol : BinaryOp.ofSymbol o.symbol = o) {ts : List Token}
    (h : headKind ts = .mark o.symbol) : connectiveAt ts = some (.operator o, 1) := by
  have hkind : (tokenAt ts 0).kind = .mark o.symbol := h
  have hgt : o.symbol ≠ ">" := by
    have key : ∀ m ∈ binaryMarks, m ≠ ">" := by decide
    exact key _ hop
  simp [connectiveAt, hkind, hgt, hop, hsymbol]

lemma connectiveAt_closers {ts : List Token} {n : Nat} (hn : closers ts = n)
    (hge : closersThenGe ts n = false) (h : headKind ts = .mark ">") :
    connectiveAt ts = if n = 1 then some (.operator .gt, 1)
      else if n = 2 then some (.operator .shiftRight, 2)
      else some (.operator .shiftRightUnsigned, 3) := by
  have hkind : (tokenAt ts 0).kind = .mark ">" := h
  simp [connectiveAt, hkind, hn, hge]

lemma connectiveAt_items {op : BinaryOp} (hop : op ∈ BinaryOp.known) {us rest : List Token}
    (h : Realizes (Item.ofBinary op) us) (hrest : NoCloser rest) :
    connectiveAt (us ++ rest) = some (.operator op, us.length) := by
  have key : ∀ op ∈ BinaryOp.known, op = .gt ∨ op = .shiftRight ∨ op = .shiftRightUnsigned ∨
      op.symbol ∈ binaryMarks ∧ BinaryOp.ofSymbol op.symbol = op ∧
        (Item.ofBinary op).map (·.kind) = [.mark op.symbol] := by
    decide
  rcases key op hop with rfl | rfl | rfl | ⟨hmark, hsymbol, hitems⟩
  · obtain ⟨t, us, rfl, ht, -, h⟩ := Realizes.of_mark (x := ">") (l := []) h
    cases h
    obtain ⟨hclosers, hge⟩ := closers_one ht hrest
    exact connectiveAt_closers hclosers hge ht
  · obtain ⟨t, u, rfl, ht, hu, htu⟩ := of_shift h
    obtain ⟨hclosers, hge⟩ := closers_two ht hu htu hrest
    exact connectiveAt_closers hclosers hge ht
  · obtain ⟨t, u, v, rfl, ht, hu, hv, htu, huv⟩ := of_longShift h
    obtain ⟨hclosers, hge⟩ := closers_three (l := rest) ht hu hv htu huv
    exact connectiveAt_closers hclosers hge ht
  · have hkinds := realizes_kinds h
    rw [hitems] at hkinds
    obtain ⟨t, us, rfl⟩ : ∃ t us', us = t :: us' := by
      cases us with
      | nil => cases hkinds
      | cons t us => exact ⟨t, us, rfl⟩
    obtain ⟨hkind, hnil⟩ := List.cons.inj hkinds
    obtain rfl := List.map_eq_nil_iff.mp hnil
    exact connectiveAt_mark hmark hsymbol hkind

lemma assignOpAt_mark {op : AssignOp}
    (hop : op.symbol ∈ ["=", "+=", "-=", "*=", "/=", "%=", "&=", "|=", "^=", "<<="])
    (hsymbol : AssignOp.ofSymbol op.symbol = op) {ts : List Token}
    (h : headKind ts = .mark op.symbol) : assignOpAt ts = some (op, 1) ∧ Stops ts := by
  have hkind : (tokenAt ts 0).kind = .mark op.symbol := h
  constructor
  · by_cases hplain : op.symbol = "="
    · obtain rfl : AssignOp.plain = op := by rw [← hsymbol, hplain]; rfl
      rw [hplain] at hkind
      simp [assignOpAt, hkind]
    · simp [assignOpAt, hkind, hplain, hsymbol, List.mem_of_ne_of_mem hplain hop]
  · have key : ∀ m ∈ ["=", "+=", "-=", "*=", "/=", "%=", "&=", "|=", "^=", "<<="], m ≠ ">" ∧
        m ∉ binaryMarks ∧ TokenKind.mark m ∉ operandOpen ∧ m ≠ "?" := by
      decide
    obtain ⟨hgt, hbinary, hopen, hquestion⟩ := key _ hop
    exact ⟨h ▸ hopen, connectiveAt_of_kind h hgt hbinary, by rw [h]; simpa using hquestion⟩

lemma assignOpAt_closers {ts : List Token} {n : Nat} (hn : closers ts = n)
    (hge : closersThenGe ts n = true) (h : headKind ts = .mark ">") :
    assignOpAt ts = some (.compound (if n = 1 then .shiftRight else .shiftRightUnsigned), n + 1) ∧
      Stops ts := by
  have hkind : (tokenAt ts 0).kind = .mark ">" := h
  refine ⟨by simp [assignOpAt, hkind, hn, hge], by rw [h]; decide, ?_, by rw [h]; decide⟩
  simp [connectiveAt, hkind, hn, hge]

lemma assignOpAt_items {op : AssignOp} (hop : op.Known) {us : List Token} (rest : List Token)
    (h : Realizes (Item.ofAssign op) us) :
    assignOpAt (us ++ rest) = some (op, us.length) ∧ Stops (us ++ rest) := by
  have key : ∀ op ∈ assignable, op = .shiftRight ∨ op = .shiftRightUnsigned ∨
      (AssignOp.compound op).symbol ∈ ["=", "+=", "-=", "*=", "/=", "%=", "&=", "|=", "^=", "<<="] ∧
        AssignOp.ofSymbol (AssignOp.compound op).symbol = .compound op ∧
          (Item.ofAssign (.compound op)).map (·.kind) = [.mark (AssignOp.compound op).symbol] := by
    decide
  have hone : ∀ {op : AssignOp}, Realizes (Item.ofAssign op) us →
      op.symbol ∈ ["=", "+=", "-=", "*=", "/=", "%=", "&=", "|=", "^=", "<<="] →
      AssignOp.ofSymbol op.symbol = op → (Item.ofAssign op).map (·.kind) = [.mark op.symbol] →
        assignOpAt (us ++ rest) = some (op, us.length) ∧ Stops (us ++ rest) := by
    intro op h hmark hsymbol hitems
    have hkinds := (realizes_kinds h).trans hitems
    cases us with
    | nil => cases hkinds
    | cons t us =>
      obtain ⟨hkind, hnil⟩ := List.cons.inj hkinds
      obtain rfl := List.map_eq_nil_iff.mp hnil
      exact assignOpAt_mark hmark hsymbol hkind
  cases op with
  | plain => exact hone h (by decide) rfl rfl
  | other x => cases hop
  | compound op =>
    rcases key op hop with rfl | rfl | ⟨hmark, hsymbol, hitems⟩
    · obtain ⟨t, u, rfl, ht, hu, htu⟩ := of_shift h
      obtain ⟨hclosers, hge⟩ := closers_one_ge (l := rest) ht hu htu
      exact assignOpAt_closers hclosers hge ht
    · obtain ⟨t, u, v, rfl, ht, hu, hv, htu, huv⟩ := of_longShift h
      obtain ⟨hclosers, hge⟩ := closers_two_ge (l := rest) ht hu hv htu huv
      exact assignOpAt_closers hclosers hge ht
    · exact hone h hmark hsymbol hitems

end LoopLowering.Grammar
