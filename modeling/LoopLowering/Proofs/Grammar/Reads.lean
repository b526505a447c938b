import LoopLowering.Proofs.Grammar.OperatorReading

/-! How expressions are read from their items. A tree that binds at least as tightly as a rule asks for is
read by that rule, and the rules for operands and binary operators go on with what follows it. -/

namespace LoopLowering.Grammar

open Layout

def primaryStarts : List TokenKind :=
  [.ident, .word "this", .word "super", .word "new", .word "true", .word "false", .word "null",
    .literal .int, .literal .long, .literal .float, .literal .double, .literal .char,
    .literal .string]

section

variable (e : Node)

def ReadsExpr : Prop := ∀ ⦃n : Nat⦄ ⦃us : List Token⦄ (rest : List Token), Realizes e.items us →
  16 * (us ++ rest).length + 15 ≤ n → headKind rest ∈ closing → expr n (us ++ rest) = .ok (e, rest)

def ReadsCondition : Prop := ∀ ⦃n : Nat⦄ ⦃us : List Token⦄ (rest : List Token), Realizes e.items us →
  16 * (us ++ rest).length + 14 ≤ n → Stops rest → condition n (us ++ rest) = .ok (e, rest)

def ReadsBinary : Prop := ∀ ⦃n : Nat⦄ (least : Nat) ⦃us : List Token⦄ (rest : List Token),
  Realizes e.items us →
  16 * (us ++ rest).length + 13 ≤ n → headKind rest ∉ operandOpen →
    (∀ c k, connectiveAt rest = some (c, k) → c.level + 3 ≤ precedence e) →
    (testsClassName e = true → headKind rest ≠ .mark "<") → least + 3 ≤ precedence e →
      ∃ n', n ≤ n' + 16 * us.length ∧
        binary n least (us ++ rest) = binaryTail n' least (min 9 (precedence e - 3)) e rest

def ReadsUnary : Prop := ∀ ⦃n : Nat⦄ ⦃us : List Token⦄ (rest : List Token), Realizes e.items us →
  16 * (us ++ rest).length + 12 ≤ n → headKind rest ∉ operandOpen →
    unary n (us ++ rest) = .ok (e, rest)

def Enters : Prop := ∀ ⦃n : Nat⦄ ⦃us : List Token⦄ (rest : List Token), Realizes e.items us →
  16 * (us ++ rest).length + 10 ≤ n → headKind rest ∉ castFollow →
    unary (n + 1) (us ++ rest) = operand n (us ++ rest)

def ReadsOperand : Prop := ∀ ⦃n : Nat⦄ ⦃us : List Token⦄ (rest : List Token), Realizes e.items us →
  16 * (us ++ rest).length + 10 ≤ n → headKind rest ∉ [lparen, lbrace] →
    (precedence e < Precedence.primary → headKind rest ≠ lbracket) →
      ∃ n', n ≤ n' + 16 * us.length ∧ operand n (us ++ rest) = operandTail n' e rest

structure Reads : Prop where
  start : ∃ i is, e.items = i :: is ∧ StartsExpr i.kind
  expr : ReadsExpr e
  condition : Precedence.conditional ≤ precedence e → ReadsCondition e
  binary : Precedence.conditional < precedence e → ReadsBinary e
  unary : Precedence.unary ≤ precedence e → ReadsUnary e
  castStart : Precedence.unary ≤ precedence e → signed e = false →
    ∀ i ∈ e.items.head?, i.kind ∈ castFollow
  enters : Precedence.counted ≤ precedence e → Enters e
  operand : Precedence.counted ≤ precedence e → ReadsOperand e

end

section

variable {e : Node}

lemma ReadsCondition.expr (h : ReadsCondition e) : ReadsExpr e := by
  intro n us rest hus hn hrest
  obtain ⟨n, rfl⟩ : ∃ m, n = m + 1 := ⟨n - 1, by omega⟩
  obtain ⟨hstop, hassign⟩ := stops_of_closing hrest
  rw [Grammar.expr, bind_of_ok (h rest hus (by omega) hstop), bind_of_ok (get_run _), hassign]
  rfl

lemma binaryTail_stop {n least most : Nat} {rest : List Token} (hrest : connectiveAt rest = none) :
    binaryTail (n + 1) least most e rest = .ok (e, rest) := by
  rw [binaryTail, bind_of_ok (get_run _), hrest]
  rfl

lemma ReadsBinary.condition (hp : Precedence.conditional < precedence e) (h : ReadsBinary e) :
    ReadsCondition e := by
  intro n us rest hus hn hrest
  obtain ⟨n, rfl⟩ : ∃ m, n = m + 1 := ⟨n - 1, by omega⟩
  have hless : headKind rest ≠ .mark "<" := by
    intro hlt
    have := connectiveAt_mark (o := .lt) (by decide) rfl hlt
    rw [hrest.connective] at this
    cases this
  obtain ⟨n', hn', hbinary⟩ := h (n := n) 0 rest hus (by omega) hrest.operand
    (by simp [hrest.connective]) (fun _ => hless) hp
  rw [List.length_append] at hn
  obtain ⟨n', rfl⟩ : ∃ m, n' = m + 1 := ⟨n' - 1, by omega⟩
  rw [binaryTail_stop hrest.connective] at hbinary
  rw [Grammar.condition, bind_of_ok hbinary, bind_of_ok (accept_no hrest.question),
    if_neg (by simp)]
  rfl

lemma ReadsUnary.binary (hstart : ∃ i is, e.items = i :: is ∧ StartsExpr i.kind)
    (hp : Precedence.unary ≤ precedence e) (h : ReadsUnary e) : ReadsBinary e := by
  intro n least us rest hus hn hrest _ _ _
  obtain ⟨n, rfl⟩ : ∃ m, n = m + 1 := ⟨n - 1, by omega⟩
  have hpos : 0 < us.length := by
    obtain ⟨i, is, hi, -⟩ := hstart
    rw [hus.length, hi]
    exact Nat.succ_pos _
  have hmin : min 9 (precedence e - 3) = 9 := by
    have : (13 : Nat) ≤ precedence e := hp
    omega
  refine ⟨n, by omega, ?_⟩
  rw [hmin, Grammar.binary, bind_of_ok (h rest hus (by omega) hrest)]

lemma operandTail_stop {n : Nat} {rest : List Token} (hrest : headKind rest ∉ operandOpen) :
    operandTail (n + 1) e rest = .ok (e, rest) := by
  have hdot : headKind rest ≠ dot := fun h => hrest (by rw [h]; decide)
  have hbracket : headKind rest ≠ lbracket := fun h => hrest (by rw [h]; decide)
  have hcount : headKind rest ∉ [TokenKind.mark "++", .mark "--"] := by
    have key : ∀ k ∈ [TokenKind.mark "++", .mark "--"], k ∈ operandOpen := by decide
    exact fun h => hrest (key _ h)
  rw [operandTail, bind_of_ok (accept_no hdot), if_neg (by simp), bind_of_ok (accept_no hbracket),
    if_neg (by simp), bind_of_ok (checkAny_no hcount), if_neg (by simp)]
  rfl

lemma ReadsOperand.unary (henter : Enters e) (h : ReadsOperand e) : ReadsUnary e := by
  intro n us rest hus hn hrest
  obtain ⟨n, rfl⟩ : ∃ m, n = m + 1 := ⟨n - 1, by omega⟩
  have hcast : headKind rest ∉ castFollow := fun hmem => hrest (List.mem_append_right _ hmem)
  have hparen : headKind rest ∉ [lparen, lbrace] := by
    have key : ∀ k ∈ [lparen, lbrace], k ∈ operandOpen := by decide
    exact fun hmem => hrest (key _ hmem)
  have hbracket : headKind rest ≠ lbracket := fun h => hrest (by rw [h]; decide)
  obtain ⟨n', hn', hoperand⟩ := h (n := n) rest hus (by omega) hparen fun _ => hbracket
  rw [List.length_append] at hn
  obtain ⟨n', rfl⟩ : ∃ m, n' = m + 1 := ⟨n' - 1, by omega⟩
  rw [henter rest hus (by rw [List.length_append]; omega) hcast, hoperand, operandTail_stop hrest]

section

variable (hstart : ∃ i is, e.items = i :: is ∧ StartsExpr i.kind)
include hstart

lemma reads_of_expr (hp : precedence e < Precedence.conditional) (h : ReadsExpr e) : Reads e where
  start := hstart
  expr := h
  condition h := absurd h (by omega)
  binary h := absurd h (by omega)
  unary h := absurd (Nat.le_trans (by decide : Precedence.conditional ≤ Precedence.unary) h) (by omega)
  castStart h :=
    absurd (Nat.le_trans (by decide : Precedence.conditional ≤ Precedence.unary) h) (by omega)
  enters h :=
    absurd (Nat.le_trans (by decide : Precedence.conditional ≤ Precedence.counted) h) (by omega)
  operand h :=
    absurd (Nat.le_trans (by decide : Precedence.conditional ≤ Precedence.counted) h) (by omega)

lemma reads_of_condition (hp : precedence e = Precedence.conditional) (h : ReadsCondition e) :
    Reads e where
  start := hstart
  expr := h.expr
  condition _ := h
  binary h := absurd h (by omega)
  unary h := absurd (hp ▸ h) (by decide)
  castStart h := absurd (hp ▸ h) (by decide)
  enters h := absurd (hp ▸ h) (by decide)
  operand h := absurd (hp ▸ h) (by decide)

lemma reads_of_binary (hp : Precedence.conditional < precedence e)
    (hle : precedence e < Precedence.unary) (h : ReadsBinary e) : Reads e where
  start := hstart
  expr := (h.condition hp).expr
  condition _ := h.condition hp
  binary _ := h
  unary h := absurd h (by omega)
  castStart h := absurd h (by omega)
  enters h := absurd (Nat.le_trans (by decide : Precedence.unary ≤ Precedence.counted) h) (by omega)
  operand h := absurd (Nat.le_trans (by decide : Precedence.unary ≤ Precedence.counted) h) (by omega)

lemma reads_of_unary (hp : precedence e = Precedence.unary) (h : ReadsUnary e)
    (hcast : signed e = false → ∀ i ∈ e.items.head?, i.kind ∈ castFollow) : Reads e where
  start := hstart
  expr := ((h.binary hstart hp.ge).condition (by rw [hp]; decide)).expr
  condition _ := (h.binary hstart hp.ge).condition (by rw [hp]; decide)
  binary _ := h.binary hstart hp.ge
  unary _ := h
  castStart _ := hcast
  enters h := absurd (hp ▸ h) (by decide)
  operand h := absurd (hp ▸ h) (by decide)

lemma reads_of_operand (hp : Precedence.counted ≤ precedence e)
    (hcast : ∀ i ∈ e.items.head?, i.kind ∈ castFollow) (henter : Enters e) (h : ReadsOperand e) :
    Reads e where
  start := hstart
  expr := (((h.unary henter).binary hstart (Nat.le_trans (by decide) hp)).condition
    (Nat.lt_of_lt_of_le (by decide) hp)).expr
  condition _ := ((h.unary henter).binary hstart (Nat.le_trans (by decide) hp)).condition
    (Nat.lt_of_lt_of_le (by decide) hp)
  binary _ := (h.unary henter).binary hstart (Nat.le_trans (by decide) hp)
  unary _ := h.unary henter
  castStart _ _ := hcast
  enters _ := henter
  operand _ := h

end

def ReadsPrimary (e : Node) : Prop := ∀ ⦃n : Nat⦄ ⦃us : List Token⦄ (rest : List Token),
  Realizes e.items us →
  16 * (us ++ rest).length + 9 ≤ n → headKind rest ∉ [lparen, lbrace] →
    (precedence e < Precedence.primary → headKind rest ≠ lbracket) →
      primary n (us ++ rest) = .ok (e, rest)

lemma ReadsPrimary.operand (hne : e.items ≠ []) (h : ReadsPrimary e) : ReadsOperand e := by
  intro n us rest hus hn hopen hbracket
  obtain ⟨n, rfl⟩ : ∃ m, n = m + 1 := ⟨n - 1, by omega⟩
  have hpos : 0 < us.length := hus.length ▸ List.length_pos_iff.mpr hne
  refine ⟨n, by omega, ?_⟩
  rw [Grammar.operand, bind_of_ok (h rest hus (by omega) hopen hbracket)]

lemma primaryStarts_spec : ∀ k ∈ primaryStarts, k ∈ castFollow ∧ k ≠ lparen ∧
    k ∉ [TokenKind.mark "++", .mark "--", .mark "+", .mark "-", .mark "!", .mark "~"] := by
  decide

lemma startsExpr_of_primaryStarts : ∀ k ∈ primaryStarts, StartsExpr k := by
  intro k hk
  fin_cases hk <;> simp [StartsExpr]

lemma reads_of_primary (hstart : ∃ i is, e.items = i :: is ∧ i.kind ∈ primaryStarts)
    (hp : Precedence.counted ≤ precedence e) (h : ReadsPrimary e) : Reads e := by
  obtain ⟨i, is, hi, hkind⟩ := hstart
  obtain ⟨hcast, hparen, hmark⟩ := primaryStarts_spec _ hkind
  refine reads_of_operand ⟨i, is, hi, startsExpr_of_primaryStarts _ hkind⟩ hp ?_ ?_
    (h.operand (by rw [hi]; simp))
  · rw [hi]
    rintro j ⟨⟩
    exact hcast
  · intro n us rest hus _ _
    have hhead : headKind (us ++ rest) = i.kind := headKind_items hus (by rw [hi]; rfl) rest
    rw [unary, bind_of_ok (checkAny_no (hhead ▸ hmark)), if_neg (by simp),
      bind_of_ok (check_no (hhead ▸ hparen)), if_neg (by simp)]

lemma reads_of_tail {a : Node} (ha : Reads a) (hpa : Precedence.counted ≤ precedence a)
    (hp : Precedence.counted ≤ precedence e) {i : Item} {l : List Item}
    (hitems : e.items = a.items ++ i :: l) (hi : i.kind ∉ castFollow) (h : ReadsOperand e) :
    Reads e := by
  obtain ⟨j, js, hj, hkind⟩ := ha.start
  refine reads_of_operand ⟨j, js ++ i :: l, by rw [hitems, hj]; rfl, hkind⟩ hp ?_ ?_ h
  · have hsigned : signed a = false := by
      rcases a with ⟨t, s⟩
      cases s with
      | unary op after b =>
        cases after with
        | true => rfl
        | false => exact absurd hpa (by decide : ¬ Precedence.counted ≤ Precedence.unary)
      | _ => rfl
    have hcast := ha.castStart (Nat.le_trans (by decide) hpa) hsigned
    rw [hj] at hcast
    rw [hitems, hj]
    exact hcast
  · intro n us rest hus hn _
    rw [hitems] at hus
    obtain ⟨ua, vs, rfl, hua, hvs⟩ := hus.of_append
    have hnext : headKind (vs ++ rest) = i.kind := headKind_items hvs rfl rest
    rw [List.append_assoc] at hn ⊢
    exact ha.enters hpa (vs ++ rest) hua hn (hnext ▸ hi)

end

end LoopLowering.Grammar
