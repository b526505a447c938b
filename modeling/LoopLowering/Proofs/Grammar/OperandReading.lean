import LoopLowering.Proofs.Grammar.Reads

/-! Operands are read from their items: names, literals, calls, selections, indexes, counting
operators behind an operand, parentheses, and new objects and arrays. -/

namespace LoopLowering.Grammar

open Layout

lemma reads_of_token {e : Node} {i : Item} (hitems : e.items = [i]) (hi : i.kind ∈ primaryStarts)
    (hp : Precedence.counted ≤ precedence e)
    (h : ∀ n t rest, t.kind = i.kind → t.value = i.value → headKind rest ≠ lparen →
      primary (n + 1) (t :: rest) = .ok (e, rest)) : Reads e := by
  refine reads_of_primary ⟨i, [], hitems, hi⟩ hp ?_
  intro n us rest hus hn hopen _
  obtain ⟨n, rfl⟩ : ∃ m, n = m + 1 := ⟨n - 1, by omega⟩
  rw [hitems] at hus
  obtain ⟨t, us, rfl, hk, hv, hnil⟩ := hus.of_cons
  cases hnil
  exact h n t rest hk hv fun hparen => hopen (by simp [hparen])

lemma reads_ident (x : String) : Reads (.plain (.ident x)) := by
  refine reads_of_token (i := Item.name x) rfl List.mem_cons_self
    (by decide : Precedence.counted ≤ Precedence.primary) fun n t rest hk hv hparen => ?_
  have hk : t.kind = .ident := hk
  have hx : t.text = x := by rw [Token.text, hv]; rfl
  rw [primary, bind_of_ok (current_run _), tokenAt_zero]
  simp only [hk]
  rw [bind_of_ok (advance_cons (by simp [hk])), bind_of_ok (check_no hparen), if_neg (by simp), hx]
  rfl

lemma reads_this : Reads (.plain .thisExpr) := by
  refine reads_of_token (i := Item.word "this") rfl (by decide) (by decide)
    fun n t rest hk _ hparen => ?_
  have hk : t.kind = .word "this" := hk
  rw [primary, bind_of_ok (current_run _), tokenAt_zero]
  simp only [hk]
  rw [bind_of_ok (advance_cons (by simp [hk])), bind_of_ok (check_no hparen), if_neg (by simp)]
  rfl

lemma reads_super : Reads (.plain .superExpr) := by
  refine reads_of_token (i := Item.word "super") rfl (by decide) (by decide)
    fun n t rest hk _ hparen => ?_
  have hk : t.kind = .word "super" := hk
  rw [primary, bind_of_ok (current_run _), tokenAt_zero]
  simp only [hk]
  rw [bind_of_ok (advance_cons (by simp [hk])), bind_of_ok (check_no hparen), if_neg (by simp)]
  rfl

lemma reads_literal {c : Constant} {k : LiteralKind} (h : k.Holds c) :
    Reads (.plain (.literal c k)) := by
  have hvalued : ∀ k, TokenKind.literal k ∈ primaryStarts →
      (Node.plain (.literal c k)).items = [⟨.literal k, c, false⟩] →
        Reads (.plain (.literal c k)) := by
    intro k hk hitems
    refine reads_of_token hitems hk (by decide : Precedence.counted ≤ Precedence.primary)
      fun n t rest hk hv _ => ?_
    rw [primary, bind_of_ok (current_run _), tokenAt_zero]
    simp only [hk]
    rw [bind_of_ok (advance_cons (by simp [hk])), hv]
    rfl
  cases k with
  | boolean =>
    obtain ⟨b, rfl⟩ := h
    cases b with
    | true =>
      refine reads_of_token (i := Item.word "true") rfl (by decide) (by decide)
        fun n t rest hk _ _ => ?_
      have hk : t.kind = .word "true" := hk
      rw [primary, bind_of_ok (current_run _), tokenAt_zero]
      simp only [hk]
      rw [bind_of_ok (advance_cons (by simp [hk]))]
      rfl
    | false =>
      refine reads_of_token (i := Item.word "false") rfl (by decide) (by decide)
        fun n t rest hk _ _ => ?_
      have hk : t.kind = .word "false" := hk
      rw [primary, bind_of_ok (current_run _), tokenAt_zero]
      simp only [hk]
      rw [bind_of_ok (advance_cons (by simp [hk]))]
      rfl
  | null =>
    obtain rfl : c = .null := h
    refine reads_of_token (i := Item.word "null") rfl (by decide) (by decide)
      fun n t rest hk _ _ => ?_
    have hk : t.kind = .word "null" := hk
    rw [primary, bind_of_ok (current_run _), tokenAt_zero]
    simp only [hk]
    rw [bind_of_ok (advance_cons (by simp [hk]))]
    rfl
  | other x => cases h
  | int => exact hvalued .int (by decide) rfl
  | long => exact hvalued .long (by decide) rfl
  | float => exact hvalued .float (by decide) rfl
  | double => exact hvalued .double (by decide) rfl
  | char => exact hvalued .char (by decide) rfl
  | string => exact hvalued .string (by decide) rfl

lemma args_items {as : List Node} (has : ∀ a ∈ as, Reads a) {n : Nat} {us : List Token}
    (rest : List Token) (h : Realizes (Item.parenthesized (Item.listed (as.map Node.items))) us)
    (hn : 16 * (us ++ rest).length + 1 ≤ n) : args n (us ++ rest) = .ok (as, rest) := by
  obtain ⟨l, us, rfl, hl, -, h⟩ := h.of_mark
  obtain ⟨ua, vs, rfl, ha, h⟩ := h.of_append
  obtain ⟨r, vs, rfl, hr, -, h⟩ := h.of_mark
  cases h
  simp only [List.length_append, List.length_cons, List.length_nil] at hn
  obtain ⟨n, rfl⟩ : ∃ m, n = m + 1 := ⟨n - 1, by omega⟩
  rw [args, List.cons_append, bind_of_ok (expect_yes (k := lparen) hl (by decide)),
    List.append_assoc]
  cases as with
  | nil =>
    cases ha
    rw [List.nil_append, List.singleton_append,
      bind_of_ok (accept_yes (k := rparen) hr (by decide)), if_pos rfl]
    rfl
  | cons a as =>
    have hlist := list_items (f := exprList) (g := expr) (m := ",") (c := 15)
      (q := (· = rparen)) (fun n => by rw [exprList]; rfl) (by decide)
      (fun a ha n us rest hus hn hnext => (has a ha).expr rest hus hn (by
        rcases hnext with hnext | hnext <;> rw [hnext] <;> decide)) (by simp) (n := n)
          ([r] ++ rest) ha (by simp; omega) hr
    obtain ⟨i, is, hi, hkind⟩ := (has a List.mem_cons_self).start
    have hno : headKind (ua ++ ([r] ++ rest)) ≠ rparen := by
      rw [headKind_items ha (head?_separated (by rw [hi]; rfl) _)]
      rintro heq
      rw [heq] at hkind
      exact absurd hkind (by simp [StartsExpr, rparen])
    rw [bind_of_ok (accept_no hno), if_neg (by simp), bind_of_ok hlist, List.singleton_append,
      bind_of_ok (expect_yes (k := rparen) hr (by decide))]
    rfl

lemma items_args_head (as : List Node) :
    (Item.parenthesized (Item.listed (as.map Node.items))).head? = some (Item.mark "(") := rfl

lemma reads_call {x : String} {as : List Node} (hx : Token.IsName x ∨ x = "this" ∨ x = "super")
    (has : ∀ a ∈ as, Reads a) : Reads (.plain (.methodCall x none as)) := by
  have hitems := Node.items_call {} x as
  have hkind : (Item.ofText x).kind = .ident ∨ x = "this" ∧ (Item.ofText x).kind = .word "this" ∨
      x = "super" ∧ (Item.ofText x).kind = .word "super" := by
    rcases hx with hx | rfl | rfl
    · have h : Item.ofText (String.ofList x.toList) = Item.name (String.ofList x.toList) :=
        IsName.ofText (by rwa [String.ofList_toList])
      rw [String.ofList_toList] at h
      exact .inl (by rw [h]; rfl)
    · exact .inr (.inl ⟨rfl, rfl⟩)
    · exact .inr (.inr ⟨rfl, rfl⟩)
  have hvalue : (Item.ofText x).value = .text x := by
    rw [Item.ofText]
    split <;> rfl
  refine reads_of_primary ⟨_, _, hitems, ?_⟩ (by decide : Precedence.counted ≤ Precedence.primary) ?_
  · rcases hkind with h | ⟨-, h⟩ | ⟨-, h⟩ <;> rw [h] <;> decide
  · intro n us rest hus hn hopen _
    rw [Node.plain, hitems] at hus
    obtain ⟨t, us, rfl, hk, hv, h⟩ := hus.of_cons
    rw [List.cons_append, List.length_cons] at hn
    obtain ⟨n, rfl⟩ : ∃ m, n = m + 1 := ⟨n - 1, by omega⟩
    have hparen : headKind (us ++ rest) = lparen := headKind_items h (items_args_head as) rest
    have hargs := args_items has (n := n) rest h (by omega)
    have ht : t.text = x := by rw [Token.text, hv, hvalue]
    rw [primary, List.cons_append, bind_of_ok (current_run _), tokenAt_zero]
    rcases hkind with hkind | ⟨rfl, hkind⟩ | ⟨rfl, hkind⟩ <;>
    · rw [hkind] at hk
      simp only [hk]
      rw [bind_of_ok (advance_cons (by simp [hk])), bind_of_ok (check_yes hparen), if_pos rfl,
        bind_of_ok hargs, ht]
      rfl

lemma reads_fieldAccess {x : String} {e : Node} (he : Reads e)
    (hp : Precedence.primary ≤ precedence e) : Reads (.plain (.fieldAccess x e)) := by
  have hcounted : Precedence.counted ≤ precedence e := Nat.le_trans (by decide) hp
  refine reads_of_tail he hcounted (by decide : Precedence.counted ≤ Precedence.primary)
    (i := Item.mark ".") (l := [Item.name x]) rfl (by decide) ?_
  intro n us rest hus hn hopen _
  obtain ⟨ue, vs, rfl, hue, h⟩ := Realizes.of_append (a := e.items) hus
  obtain ⟨d, vs, rfl, hd, -, h⟩ := h.of_mark
  obtain ⟨t, vs, rfl, ht, hx, h⟩ := h.of_name
  cases h
  have hparen : headKind rest ≠ lparen := fun h => hopen (by simp [h])
  obtain ⟨n', hn', hoperand⟩ := he.operand hcounted (n := n) (d :: t :: rest) hue
    (by simpa using hn) (by rw [headKind_cons, hd]; decide) (fun h => absurd hp (by omega))
  simp only [List.length_append, List.length_cons, List.length_nil] at hn ⊢
  obtain ⟨n', rfl⟩ : ∃ m, n' = m + 1 := ⟨n' - 1, by omega⟩
  refine ⟨n', by omega, ?_⟩
  rw [List.append_assoc, List.cons_append, List.singleton_append, hoperand, operandTail,
    bind_of_ok (accept_yes (k := dot) hd (by decide)), if_pos rfl,
    bind_of_ok (expect_yes ht (by decide)), bind_of_ok (check_no hparen), if_neg (by simp), hx]

lemma reads_methodCall {x : String} {e : Node} {as : List Node} (he : Reads e)
    (hp : Precedence.primary ≤ precedence e) (has : ∀ a ∈ as, Reads a) :
    Reads (.plain (.methodCall x (some e) as)) := by
  have hitems := Node.items_methodCall {} x e as
  have hcounted : Precedence.counted ≤ precedence e := Nat.le_trans (by decide) hp
  refine reads_of_tail he hcounted (by decide : Precedence.counted ≤ Precedence.primary) hitems
    (by decide) ?_
  intro n us rest hus hn hopen _
  rw [Node.plain, hitems] at hus
  obtain ⟨ue, vs, rfl, hue, h⟩ := hus.of_append
  obtain ⟨d, vs, rfl, hd, -, h⟩ := h.of_mark
  obtain ⟨t, vs, rfl, ht, hx, h⟩ := h.of_name
  have hparen : headKind (vs ++ rest) = lparen := headKind_items h (items_args_head as) rest
  obtain ⟨n', hn', hoperand⟩ := he.operand hcounted (n := n) (d :: t :: (vs ++ rest)) hue
    (by simpa using hn) (by rw [headKind_cons, hd]; decide) (fun h => absurd hp (by omega))
  simp only [List.length_append, List.length_cons] at hn ⊢
  obtain ⟨n', rfl⟩ : ∃ m, n' = m + 1 := ⟨n' - 1, by omega⟩
  have hargs := args_items has (n := n') rest h (by rw [List.length_append]; omega)
  refine ⟨n', by omega, ?_⟩
  rw [List.append_assoc, List.cons_append, List.cons_append, hoperand, operandTail,
    bind_of_ok (accept_yes (k := dot) hd (by decide)), if_pos rfl,
    bind_of_ok (expect_yes ht (by decide)), bind_of_ok (check_yes hparen), if_pos rfl,
    bind_of_ok hargs, hx]

lemma reads_arrayAccess {e i : Node} (he : Reads e) (hp : Precedence.primary ≤ precedence e)
    (hi : Reads i) : Reads (.plain (.arrayAccess e i)) := by
  have hitems := Node.items_arrayAccess {} e i
  have hcounted : Precedence.counted ≤ precedence e := Nat.le_trans (by decide) hp
  refine reads_of_tail he hcounted (by decide : Precedence.counted ≤ Precedence.primary) hitems
    (by decide) ?_
  intro n us rest hus hn hopen _
  rw [Node.plain, hitems] at hus
  obtain ⟨ue, vs, rfl, hue, h⟩ := hus.of_append
  obtain ⟨l, vs, rfl, hl, -, h⟩ := h.of_mark
  obtain ⟨ui, vs, rfl, hui, h⟩ := h.of_append
  obtain ⟨r, vs, rfl, hr, -, h⟩ := h.of_mark
  cases h
  obtain ⟨n', hn', hoperand⟩ := he.operand hcounted (n := n) (l :: (ui ++ r :: rest)) hue
    (by simpa using hn) (by rw [headKind_cons, hl]; decide)
    (fun h => absurd hp (by omega))
  simp only [List.length_append, List.length_cons, List.length_nil] at hn ⊢
  obtain ⟨n', rfl⟩ : ∃ m, n' = m + 1 := ⟨n' - 1, by omega⟩
  have hindex := hi.expr (n := n') (r :: rest) hui
    (by simp only [List.length_append, List.length_cons]; omega) (by rw [headKind_cons, hr]; decide)
  have hopen' : headKind (l :: (ui ++ r :: rest)) ≠ dot := by rw [headKind_cons, hl]; decide
  refine ⟨n', by omega, ?_⟩
  rw [List.append_assoc, List.cons_append, List.append_assoc, List.singleton_append, hoperand,
    operandTail, bind_of_ok (accept_no hopen'), if_neg (by simp),
    bind_of_ok (accept_yes (k := lbracket) hl (by decide)), if_pos rfl, bind_of_ok hindex,
    bind_of_ok (expect_yes (k := rbracket) hr (by decide))]

lemma reads_after {op : UnaryOp} {e : Node} (hop : op ∈ [UnaryOp.increment, .decrement])
    (he : Reads e) (hp : Precedence.counted ≤ precedence e) :
    Reads (.plain (.unary op true e)) := by
  have hsymbol : UnaryOp.ofSymbol op.symbol = op ∧ op.symbol ∈ ["++", "--"] := by
    fin_cases hop <;> decide
  have hmark : ∀ m ∈ ["++", "--"], TokenKind.mark m ∉ castFollow ∧
      TokenKind.mark m ∉ [lparen, lbrace] ∧ TokenKind.mark m ≠ dot ∧ TokenKind.mark m ≠ lbracket ∧
        TokenKind.mark m ∈ [TokenKind.mark "++", .mark "--"] := by
    decide
  obtain ⟨hcast, hopen, hdot, hbracket, hcount⟩ := hmark _ hsymbol.2
  refine reads_of_tail he hp (by decide : Precedence.counted ≤ Precedence.counted)
    (i := Item.mark op.symbol) (l := []) rfl hcast ?_
  intro n us rest hus hn _ _
  obtain ⟨ue, vs, rfl, hue, h⟩ := Realizes.of_append (a := e.items) hus
  obtain ⟨t, vs, rfl, ht, hx, h⟩ := Realizes.of_mark (x := op.symbol) (l := []) h
  cases h
  obtain ⟨n', hn', hoperand⟩ := he.operand hp (n := n) (t :: rest) hue
    (by simpa using hn) (by rwa [headKind_cons, ht]) (fun _ => by rwa [headKind_cons, ht])
  simp only [List.length_append, List.length_cons, List.length_nil] at hn ⊢
  obtain ⟨n', rfl⟩ : ∃ m, n' = m + 1 := ⟨n' - 1, by omega⟩
  refine ⟨n', by omega, ?_⟩
  rw [← ht] at hdot hbracket hcount
  rw [List.append_assoc, List.singleton_append, hoperand, operandTail,
    bind_of_ok (accept_no (l := t :: rest) hdot), if_neg (by simp),
    bind_of_ok (accept_no (l := t :: rest) hbracket), if_neg (by simp),
    bind_of_ok (checkAny_yes (l := t :: rest) hcount), if_pos rfl,
    bind_of_ok (advance_cons (by simp [ht])), hx, hsymbol.1]

lemma reads_parens {e : Node} (htree : ExprTree Legible false e) (he : Reads e) :
    Reads (.plain (.parens e)) := by
  have hstart : (Node.plain (.parens e)).items = Item.mark "(" :: (e.items ++ [Item.mark ")"]) := rfl
  refine reads_of_operand ⟨_, _, hstart, by simp [StartsExpr, Item.mark]⟩
    (by decide : Precedence.counted ≤ Precedence.primary) ?_ ?_ (ReadsPrimary.operand (by simp [hstart]) ?_)
  · rintro i ⟨⟩
    decide
  · intro n us rest hus hn hrest
    rw [hstart] at hus
    obtain ⟨l, us, rfl, hl, -, h⟩ := hus.of_mark
    obtain ⟨ue, vs, rfl, hue, h⟩ := h.of_append
    obtain ⟨r, vs, rfl, hr, -, h⟩ := h.of_mark
    cases h
    have hmark : headKind (l :: (ue ++ r :: rest)) ∉
        [TokenKind.mark "++", .mark "--", .mark "+", .mark "-", .mark "!", .mark "~"] := by
      rw [headKind_cons, hl]
      decide
    have hcast := castType_none htree hue (n := n) hl hr
      (by simp only [List.length_append, List.length_cons, List.length_nil] at hn ⊢; omega) hrest
    rw [List.cons_append, List.append_assoc, List.singleton_append, unary,
      bind_of_ok (checkAny_no hmark), if_neg (by simp),
      bind_of_ok (check_yes (l := l :: (ue ++ r :: rest)) (k := lparen) hl), if_pos rfl,
      bind_of_ok hcast]
  · intro n us rest hus hn _ _
    rw [hstart] at hus
    obtain ⟨l, us, rfl, hl, -, h⟩ := hus.of_mark
    obtain ⟨ue, vs, rfl, hue, h⟩ := h.of_append
    obtain ⟨r, vs, rfl, hr, -, h⟩ := h.of_mark
    cases h
    simp only [List.length_append, List.length_cons, List.length_nil] at hn
    obtain ⟨n, rfl⟩ : ∃ m, n = m + 2 := ⟨n - 2, by omega⟩
    have hexpr := he.expr (n := n) (r :: rest) hue
      (by simp only [List.length_append, List.length_cons]; omega)
      (by rw [headKind_cons, hr]; decide)
    have hparens : parenthesized (n + 1) (l :: (ue ++ r :: rest)) = .ok (e, rest) := by
      rw [parenthesized, bind_of_ok (expect_yes (k := lparen) hl (by decide)), bind_of_ok hexpr,
        bind_of_ok (expect_yes (k := rparen) hr (by decide))]
      rfl
    rw [primary, List.cons_append, List.append_assoc, List.singleton_append,
      bind_of_ok (current_run _), tokenAt_zero]
    simp only [hl]
    rw [bind_of_ok hparens]
    rfl

lemma reads_objectCreation {ty : Node} {as : List Node} (hty : TypeTree Legible false ty)
    (hdims : ty.dims = 0) (has : ∀ a ∈ as, Reads a) : Reads (.plain (.objectCreation ty as)) := by
  have hitems := Node.items_objectCreation {} ty as
  refine reads_of_primary ⟨_, _, hitems, by decide⟩
    (by decide : Precedence.counted ≤ Precedence.primary) ?_
  intro n us rest hus hn hopen _
  rw [Node.plain, hitems] at hus
  obtain ⟨w, us, rfl, hw, -, h⟩ := hus.of_word
  obtain ⟨ut, va, rfl, hut, hva⟩ := h.of_append
  simp only [List.cons_append, List.length_append, List.length_cons] at hn
  obtain ⟨n, rfl⟩ : ∃ m, n = m + 2 := ⟨n - 2, by omega⟩
  have hparen : headKind (va ++ rest) = lparen := headKind_items hva (items_args_head as) rest
  have hnext : headKind (va ++ rest) ≠ dot ∧ headKind (va ++ rest) ≠ .mark "<" ∧
      headKind (va ++ rest) ≠ lbracket := by
    rw [hparen]
    decide
  have hbrace : headKind rest ≠ lbrace := fun h => hopen (by simp [h])
  obtain ⟨f, htype, hf⟩ := (readsType_of_tree hty).bare hdims (n := n) (va ++ rest) hut
    (by simp only [List.length_append]; omega) hnext.1 fun _ => hnext.2.1
  have hargs := args_items has (n := n) rest hva (by rw [List.length_append]; omega)
  have hcreation : creation (n + 1) (w :: (ut ++ (va ++ rest))) =
      .ok (.plain (.objectCreation ty as), rest) := by
    rw [creation, bind_of_ok (expect_yes hw (by decide)), bind_of_ok htype,
      bind_of_ok (check_no hnext.2.2), if_neg (by simp), bind_of_ok hargs,
      bind_of_ok (check_no hbrace), if_neg (by simp), hf]
    rfl
  rw [primary, List.cons_append, List.append_assoc, bind_of_ok (current_run _), tokenAt_zero]
  simp only [hw]
  exact hcreation

def ReadsArray (e : Node) : Prop :=
  e.items.head? = some (Item.mark "\x7b") ∧
    ∀ ⦃n : Nat⦄ ⦃us : List Token⦄ (rest : List Token), Realizes e.items us →
      16 * (us ++ rest).length + 3 ≤ n → arrayInit n (us ++ rest) = .ok (e, rest)

lemma initialValue_items {e : Node} (h : Reads e ∨ ReadsArray e) {n : Nat} {us : List Token}
    (rest : List Token) (hus : Realizes e.items us) (hn : 16 * (us ++ rest).length + 16 ≤ n)
    (hrest : headKind rest ∈ closing) : initialValue n (us ++ rest) = .ok (e, rest) := by
  obtain ⟨n, rfl⟩ : ∃ m, n = m + 1 := ⟨n - 1, by omega⟩
  rcases h with h | ⟨hhead, hread⟩
  · obtain ⟨i, is, hi, hkind⟩ := h.start
    have hno : headKind (us ++ rest) ≠ lbrace := by
      rw [headKind_items hus (by rw [hi]; rfl)]
      intro heq
      rw [heq] at hkind
      exact absurd hkind (by simp [StartsExpr, lbrace])
    rw [initialValue, bind_of_ok (check_no hno), if_neg (by simp), h.expr rest hus (by omega) hrest]
  · have hyes : headKind (us ++ rest) = lbrace := headKind_items hus hhead rest
    rw [initialValue, bind_of_ok (check_yes hyes), if_pos rfl]
    exact hread rest hus (by omega)

lemma value_start {e : Node} (h : Reads e ∨ ReadsArray e) :
    ∃ i, e.items.head? = some i ∧ i.kind ≠ rbrace := by
  rcases h with h | h
  · obtain ⟨i, is, hi, hkind⟩ := h.start
    refine ⟨i, by rw [hi]; rfl, fun heq => ?_⟩
    rw [heq] at hkind
    exact absurd hkind (by simp [StartsExpr, rbrace])
  · exact ⟨_, h.1, by decide⟩

lemma elements_items {vs : List Node} (hvs : ∀ v ∈ vs, Reads v ∨ ReadsArray v) {n : Nat}
    {us : List Token} (rest : List Token) (h : Realizes (Item.listed (vs.map Node.items)) us)
    (hn : 16 * (us ++ rest).length + 17 ≤ n) (hrest : headKind rest = rbrace) :
    elements n (us ++ rest) = .ok (vs, rest) := by
  rw [Item.listed] at h
  induction vs generalizing n us with
  | nil =>
    cases h
    obtain ⟨n, rfl⟩ : ∃ m, n = m + 1 := ⟨n - 1, by omega⟩
    rw [elements, List.nil_append, bind_of_ok (check_yes hrest), if_pos rfl]
    rfl
  | cons v vs ih =>
    obtain ⟨n, rfl⟩ : ∃ m, n = m + 1 := ⟨n - 1, by omega⟩
    obtain ⟨i, hi, hne⟩ := value_start (hvs v List.mem_cons_self)
    have hno : headKind (us ++ rest) ≠ rbrace := by
      rwa [headKind_items h (head?_separated hi _)]
    rw [elements, bind_of_ok (check_no hno), if_neg (by simp)]
    rw [Item.separated, List.map_cons] at h
    cases vs with
    | nil =>
      rw [List.map_nil, intercalate_cons, List.flatMap_nil, List.append_nil] at h
      have hv := initialValue_items (hvs v List.mem_cons_self) (n := n) rest h (by omega)
        (by rw [hrest]; decide)
      have hcomma : headKind rest ≠ comma := by rw [hrest]; decide
      rw [bind_of_ok hv, bind_of_ok (accept_no hcomma), if_neg (by simp)]
      rfl
    | cons w ws =>
      rw [List.map_cons, List.intercalate_cons_cons, List.append_assoc] at h
      obtain ⟨uv, vs, rfl, hv, h⟩ := h.of_append
      obtain ⟨t, ub, rfl, ht, -, hb⟩ := h.of_mark
      rw [List.append_assoc, List.cons_append] at hn
      have hv := initialValue_items (hvs v List.mem_cons_self) (n := n) (t :: (ub ++ rest)) hv
        (by omega) (by rw [headKind_cons, ht]; decide)
      rw [List.length_append, List.length_cons] at hn
      have hlist := ih (fun d hd => hvs d (List.mem_cons_of_mem v hd)) hb (n := n) (by omega)
      rw [List.append_assoc, List.cons_append, bind_of_ok hv,
        bind_of_ok (accept_yes (k := comma) ht (by decide)), if_pos rfl, bind_of_ok hlist]
      rfl

lemma readsArray_arrayInit {vs : List Node} (hvs : ∀ v ∈ vs, Reads v ∨ ReadsArray v) :
    ReadsArray (.plain (.arrayInit vs)) := by
  have hitems := Node.items_arrayInit {} vs
  refine ⟨by rw [Node.plain, hitems]; rfl, ?_⟩
  intro n us rest hus hn
  rw [Node.plain, hitems] at hus
  obtain ⟨l, us, rfl, hl, -, h⟩ := hus.of_mark
  obtain ⟨uv, ur, rfl, huv, h⟩ := h.of_append
  obtain ⟨r, ur, rfl, hr, -, h⟩ := h.of_mark
  cases h
  simp only [List.cons_append, List.length_append, List.length_cons, List.length_nil] at hn
  obtain ⟨n, rfl⟩ : ∃ m, n = m + 1 := ⟨n - 1, by omega⟩
  have helements := elements_items hvs (n := n) (r :: rest) huv
    (by simp only [List.length_append, List.length_cons]; omega) hr
  rw [arrayInit, List.cons_append, List.append_assoc, List.singleton_append,
    bind_of_ok (expect_yes (k := lbrace) hl (by decide)), bind_of_ok helements,
    bind_of_ok (expect_yes (k := rbrace) hr (by decide))]
  rfl

lemma creationDims_open {m : Nat} {us rest : List Token} (h : Realizes (Item.brackets m) us)
    (hrest : headKind rest ≠ lbracket) (k : Nat) {n : Nat} (hn : us.length + 1 ≤ n) :
    creationDims n k (us ++ rest) = .ok (([], k + m), rest) := by
  induction m generalizing us k n with
  | zero =>
    cases h
    obtain ⟨n, rfl⟩ : ∃ m, n = m + 1 := ⟨n - 1, by omega⟩
    rw [creationDims, List.nil_append, bind_of_ok (accept_no hrest), if_neg (by simp)]
    rfl
  | succ m ih =>
    rw [Item.brackets, List.replicate_succ, List.flatten_cons] at h
    obtain ⟨l, us, rfl, hl, -, h⟩ := h.of_mark
    obtain ⟨r, us, rfl, hr, -, h⟩ := h.of_mark
    simp only [List.length_cons] at hn
    obtain ⟨n, rfl⟩ : ∃ m, n = m + 1 := ⟨n - 1, by omega⟩
    rw [creationDims, List.cons_append, List.cons_append,
      bind_of_ok (accept_yes (k := lbracket) hl (by decide)), if_pos rfl,
      bind_of_ok (accept_yes (k := rbracket) hr (by decide)), if_pos rfl, ih h (k + 1) (by omega),
      Nat.add_right_comm, Nat.add_assoc]

lemma creationDims_items {ds : List Node} (hds : ∀ d ∈ ds, Reads d) {m n : Nat}
    {us ub rest : List Token}
    (h : Realizes (ds.flatMap fun d => Item.mark "[" :: d.items ++ [Item.mark "]"]) us)
    (hb : Realizes (Item.brackets m) ub) (hrest : headKind rest ≠ lbracket)
    (hn : 16 * (us ++ (ub ++ rest)).length + 1 ≤ n) :
    creationDims n 0 (us ++ (ub ++ rest)) = .ok ((ds, m), rest) := by
  induction ds generalizing us n with
  | nil =>
    cases h
    rw [List.nil_append, List.length_append] at hn
    rw [List.nil_append, creationDims_open hb hrest 0 (by omega), Nat.zero_add]
  | cons d ds ih =>
    rw [List.flatMap_cons, List.append_assoc, List.cons_append] at h
    obtain ⟨l, us, rfl, hl, -, h⟩ := h.of_mark
    obtain ⟨ud, us, rfl, hud, h⟩ := h.of_append
    obtain ⟨r, us, rfl, hr, -, h⟩ := h.of_mark
    simp only [List.cons_append, List.append_assoc, List.length_append, List.length_cons] at hn
    obtain ⟨n, rfl⟩ : ∃ m, n = m + 1 := ⟨n - 1, by omega⟩
    obtain ⟨i, is, hi, hkind⟩ := (hds d List.mem_cons_self).start
    have hno : headKind (ud ++ r :: (us ++ (ub ++ rest))) ≠ rbracket := by
      rw [headKind_items hud (by rw [hi]; rfl)]
      intro heq
      rw [heq] at hkind
      exact absurd hkind (by simp [StartsExpr, rbracket])
    have hd := (hds d List.mem_cons_self).expr (n := n) (r :: (us ++ (ub ++ rest))) hud
      (by simp only [List.length_append, List.length_cons]; omega)
      (by rw [headKind_cons, hr]; decide)
    have hdims := ih (fun e he => hds e (List.mem_cons_of_mem d he)) h (n := n)
      (by simp only [List.length_append]; omega)
    rw [creationDims, List.cons_append, List.append_assoc, List.cons_append,
      bind_of_ok (accept_yes (k := lbracket) hl (by decide)), if_pos rfl,
      bind_of_ok (accept_no hno), if_neg (by simp), if_neg (by simp), bind_of_ok hd,
      bind_of_ok (expect_yes (k := rbracket) hr (by decide)), bind_of_ok hdims]
    rfl

lemma reads_arrayCreation {m : Nat} {ty : Node} {ds : List Node} {o : Option Node}
    (hty : TypeTree Legible false ty) (hdims : ty.dims = 0) (hds : ∀ d ∈ ds, Reads d)
    (ho : ∀ i ∈ o, ReadsArray i) (hparts : ArrayParts m ds o) :
    Reads (.plain (.arrayCreation m ty ds o)) := by
  have hitems := Node.items_arrayCreation {} m ty ds o
  refine reads_of_primary ⟨_, _, hitems, by decide⟩
    (by decide : Precedence.counted ≤ Precedence.counted) ?_
  intro n us rest hus hn hopen hcounted
  have hbracket : headKind rest ≠ lbracket :=
    hcounted (by decide : Precedence.counted < Precedence.primary)
  have hbrace : headKind rest ≠ lbrace := fun h => hopen (by simp [h])
  rw [Node.plain, hitems] at hus
  obtain ⟨w, us, rfl, hw, -, h⟩ := hus.of_word
  obtain ⟨ut, us, rfl, hut, h⟩ := h.of_append
  obtain ⟨ud, us, rfl, hud, h⟩ := h.of_append
  obtain ⟨ub, ui, rfl, hub, hui⟩ := h.of_append
  simp only [List.cons_append, List.length_append, List.length_cons] at hn
  obtain ⟨n, rfl⟩ : ∃ m, n = m + 2 := ⟨n - 2, by omega⟩
  -- Lengths or open brackets come right behind the type.
  have hhead : headKind (ud ++ (ub ++ (ui ++ rest))) = lbracket := by
    cases o with
    | none =>
      obtain ⟨d, ds, rfl⟩ := List.exists_cons_of_ne_nil hparts
      exact headKind_items hud rfl _
    | some i =>
      obtain ⟨rfl, hm, -⟩ := hparts
      obtain ⟨m, rfl⟩ : ∃ k, m = k + 1 := ⟨m - 1, by omega⟩
      cases hud
      exact headKind_items hub rfl _
  have hnext : headKind (ud ++ (ub ++ (ui ++ rest))) ≠ dot ∧
      headKind (ud ++ (ub ++ (ui ++ rest))) ≠ .mark "<" := by
    rw [hhead]
    decide
  obtain ⟨f, htype, hf⟩ := (readsType_of_tree hty).bare hdims (n := n)
    (ud ++ (ub ++ (ui ++ rest))) hut (by simp only [List.length_append]; omega) hnext.1
    fun _ => hnext.2
  have hclosed : headKind (ui ++ rest) ≠ lbracket := by
    cases o with
    | none => cases hui; exact hbracket
    | some i => rw [headKind_items hui (ho i rfl).1 rest]; decide
  have hdims := creationDims_items hds hud hub hclosed (n := n)
    (by simp only [List.length_append]; omega)
  have hcreation : creation (n + 1) (w :: (ut ++ (ud ++ (ub ++ (ui ++ rest))))) =
      .ok (.plain (.arrayCreation m ty ds o), rest) := by
    rw [creation, bind_of_ok (expect_yes hw (by decide)), bind_of_ok htype,
      bind_of_ok (check_yes hhead), if_pos rfl, bind_of_ok hdims]
    cases o with
    | none =>
      cases hui
      simp only [List.nil_append]
      rw [bind_of_ok (check_no hbrace), if_neg (by simp), if_neg (by simpa [ArrayParts] using hparts), hf]
      rfl
    | some i =>
      obtain ⟨rfl, -, -⟩ := hparts
      have hyes : headKind (ui ++ rest) = lbrace := headKind_items hui (ho i rfl).1 rest
      simp only []
      rw [bind_of_ok (check_yes hyes), if_pos rfl, if_pos List.isEmpty_nil,
        bind_of_ok ((ho i rfl).2 rest hui (by simp only [List.length_append]; omega)), hf]
      rfl
  rw [primary, List.cons_append, List.append_assoc, List.append_assoc, List.append_assoc,
    bind_of_ok (current_run _), tokenAt_zero]
  simp only [hw]
  exact hcreation

end LoopLowering.Grammar
