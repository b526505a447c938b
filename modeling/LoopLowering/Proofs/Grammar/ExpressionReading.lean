import LoopLowering.Proofs.Grammar.OperandReading

/-! Expressions are read from their items. Each operator takes what its level allows on either side,
and the tree that is read is the one the items come from. -/

namespace LoopLowering.Grammar

open Layout

lemma Reads.pos {e : Node} (h : Reads e) {us : List Token} (hus : Realizes e.items us) :
    0 < us.length := by
  obtain ⟨i, is, hi, -⟩ := h.start
  rw [hus.length, hi]
  exact Nat.succ_pos _

lemma Reads.noCloser {e : Node} (h : Reads e) {us : List Token} (hus : Realizes e.items us)
    (rest : List Token) : NoCloser (us ++ rest) := by
  obtain ⟨i, is, hi, hkind⟩ := h.start
  have hne : us ≠ [] := List.length_pos_iff.mp (h.pos hus)
  rw [NoCloser, headKind_items hus (by rw [hi]; rfl)]
  refine ⟨by simp [hne], ?_, ?_⟩ <;>
  · intro heq
    rw [heq] at hkind
    exact absurd hkind (by simp [StartsExpr])

lemma start_append {e f : Node} (he : Reads e) {l : List Item} (h : f.items = e.items ++ l) :
    ∃ i is, f.items = i :: is ∧ StartsExpr i.kind := by
  obtain ⟨i, js, hi, hkind⟩ := he.start
  exact ⟨i, js ++ l, by rw [h, hi]; rfl, hkind⟩

lemma drop_run (us rest : List Token) : drop us.length (us ++ rest) = .ok ((), rest) := by
  rw [drop, splitting, List.drop_left]

lemma reads_assign {op : AssignOp} {l r : Node} (hop : op.Known) (hl : Reads l)
    (hplace : isTarget l = true) (hr : Reads r) : Reads (.plain (.assign op l r)) := by
  have hitems := Node.items_assign {} op l r
  refine reads_of_expr (start_append hl hitems)
    (by decide : Precedence.assign < Precedence.conditional) ?_
  intro n us rest hus hn hrest
  rw [Node.plain, hitems] at hus
  obtain ⟨ul, us, rfl, hul, h⟩ := hus.of_append
  obtain ⟨uo, ur, rfl, huo, hur⟩ := h.of_append
  obtain ⟨n, rfl⟩ : ∃ m, n = m + 1 := ⟨n - 1, by omega⟩
  obtain ⟨hassign, hstop⟩ := assignOpAt_items hop (ur ++ rest) huo
  rw [List.append_assoc, List.append_assoc] at hn ⊢
  have hcond := hl.condition (by rw [precedence_of_isTarget hplace]; decide) (n := n)
    (uo ++ (ur ++ rest)) hul (by omega) hstop
  have hpos := hl.pos hul
  simp only [List.length_append] at hn
  have hright := hr.expr (n := n) rest hur (by rw [List.length_append]; omega) hrest
  rw [expr, bind_of_ok hcond, bind_of_ok (get_run _), hassign]
  simp only []
  rw [if_pos hplace, bind_of_ok (drop_run _ _), bind_of_ok hright]
  rfl

lemma reads_conditional {c a b : Node} (hc : Reads c) (hpc : Precedence.conditional < precedence c)
    (ha : Reads a) (hb : Reads b) (hpb : Precedence.conditional ≤ precedence b) :
    Reads (.plain (.conditional c a b)) := by
  have hitems := Node.items_conditional {} c a b
  refine reads_of_condition (start_append hc hitems) rfl ?_
  intro n us rest hus hn hrest
  rw [Node.plain, hitems] at hus
  obtain ⟨uc, us, rfl, huc, h⟩ := hus.of_append
  obtain ⟨q, us, rfl, hq, -, h⟩ := h.of_mark
  obtain ⟨ua, us, rfl, hua, h⟩ := h.of_append
  obtain ⟨d, ub, rfl, hd, -, hub⟩ := h.of_mark
  obtain ⟨n, rfl⟩ : ∃ m, n = m + 1 := ⟨n - 1, by omega⟩
  simp only [List.append_assoc, List.cons_append] at hn ⊢
  have hconnective : connectiveAt (q :: (ua ++ d :: (ub ++ rest))) = none :=
    connectiveAt_of_kind hq (by decide) (by decide)
  obtain ⟨n', hn', hbinary⟩ := hc.binary hpc (n := n) 0 (q :: (ua ++ d :: (ub ++ rest))) huc
    (by omega) (by rw [headKind_cons, hq]; decide)
    (by simp [hconnective]) (fun _ => by rw [headKind_cons, hq]; decide) hpc
  simp only [List.length_append, List.length_cons] at hn
  obtain ⟨n', rfl⟩ : ∃ m, n' = m + 1 := ⟨n' - 1, by omega⟩
  rw [binaryTail_stop hconnective] at hbinary
  have hthen := ha.expr (n := n) (d :: (ub ++ rest)) hua
    (by simp only [List.length_append, List.length_cons]; omega)
    (by rw [headKind_cons, hd]; decide)
  have helse := hb.condition hpb (n := n) rest hub
    (by rw [List.length_append]; omega) hrest
  rw [condition, bind_of_ok hbinary, bind_of_ok (accept_yes hq (by decide)), if_pos rfl,
    bind_of_ok hthen, bind_of_ok (expect_yes (k := colon) hd (by decide)), bind_of_ok helse]
  rfl

lemma binaryTail_low {n least most k : Nat} {c : Connective} {e : Node} {rest : List Token}
    (h : connectiveAt rest = some (c, k)) (hlow : c.level < least) :
    binaryTail (n + 1) least most e rest = .ok (e, rest) := by
  rw [binaryTail, bind_of_ok (get_run _), h]
  simp [hlow]

lemma Reads.right {e : Node} (h : Reads e) {n : Nat} (least : Nat) {us : List Token}
    (rest : List Token) (hus : Realizes e.items us) (hn : 16 * (us ++ rest).length + 13 ≤ n)
    (hopen : headKind rest ∉ operandOpen)
    (hlow : ∀ c k, connectiveAt rest = some (c, k) → c.level < least)
    (hless : testsClassName e = true → headKind rest ≠ .mark "<")
    (hleast : least + 3 ≤ precedence e) : Grammar.binary n least (us ++ rest) = .ok (e, rest) := by
  obtain ⟨n', hn', hbinary⟩ := h.binary (Nat.lt_of_lt_of_le (by decide)
    (Nat.le_trans (Nat.le_add_left 3 least) hleast))
    least rest hus hn hopen (fun c k hc => by have := hlow c k hc; omega) hless hleast
  rw [List.length_append] at hn
  obtain ⟨n', rfl⟩ : ∃ m, n' = m + 1 := ⟨n' - 1, by omega⟩
  rw [hbinary]
  cases hc : connectiveAt rest with
  | none => exact binaryTail_stop hc
  | some ck => exact binaryTail_low hc (hlow _ _ hc)

lemma precedence_of_testsClassName {e : Node} (h : testsClassName e = true) :
    precedence e = Precedence.comparison := by
  obtain ⟨t, s⟩ := e
  cases s <;> first | rfl | cases h

lemma level_of_known {op : BinaryOp} {p : Nat} (hp : Precedence.binary op = some p) :
    (Connective.operator op).level + 3 = p := by
  obtain ⟨l, hl, rfl⟩ := Option.map_eq_some_iff.mp hp
  rw [Connective.level, hl]
  rfl

lemma ofBinary_head {op : BinaryOp} (hop : op ∈ BinaryOp.known) :
    ∃ i is, Item.ofBinary op = i :: is ∧ i.kind ∉ operandOpen ∧ (op ≠ .lt → i.kind ≠ .mark "<") := by
  have key : ∀ op ∈ BinaryOp.known, ((Item.ofBinary op).map (·.kind)).head?.any fun k =>
      decide (k ∉ operandOpen ∧ (op ≠ .lt → k ≠ .mark "<")) := by
    decide
  have h := key op hop
  cases hitems : Item.ofBinary op with
  | nil => rw [hitems] at h; cases h
  | cons i is =>
    rw [hitems] at h
    exact ⟨i, is, rfl, of_decide_eq_true h⟩

lemma reads_binary {op : BinaryOp} {l r : Node} (hop : op ∈ BinaryOp.known) (hl : Reads l)
    (hr : Reads r) (hfit : ∀ p ∈ Precedence.binary op, p ≤ precedence l ∧ p + 1 ≤ precedence r)
    (hclear : Clear (.binary op l r)) : Reads (.plain (.binary op l r)) := by
  obtain ⟨p, hp, hlow, hhigh⟩ := exists_binary hop
  obtain ⟨hpl, hpr⟩ := hfit p hp
  have hlevel := level_of_known hp
  have hprec : precedence (.plain (.binary op l r)) = p := by
    show (Precedence.binary op).getD 0 = p
    rw [hp]
    rfl
  have hitems := Node.items_binary {} op l r
  refine reads_of_binary (start_append hl hitems) (by rwa [hprec]) (by rwa [hprec]) ?_
  intro n least us rest hus hn hopen hnext hless hleast
  rw [hprec] at hnext hleast ⊢
  rw [Node.plain, hitems] at hus
  obtain ⟨ul, us, rfl, hul, h⟩ := hus.of_append
  obtain ⟨uo, ur, rfl, huo, hur⟩ := h.of_append
  simp only [List.append_assoc] at hn ⊢
  have hconnective := connectiveAt_items hop huo (hr.noCloser hur rest)
  obtain ⟨i, is, hi, hiopen, hilt⟩ := ofBinary_head hop
  have hhead : headKind (uo ++ (ur ++ rest)) = i.kind := headKind_items huo (by rw [hi]; rfl) _
  have hclass : testsClassName l = true → headKind (uo ++ (ur ++ rest)) ≠ .mark "<" := by
    intro htests
    rw [hhead]
    refine hilt ?_
    rintro rfl
    exact absurd htests (by simpa [Clear] using hclear)
  have hcond : (2 : Nat) < p := hlow
  have hunary : p < 13 := hhigh
  obtain ⟨n', hn', hleft⟩ := hl.binary (Nat.lt_of_lt_of_le hlow hpl) (n := n) least
    (uo ++ (ur ++ rest)) hul (by omega) (by rwa [hhead]) (by
      intro c k hc
      obtain ⟨rfl, rfl⟩ := Prod.mk.inj (Option.some.inj (hconnective.symm.trans hc))
      omega) hclass (by omega)
  have hposl := hl.pos hul
  have hposo : 0 < uo.length := by rw [huo.length, hi]; exact Nat.succ_pos _
  simp only [List.length_append] at hn ⊢
  obtain ⟨n', rfl⟩ : ∃ m, n' = m + 1 := ⟨n' - 1, by omega⟩
  have hlessr : testsClassName r = true → headKind rest ≠ .mark "<" := by
    intro htests hlt
    have hltlevel := hnext _ _ (connectiveAt_mark (o := .lt) (by decide) rfl hlt)
    have hpr' : precedence r = 9 := precedence_of_testsClassName htests
    have hnine : (Connective.operator .lt).level = 6 := rfl
    omega
  have hright := hr.right (n := n') ((Connective.operator op).level + 1) rest hur
    (by rw [List.length_append]; omega) hopen
    (fun c k hc => by have := hnext c k hc; omega) hlessr (by omega)
  have hmost : ¬ ((decide ((Connective.operator op).level < least) ||
      decide (min 9 (precedence l - 3) < (Connective.operator op).level)) = true) := by
    simp only [Bool.or_eq_true, decide_eq_true_eq]
    omega
  have hmin : min 9 (p - 3) = (Connective.operator op).level := by omega
  refine ⟨n', by omega, ?_⟩
  rw [hleft, binaryTail, bind_of_ok (get_run _), hconnective]
  simp only []
  rw [if_neg hmost, bind_of_ok (drop_run _ _), bind_of_ok hright, hmin]

lemma reads_instanceOf {e ty : Node} (he : Reads e) (hp : Precedence.comparison ≤ precedence e)
    (hty : TypeTree Legible false ty) : Reads (.plain (.instanceOf e ty)) := by
  refine reads_of_binary (start_append he (l := Item.word "instanceof" :: ty.items) rfl)
    (by decide : Precedence.conditional < Precedence.comparison)
    (by decide : Precedence.comparison < Precedence.unary) ?_
  intro n least us rest hus hn hopen hnext hless hleast
  have hprec : precedence (.plain (.instanceOf e ty)) = 9 := rfl
  have hp : 9 ≤ precedence e := hp
  rw [hprec] at hnext hleast ⊢
  obtain ⟨ue, us, rfl, hue, h⟩ := Realizes.of_append (a := e.items) hus
  obtain ⟨w, ut, rfl, hw, -, hut⟩ := h.of_word
  simp only [List.append_assoc, List.cons_append] at hn ⊢
  have hconnective : connectiveAt (w :: (ut ++ rest)) = some (.instanceOf, 1) := by
    simp [connectiveAt, hw]
  have hlevel : Connective.instanceOf.level = 6 := rfl
  have hcond : Precedence.conditional < precedence e := Nat.lt_of_lt_of_le (by decide) hp
  obtain ⟨n', hn', hleft⟩ := he.binary hcond (n := n) least (w :: (ut ++ rest)) hue (by omega)
    (by rw [headKind_cons, hw]; decide) (by
      intro c k hc
      obtain ⟨rfl, rfl⟩ := Prod.mk.inj (Option.some.inj (hconnective.symm.trans hc))
      omega) (fun _ => by rw [headKind_cons, hw]; simp) (by omega)
  simp only [List.length_append, List.length_cons] at hn ⊢
  have hpos := he.pos hue
  obtain ⟨n', rfl⟩ : ∃ m, n' = m + 1 := ⟨n' - 1, by omega⟩
  have hstop : headKind rest ∉ [dot, lbracket] := by
    have key : ∀ k ∈ [dot, lbracket], k ∈ operandOpen := by decide
    exact fun hmem => hopen (key _ hmem)
  have htype := (readsType_of_tree hty).type (n := n') rest hut
    (by rw [List.length_append]; omega) hstop hless
  have hmost : ¬ ((decide (Connective.instanceOf.level < least) ||
      decide (min 9 (precedence e - 3) < Connective.instanceOf.level)) = true) := by
    simp only [Bool.or_eq_true, decide_eq_true_eq]
    omega
  refine ⟨n', by omega, ?_⟩
  rw [hleft, binaryTail, bind_of_ok (get_run _), hconnective]
  simp only []
  have hdrop : drop 1 (w :: (ut ++ rest)) = .ok ((), ut ++ rest) := drop_run [w] _
  rw [if_neg hmost, bind_of_ok hdrop, bind_of_ok htype]
  rfl

lemma reads_before {op : UnaryOp} {e : Node} (hop : op ∈ UnaryOp.known) (he : Reads e)
    (hp : Precedence.unary ≤ precedence e) : Reads (.plain (.unary op false e)) := by
  have key : ∀ op ∈ UnaryOp.known, op.symbol ∈ ["++", "--", "+", "-", "!", "~"] ∧
      UnaryOp.ofSymbol op.symbol = op ∧
        ([UnaryOp.plus, .minus, .increment, .decrement].contains op = false →
          TokenKind.mark op.symbol ∈ castFollow) := by
    decide
  obtain ⟨hmark, hsymbol, hcast⟩ := key op hop
  have hstart : StartsExpr (.mark op.symbol) := List.mem_cons_of_mem _ hmark
  refine reads_of_unary (e := .plain (.unary op false e)) ⟨Item.mark op.symbol, e.items, rfl, hstart⟩
    rfl ?_ ?_
  · intro n us rest hus hn hopen
    obtain ⟨t, ue, rfl, ht, hx, hue⟩ := Realizes.of_mark (x := op.symbol) hus
    rw [List.cons_append, List.length_cons] at hn
    obtain ⟨n, rfl⟩ : ∃ m, n = m + 1 := ⟨n - 1, by omega⟩
    have hyes : headKind (t :: (ue ++ rest)) ∈
        [TokenKind.mark "++", .mark "--", .mark "+", .mark "-", .mark "!", .mark "~"] := by
      rw [headKind_cons, ht]
      simpa using hmark
    have hoperand := he.unary hp (n := n) rest hue (by omega) hopen
    rw [unary, List.cons_append, bind_of_ok (checkAny_yes hyes), if_pos rfl,
      bind_of_ok (advance_cons (by simp [ht])), bind_of_ok hoperand, hx, hsymbol]
    rfl
  · rintro hsigned i ⟨⟩
    exact hcast hsigned

lemma castType_items {ty : Node} (hty : TypeTree Legible false ty) {n : Nat} {l r : Token}
    {us : List Token} (rest : List Token) (hl : l.kind = lparen) (h : Realizes ty.items us)
    (hr : r.kind = rparen)
    (hn : 16 * (us ++ r :: rest).length + 1 ≤ n)
    (hrest : isPrimitive ty = false → headKind rest ∈ castFollow) :
    castType n (l :: (us ++ r :: rest)) = .ok (some ty, rest) := by
  obtain ⟨n, rfl⟩ : ∃ m, n = m + 1 := ⟨n - 1, by omega⟩
  have hnext : headKind (r :: rest) ∉ [dot, lbracket] ∧ headKind (r :: rest) ≠ .mark "<" := by
    rw [headKind_cons, hr]
    decide
  have htype := (readsType_of_tree hty).type (n := n) (r :: rest) h (by omega) hnext.1
    fun _ => hnext.2
  rw [castType, bind_of_ok (get_run _), bind_of_ok (advance_cons (by rw [hl]; decide))]
  by_cases hprimitive : headKind (us ++ r :: rest) ∈ primitiveTypes
  · rw [bind_of_ok (checkAny_yes hprimitive), if_pos rfl, bind_of_ok htype,
      bind_of_ok (expect_yes (k := rparen) hr (by decide))]
    rfl
  · obtain ⟨i, hi, hkind⟩ := typeTree_start hty
    have hhead : headKind (us ++ r :: rest) = i.kind := headKind_items h hi _
    have hident : headKind (us ++ r :: rest) = .ident := by
      rw [hhead] at hprimitive ⊢
      rcases hkind with hkind | hkind | ⟨hkind, -⟩
      · exact hkind
      · exact absurd hkind hprimitive
      · cases hkind
    have hclass : isPrimitive ty = false := by
      cases hty with
      | @primitive w t x d name here =>
        have hword := (primitiveNames_reserved x name).2
        rw [Node.items_typeRef, hword] at hi
        cases hi
        exact absurd (hhead ▸ List.mem_map_of_mem name : headKind _ ∈ primitiveTypes) hprimitive
      | @named w t x d name here =>
        simpa [isPrimitive, Node.shape] using isQualified_notMem_primitiveNames name
      | @generic w t x d as name args here =>
        simpa [isPrimitive, Node.shape] using isQualified_notMem_primitiveNames name
    rw [bind_of_ok (checkAny_no hprimitive), if_neg (by simp), bind_of_ok (check_yes hident),
      if_pos rfl, bind_of_ok (attempt_ok htype)]
    simp only []
    rw [bind_of_ok (accept_yes (k := rparen) hr (by decide)), if_pos rfl,
      bind_of_ok (checkAny_yes (hrest hclass)), if_pos rfl]
    rfl

lemma reads_cast {ty e : Node} (hty : TypeTree Legible false ty) (he : Reads e)
    (hp : Precedence.unary ≤ precedence e) (hclear : isPrimitive ty = false → signed e = false) :
    Reads (.plain (.cast ty e)) := by
  have hitems := Node.items_cast {} ty e
  refine reads_of_unary (e := .plain (.cast ty e)) ⟨_, _, hitems, by simp [StartsExpr, Item.mark]⟩
    rfl ?_ ?_
  · intro n us rest hus hn hopen
    rw [Node.plain, hitems] at hus
    obtain ⟨l, us, rfl, hl, -, h⟩ := hus.of_mark
    obtain ⟨ut, us, rfl, hut, h⟩ := h.of_append
    obtain ⟨r, ue, rfl, hr, -, hue⟩ := h.of_mark
    simp only [List.cons_append, List.append_assoc, List.length_cons, List.length_append] at hn
    obtain ⟨n, rfl⟩ : ∃ m, n = m + 1 := ⟨n - 1, by omega⟩
    have hfollow : isPrimitive ty = false → headKind (ue ++ rest) ∈ castFollow := by
      intro hclass
      obtain ⟨i, is, hi, -⟩ := he.start
      have hhead : e.items.head? = some i := by rw [hi]; rfl
      rw [headKind_items hue hhead]
      exact he.castStart hp (hclear hclass) i hhead
    have htype := castType_items hty (n := n) (ue ++ rest) hl hut hr
      (by simp only [List.length_append, List.length_cons]; omega) hfollow
    have hoperand := he.unary hp (n := n) rest hue (by rw [List.length_append]; omega)
      hopen
    have hmark : headKind (l :: (ut ++ r :: (ue ++ rest))) ∉
        [TokenKind.mark "++", .mark "--", .mark "+", .mark "-", .mark "!", .mark "~"] := by
      rw [headKind_cons, hl]
      decide
    rw [unary, List.cons_append, List.append_assoc, List.cons_append,
      bind_of_ok (checkAny_no hmark), if_neg (by simp),
      bind_of_ok (check_yes (l := l :: (ut ++ r :: (ue ++ rest))) (k := lparen) hl), if_pos rfl,
      bind_of_ok htype]
    simp only []
    rw [bind_of_ok hoperand]
    rfl
  · rintro - i hi
    rw [Node.plain, hitems] at hi
    cases hi
    decide

lemma reads_of_exprTree {v : Bool} {e : Node} (h : ExprTree Legible v e) :
    Reads e ∨ v = true ∧ ReadsArray e := by
  induction h with
  | literal holds here => obtain rfl := here.1; exact .inl (reads_literal holds)
  | ident name here => obtain rfl := here.1; exact .inl (reads_ident _)
  | this here => obtain rfl := here.1; exact .inl reads_this
  | super here => obtain rfl := here.1; exact .inl reads_super
  | parens expr here ih =>
    obtain rfl := here.1
    exact .inl (reads_parens expr (ih.resolve_right (by simp)))
  | fieldAccess name target here ih =>
    obtain ⟨rfl, -, hfit⟩ := here
    exact .inl (reads_fieldAccess (ih.resolve_right (by simp)) hfit)
  | arrayAccess target index here ihe ihi =>
    obtain ⟨rfl, -, hfit⟩ := here
    exact .inl (reads_arrayAccess (ihe.resolve_right (by simp)) hfit (ihi.resolve_right (by simp)))
  | call name args here ih =>
    obtain rfl := here.1
    exact .inl (reads_call name fun a ha => (ih a ha).resolve_right (by simp))
  | methodCall name target args here ihe ih =>
    obtain ⟨rfl, -, hfit⟩ := here
    exact .inl (reads_methodCall (ihe.resolve_right (by simp)) hfit
      fun a ha => (ih a ha).resolve_right (by simp))
  | objectCreation type bare args here ih =>
    obtain rfl := here.1
    exact .inl (reads_objectCreation type bare fun a ha => (ih a ha).resolve_right (by simp))
  | @arrayCreation v t n ty ds o type bare dims init parts here ihd ihi =>
    obtain rfl := here.1
    refine .inl (reads_arrayCreation type bare (fun d hd => (ihd d hd).resolve_right (by simp))
      (fun i hi => ?_) parts)
    cases hi
    obtain ⟨-, -, u, vs, rfl⟩ := parts
    refine ((ihi _ rfl).resolve_left fun hreads => ?_).2
    obtain ⟨i, is, hi, hkind⟩ := hreads.start
    rw [Node.items_arrayInit] at hi
    obtain ⟨rfl, -⟩ := List.cons.inj hi
    exact absurd hkind (by simp [StartsExpr, Item.mark])
  | arrayInit values here ih =>
    obtain rfl := here.1
    exact .inr ⟨rfl, readsArray_arrayInit fun v hv => (ih v hv).imp id And.right⟩
  | assign known target place expr here ihl ihr =>
    obtain rfl := here.1
    exact .inl (reads_assign known (ihl.resolve_right (by simp)) place (ihr.resolve_right (by simp)))
  | binary known left right here ihl ihr =>
    obtain ⟨rfl, hclear, hfit⟩ := here
    exact .inl (reads_binary known (ihl.resolve_right (by simp)) (ihr.resolve_right (by simp)) hfit
      hclear)
  | before known expr here ih =>
    obtain ⟨rfl, -, hfit⟩ := here
    exact .inl (reads_before known (ih.resolve_right (by simp)) hfit)
  | after known expr here ih =>
    obtain ⟨rfl, -, hfit⟩ := here
    exact .inl (reads_after known (ih.resolve_right (by simp)) hfit)
  | conditional cond thenExpr elseExpr here ihc iha ihb =>
    obtain ⟨rfl, -, hfit⟩ := here
    exact .inl (reads_conditional (ihc.resolve_right (by simp)) hfit.1
      (iha.resolve_right (by simp)) (ihb.resolve_right (by simp)) hfit.2)
  | cast type expr here ih =>
    obtain ⟨rfl, hclear, hfit⟩ := here
    exact .inl (reads_cast type (ih.resolve_right (by simp)) hfit hclear)
  | instanceOf expr type here ih =>
    obtain ⟨rfl, -, hfit⟩ := here
    exact .inl (reads_instanceOf (ih.resolve_right (by simp)) hfit type)

theorem reads_of_tree {e : Node} (h : ExprTree Legible false e) : Reads e :=
  (reads_of_exprTree h).resolve_right (by simp)

lemma value_of_tree {e : Node} (h : ExprTree Legible true e) : Reads e ∨ ReadsArray e :=
  (reads_of_exprTree h).imp id And.right

end LoopLowering.Grammar
