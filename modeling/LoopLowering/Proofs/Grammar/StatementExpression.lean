import LoopLowering.Proofs.Grammar.ExpressionTrees

/-! Expressions that stand as statements: assignments, counting, calls and creations. Their text
never begins like a declaration, so no declaration is read in their place. -/

namespace LoopLowering

open Grammar Layout

def Apart (is : List Item) : Prop := ∀ js : List Item, ¬ Declares ((is ++ js).map Item.face)

namespace Apart

variable {is js : List Item} {i : Item} {x : String}

lemma append (h : Apart is) (js : List Item) : Apart (is ++ js) := by
  intro ks
  rw [List.append_assoc]
  exact h (js ++ ks)

def tokens (is : List Item) : List Token := is.map fun i => ⟨i.kind, i.value, 0, 0⟩

lemma tokens_append (is js : List Item) : tokens (is ++ js) = tokens is ++ tokens js :=
  List.map_append

lemma shows_tokens (is : List Item) : Shows is (tokens is) := by
  rw [Shows, tokens, List.map_map]
  rfl

lemma of_type (h : ∀ js, ∃ ty rest n, type n (tokens (is ++ js)) = .ok (ty, rest) ∧
    headKind rest ≠ .ident) : Apart is := by
  intro js hdeclares
  obtain ⟨ty, rest, n, hty, hrest⟩ := h js
  rw [← shows_tokens] at hdeclares
  obtain ⟨ty', rest', hty', hident⟩ := type_of_declares hdeclares (n := n) (by rw [hty]; nofun)
  obtain ⟨-, rfl⟩ := Prod.mk.inj (Except.ok.inj (hty.symm.trans hty'))
  exact hrest hident

lemma start (h : i.kind ∉ .ident :: primitiveTypes) (is : List Item) : Apart (i :: is) := by
  intro js hdeclares
  rw [← shows_tokens] at hdeclares
  exact h (headKind_of_declares hdeclares)

lemma type_tokens (hx : IsQualified x) {rest : List Token} (hdot : headKind rest ≠ dot)
    (hless : headKind rest ≠ .mark "<") (hdims : dimsTail rest = (0, rest)) :
    type 2 (tokens (Item.ofName x) ++ rest) = .ok (.plain (.typeRef x 0 none), rest) := by
  have hname : Realizes (Item.ofName x) (tokens (Item.ofName x)) :=
    (shows_tokens _).realizes fun i hi => (ofName_ofType (.inr hx) i hi).2
  rw [type, bind_of_ok (bareType_named hx hname hdot hless), dims,
    bind_of_ok (splitting_of_eq hdims)]
  rfl

lemma behind (hx : IsQualified x) (hi : i.kind ∉ [.ident, dot, .mark "<", lbracket])
    (is : List Item) : Apart (Item.ofName x ++ i :: is) := by
  simp only [List.mem_cons, not_or] at hi
  refine of_type fun js => ⟨.plain (.typeRef x 0 none), tokens (i :: (is ++ js)), 2, ?_, hi.1⟩
  rw [List.append_assoc, tokens_append]
  refine type_tokens hx hi.2.1 hi.2.2.1 ?_
  exact dimsTail_items (d := 0) .nil hi.2.2.2.1

lemma index (hx : IsQualified x) (hi : i.kind ≠ rbracket) (is : List Item) :
    Apart (Item.ofName x ++ Item.mark "[" :: i :: is) := by
  refine of_type fun js => ⟨.plain (.typeRef x 0 none),
    tokens (Item.mark "[" :: i :: (is ++ js)), 2, ?_, nofun⟩
  rw [List.append_assoc, tokens_append]
  have hhead : headKind (tokens (Item.mark "[" :: i :: is ++ js)) = lbracket := rfl
  refine type_tokens hx (by rw [hhead]; decide) (by rw [hhead]; decide) ?_
  simp only [List.cons_append, tokens, List.map_cons, dimsTail]
  rw [if_neg (by simpa using fun _ => hi)]

end Apart

lemma exists_qualified {ps : List (List Char)} (hne : ps ≠ [])
    (h : ∀ p ∈ ps, Token.IsName (String.ofList p)) :
    ∃ x, IsQualified x ∧
      Item.ofName x = Item.separated "." (ps.map fun p => [Item.name (String.ofList p)]) := by
  have hparts : (String.ofList (['.'].intercalate ps)).toList.splitOn '.' = ps := by
    rw [String.toList_ofList, List.splitOn_intercalate _ _ hne]
    intro p hp
    simpa using dot_notMem_of_isName (h p hp)
  refine ⟨String.ofList (['.'].intercalate ps), ?_, ?_⟩
  · rw [IsQualified, hparts]
    exact h
  · rw [Item.ofName, hparts]
    exact congrArg _ (List.map_congr_left fun p hp => by rw [IsName.ofText (h p hp)])

lemma exists_qualified_name {x : String} (hx : Token.IsName x) :
    ∃ y, IsQualified y ∧ Item.ofName y = [Item.name x] := by
  obtain ⟨y, hy, heq⟩ := @exists_qualified [x.toList] (by simp) (by simpa using hx)
  exact ⟨y, hy, by simpa [Item.separated] using heq⟩

lemma exists_qualified_dot {x y : String} (hx : IsQualified x) (hy : Token.IsName y) :
    ∃ z, IsQualified z ∧ Item.ofName z = Item.ofName x ++ [Item.mark ".", Item.name y] := by
  obtain ⟨p, ps, hps⟩ := List.exists_cons_of_ne_nil (List.splitOn_ne_nil '.' x.toList)
  have hnames : ∀ q ∈ p :: ps, Token.IsName (String.ofList q) := hps ▸ hx
  obtain ⟨z, hz, heq⟩ := @exists_qualified (p :: ps ++ [y.toList]) (by simp) (by
    simpa [or_imp, forall_and, hy] using hnames)
  refine ⟨z, hz, ?_⟩
  have hsame : (p :: ps).map (fun q => [Item.ofText (String.ofList q)]) =
      (p :: ps).map fun q => [Item.name (String.ofList q)] :=
    List.map_congr_left fun q hq => by rw [IsName.ofText (hnames q hq)]
  rw [heq, Item.ofName, hps, hsame]
  simp [Item.separated, intercalate_cons]

variable {e : Node} {v : Bool}

def OperandApart (e : Node) : Prop :=
  Apart e.items ∨ ∃ x, IsQualified x ∧ e.items = Item.ofName x

lemma OperandApart.behind (h : OperandApart e) {i : Item}
    (hi : i.kind ∉ [.ident, dot, .mark "<", lbracket]) (is : List Item) :
    Apart (e.items ++ i :: is) := by
  rcases h with h | ⟨x, hx, heq⟩
  · exact h.append _
  · rw [heq]
    exact .behind hx hi is

lemma OperandApart.index (h : OperandApart e) {i : Item} (hi : i.kind ≠ rbracket)
    (is : List Item) : Apart (e.items ++ Item.mark "[" :: i :: is) := by
  rcases h with h | ⟨x, hx, heq⟩
  · exact h.append _
  · rw [heq]
    exact .index hx hi is

lemma OperandApart.call (h : OperandApart e) {x : String} (hx : Token.IsName x) (is : List Item) :
    Apart (e.items ++ Item.mark "." :: Item.name x :: Item.mark "(" :: is) := by
  rcases h with h | ⟨y, hy, heq⟩
  · exact h.append _
  · obtain ⟨z, hz, hdot⟩ := exists_qualified_dot hy hx
    have hapart := Apart.behind hz (i := Item.mark "(") (by decide) is
    rw [hdot, List.append_assoc] at hapart
    rw [heq]
    exact hapart

lemma call_apart {x : String} (hx : Token.IsName x ∨ x = "this" ∨ x = "super") (is : List Item) :
    Apart (Item.ofText x :: Item.mark "(" :: is) := by
  rcases hx with hx | rfl | rfl
  · obtain ⟨y, hy, heq⟩ := exists_qualified_name hx
    have hapart := Apart.behind hy (i := Item.mark "(") (by decide) is
    rw [heq] at hapart
    rw [IsName.ofText hx]
    exact hapart
  · exact .start (by decide) _
  · exact .start (by decide) _

lemma operand_apart (h : ExprTree Legible v e) (hp : Precedence.counted ≤ precedence e) :
    OperandApart e := by
  induction h with
  | @literal v t c k holds here =>
    left
    cases k with
    | boolean =>
      refine .start (i := Item.word _) ?_ []
      cases Layout.holds c <;> decide
    | _ => exact .start (by simp [Item.word, primitiveTypes]) _
  | ident name here =>
    right
    obtain ⟨y, hy, heq⟩ := exists_qualified_name name
    exact ⟨y, hy, heq.symm⟩
  | this here => exact .inl (.start (by decide) _)
  | super here => exact .inl (.start (by decide) _)
  | parens expr here => exact .inl (.start (by decide) _)
  | fieldAccess name target here ih =>
    rcases ih (Nat.le_trans (by decide) here.2.2) with h | ⟨x, hx, heq⟩
    · exact .inl (h.append _)
    · obtain ⟨z, hz, hdot⟩ := exists_qualified_dot hx name
      exact .inr ⟨z, hz, by rw [hdot, ← heq]; rfl⟩
  | arrayAccess target index here ih =>
    obtain ⟨i, is, hi, hstart⟩ := (reads_of_tree index).start
    left
    rw [Node.items_arrayAccess, hi]
    refine (ih (Nat.le_trans (by decide) here.2.2)).index (fun hk => ?_) _
    rw [hk] at hstart
    simp [StartsExpr, rbracket] at hstart
  | call name args here =>
    rw [OperandApart, Node.items_call]
    exact .inl (call_apart name _)
  | methodCall name target args here ih =>
    rw [OperandApart, Node.items_methodCall]
    exact .inl ((ih (Nat.le_trans (by decide) here.2.2)).call name _)
  | objectCreation type bare args here =>
    rw [OperandApart, Node.items_objectCreation]
    exact .inl (.start (by decide) _)
  | arrayCreation type bare dims init parts here =>
    rw [OperandApart, Node.items_arrayCreation]
    exact .inl (.start (by decide) _)
  | arrayInit values here =>
    rw [OperandApart, Node.items_arrayInit]
    exact .inl (.start (by decide) _)
  | @after v t op e known expr here ih =>
    left
    refine (ih here.2.2).behind (i := Item.mark op.symbol) ?_ []
    fin_cases known <;> decide
  | assign | conditional | cast | before | instanceOf =>
    simp [precedence, Precedence.counted, Precedence.assign, Precedence.conditional,
      Precedence.unary, Precedence.comparison] at hp
  | binary known left right here =>
    obtain ⟨p, hop, -, hlt⟩ := exists_binary known
    simp only [precedence, Node.shape_mk, hop, Option.getD_some] at hp
    exact absurd (Nat.lt_of_lt_of_le hlt (by decide)) (Nat.not_lt.mpr hp)

def isStatementExpr (e : Node) : Bool :=
  match e.shape with
  | .assign .. | .methodCall .. | .objectCreation .. | .arrayCreation .. => true
  | .unary op _ _ => [UnaryOp.increment, .decrement].contains op
  | _ => false

lemma isStatementExpr_reread (e : Node) : isStatementExpr e.reread = isStatementExpr e := by
  obtain ⟨t, s⟩ := e
  rw [Node.reread_mk]
  cases s with
  | unary op after e => cases after <;> rfl
  | methodCall x e as => cases e <;> rfl
  | _ => rfl

lemma ofAssign_behind {op : AssignOp} (hop : op.Known) : ∃ i is, Item.ofAssign op = i :: is ∧
    i.kind ∉ [.ident, dot, .mark "<", lbracket] := by
  have key : ∀ op ∈ assignable, ∃ i ∈ (Item.ofAssign (.compound op)).head?,
      i.kind ∉ [.ident, dot, .mark "<", lbracket] := by
    intro op hop
    fin_cases hop <;> exact ⟨_, rfl, by decide⟩
  cases op with
  | plain => exact ⟨_, _, rfl, by decide⟩
  | compound op =>
    obtain ⟨i, hi, hk⟩ := key op hop
    obtain ⟨is, heq⟩ := List.head?_eq_some_iff.mp hi
    exact ⟨i, is, heq, hk⟩
  | other x => cases hop

theorem statementExpr_apart (h : ExprTree Legible v e) (hs : isStatementExpr e = true) :
    Apart e.items := by
  cases h with
  | call name args here =>
    rw [Node.items_call]
    exact call_apart name _
  | methodCall name target args here =>
    rw [Node.items_methodCall]
    exact (operand_apart target (Nat.le_trans (by decide) here.2.2)).call name _
  | objectCreation type bare args here =>
    rw [Node.items_objectCreation]
    exact .start (by decide) _
  | arrayCreation type bare dims init parts here =>
    rw [Node.items_arrayCreation]
    exact .start (by decide) _
  | assign known target place expr here =>
    obtain ⟨i, is, hi, hk⟩ := ofAssign_behind known
    have hp := precedence_of_isTarget place
    rw [Node.items_assign, hi]
    exact (operand_apart target (by rw [hp]; decide)).behind hk _
  | @before v t op e known expr here =>
    refine .start (i := Item.mark op.symbol) ?_ _
    fin_cases known <;> decide
  | @after v t op e known expr here =>
    refine (operand_apart expr here.2.2).behind (i := Item.mark op.symbol) ?_ []
    fin_cases known <;> decide
  | _ => cases hs

end LoopLowering
