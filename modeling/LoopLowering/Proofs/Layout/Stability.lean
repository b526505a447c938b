import LoopLowering.Layout.Unit
import LoopLowering.Proofs.Layout.Statement

/-! The tree that the text of a tree stands for has the same text. Parentheses and braces stand in it
where the text puts them, so the text adds no others. -/

namespace LoopLowering

namespace Layout

lemma typeTexts_reread {ns : List Node} (h : ∀ n ∈ ns, typeText n.reread = typeText n) :
    typeTexts (ns.map Node.reread) = typeTexts ns := by
  induction ns with
  | nil => rfl
  | cons n ns ih =>
    obtain ⟨hn, hns⟩ := List.forall_mem_cons.mp h
    rw [List.map_cons, typeTexts, typeTexts, hn, ih hns]

lemma typeText_reread (n : Node) : typeText n.reread = typeText n := by
  induction n using Node.children_induction with
  | h t s ih =>
    rw [Node.reread_mk]
    cases s with
    | wildcard k o =>
      cases o with
      | none => rfl
      | some b =>
        have hb := ih b (by simp [Shape.children, Shape.parts, Part.toList])
        simp only [Shape.map, Shape.mapAt, Option.map_some, fitted, Node.plain, typeText, hb]
    | typeRef x d o =>
      cases o with
      | none => rfl
      | some as =>
        have has := typeTexts_reread fun a ha => ih a (by
          simpa [Shape.children, Shape.parts, Part.toList] using ha)
        simp only [Shape.map, Shape.mapAt, mapIdx_const, Option.map_some, fitted, Node.plain,
          typeText, has]
    | unary op after e => cases after <;> rfl
    | methodCall x e as => cases e <;> rfl
    | _ => rfl

section

variable {e : Node}

lemma wrap_of_le {least : Nat} {n : Node} (h : least ≤ precedence n) (text : String) :
    wrap least n text = text := if_neg (by omega)

lemma bind_bracketed {α : Type} (h : exprText e.reread = exprText e) {least : Nat}
    (hleast : least ≤ Precedence.primary) (f : String → Result α) :
    (exprText (bracketed least e.reread) >>= fun t => f (wrap least (bracketed least e.reread) t)) =
      exprText e >>= fun t => f (wrap least e t) := by
  have hp := (sameHead_reread e).precedence
  rw [bracketed, hp]
  split
  · rename_i hlt
    simp only [Node.plain, exprText_parens, h, bind_assoc, pure_bind]
    refine bind_congr fun t => ?_
    rw [wrap_of_le (n := .mk {} (.parens e.reread)) hleast, wrap, if_pos hlt]
  · rename_i hle
    rw [h]
    refine bind_congr fun t => ?_
    rw [wrap, wrap, hp]

end

lemma binary_lt_primary {op : BinaryOp} {p : Nat} (h : Precedence.binary op = some p) :
    p < Precedence.primary := by
  cases op <;> cases h <;> decide

lemma exprTexts_reread {ns : List Node} (h : ∀ n ∈ ns, exprText n.reread = exprText n) :
    exprTexts (ns.map Node.reread) = exprTexts ns := by
  induction ns with
  | nil => rfl
  | cons n ns ih =>
    obtain ⟨hn, hns⟩ := List.forall_mem_cons.mp h
    rw [List.map_cons, exprTexts, exprTexts, hn, ih hns]

lemma exprText_reread (n : Node) : exprText n.reread = exprText n := by
  induction n using Node.children_induction with
  | h t s ih =>
    rw [Node.reread_mk]
    cases s with
    | parens e =>
      have he := ih e List.mem_cons_self
      simp only [Shape.map, Shape.mapAt, fitted, Node.plain, exprText_parens, he]
    | fieldAccess x e =>
      exact bind_bracketed (ih e List.mem_cons_self) (Nat.le_refl _) fun t => pure (t ++ "." ++ x)
    | arrayAccess e i =>
      have hi := ih i (by simp [Shape.children, Shape.parts, Part.toList])
      have he := ih e (by simp [Shape.children, Shape.parts, Part.toList])
      refine (bind_bracketed he (Nat.le_refl _) fun t =>
        exprText i.reread >>= fun i => pure (t ++ "[" ++ i ++ "]")).trans ?_
      rw [hi, exprText_arrayAccess]
    | methodCall x o as =>
      have has : exprTexts (as.map Node.reread) = exprTexts as := exprTexts_reread fun a ha =>
        ih a (by simp [Shape.children, Shape.parts, Part.toList, ha])
      cases o with
      | none =>
        simp only [Shape.map, Shape.mapAt, mapIdx_const, Option.map_none, fitted, Node.plain,
          exprText_call, has]
      | some e =>
        have he := ih e (by simp [Shape.children, Shape.parts, Part.toList])
        simp only [Shape.map, Shape.mapAt, mapIdx_const, Option.map_some, fitted, Node.plain,
          exprText_methodCall, has]
        exact bind_congr fun as => bind_bracketed he (Nat.le_refl _) fun t =>
          pure (t ++ "." ++ x ++ "(" ++ commaList as ++ ")")
    | objectCreation ty as =>
      have has : exprTexts (as.map Node.reread) = exprTexts as := exprTexts_reread fun a ha =>
        ih a (by simp [Shape.children, Shape.parts, Part.toList, ha])
      simp only [Shape.map, Shape.mapAt, mapIdx_const, fitted, Node.plain,
        exprText_objectCreation, has, typeText_reread]
    | arrayCreation k ty ds o =>
      have hds : exprTexts (ds.map Node.reread) = exprTexts ds := exprTexts_reread fun d hd =>
        ih d (by simp [Shape.children, Shape.parts, Part.toList, hd])
      cases o with
      | none =>
        simp only [Shape.map, Shape.mapAt, mapIdx_const, Option.map_none, fitted, Node.plain,
          exprText_arrayCreation, hds, typeText_reread]
      | some e =>
        have he := ih e (by simp [Shape.children, Shape.parts, Part.toList])
        simp only [Shape.map, Shape.mapAt, mapIdx_const, Option.map_some, fitted, Node.plain,
          exprText_arrayLiteral, hds, he, typeText_reread]
    | arrayInit vs =>
      have hvs : exprTexts (vs.map Node.reread) = exprTexts vs := exprTexts_reread fun v hv =>
        ih v (by simp [Shape.children, Shape.parts, Part.toList, hv])
      simp only [Shape.map, Shape.mapAt, mapIdx_const, fitted, Node.plain, exprText_arrayInit, hvs]
    | assign op l r =>
      have hl := ih l (by simp [Shape.children, Shape.parts, Part.toList])
      have hr := ih r (by simp [Shape.children, Shape.parts, Part.toList])
      refine (bind_bracketed hl (Nat.le_refl _) fun t => exprText _ >>= fun v => pure (t ++ " " ++
        op.symbol ++ " " ++ wrap Precedence.assign (bracketed Precedence.assign r.reread) v)).trans ?_
      exact bind_congr fun t => bind_bracketed hr (by decide) fun v => pure (_ ++ v)
    | binary op l r =>
      have hl := ih l (by simp [Shape.children, Shape.parts, Part.toList])
      have hr := ih r (by simp [Shape.children, Shape.parts, Part.toList])
      cases hp : Precedence.binary op with
      | none => cases op <;> first | rfl | cases hp
      | some p =>
        have hle : p + 1 ≤ Precedence.primary := binary_lt_primary hp
        simp only [Shape.map, Shape.mapAt, fitted, Node.plain, hp, Option.getD_some,
          exprText_binary _ _ _ hp]
        refine (bind_bracketed hl (by omega) fun t => exprText _ >>= fun v => pure (t ++ " " ++
          op.symbol ++ " " ++ wrap (p + 1) (bracketed (p + 1) r.reread) v)).trans ?_
        exact bind_congr fun t => bind_bracketed hr hle fun v => pure (_ ++ v)
    | unary op after e =>
      have he := ih e (by simp [Shape.children, Shape.parts, Part.toList])
      cases after with
      | true => exact bind_bracketed he (by decide) fun t => pure (t ++ op.symbol)
      | false => exact bind_bracketed he (by decide) fun t => pure (prefixed op t)
    | conditional c a b =>
      have hc := ih c (by simp [Shape.children, Shape.parts, Part.toList])
      have ha := ih a (by simp [Shape.children, Shape.parts, Part.toList])
      have hb := ih b (by simp [Shape.children, Shape.parts, Part.toList])
      refine (bind_bracketed hc (by decide) fun c => exprText _ >>= fun t => exprText _ >>= fun e =>
        pure (c ++ " ? " ++ wrap Precedence.assign (bracketed Precedence.assign a.reread) t ++ " : " ++
          wrap Precedence.conditional (bracketed Precedence.conditional b.reread) e)).trans ?_
      refine bind_congr fun c => (bind_bracketed ha (by decide) fun t => exprText _ >>= fun e =>
        pure (_ ++ t ++ " : " ++
          wrap Precedence.conditional (bracketed Precedence.conditional b.reread) e)).trans ?_
      exact bind_congr fun t => bind_bracketed hb (by decide) fun e => pure (_ ++ e)
    | cast ty e =>
      have he := ih e (by simp [Shape.children, Shape.parts, Part.toList])
      simp only [Shape.map, Shape.mapAt, fitted, Node.plain, exprText_cast, typeText_reread]
      exact bind_congr fun t => bind_bracketed he (by decide) fun e => pure ("(" ++ t ++ ") " ++ e)
    | instanceOf e ty =>
      have he := ih e (by simp [Shape.children, Shape.parts, Part.toList])
      simp only [Shape.map, Shape.mapAt, fitted, Node.plain, exprText_instanceOf, typeText_reread]
      exact bind_bracketed he (by decide) fun t => typeText ty >>= fun u =>
        pure (t ++ " instanceof " ++ u)
    | _ => rfl

lemma exprTexts_map_reread (ns : List Node) : exprTexts (ns.map Node.reread) = exprTexts ns :=
  exprTexts_reread fun n _ => exprText_reread n

lemma typeTexts_map_reread (ns : List Node) : typeTexts (ns.map Node.reread) = typeTexts ns :=
  typeTexts_reread fun n _ => typeText_reread n

lemma mapM_map_reread {f : Node → Result String} (h : ∀ n, f n.reread = f n) (ns : List Node) :
    (ns.map Node.reread).mapM f = ns.mapM f := by
  rw [List.mapM_map]
  exact congrArg (ns.mapM ·) (funext h)

lemma declaratorText_reread (n : Node) : declaratorText n.reread = declaratorText n := by
  obtain ⟨t, s⟩ := n
  rw [Node.reread_mk]
  cases s with
  | declarator x d o =>
    cases o with
    | none => rfl
    | some e =>
      simp only [Shape.map, Shape.mapAt, Option.map_some, fitted, Node.plain, declaratorText,
        Node.shape_mk, exprText_reread]
  | unary op after e => cases after <;> rfl
  | methodCall x e as => cases e <;> rfl
  | _ => rfl

lemma declaratorsText_map_reread (ds : List Node) :
    declaratorsText (ds.map Node.reread) = declaratorsText ds := by
  rw [declaratorsText, mapM_map_reread declaratorText_reread, declaratorsText]

lemma localVarText_reread (n : Node) : localVarText n.reread = localVarText n := by
  obtain ⟨t, s⟩ := n
  rw [Node.reread_mk]
  cases s with
  | localVar ms ty ds =>
    simp only [Shape.map, Shape.mapAt, mapIdx_const, fitted, Node.plain, localVarText,
      Node.shape_mk, typeText_reread, declaratorsText_map_reread]
  | fieldDecl ms ty ds =>
    simp only [Shape.map, Shape.mapAt, mapIdx_const, fitted, Node.plain, localVarText,
      Node.shape_mk, typeText_reread, declaratorsText_map_reread]
  | unary op after e => cases after <;> rfl
  | methodCall x e as => cases e <;> rfl
  | _ => rfl

lemma forInitText_map_reread (init : List Node) :
    forInitText (init.map Node.reread) = forInitText init := by
  have hes (es : List Node) : (do return commaList (← exprTexts (es.map Node.reread)) : Result String) =
      do return commaList (← exprTexts es) := by
    rw [exprTexts_map_reread]
  match init with
  | [] => rfl
  | [.mk t s] =>
    have hone := hes [.mk t s]
    cases s with
    | localVar ms ty ds => exact localVarText_reread (.mk t (.localVar ms ty ds))
    | unary op after e => cases after <;> exact hone
    | methodCall x e as => cases e <;> exact hone
    | _ => exact hone
  | a :: b :: es =>
    have hmany (a b : Node) (es : List Node) :
        forInitText (a :: b :: es) = do return commaList (← exprTexts (a :: b :: es)) := by
      rw [forInitText]
      exact fun _ _ _ _ h => absurd (List.cons.inj h).2 (List.cons_ne_nil _ _)
    exact (hmany _ _ _).trans ((hes (a :: b :: es)).trans (hmany a b es).symm)

lemma forHeader_map_reread (init : List Node) (cond : Option Node) (update : List Node) :
    forHeader (init.map Node.reread) (cond.map Node.reread) (update.map Node.reread) =
      forHeader init cond update := by
  cases cond with
  | none => simp only [forHeader, forInitText_map_reread, exprTexts_map_reread, Option.map_none]
  | some c =>
    simp only [forHeader, forInitText_map_reread, exprTexts_map_reread, Option.map_some,
      exprText_reread]

lemma catchHeader_map_reread (ms : List Word) (x : String) (types : List Node) :
    catchHeader ms x (types.map Node.reread) = catchHeader ms x types := by
  rw [catchHeader, typeTexts_map_reread, catchHeader]

section

variable (level : Nat) (header : String)

lemma bodyLevel_reread (body : Node) : bodyLevel level body.reread = bodyLevel level body := by
  rw [bodyLevel, isBlock_reread, bodyLevel]

lemma withBody_reread (body : Node) (lines : List String) :
    withBody level header body.reread lines = withBody level header body lines := by
  rw [withBody, isBlock_reread, withBody]

end

structure StaysLaidOut (n : Node) : Prop where
  lines : ∀ level, stmtLines n.reread level = stmtLines n level
  behind : ∀ level lines, elseLines (some n.reread) level lines = elseLines (some n) level lines
  handler : ∀ level cs ds, (∀ lines, catchLines cs level lines = catchLines ds level lines) →
    ∀ lines, catchLines (n.reread :: cs) level lines = catchLines (n :: ds) level lines

lemma bind_branch {a b : Node} {o : Option Node} (ha : StaysLaidOut a)
    (hb : b = if needsBraces a.reread (o.map Node.reread) then Node.plain (.block [a.reread])
      else a.reread)
    (level : Nat) (header : String) {α : Type} (f : List String → Result α) :
    (stmtLines b (thenLevel level b (o.map Node.reread)) >>= fun ls =>
        f (withBranch level header b (o.map Node.reread) ls)) =
      stmtLines a (thenLevel level a o) >>= fun ls => f (withBranch level header a o ls) := by
  subst hb
  rw [needsBraces_reread]
  split
  · rename_i hbraces
    have hblock : needsBraces (Node.plain (.block [a.reread])) (o.map Node.reread) = false :=
      Bool.and_false _
    have hone : contents [a.reread] (level + 1) = stmtLines a (level + 1) := by
      rw [contents, ha.lines]
      cases stmtLines a (level + 1) with
      | error e => rfl
      | ok ls => exact congrArg Except.ok (List.append_nil ls)
    simp only [thenLevel, withBranch, hblock, hbraces, if_true, Bool.false_eq_true, if_false]
    simp only [Node.plain, stmtLines, hone, bodyLevel, isBlock, Node.shape_mk, if_true, bind_assoc,
      pure_bind, withBody, braced, List.tail_cons, List.cons_append]
  · rename_i hbraces
    have hfalse : needsBraces a o = false := Bool.eq_false_of_not_eq_true hbraces
    have hplain := (needsBraces_reread a o).trans hfalse
    simp only [thenLevel, withBranch, hplain, hfalse, Bool.false_eq_true, if_false,
      bodyLevel_reread, ha.lines, withBody_reread]

lemma contents_map_reread {ss : List Node} (h : ∀ s ∈ ss, StaysLaidOut s) (level : Nat) :
    contents (ss.map Node.reread) level = contents ss level := by
  induction ss with
  | nil => rfl
  | cons s ss ih =>
    obtain ⟨hs, hss⟩ := List.forall_mem_cons.mp h
    rw [List.map_cons, contents, contents, hs.lines, ih hss]

lemma catchLines_map_reread {cs : List Node} (h : ∀ c ∈ cs, StaysLaidOut c) (level : Nat) :
    ∀ lines, catchLines (cs.map Node.reread) level lines = catchLines cs level lines := by
  induction cs with
  | nil => exact fun _ => rfl
  | cons c cs ih =>
    obtain ⟨hc, hcs⟩ := List.forall_mem_cons.mp h
    exact hc.handler level _ _ (ih hcs)

lemma elseLines_map_reread {o : Option Node} (h : ∀ n ∈ o, StaysLaidOut n) (level : Nat)
    (lines : List String) : elseLines (o.map Node.reread) level lines = elseLines o level lines := by
  cases o with
  | none => rfl
  | some n => exact (h n rfl).behind level lines

section

variable {t : Tag} {s : Shape Node} (h : ∀ c ∈ s.children, StaysLaidOut c)

include h

lemma stmtLines_reread (level : Nat) :
    stmtLines (Node.mk t s).reread level = stmtLines (.mk t s) level := by
  rw [Node.reread_mk]
  cases s with
  | block ss =>
    have hss : ∀ s ∈ ss, StaysLaidOut s := fun s hs => h s (by
      simpa [Shape.children, Shape.parts, Part.toList] using hs)
    simp only [Shape.map, Shape.mapAt, mapIdx_const, fitted, Node.plain, stmtLines,
      contents_map_reread hss]
  | localVar ms ty ds =>
    have htext := localVarText_reread (.mk t (.localVar ms ty ds))
    rw [Node.reread_mk] at htext
    simp only [Shape.map, Shape.mapAt, mapIdx_const, fitted, Node.plain] at htext ⊢
    simp only [stmtLines, htext]
  | exprStmt e => simp only [Shape.map, Shape.mapAt, fitted, Node.plain, stmtLines, exprText_reread]
  | ifElse c a o =>
    have ha := h a (by simp [Shape.children, Shape.parts, Part.toList])
    have ho : ∀ b ∈ o, StaysLaidOut b := fun b hb => h b (by
      simp [Shape.children, Shape.parts, Part.toList, Option.mem_def.mp hb])
    simp only [Shape.map, Shape.mapAt, fitted, Node.plain, stmtLines, exprText_reread]
    refine bind_congr fun c => (bind_branch ha rfl level _ fun ls => elseLines _ level ls).trans ?_
    exact bind_congr fun ls => elseLines_map_reread ho level _
  | whileLoop c b =>
    have hb := h b (by simp [Shape.children, Shape.parts, Part.toList])
    simp only [Shape.map, Shape.mapAt, fitted, Node.plain, stmtLines, exprText_reread,
      bodyLevel_reread, hb.lines, withBody_reread]
  | doWhile b c =>
    have hb := h b (by simp [Shape.children, Shape.parts, Part.toList])
    simp only [Shape.map, Shape.mapAt, fitted, Node.plain, stmtLines, exprText_reread,
      bodyLevel_reread, hb.lines, withBody_reread]
  | forLoop i c u b =>
    have hb := h b (by simp [Shape.children, Shape.parts, Part.toList])
    simp only [Shape.map, Shape.mapAt, mapIdx_const, fitted, Node.plain, stmtLines,
      forHeader_map_reread, bodyLevel_reread, hb.lines, withBody_reread]
  | forEach v i b =>
    have hb := h b (by simp [Shape.children, Shape.parts, Part.toList])
    simp only [Shape.map, Shape.mapAt, fitted, Node.plain, stmtLines, exprText_reread,
      localVarText_reread, bodyLevel_reread, hb.lines, withBody_reread]
  | returnStmt o =>
    cases o with
    | none => rfl
    | some e =>
      simp only [Shape.map, Shape.mapAt, Option.map_some, fitted, Node.plain, stmtLines,
        exprText_reread]
  | throwStmt e =>
    simp only [Shape.map, Shape.mapAt, fitted, Node.plain, stmtLines, exprText_reread]
  | tryStmt b cs o =>
    have hb := h b (by simp [Shape.children, Shape.parts, Part.toList])
    have hcs : ∀ c ∈ cs, StaysLaidOut c := fun c hc => h c (by
      simp [Shape.children, Shape.parts, Part.toList, hc])
    cases o with
    | none =>
      simp only [Shape.map, Shape.mapAt, mapIdx_const, Option.map_none, fitted, Node.plain,
        stmtLines, bodyLevel_reread, hb.lines, withBody_reread, catchLines_map_reread hcs]
    | some f =>
      have hf := h f (by simp [Shape.children, Shape.parts, Part.toList])
      simp only [Shape.map, Shape.mapAt, mapIdx_const, Option.map_some, fitted, Node.plain,
        stmtLines, bodyLevel_reread, hb.lines, hf.lines, withBody_reread, catchLines_map_reread hcs]
  | labeled l b =>
    have hb := h b (by simp [Shape.children, Shape.parts, Part.toList])
    simp only [Shape.map, Shape.mapAt, fitted, Node.plain, stmtLines, hb.lines]
  | unary op after e => cases after <;> rfl
  | methodCall x e as => cases e <;> rfl
  | _ => rfl

lemma elseLines_reread (level : Nat) (lines : List String) :
    elseLines (some (Node.mk t s).reread) level lines = elseLines (some (.mk t s)) level lines := by
  cases hif : isIf (.mk t s) with
  | false =>
    rw [elseLines_of_not_if hif, elseLines_of_not_if ((isIf_reread _).trans hif),
      bodyLevel_reread, stmtLines_reread h]
    simp only [withBody_reread]
  | true =>
    cases s with
    | ifElse c a o =>
      have ha := h a (by simp [Shape.children, Shape.parts, Part.toList])
      have ho : ∀ b ∈ o, StaysLaidOut b := fun b hb => h b (by
        simp [Shape.children, Shape.parts, Part.toList, Option.mem_def.mp hb])
      rw [Node.reread_mk]
      simp only [Shape.map, Shape.mapAt, fitted, Node.plain, elseLines, exprText_reread]
      refine bind_congr fun c => (bind_branch ha rfl level _ fun ls =>
        elseLines _ level (_ ++ ls)).trans ?_
      exact bind_congr fun ls => elseLines_map_reread ho level _
    | _ => cases hif

lemma catchLines_reread (level : Nat) (cs ds : List Node)
    (hrest : ∀ lines, catchLines cs level lines = catchLines ds level lines)
    (lines : List String) :
    catchLines ((Node.mk t s).reread :: cs) level lines = catchLines (.mk t s :: ds) level lines := by
  rw [Node.reread_mk]
  cases s with
  | catchClause ms x types b =>
    have hb := h b (by simp [Shape.children, Shape.parts, Part.toList])
    simp only [Shape.map, Shape.mapAt, mapIdx_const, fitted, Node.plain, catchLines,
      catchHeader_map_reread, bodyLevel_reread, hb.lines, withBody_reread, hrest]
  | unary op after e => cases after <;> rfl
  | methodCall x e as => cases e <;> rfl
  | _ => rfl

end

lemma staysLaidOut (n : Node) : StaysLaidOut n := by
  induction n using Node.children_induction with
  | h t s ih => exact ⟨stmtLines_reread ih, elseLines_reread ih, catchLines_reread ih⟩

lemma paramText_reread (n : Node) : paramText n.reread = paramText n := by
  obtain ⟨t, s⟩ := n
  rw [Node.reread_mk]
  cases s with
  | parameter ms x va ty =>
    simp only [Shape.map, Shape.mapAt, fitted, Node.plain, paramText, Node.shape_mk,
      typeText_reread]
  | unary op after e => cases after <;> rfl
  | methodCall x e as => cases e <;> rfl
  | _ => rfl

lemma typesText_map_reread (word : String) (types : List Node) :
    typesText word (types.map Node.reread) = typesText word types := by
  rw [typesText, typeTexts_map_reread, List.isEmpty_map, typesText]

lemma signatureText_map_reread (x : String) (ps throws : List Node) :
    signatureText x (ps.map Node.reread) (throws.map Node.reread) = signatureText x ps throws := by
  rw [signatureText, mapM_map_reread paramText_reread, typesText_map_reread, signatureText]

lemma bodyLines_reread (level : Nat) (header : String) (body : Node) :
    bodyLines level header body.reread = bodyLines level header body := by
  simp only [bodyLines, bodyLevel_reread, (staysLaidOut body).lines, withBody_reread]

lemma membersLines_map_reread {ms : List Node}
    (h : ∀ m ∈ ms, ∀ level, memberLines m.reread level = memberLines m level) (level : Nat) :
    membersLines (ms.map Node.reread) level = membersLines ms level := by
  induction ms with
  | nil => rfl
  | cons m ms ih =>
    obtain ⟨hm, hms⟩ := List.forall_mem_cons.mp h
    cases ms with
    | nil => exact hm level
    | cons k ms =>
      have htail := ih hms
      simp only [List.map_cons, membersLines, hm] at htail ⊢
      rw [htail]

lemma memberLines_reread (n : Node) : ∀ level, memberLines n.reread level = memberLines n level := by
  induction n using Node.children_induction with
  | h t s ih =>
    intro level
    rw [Node.reread_mk]
    cases s with
    | classDecl ms k x tps es is bs =>
      have hbs : ∀ m ∈ bs, ∀ level, memberLines m.reread level = memberLines m level :=
        fun m hm => ih m (by simp [Shape.children, Shape.parts, Part.toList, hm])
      simp only [Shape.map, Shape.mapAt, mapIdx_const, fitted, Node.plain, memberLines,
        typesText_map_reread, membersLines_map_reread hbs]
    | fieldDecl ms ty ds =>
      simp only [Shape.map, Shape.mapAt, mapIdx_const, fitted, Node.plain, memberLines,
        typeText_reread, declaratorsText_map_reread]
    | methodDecl ms tps x ty ps ths o =>
      cases o with
      | none =>
        simp only [Shape.map, Shape.mapAt, mapIdx_const, fitted, Node.plain, memberLines,
          typeText_reread, signatureText_map_reread, Option.map_none]
      | some b =>
        simp only [Shape.map, Shape.mapAt, mapIdx_const, fitted, Node.plain, memberLines,
          typeText_reread, signatureText_map_reread, Option.map_some, bodyLines_reread]
    | constructorDecl ms x ps ths b =>
      simp only [Shape.map, Shape.mapAt, mapIdx_const, fitted, Node.plain, memberLines,
        signatureText_map_reread, bodyLines_reread]
    | initBlock st b =>
      simp only [Shape.map, Shape.mapAt, fitted, Node.plain, memberLines, bodyLines_reread]
    | unary op after e => cases after <;> rfl
    | methodCall x e as => cases e <;> rfl
    | _ => rfl

lemma importLine_reread (n : Node) : importLine n.reread = importLine n := by
  obtain ⟨t, s⟩ := n
  rw [Node.reread_mk]
  cases s with
  | unary op after e => cases after <;> rfl
  | methodCall x e as => cases e <;> rfl
  | _ => rfl

lemma unitLines_map_reread (package : Option String) (imports types : List Node) :
    unitLines package (imports.map Node.reread) (types.map Node.reread) =
      unitLines package imports types := by
  simp only [unitLines, mapM_map_reread importLine_reread, List.isEmpty_map,
    membersLines_map_reread fun m _ => memberLines_reread m]

end Layout

open Layout

lemma javaText_reread (n : Node) : javaText n.reread = javaText n := by
  have hstmt := congrArg (Except.map ("\n".intercalate ·)) ((staysLaidOut n).lines 0)
  have hmember := congrArg (Except.map ("\n".intercalate ·)) (memberLines_reread n 0)
  have hexpr := exprText_reread n
  obtain ⟨t, s⟩ := n
  rw [Node.reread_mk] at *
  cases s with
  | unit p is ts =>
    exact congrArg (Except.map ("\n".intercalate ·)) (by
      simpa only [mapIdx_const] using unitLines_map_reread p is ts)
  | classDecl | fieldDecl | methodDecl | constructorDecl | initBlock => exact hmember
  | block | localVar | exprStmt | ifElse | whileLoop | doWhile | forLoop | forEach | returnStmt |
    breakStmt | continueStmt | throwStmt | tryStmt | labeled | emptyStmt => exact hstmt
  | unary op after e => cases after <;> exact hexpr
  | methodCall x e as => cases e <;> exact hexpr
  | _ => exact hexpr

end LoopLowering
