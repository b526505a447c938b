import LoopLowering.Proofs.Grammar.Agreeing
import LoopLowering.Proofs.Grammar.ExpressionTrees

/-! The rules for names, types, modifiers and expressions read the same tree wherever the tokens
stand. -/

namespace LoopLowering.Grammar

lemma pairs_respaced {α : Type} {f : List Token → α × List Token} {none : α}
    {m : Token → Token → α → α} {c : Token → Token → Prop} [DecidableRel c]
    (hnil : f [] = (none, [])) (hone : ∀ t, f [t] = (none, [t]))
    (hpair : ∀ s t ts, f (s :: t :: ts) =
      if c s t then (m s t (f ts).1, (f ts).2) else (none, s :: t :: ts))
    (hc : ∀ {s t s' t'}, s.Like s' → t.Like t' → (c s t ↔ c s' t'))
    (hmore : ∀ {s t s' t'}, s.Like s' → t.Like t' → m s t = m s' t') :
    ∀ {ts us}, Respaced ts us → (f ts).1 = (f us).1 ∧ Respaced (f ts).2 (f us).2
  | _, _, .nil => by
    rw [hnil]
    exact ⟨rfl, .nil⟩
  | _, _, .cons hs touch .nil => by
    rw [hone, hone]
    exact ⟨rfl, .cons hs touch .nil⟩
  | _, _, .cons hs touch (.cons ht touch' h) => by
    obtain ⟨hfirst, hrest⟩ := pairs_respaced hnil hone hpair hc hmore h
    rw [hpair, hpair]
    split
    · rename_i hpairs
      rw [if_pos ((hc hs ht).mp hpairs), hmore hs ht, hfirst]
      exact ⟨rfl, hrest⟩
    · rename_i hpairs
      rw [if_neg fun h => hpairs ((hc hs ht).mpr h)]
      exact ⟨rfl, .cons hs touch (.cons ht touch' h)⟩

lemma nameTail_respaced {ts us : List Token} :
    Respaced ts us → (nameTail ts).1 = (nameTail us).1 ∧ Respaced (nameTail ts).2 (nameTail us).2 :=
  pairs_respaced (f := nameTail) (c := fun d i => d.kind = dot ∧ i.kind = .ident)
    (m := fun _ i s => "." ++ i.text ++ s) rfl (fun _ => rfl)
    (fun d i ts => by simp only [nameTail, Bool.and_eq_true, decide_eq_true_eq])
    (fun hd hi => by rw [hd.kind, hi.kind]) fun _ hi => by rw [hi.text]

lemma dimsTail_respaced {ts us : List Token} :
    Respaced ts us → (dimsTail ts).1 = (dimsTail us).1 ∧ Respaced (dimsTail ts).2 (dimsTail us).2 :=
  pairs_respaced (f := dimsTail) (c := fun l r => l.kind = lbracket ∧ r.kind = rbracket)
    (m := fun _ _ n => n + 1) rfl (fun _ => rfl)
    (fun l r ts => by simp only [dimsTail, Bool.and_eq_true, decide_eq_true_eq])
    (fun hl hr => by rw [hl.kind, hr.kind]) fun _ _ => rfl

lemma dims_uniform : Uniform dims := .splitting fun _ _ h => dimsTail_respaced h

lemma qualifiedName_uniform : Uniform qualifiedName := by
  rw [qualifiedName]
  refine .expect fun t u htu => .same (.splitting fun _ _ h => nameTail_respaced h) fun s => ?_
  rw [htu.text]
  exact .pure rfl

structure TypesUniform (n : Nat) : Prop where
  bareType : Uniform (bareType n)
  type : Uniform (type n)
  typeArgs : Uniform (typeArgs n)
  typeArgList : Uniform (typeArgList n)
  typeArg : Uniform (typeArg n)

lemma typesUniform (n : Nat) : TypesUniform n := by
  induction n with
  | zero => constructor <;> exact .exhausted
  | succ n ih =>
    constructor
    case bareType =>
      rw [bareType]
      refine .ifCheckAny (.advance fun t u htu => ?_) (.same qualifiedName_uniform fun _ => ?_)
      · rw [htu.text]
        exact .pure rfl
      · exact .ifCheck (.same ih.typeArgs fun _ => .pure rfl) (.pure rfl)
    case type =>
      rw [type]
      exact .same ih.bareType fun _ => .same dims_uniform fun _ => .pure rfl
    case typeArgs =>
      rw [typeArgs]
      refine .expect fun _ _ _ => .ifAccept (.pure rfl) ?_
      exact .same ih.typeArgList fun _ => .expect fun _ _ _ => .pure rfl
    case typeArgList =>
      rw [typeArgList]
      exact .same ih.typeArg fun _ => .ifAccept (.same ih.typeArgList fun _ => .pure rfl) (.pure rfl)
    case typeArg =>
      rw [typeArg]
      refine .ifAccept (.ifCheckAny (.advance fun t u htu => ?_) (.pure rfl)) ih.type
      rw [htu.text]
      exact .same ih.type fun _ => .pure rfl

lemma typeList_uniform (separator : TokenKind) (n : Nat) : Uniform (typeList separator n) := by
  induction n with
  | zero => exact .exhausted
  | succ n ih =>
    rw [typeList]
    exact .same (typesUniform n).type fun _ => .ifAccept (.same ih fun _ => .pure rfl) (.pure rfl)

lemma skipParens_uniform (depth : Nat) : Uniform (skipParens depth) := by
  intro ts us h
  induction h generalizing depth with
  | nil => exact .rejected
  | cons like _ rest ih =>
    rw [skipParens, skipParens, ← like.kind]
    split_ifs
    · exact .rejected
    · exact ih _
    · exact .read rfl rest
    · exact ih _
    · exact ih _

lemma annotationName_uniform : Uniform annotationName := by
  rw [annotationName]
  refine .expect fun _ _ _ => .same qualifiedName_uniform fun _ => .ifCheck ?_ (.pure rfl)
  exact .same (skipParens_uniform 0) fun _ => .pure rfl

lemma modifiers_uniform (n : Nat) : Uniform (modifiers n) := by
  induction n with
  | zero => exact .exhausted
  | succ n ih =>
    rw [modifiers]
    refine .ifCheckAny (.advance fun t u htu => ?_) (.check fun _ => .checkNext fun _ => .ite ?_ ?_)
    · rw [htu.text]
      exact .same ih fun _ => .pure rfl
    · exact .same annotationName_uniform fun _ => .same ih fun _ => .pure rfl
    · exact .pure rfl

lemma localModifiers_uniform (n : Nat) : Uniform (localModifiers n) := by
  induction n with
  | zero => exact .exhausted
  | succ n ih =>
    rw [localModifiers]
    refine .ifCheck (.advance fun t u htu => ?_) (.ifCheck ?_ (.pure rfl))
    · rw [htu.text]
      exact .same ih fun _ => .pure rfl
    · exact .same annotationName_uniform fun _ => .same ih fun _ => .pure rfl

namespace Respaced

variable {ts us : List Token}

lemma joined (h : Respaced ts us) {m : String} (hm : m = ">" ∨ m = ">=") {k : Nat}
    (hk : (Grammar.tokenAt ts k).kind = .mark ">") :
    (decide ((Grammar.tokenAt ts (k + 1)).kind = .mark m) &&
        Grammar.touches (Grammar.tokenAt ts k) (Grammar.tokenAt ts (k + 1))) =
      (decide ((Grammar.tokenAt us (k + 1)).kind = .mark m) &&
        Grammar.touches (Grammar.tokenAt us k) (Grammar.tokenAt us (k + 1))) := by
  rw [← (h.tokenAt (k + 1)).kind]
  by_cases hnext : (Grammar.tokenAt ts (k + 1)).kind = .mark m
  · rw [h.touches k hk (by rcases hm with rfl | rfl <;> simp [hnext])]
  · rw [decide_eq_false hnext, Bool.false_and, Bool.false_and]

lemma closers (h : Respaced ts us) : closers ts = closers us := by
  have hkind := (h.tokenAt 0).kind
  simp only [Grammar.closers, ← hkind]
  by_cases h0 : (Grammar.tokenAt ts 0).kind = .mark ">"
  · simp only [← h.joined (.inl rfl) h0]
    by_cases h1 : (Grammar.tokenAt ts (0 + 1)).kind = .mark ">"
    · simp only [← h.joined (.inl rfl) h1]
    · simp only [decide_eq_false h1, Bool.false_and, Bool.not_false, if_true]
  · simp only [decide_eq_false h0, Bool.not_false, if_true]

lemma closersThenGe (h : Respaced ts us) :
    closersThenGe ts (Grammar.closers us) = Grammar.closersThenGe us (Grammar.closers us) := by
  rw [← h.closers]
  cases hn : Grammar.closers ts with
  | zero => rfl
  | succ n =>
    obtain ⟨t, hget, ht⟩ := closers_tokens (show n < Grammar.closers ts by omega)
    have hlast : (Grammar.tokenAt ts n).kind = .mark ">" := by rwa [Grammar.tokenAt, hget]
    simp only [Grammar.closersThenGe, Bool.and_assoc, Nat.add_sub_cancel,
      h.joined (.inr rfl) hlast]

lemma assignOpAt (h : Respaced ts us) : assignOpAt ts = assignOpAt us := by
  simp only [Grammar.assignOpAt, (h.tokenAt 0).kind, h.closersThenGe, h.closers]

lemma connectiveAt (h : Respaced ts us) : connectiveAt ts = connectiveAt us := by
  simp only [Grammar.connectiveAt, (h.tokenAt 0).kind, h.closersThenGe, h.closers]

end Respaced

lemma drop_uniform (count : Nat) : Uniform (drop count) :=
  .splitting fun _ _ h => ⟨rfl, h.drop count⟩

structure ExprsUniform (n : Nat) : Prop where
  expr : Uniform (expr n)
  condition : Uniform (condition n)
  binary (least : Nat) : Uniform (binary n least)
  binaryTail (least most : Nat) (left : Node) : Uniform (binaryTail n least most left)
  unary : Uniform (unary n)
  castType : Uniform (castType n)
  operand : Uniform (operand n)
  operandTail (e : Node) : Uniform (operandTail n e)
  args : Uniform (args n)
  exprList : Uniform (exprList n)
  parenthesized : Uniform (parenthesized n)
  primary : Uniform (primary n)
  creation : Uniform (creation n)
  creationDims (extra : Nat) : Uniform (creationDims n extra)
  arrayInit : Uniform (arrayInit n)
  elements : Uniform (elements n)
  initialValue : Uniform (initialValue n)

section

variable {n : Nat} (ih : ExprsUniform n)
include ih

lemma expr_uniform : Uniform (expr (n + 1)) := by
  rw [expr]
  refine .same ih.condition fun lhs => .get fun ts us hts => ?_
  rw [hts.assignOpAt]
  cases assignOpAt us with
  | none => exact .pure rfl
  | some p =>
    refine .ite (.same (drop_uniform _) fun _ => ?_) (.reject _)
    exact .same ih.expr fun _ => .pure rfl

lemma condition_uniform : Uniform (condition (n + 1)) := by
  rw [condition]
  refine .same (ih.binary 0) fun _ => .ifAccept ?_ (.pure rfl)
  exact .same ih.expr fun _ => .expect fun _ _ _ => .same ih.condition fun _ => .pure rfl

lemma binaryTail_uniform (least most : Nat) (left : Node) :
    Uniform (binaryTail (n + 1) least most left) := by
  rw [binaryTail]
  refine .get fun ts us hts => ?_
  rw [hts.connectiveAt]
  cases connectiveAt us with
  | none => exact .pure rfl
  | some p =>
    obtain ⟨c, count⟩ := p
    refine .ite (.pure rfl) (.same (drop_uniform _) fun _ => ?_)
    cases c with
    | instanceOf => exact .same (typesUniform n).type fun _ => ih.binaryTail _ _ _
    | operator op => exact .same (ih.binary _) fun _ => ih.binaryTail _ _ _

lemma unary_uniform : Uniform (unary (n + 1)) := by
  rw [unary]
  refine .ifCheckAny (.advance fun t u htu => ?_) (.ifCheck (.same ih.castType fun o => ?_) ih.operand)
  · rw [htu.text]
    exact .same ih.unary fun _ => .pure rfl
  · cases o with
    | some ty => exact .same ih.unary fun _ => .pure rfl
    | none => exact ih.operand

omit ih in
lemma castType_uniform : Uniform (castType (n + 1)) := by
  rw [castType]
  refine .get fun ts us hts => .advance fun _ _ _ => .ifCheckAny ?_ ?_
  · exact .same (typesUniform n).type fun _ => .expect fun _ _ _ => .pure rfl
  · have hgiveUp : Agree (Eq (α := Option Node)) (do set ts; return none) (do set us; return none) :=
      .bind (.set hts) fun _ _ _ => .pure rfl
    refine .ifCheck (.attempt (typesUniform n).type fun o => ?_) hgiveUp
    cases o with
    | some ty => exact .ifAccept (.ifCheckAny (.pure rfl) hgiveUp) hgiveUp
    | none => exact hgiveUp

lemma operandTail_uniform (e : Node) : Uniform (operandTail (n + 1) e) := by
  rw [operandTail]
  refine .ifAccept (.expect fun t u htu => ?_) (.ifAccept ?_ (.ifCheckAny (.advance fun t u htu => ?_)
    (.pure rfl)))
  · rw [htu.text]
    exact .ifCheck (.same ih.args fun _ => ih.operandTail _) (ih.operandTail _)
  · exact .same ih.expr fun _ => .expect fun _ _ _ => ih.operandTail _
  · rw [htu.text]
    exact ih.operandTail _

lemma call_uniform (f : List Node → Node) (e : Node) :
    Uniform (do if ← check lparen then return f (← args n) else return e) :=
  .ifCheck (.same ih.args fun _ => .pure rfl) (.pure rfl)

lemma primary_uniform : Uniform (primary (n + 1)) := by
  rw [primary]
  refine .current fun t u htu => ?_
  rw [htu.kind, htu.value, htu.text]
  split
  · exact .advance fun _ _ _ => .pure rfl
  · exact .advance fun _ _ _ => call_uniform ih _ _
  · exact .advance fun _ _ _ => .pure rfl
  · exact .advance fun _ _ _ => .pure rfl
  · exact .advance fun _ _ _ => .pure rfl
  · exact .advance fun _ _ _ => call_uniform ih _ _
  · exact .advance fun _ _ _ => call_uniform ih _ _
  · exact ih.creation
  · exact .same ih.parenthesized fun _ => .pure rfl
  · exact .reject _

lemma creation_uniform : Uniform (creation (n + 1)) := by
  rw [creation]
  refine .expect fun _ _ _ => .same (typesUniform n).bareType fun _ => .ifCheck ?_ ?_
  · refine .same (ih.creationDims 0) fun p => ?_
    obtain ⟨ds, extra⟩ := p
    refine .ifCheck (.ite ?_ (.reject _)) (.ite (.reject _) (.pure rfl))
    exact .same ih.arrayInit fun _ => .pure rfl
  · exact .same ih.args fun _ => .ifCheck (.reject _) (.pure rfl)

lemma creationDims_uniform (extra : Nat) : Uniform (creationDims (n + 1) extra) := by
  rw [creationDims]
  refine .ifAccept (.ifAccept (ih.creationDims _) (.ite (.reject _) ?_)) (.pure rfl)
  exact .same ih.expr fun _ => .expect fun _ _ _ => .same (ih.creationDims _) fun _ => .pure rfl

end

lemma exprsUniform (n : Nat) : ExprsUniform n := by
  induction n with
  | zero => constructor <;> intros <;> exact .exhausted
  | succ n ih =>
    constructor
    case expr => exact expr_uniform ih
    case condition => exact condition_uniform ih
    case binary =>
      intro least
      rw [binary]
      exact .same ih.unary fun _ => ih.binaryTail _ _ _
    case binaryTail => exact binaryTail_uniform ih
    case unary => exact unary_uniform ih
    case castType => exact castType_uniform
    case operand =>
      rw [operand]
      exact .same ih.primary fun _ => ih.operandTail _
    case operandTail => exact operandTail_uniform ih
    case args =>
      rw [args]
      refine .expect fun _ _ _ => .ifAccept (.pure rfl) ?_
      exact .same ih.exprList fun _ => .expect fun _ _ _ => .pure rfl
    case exprList =>
      rw [exprList]
      exact .same ih.expr fun _ => .ifAccept (.same ih.exprList fun _ => .pure rfl) (.pure rfl)
    case parenthesized =>
      rw [parenthesized]
      exact .expect fun _ _ _ => .same ih.expr fun _ => .expect fun _ _ _ => .pure rfl
    case primary => exact primary_uniform ih
    case creation => exact creation_uniform ih
    case creationDims => exact creationDims_uniform ih
    case arrayInit =>
      rw [arrayInit]
      exact .expect fun _ _ _ => .same ih.elements fun _ => .expect fun _ _ _ => .pure rfl
    case elements =>
      rw [elements]
      refine .ifCheck (.pure rfl) (.same ih.initialValue fun _ => .ifAccept ?_ (.pure rfl))
      exact .same ih.elements fun _ => .pure rfl
    case initialValue =>
      rw [initialValue]
      exact .ifCheck ih.arrayInit ih.expr

end LoopLowering.Grammar
