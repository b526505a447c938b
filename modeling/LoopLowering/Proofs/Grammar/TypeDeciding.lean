import LoopLowering.Proofs.Grammar.Deciding

/-! The rules for names, types and modifiers decide the tokens of a text. -/

namespace LoopLowering.Grammar

variable {beyond : List Token}

lemma Ended.of_short {ts : List Token} (h : Ended ts)
    (hshort : ∀ t u us, ts = t :: u :: us → False) : ∃ t, ts = [t] ∧ t.kind = .finish := by
  refine h.eq_singleton ?_
  cases ts with
  | nil => exact h.elim
  | cons t ts =>
    by_contra ht
    obtain ⟨u, us, rfl⟩ := List.exists_cons_of_ne_nil (h.tail ht).ne_nil
    exact hshort t u us rfl

lemma nameTail_append {ts : List Token} (h : Ended ts) :
    nameTail (ts ++ beyond) = ((nameTail ts).1, (nameTail ts).2 ++ beyond) ∧
      Ended (nameTail ts).2 ∧ (nameTail ts).2 <:+ ts := by
  fun_induction nameTail ts with
  | case1 d i ts hdi s rest heq ih =>
    have hkinds := Bool.and_eq_true_iff.mp hdi
    simp only [decide_eq_true_eq] at hkinds
    have hi : i.kind ≠ .finish := by rw [hkinds.2]; rintro ⟨⟩
    have hd : d.kind ≠ .finish := by rw [hkinds.1]; rintro ⟨⟩
    obtain ⟨htail, hrest, hsuffix⟩ := ih ((h.tail hd).tail hi)
    rw [heq] at htail hrest hsuffix
    refine ⟨?_, hrest, hsuffix.trans ((List.suffix_cons i ts).trans (List.suffix_cons d _))⟩
    rw [List.cons_append, List.cons_append, nameTail, if_pos hdi, htail]
  | case2 d i ts hdi =>
    exact ⟨by rw [List.cons_append, List.cons_append, nameTail, if_neg hdi], h, List.suffix_refl _⟩
  | case3 ts hshort =>
    refine ⟨?_, h, List.suffix_refl _⟩
    obtain ⟨t, rfl, ht⟩ := h.of_short hshort
    cases beyond with
    | nil => rfl
    | cons u us =>
      rw [List.cons_append, List.nil_append, nameTail, if_neg (by simp [ht, dot])]

lemma dimsTail_append {ts : List Token} (h : Ended ts) :
    dimsTail (ts ++ beyond) = ((dimsTail ts).1, (dimsTail ts).2 ++ beyond) ∧
      Ended (dimsTail ts).2 ∧ (dimsTail ts).2 <:+ ts := by
  fun_induction dimsTail ts with
  | case1 l r ts hlr d rest heq ih =>
    have hkinds := Bool.and_eq_true_iff.mp hlr
    simp only [decide_eq_true_eq] at hkinds
    have hr : r.kind ≠ .finish := by rw [hkinds.2]; rintro ⟨⟩
    have hl : l.kind ≠ .finish := by rw [hkinds.1]; rintro ⟨⟩
    obtain ⟨htail, hrest, hsuffix⟩ := ih ((h.tail hl).tail hr)
    rw [heq] at htail hrest hsuffix
    refine ⟨?_, hrest, hsuffix.trans ((List.suffix_cons r ts).trans (List.suffix_cons l _))⟩
    rw [List.cons_append, List.cons_append, dimsTail, if_pos hlr, htail]
  | case2 l r ts hlr =>
    exact ⟨by rw [List.cons_append, List.cons_append, dimsTail, if_neg hlr], h, List.suffix_refl _⟩
  | case3 ts hshort =>
    refine ⟨?_, h, List.suffix_refl _⟩
    obtain ⟨t, rfl, ht⟩ := h.of_short hshort
    cases beyond with
    | nil => rfl
    | cons u us =>
      rw [List.cons_append, List.nil_append, dimsTail, if_neg (by simp [ht, lbracket])]

lemma dims_decides (ts : List Token) : Gains beyond 0 ts dims dims :=
  .splitting dimsTail_append

lemma qualifiedName_decides (ts : List Token) :
    Gains beyond 1 ts qualifiedName qualifiedName := by
  rw [qualifiedName]
  refine .expect (by decide) fun t us hus => ?_
  exact .bind (.splitting nameTail_append) fun s rest hrest => .pure _ (by omega)

structure TypesDecide (beyond : List Token) (n : Nat) : Prop where
  bareType : Decisive beyond 1 7 n bareType
  type : Decisive beyond 1 8 n type
  typeArgs : Decisive beyond 1 6 n typeArgs
  typeArgList : Decisive beyond 1 10 n typeArgList
  typeArg : Decisive beyond 1 9 n typeArg

lemma typesDecide (n : Nat) : TypesDecide beyond n := by
  induction n with
  | zero => constructor <;> exact .zero (by omega)
  | succ n ih =>
    constructor
    case bareType =>
      refine .succ fun ts m hn hm => ?_
      rw [bareType, bareType]
      refine .ifCheckAny (fun hprimitive => ?_) fun _ => ?_
      · refine .advance (fun hend => ?_) fun t us hus => .pure _ (by omega)
        rw [hend] at hprimitive
        exact absurd hprimitive (by decide)
      · refine .bind (qualifiedName_decides ts) fun x rest hrest => .ifCheck (fun _ => ?_) fun _ =>
          .pure _ (by omega)
        exact .bind (ih.typeArgs rest m (by omega) hm) fun _ left _ => .pure _ (by omega)
    case type =>
      refine .succ fun ts m hn hm => ?_
      rw [type, type]
      refine .bind (ih.bareType ts m (by omega) hm) fun f rest hrest => ?_
      exact .bind (dims_decides rest) fun _ left _ => .pure _ (by omega)
    case typeArgs =>
      refine .succ fun ts m hn hm => ?_
      rw [typeArgs, typeArgs]
      refine .expect (by decide) fun _ us hus => .ifAccept (by decide) (fun vs hvs => .pure _ (by omega))
        fun _ => ?_
      refine .bind (ih.typeArgList us m (by omega) hm) fun _ rest hrest => ?_
      exact .expect (by decide) fun _ left _ => .pure _ (by omega)
    case typeArgList =>
      refine .succ fun ts m hn hm => ?_
      rw [typeArgList, typeArgList]
      refine .bind (ih.typeArg ts m (by omega) hm) fun _ rest hrest => .ifAccept (by decide)
        (fun us hus => ?_) fun _ => .pure _ (by omega)
      exact .bind (ih.typeArgList us m (by omega) hm) fun _ left _ => .pure _ (by omega)
    case typeArg =>
      refine .succ fun ts m hn hm => ?_
      rw [typeArg, typeArg]
      refine .ifAccept (by decide) (fun us hus => .ifCheckAny (fun hbound => ?_) fun _ =>
        .pure _ (by omega)) fun _ => .within (ih.type ts m (by omega) hm) (by omega)
      refine .advance (fun hend => ?_) fun t vs hvs => ?_
      · rw [hend] at hbound
        exact absurd hbound (by decide)
      · exact .bind (ih.type vs m (by omega) hm) fun _ left _ => .pure _ (by omega)

lemma typeList_decides {k : TokenKind} (hk : k ≠ .finish) (n : Nat) :
    Decisive beyond 1 9 n (typeList k) := by
  induction n with
  | zero => exact .zero (by omega)
  | succ n ih =>
    refine .succ fun ts m hn hm => ?_
    rw [typeList, typeList]
    refine .bind ((typesDecide n).type ts m (by omega) hm) fun _ rest hrest => .ifAccept hk
      (fun us hus => ?_) fun _ => .pure _ (by omega)
    exact .bind (ih us m (by omega) hm) fun _ left _ => .pure _ (by omega)

lemma Decides.step {α : Type} {origin us : List Token} {t : Token} {Q : α → Nat → Prop}
    {p q p' q' : Parser α} (ht : t.kind ≠ .finish) (hp : p (t :: us) = p' us)
    (hq : q (t :: (us ++ beyond)) = q' (us ++ beyond)) (h : Decides beyond origin us p' q' Q) :
    Decides beyond origin (t :: us) p q Q := by
  intro hts hsuffix
  rw [List.cons_append, hp, hq]
  exact h (hts.tail ht) ((List.suffix_cons t us).trans hsuffix)

lemma skipParens_decides (depth : Nat) (ts : List Token) :
    Gains beyond 0 ts (skipParens depth) (skipParens depth) := by
  induction ts generalizing depth with
  | nil => exact .ended fun h => h.elim
  | cons t ts ih =>
    by_cases hend : t.kind = .finish
    · intro _ _
      refine .inr ⟨.unclosedArguments, t, List.mem_cons_self, ?_, ?_⟩
      · rw [skipParens, if_pos hend]
      · rw [List.cons_append, skipParens, if_pos hend]
    by_cases hopen : t.kind = lparen
    · refine .step hend ?_ ?_ (.within (ih (depth + 1)) (by simp))
      · rw [skipParens, if_neg hend, if_pos hopen]
      · rw [skipParens, if_neg hend, if_pos hopen]
    by_cases hclose : t.kind = rparen
    · by_cases hdepth : depth ≤ 1
      · refine .step hend ?_ ?_ (.pure () (by simp))
        · rw [skipParens, if_neg hend, if_neg hopen, if_pos hclose, if_pos hdepth]
          rfl
        · rw [skipParens, if_neg hend, if_neg hopen, if_pos hclose, if_pos hdepth]
          rfl
      · refine .step hend ?_ ?_ (.within (ih (depth - 1)) (by simp))
        · rw [skipParens, if_neg hend, if_neg hopen, if_pos hclose, if_neg hdepth]
        · rw [skipParens, if_neg hend, if_neg hopen, if_pos hclose, if_neg hdepth]
    · refine .step hend ?_ ?_ (.within (ih depth) (by simp))
      · rw [skipParens, if_neg hend, if_neg hopen, if_neg hclose]
      · rw [skipParens, if_neg hend, if_neg hopen, if_neg hclose]

lemma annotationName_decides (ts : List Token) :
    Gains beyond 1 ts annotationName annotationName := by
  rw [annotationName]
  refine .expect (by decide) fun _ us hus => .bind (qualifiedName_decides us) fun x rest hrest =>
    .ifCheck (fun _ => ?_) fun _ => .pure _ (by omega)
  exact .bind (skipParens_decides 0 rest) fun _ left _ => .pure _ (by omega)

lemma modifiers_decide (n : Nat) : Decisive beyond 0 1 n modifiers := by
  induction n with
  | zero => exact .zero (by omega)
  | succ n ih =>
    refine .succ fun ts m hn hm => ?_
    rw [modifiers, modifiers]
    refine .ifCheckAny (fun hword => ?_) fun _ => .check (.checkNext fun b b' hb => ?_)
    · refine .advance (fun hend => ?_) fun t us hus => ?_
      · rw [hend] at hword
        exact absurd hword (by decide)
      · exact .bind (ih us m (by omega) hm) fun _ rest _ => .pure _ (by omega)
    · by_cases hat : headKind ts = .mark "@"
      · obtain rfl := hb (by rw [hat]; rintro ⟨⟩)
        refine .ite (fun _ => ?_) fun _ => .pure _ (by omega)
        refine .bind (annotationName_decides ts) fun _ rest hrest => ?_
        exact .bind (ih rest m (by omega) hm) fun _ left _ => .pure _ (by omega)
      · rw [decide_eq_false hat, Bool.false_and, Bool.false_and, if_neg (by simp), if_neg (by simp)]
        exact .pure _ (by omega)

lemma localModifiers_decide (n : Nat) : Decisive beyond 0 1 n localModifiers := by
  induction n with
  | zero => exact .zero (by omega)
  | succ n ih =>
    refine .succ fun ts m hn hm => ?_
    rw [localModifiers, localModifiers]
    refine .ifCheck (fun hfinal => ?_) fun _ => .ifCheck (fun _ => ?_) fun _ => .pure _ (by omega)
    · refine .advance (by rw [hfinal]; rintro ⟨⟩) fun t us hus => ?_
      exact .bind (ih us m (by omega) hm) fun _ rest _ => .pure _ (by omega)
    · refine .bind (annotationName_decides ts) fun _ rest hrest => ?_
      exact .bind (ih rest m (by omega) hm) fun _ left _ => .pure _ (by omega)

end LoopLowering.Grammar
