import LoopLowering.Proofs.Grammar.ExpressionDeciding

/-! The rules for statements decide the tokens of a text. -/

namespace LoopLowering.Grammar

variable {beyond : List Token}

lemma declarators_decide (first : Option Token) (n : Nat) :
    Decisive beyond 0 1 n (declarators first) := by
  induction n generalizing first with
  | zero => exact .zero (by omega)
  | succ n ih =>
    refine .succ fun ts m hn hm => ?_
    have hinit : ∀ (us : List Token) (init : Option Node) (f : Option Node → Node),
        us.length ≤ ts.length → Decides beyond ts us
          (do if ← accept comma then return f init :: (← declarators none n) else return [f init])
          (do if ← accept comma then return f init :: (← declarators none m) else return [f init])
          fun _ left => left + 0 ≤ ts.length := by
      intro us init f hus
      refine .ifAccept (by decide) (fun vs hvs => ?_) fun _ => .pure _ (by omega)
      exact .bind (ih none vs m (by omega) hm) fun ds rest _ => .pure _ (by omega)
    have hname : ∀ (us : List Token) (name : Token), us.length ≤ ts.length → Decides beyond ts us
        (do
          let d ← dims
          let init ← if ← accept (.mark "=") then some <$> initialValue n else pure none
          let decl := Node.plain (.declarator name.text d init)
          if ← accept comma then return decl :: (← declarators none n) else return [decl])
        (do
          let d ← dims
          let init ← if ← accept (.mark "=") then some <$> initialValue m else pure none
          let decl := Node.plain (.declarator name.text d init)
          if ← accept comma then return decl :: (← declarators none m) else return [decl])
          fun _ left => left + 0 ≤ ts.length := by
      intro us name hus
      refine .bind (dims_decides us) fun d rest hrest => .ifAccept (by decide) (fun vs hvs => ?_)
        fun _ => ?_
      · refine .bindMap ((exprsDecide n).initialValue vs m (by omega) hm) fun init left hleft => ?_
        exact hinit left init (fun i => .plain (.declarator name.text d i)) (by omega)
      · exact hinit rest none (fun i => .plain (.declarator name.text d i)) (by omega)
    cases first with
    | none => exact .expect (by decide) fun name us hus => hname us name (by omega)
    | some name => exact hname ts name (Nat.le_refl _)

lemma localVar?_decides (n : Nat) : Decisive beyond 0 9 n localVar? := by
  cases n with
  | zero => exact .zero (by omega)
  | succ n =>
    refine .succ fun ts m hn hm => ?_
    rw [localVar?, localVar?]
    refine .ended fun hended => .get ?_
    refine .bind (localModifiers_decide n ts m (by omega) hm) fun mods us hus => ?_
    have hstop : ∀ us, Decides beyond ts us
        (do if mods.isEmpty then set ts; return none else reject .expectedVariable)
        (do if mods.isEmpty then set (ts ++ beyond); return none else reject .expectedVariable)
        fun (_ : Option Node) left => left + 0 ≤ ts.length :=
      fun us => .ite (fun _ => .rewind hended (List.suffix_refl ts) (.pure _ (by omega)))
        fun _ => .reject _
    have hdecl : ∀ (ty : Node) (vs : List Token), vs.length + 1 ≤ ts.length → Decides beyond ts vs
        (do
          if ← check .ident then
            return some (.plain (.localVar (Word.ofTexts mods) ty (← declarators none n)))
          if mods.isEmpty then set ts; return none else reject .expectedVariable)
        (do
          if ← check .ident then
            return some (.plain (.localVar (Word.ofTexts mods) ty (← declarators none m)))
          if mods.isEmpty then set (ts ++ beyond); return none else reject .expectedVariable)
        fun (_ : Option Node) left => left + 0 ≤ ts.length := by
      intro ty vs hvs
      refine .ifCheck (fun _ => ?_) fun _ => hstop vs
      exact .bind (declarators_decide none n vs m (by omega) hm) fun ds rest _ => .pure _ (by omega)
    have types : TypesDecide beyond n := typesDecide n
    have htype := types.type us m (by omega) hm
    refine .ifCheckAny (fun _ => .ite (fun _ => ?_) fun _ => ?_) fun _ => hstop us
    · exact .attempt htype (fun ty vs hvs => hdecl ty vs (by omega)) (hstop us)
    · exact .bindMap htype fun ty vs hvs => hdecl ty vs (by omega)

lemma forEachHead_decides (n : Nat) : Decisive beyond 0 9 n forEachHead := by
  cases n with
  | zero => exact .zero (by omega)
  | succ n =>
    refine .succ fun ts m hn hm => ?_
    rw [forEachHead, forEachHead]
    refine .ended fun hended => .get ?_
    have hgiveUp : ∀ us, Decides beyond ts us (do set ts; return none) (do set (ts ++ beyond); return none)
        fun (_ : Option Node) left => left + 0 ≤ ts.length :=
      fun us => .rewind hended (List.suffix_refl ts) (.pure _ (by omega))
    refine .bind (localModifiers_decide n ts m (by omega) hm) fun mods us hus => ?_
    refine .ifCheckAny (fun _ => ?_) fun _ => hgiveUp us
    refine .attempt ((typesDecide n).type us m (by omega) hm) (fun ty vs hvs => ?_) (hgiveUp us)
    refine .check (.checkNext fun b b' hb => ?_)
    by_cases hident : headKind vs = .ident
    · obtain rfl := hb (by rw [hident]; rintro ⟨⟩)
      refine .ite (fun _ => .skip fun name ws hws => .skip fun _ left hleft => ?_) fun _ => hgiveUp vs
      exact .pure _ (by omega)
    · rw [decide_eq_false hident, Bool.false_and, Bool.false_and, if_neg (by simp), if_neg (by simp)]
      exact hgiveUp vs

lemma forInit_decides (n : Nat) : Decisive beyond 0 10 n forInit := by
  cases n with
  | zero => exact .zero (by omega)
  | succ n =>
    refine .succ fun ts m hn hm => ?_
    rw [forInit, forInit]
    refine .ifCheck (fun _ => .pure _ (by omega)) fun _ => ?_
    refine .bind (localVar?_decides n ts m (by omega) hm) fun o rest hrest => ?_
    cases o with
    | none => exact .within ((exprsDecide n).exprList rest m (by omega) hm) (by omega)
    | some d => exact .pure _ (by omega)

lemma optionalExpr_decides (stop : TokenKind) (n : Nat) :
    Decisive beyond 0 7 n (optionalExpr stop) := by
  intro ts m hn hm
  rw [optionalExpr, optionalExpr]
  exact .ifCheck (fun _ => .pure _ (by omega)) fun _ => .map ((exprsDecide n).expr ts m hn hm)

lemma jumpLabel_decides (ts : List Token) : Gains beyond 0 ts jumpLabel jumpLabel := by
  rw [jumpLabel]
  refine .ifCheck (fun _ => ?_) fun _ => .pure _ (by omega)
  exact .skip fun t us hus => .pure _ (by omega)

structure StmtsDecide (beyond : List Token) (n : Nat) : Prop where
  block : Decisive beyond 1 1 n block
  blockTail : Decisive beyond 0 13 n blockTail
  statement : Decisive beyond 1 12 n statement
  bareStatement : Decisive beyond 1 11 n bareStatement
  simpleStatement : Decisive beyond 1 10 n simpleStatement
  forStatement : Decisive beyond 0 1 n forStatement
  tryStatement : Decisive beyond 0 2 n tryStatement
  catchClauses : Decisive beyond 0 1 n catchClauses

section

variable {n : Nat} (ih : StmtsDecide beyond n)
include ih

lemma bareStatement_decides : Decisive beyond 1 11 (n + 1) bareStatement := by
  refine .succ fun ts m hn hm => ?_
  have hsimple := ih.simpleStatement ts m (by omega) hm
  rw [bareStatement, bareStatement]
  refine .current ?_
  split
  · exact ih.block ts m (by omega) hm
  · rename_i hk
    exact .advance (by rw [headKind, hk]; rintro ⟨⟩) fun _ us hus => .pure _ (by omega)
  · rename_i hk
    refine .advance (by rw [headKind, hk]; rintro ⟨⟩) fun _ us hus => ?_
    refine .bind ((exprsDecide n).parenthesized us m (by omega) hm) fun c vs hvs => ?_
    refine .bind (ih.statement vs m (by omega) hm) fun a ws hws => ?_
    refine .ifAccept (by decide) (fun xs hxs => ?_) fun _ => .pure _ (by omega)
    exact .bindMap (ih.statement xs m (by omega) hm) fun b left _ => .pure _ (by omega)
  · rename_i hk
    refine .advance (by rw [headKind, hk]; rintro ⟨⟩) fun _ us hus => ?_
    refine .bind ((exprsDecide n).parenthesized us m (by omega) hm) fun c vs hvs => ?_
    exact .bind (ih.statement vs m (by omega) hm) fun a left _ => .pure _ (by omega)
  · rename_i hk
    refine .advance (by rw [headKind, hk]; rintro ⟨⟩) fun _ us hus => ?_
    refine .bind (ih.statement us m (by omega) hm) fun a vs hvs => .expect (by decide) fun _ ws hws => ?_
    refine .bind ((exprsDecide n).parenthesized ws m (by omega) hm) fun c xs hxs => ?_
    exact .expect (by decide) fun _ left _ => .pure _ (by omega)
  · rename_i hk
    refine .advance (by rw [headKind, hk]; rintro ⟨⟩) fun _ us hus => ?_
    exact .within (ih.forStatement us m (by omega) hm) (by omega)
  · rename_i hk
    refine .advance (by rw [headKind, hk]; rintro ⟨⟩) fun _ us hus => ?_
    refine .bind (optionalExpr_decides semicolon n us m (by omega) hm) fun e vs hvs => ?_
    exact .expect (by decide) fun _ left _ => .pure _ (by omega)
  · rename_i hk
    refine .advance (by rw [headKind, hk]; rintro ⟨⟩) fun _ us hus => ?_
    refine .bind (jumpLabel_decides us) fun l vs hvs => ?_
    exact .expect (by decide) fun _ left _ => .pure _ (by omega)
  · rename_i hk
    refine .advance (by rw [headKind, hk]; rintro ⟨⟩) fun _ us hus => ?_
    refine .bind (jumpLabel_decides us) fun l vs hvs => ?_
    exact .expect (by decide) fun _ left _ => .pure _ (by omega)
  · rename_i hk
    refine .advance (by rw [headKind, hk]; rintro ⟨⟩) fun _ us hus => ?_
    refine .bind ((exprsDecide n).expr us m (by omega) hm) fun e vs hvs => ?_
    exact .expect (by decide) fun _ left _ => .pure _ (by omega)
  · rename_i hk
    refine .advance (by rw [headKind, hk]; rintro ⟨⟩) fun _ us hus => ?_
    exact .within (ih.tryStatement us m (by omega) hm) (by omega)
  · exact .ite (fun _ => .reject _) fun _ => hsimple
  · rename_i hk
    refine .checkNext fun b b' hb => ?_
    obtain rfl := hb (by rw [headKind, hk]; rintro ⟨⟩)
    refine .ite (fun _ => ?_) fun _ => hsimple
    refine .advance (by rw [headKind, hk]; rintro ⟨⟩) fun l us hus => .skip fun _ vs hvs => ?_
    exact .bind (ih.statement vs m (by omega) hm) fun a left _ => .pure _ (by omega)
  · exact hsimple

omit ih in
lemma simpleStatement_decides : Decisive beyond 1 10 (n + 1) simpleStatement := by
  refine .succ fun ts m hn hm => ?_
  rw [simpleStatement, simpleStatement]
  refine .bind (localVar?_decides n ts m (by omega) hm) fun o rest hrest => ?_
  cases o with
  | some d => exact .expect (by decide) fun _ left _ => .pure _ (by omega)
  | none =>
    refine .bind ((exprsDecide n).expr rest m (by omega) hm) fun e us hus => ?_
    exact .expect (by decide) fun _ left _ => .pure _ (by omega)

lemma forStatement_decides : Decisive beyond 0 1 (n + 1) forStatement := by
  refine .succ fun ts m hn hm => ?_
  rw [forStatement, forStatement]
  refine .expect (by decide) fun _ us hus => ?_
  refine .bind (forEachHead_decides n us m (by omega) hm) fun o vs hvs => ?_
  cases o with
  | some v =>
    refine .bind ((exprsDecide n).expr vs m (by omega) hm) fun e ws hws => ?_
    refine .expect (by decide) fun _ xs hxs => ?_
    exact .bind (ih.statement xs m (by omega) hm) fun b left _ => .pure _ (by omega)
  | none =>
    refine .bind (forInit_decides n vs m (by omega) hm) fun init ws hws => ?_
    refine .expect (by decide) fun _ xs hxs => ?_
    refine .bind (optionalExpr_decides semicolon n xs m (by omega) hm) fun c ys hys => ?_
    refine .expect (by decide) fun _ zs hzs => ?_
    have hend : ∀ (l : List Token) (update : List Node), l.length ≤ zs.length → Decides beyond ts l
        (do let _ ← expect rparen; return Node.plain (.forLoop init c update (← statement n)))
        (do let _ ← expect rparen; return Node.plain (.forLoop init c update (← statement m)))
        fun _ left => left + 0 ≤ ts.length := by
      intro l update hl
      refine .expect (by decide) fun _ l' hl' => ?_
      exact .bind (ih.statement l' m (by omega) hm) fun b left _ => .pure _ (by omega)
    refine .ifCheck (fun _ => hend zs [] (Nat.le_refl _)) fun _ => ?_
    exact .bind ((exprsDecide n).exprList zs m (by omega) hm) fun update l hl => hend l update (by omega)

lemma tryStatement_decides : Decisive beyond 0 2 (n + 1) tryStatement := by
  refine .succ fun ts m hn hm => ?_
  rw [tryStatement, tryStatement]
  refine .ifCheck (fun _ => .rejectThen _) fun _ => ?_
  refine .bind (ih.block ts m (by omega) hm) fun b us hus => ?_
  refine .bind (ih.catchClauses us m (by omega) hm) fun cs vs hvs => ?_
  refine .ifAccept (by decide) (fun ws hws => ?_) fun _ => ?_
  · refine .bindMap (ih.block ws m (by omega) hm) fun f left hleft => ?_
    exact .ite (fun _ => .rejectThen _) fun _ => .pure _ (by omega)
  · exact .ite (fun _ => .rejectThen _) fun _ => .pure _ (by omega)

lemma catchClauses_decide : Decisive beyond 0 1 (n + 1) catchClauses := by
  refine .succ fun ts m hn hm => ?_
  rw [catchClauses, catchClauses]
  refine .ifAccept (by decide) (fun us hus => ?_) fun _ => .pure _ (by omega)
  refine .expect (by decide) fun _ vs hvs => ?_
  refine .bind (localModifiers_decide n vs m (by omega) hm) fun mods ws hws => ?_
  refine .bind (typeList_decides (by decide) n ws m (by omega) hm) fun tys xs hxs => ?_
  refine .expect (by decide) fun x ys hys => .expect (by decide) fun _ zs hzs => ?_
  refine .bind (ih.block zs m (by omega) hm) fun b l hl => ?_
  exact .bind (ih.catchClauses l m (by omega) hm) fun cs left _ => .pure _ (by omega)

end

lemma stmtsDecide (n : Nat) : StmtsDecide beyond n := by
  induction n with
  | zero => constructor <;> exact .zero (by omega)
  | succ n ih =>
    constructor
    case block =>
      refine .succ fun ts m hn hm => ?_
      rw [block, block]
      refine .expect (by decide) fun _ us hus => ?_
      exact .bind (ih.blockTail us m (by omega) hm) fun ss left _ => .pure _ (by omega)
    case blockTail =>
      refine .succ fun ts m hn hm => ?_
      rw [blockTail, blockTail]
      refine .ifAccept (by decide) (fun us hus => .pure _ (by omega)) fun _ =>
        .ifCheck (fun _ => .rejectThen _) fun _ => ?_
      refine .bind (ih.statement ts m (by omega) hm) fun s rest hrest => ?_
      exact .bind (ih.blockTail rest m (by omega) hm) fun ss left _ => .pure _ (by omega)
    case statement =>
      refine .succ fun ts m hn hm => ?_
      rw [statement, statement]
      refine .current ?_
      exact .bind (ih.bareStatement ts m (by omega) hm) fun s left _ => .pure _ (by omega)
    case bareStatement => exact bareStatement_decides ih
    case simpleStatement => exact simpleStatement_decides
    case forStatement => exact forStatement_decides ih
    case tryStatement => exact tryStatement_decides ih
    case catchClauses => exact catchClauses_decide ih

lemma statements_decide (n : Nat) : Decisive beyond 0 13 n statements := by
  induction n with
  | zero => exact .zero (by omega)
  | succ n ih =>
    refine .succ fun ts m hn hm => ?_
    rw [statements, statements]
    refine .ifCheck (fun _ => .pure _ (by omega)) fun _ => ?_
    refine .bind ((stmtsDecide n).statement ts m (by omega) hm) fun s rest hrest => ?_
    exact .bind (ih rest m (by omega) hm) fun ss left _ => .pure _ (by omega)

end LoopLowering.Grammar
