import LoopLowering.Proofs.Grammar.ExpressionTrees

/-! What the rules for statements, declarations and units read. -/

namespace LoopLowering.Grammar

open Layout

lemma declarators_take (first : Option Token) (hfirst : ∀ t ∈ first, t.Genuine ∧ t.kind = .ident)
    (n : Nat) (ts : List Token) : Takes (declarators first n) ts fun ds _ _ =>
      ds ≠ [] ∧ ∀ d ∈ ds, DeclaratorTree Parsed d := by
  induction n generalizing first ts with
  | zero => exact .exhausted
  | succ n ih =>
    have hrest : ∀ (name : Token) (d : Nat) (init : Option Node) (ts : List Token),
        Token.IsName name.text → (∀ e ∈ init, ExprTree Parsed true e) → Takes (do
          let decl := Node.plain (.declarator name.text d init)
          if ← accept comma then return decl :: (← declarators none n) else return [decl]) ts
            fun ds _ _ => ds ≠ [] ∧ ∀ d ∈ ds, DeclaratorTree Parsed d := by
      intro name d init ts hname hinit
      have hdecl : DeclaratorTree Parsed (.plain (.declarator name.text d init)) :=
        .mk hname hinit (parsed_plain ⟨trivial, trivial, trivial⟩)
      refine .ifAccept (by decide) (fun _ us _ _ _ => ?_) fun _ => .pure ⟨by simp, by simpa using hdecl⟩
      refine .bind (ih none (by simp) us) fun ds _ _ _ hds => .pure ⟨by simp, ?_⟩
      exact List.forall_mem_cons.mpr ⟨hdecl, hds.2⟩
    have hname : ∀ (name : Token) (ts : List Token), Token.IsName name.text → Takes (do
        let d ← dims
        let init ← if ← accept (.mark "=") then some <$> initialValue n else pure none
        let decl := Node.plain (.declarator name.text d init)
        if ← accept comma then return decl :: (← declarators none n) else return [decl]) ts
          fun ds _ _ => ds ≠ [] ∧ ∀ d ∈ ds, DeclaratorTree Parsed d := by
      intro name ts hname
      refine .bind (dims_takes ts) fun d _ us _ _ => .ifAccept (by decide) (fun _ vs _ _ _ => ?_)
        fun _ => .look (pure_run _ _) (hrest name d none us hname (by simp))
      refine .bind (.map (R := fun o _ _ => ∀ e ∈ o, ExprTree Parsed true e) ?_)
        fun init _ rest _ hinit => hrest name d init rest hname hinit
      exact ((exprsTake n).initialValue vs).mono fun e _ _ _ he => by simpa using he
    unfold declarators
    cases first with
    | some t =>
      obtain ⟨ht, hkind⟩ := hfirst t rfl
      exact .look (pure_run _ _) (hname t ts (ht.name hkind).2)
    | none => exact .expect (by decide) fun t us _ hk ht => hname t us (ht.name hk).2

lemma localVar?_tries (n : Nat) (ts : List Token) : Takes (localVar? n) ts fun o used _ =>
    (o = none ∧ used = []) ∨ ∃ d, o = some d ∧ LocalVarTree Parsed d := by
  cases n with
  | zero => exact .exhausted
  | succ n =>
    rw [localVar?]
    refine .look (get_run _) (Tries.takes (R := fun d _ => LocalVarTree Parsed d) ?_)
    refine .bind (localModifiers_take n ts) fun mods _ us _ hmods => ?_
    have hstop : ∀ us, Tries (do
        if mods.isEmpty then
          set ts
          return none
        else reject .expectedVariable : Parser (Option Node)) us ts
          fun d _ => LocalVarTree Parsed d :=
      fun us => .ite (fun _ => .giveUp) fun _ => .reject _
    have hdecl : ∀ (ty : Node) (us : List Token), TypeTree TypeNode false ty → Tries (do
        if ← check .ident then
          return some (.plain (.localVar (Word.ofTexts mods) ty (← declarators none n)))
        if mods.isEmpty then
          set ts
          return none
        else reject .expectedVariable : Parser (Option Node)) us ts
          fun d _ => LocalVarTree Parsed d := by
      intro ty us hty
      refine .look (check_run _ _) (.ite (fun _ => ?_) fun _ => hstop us)
      refine .bind (declarators_take none (by simp) n us) fun ds _ _ _ hds => .found ?_
      exact .mk hmods.1 hty.parsed hds.1 hds.2 (parsed_plain ⟨trivial, trivial, trivial⟩)
    refine .look (checkAny_run _ _) (.ite (fun _ => .ite (fun _ => ?_) fun _ => ?_) fun _ => hstop us)
    · refine .bind (.attempt ((typesTake n).type us)) fun o _ rest _ ho => ?_
      rcases ho with ⟨ty, rfl, hty⟩ | ⟨rfl, -⟩
      · exact hdecl ty rest hty.tree
      · exact hstop rest
    · refine .bind (.map (R := fun o _ _ => ∃ ty, o = some ty ∧ TypeTree TypeNode false ty) ?_)
        fun o _ rest _ ho => ?_
      · exact ((typesTake n).type us).mono fun ty _ _ _ hty => ⟨ty, rfl, hty.tree⟩
      · obtain ⟨ty, rfl, hty⟩ := ho
        exact hdecl ty rest hty

lemma localModifiers_none {n : Nat} {ts : List Token} (hfinal : headKind ts ≠ .word "final")
    (hat : headKind ts ≠ .mark "@") : localModifiers (n + 1) ts = .ok ([], ts) := by
  rw [localModifiers, bind_of_ok (check_no hfinal), if_neg (by simp), bind_of_ok (check_no hat),
    if_neg (by simp)]
  rfl

lemma start_no_modifier : ∀ k ∈ TokenKind.ident :: primitiveTypes,
    k ≠ .word "final" ∧ k ≠ .mark "@" := by
  decide

lemma localVar?_of_declares {n : Nat} {ts rest : List Token} (h : Declares (ts.map Token.face)) :
    localVar? n ts ≠ .ok (none, rest) := by
  intro hrun
  match n with
  | 0 => cases hrun
  | 1 => cases hrun
  | n + 2 =>
    have hstart := headKind_of_declares h
    obtain ⟨hfinal, hat⟩ := start_no_modifier _ hstart
    rw [localVar?, bind_of_ok (get_run _), bind_of_ok (localModifiers_none hfinal hat),
      bind_of_ok (checkAny_yes hstart), if_pos rfl,
      if_pos (show ([] : List String).isEmpty = true from rfl)] at hrun
    by_cases hexhausted : type (n + 1) ts = .error .exhausted
    · simp only [Bind.bind, StateT.bind, attempt, hexhausted, Except.bind] at hrun
      cases hrun
    · obtain ⟨ty, us, hty, hident⟩ := type_of_declares h hexhausted
      rw [bind_of_ok (attempt_ok hty)] at hrun
      dsimp only at hrun
      rw [bind_of_ok (check_yes hident), if_pos rfl] at hrun
      simp only [Bind.bind, StateT.bind, Except.bind] at hrun
      split at hrun
      · cases hrun
      · cases hrun

lemma localVar?_takes (n : Nat) (ts : List Token) : Takes (localVar? n) ts fun o used _ =>
    (o = none ∧ used = [] ∧ ¬ Declares (ts.map Token.face)) ∨
      ∃ d, o = some d ∧ LocalVarTree Parsed d := by
  intro hg o rest hrun
  obtain ⟨used, hused, ho⟩ := localVar?_tries n ts hg o rest hrun
  refine ⟨used, hused, ho.imp_left fun h => ⟨h.1, h.2, fun hdeclares => ?_⟩⟩
  exact localVar?_of_declares hdeclares (h.1 ▸ hrun)

lemma headKind_of_next {ts us : List Token} {x : Token} {k : TokenKind} (hts : ts = x :: us)
    (h : (tokenAt ts 1).kind = k) (hx : x.kind ≠ k) : headKind us = k := by
  subst hts
  cases us with
  | nil => exact absurd h hx
  | cons c us => exact h

lemma forEachHead_takes (n : Nat) (ts : List Token) : Takes (forEachHead n) ts fun o used _ =>
    (o = none ∧ used = []) ∨ ∃ v, o = some v ∧ ElementTree Parsed v := by
  cases n with
  | zero => exact .exhausted
  | succ n =>
    rw [forEachHead]
    refine .look (get_run _) (Tries.takes (R := fun v _ => ElementTree Parsed v) ?_)
    refine .bind (localModifiers_take n ts) fun mods _ us _ hmods => ?_
    refine .look (checkAny_run _ _) (.ite (fun _ => ?_) fun _ => .giveUp)
    refine .bind (.attempt ((typesTake n).type us)) fun o _ vs _ ho => ?_
    rcases ho with ⟨ty, rfl, hty⟩ | ⟨rfl, -⟩
    · refine .look (check_run _ _) (.look (checkNext_run _ _) (.ite (fun hhead => ?_) fun _ => .giveUp))
      simp only [Bool.and_eq_true, decide_eq_true_eq] at hhead
      refine .bind (advance_takes (by rw [hhead.1]; rintro ⟨⟩)) fun x used ws hvs hx => ?_
      obtain ⟨rfl, hkind, hg⟩ := hx
      have hident := hkind.trans hhead.1
      have hcolon : headKind ws = colon := headKind_of_next hvs hhead.2 (by rw [hident]; rintro ⟨⟩)
      refine .bind (advance_takes (by rw [hcolon]; rintro ⟨⟩)) fun _ _ _ _ _ => .found ?_
      exact .mk hmods.1 hty.tree.parsed (hg.name hident).2
        (parsed_plain ⟨trivial, trivial, trivial⟩) (parsed_plain ⟨trivial, trivial, trivial⟩)
    · exact .giveUp

lemma forInit_takes (n : Nat) (ts : List Token) :
    Takes (forInit n) ts fun init _ _ => ForInit Parsed init := by
  cases n with
  | zero => exact .exhausted
  | succ n =>
    rw [forInit]
    refine .ifCheck (fun _ => .pure (.inr (by simp))) fun _ => ?_
    refine .bind (localVar?_takes n ts) fun o _ rest _ ho => ?_
    rcases ho with ⟨rfl, -⟩ | ⟨d, rfl, hd⟩
    · exact ((exprsTake n).exprList rest).mono fun es _ _ _ hes => .inr hes
    · exact .pure (.inl ⟨d, rfl, hd⟩)

lemma optionalExpr_takes (stop : TokenKind) (n : Nat) (ts : List Token) :
    Takes (optionalExpr stop n) ts fun o _ _ => ∀ e ∈ o, ExprTree Parsed false e := by
  rw [optionalExpr]
  refine .ifCheck (fun _ => .pure (by simp)) fun _ => .map ?_
  exact ((exprsTake n).expr ts).mono fun e _ _ _ he => by simpa using he.tree

lemma jumpLabel_takes (ts : List Token) :
    Takes jumpLabel ts fun o _ _ => ∀ x ∈ o, Token.IsName x := by
  rw [jumpLabel]
  refine .ifCheck (fun hident => ?_) fun _ => .pure (by simp)
  refine .advance (by rw [hident]; nofun) fun t us hts ht => .pure ?_
  simpa using (ht.name (by rw [← hident, hts]; rfl)).2

lemma stmtTree_atLine {h : Bool} {s : Node} (hs : StmtTree Parsed h s) (line : Nat) :
    StmtTree Parsed h (atLine line s) := by
  cases hs with
  | block statements here => exact .block statements (here.withLine _)
  | localVar declaration =>
    cases declaration with
    | mk modifiers type nonempty declarators here =>
      exact .localVar (.mk modifiers type nonempty declarators (here.withLine _))
  | exprStmt expr here => exact .exprStmt expr (here.withLine _)
  | ifElse cond thenStmt elseStmt here => exact .ifElse cond thenStmt elseStmt (here.withLine _)
  | whileLoop cond body here => exact .whileLoop cond body (here.withLine _)
  | doWhile body cond here => exact .doWhile body cond (here.withLine _)
  | forLoop start cond updates body here =>
    exact .forLoop start cond updates body (here.withLine _)
  | forEach var iterable body here => exact .forEach var iterable body (here.withLine _)
  | returnStmt value here => exact .returnStmt value (here.withLine _)
  | breakStmt label here => exact .breakStmt label (here.withLine _)
  | continueStmt label here => exact .continueStmt label (here.withLine _)
  | throwStmt expr here => exact .throwStmt expr (here.withLine _)
  | tryStmt body block catches final blocks handled here =>
    exact .tryStmt body block catches final blocks handled (here.withLine _)
  | catchClause modifiers name nonempty types body block here =>
    exact .catchClause modifiers name nonempty types body block (here.withLine _)
  | labeled label body here => exact .labeled label body (here.withLine _)
  | emptyStmt here => exact .emptyStmt (here.withLine _)

lemma endsOpen_atLine (s : Node) (line : Nat) : (atLine line s).endsOpen = s.endsOpen := by
  obtain ⟨t, s⟩ := s
  rw [atLine, Node.endsOpen, Node.fold_mk, Node.fold_mk]

structure TakenStmt (s : Node) (rest : List Token) : Prop where
  tree : StmtTree Parsed false s
  stop : s.endsOpen = true → headKind rest ≠ .word "else"

structure StatementsTake (n : Nat) : Prop where
  block (ts : List Token) : Takes (block n) ts fun s _ _ =>
    StmtTree Parsed false s ∧ isBlock s = true ∧ s.endsOpen = false
  blockTail (ts : List Token) : Takes (blockTail n) ts fun ss _ _ =>
    ∀ s ∈ ss, StmtTree Parsed false s
  statement (ts : List Token) : Takes (statement n) ts fun s _ rest => TakenStmt s rest
  bareStatement (ts : List Token) : Takes (bareStatement n) ts fun s _ rest => TakenStmt s rest
  simpleStatement (ts : List Token) :
    Takes (simpleStatement n) ts fun s _ rest => TakenStmt s rest
  forStatement (ts : List Token) : Takes (forStatement n) ts fun s _ rest => TakenStmt s rest
  tryStatement (ts : List Token) : Takes (tryStatement n) ts fun s _ rest => TakenStmt s rest
  catchClauses (ts : List Token) : Takes (catchClauses n) ts fun cs _ _ =>
    ∀ c ∈ cs, StmtTree Parsed true c

lemma endsOpen_mk (t : Tag) (s : Shape Node) : (Node.mk t s).endsOpen =
    match s.map Node.endsOpen with
    | .ifElse _ _ none => true
    | .ifElse _ _ (some b) | .whileLoop _ b | .forLoop _ _ _ b | .forEach _ _ b | .labeled _ b => b
    | _ => false :=
  Node.fold_mk _ t s

lemma simpleStatement_takes (n : Nat) (ts : List Token) :
    Takes (simpleStatement (n + 1)) ts fun s _ rest => TakenStmt s rest := by
  rw [simpleStatement]
  refine .bind (localVar?_takes n ts) fun o used rest hts ho => ?_
  rcases ho with ⟨rfl, rfl, hno⟩ | ⟨d, rfl, hd⟩
  · obtain rfl : ts = rest := hts
    refine .bind ((exprsTake n).expr ts) fun e front us hts he => .look (pure_run _ _) ?_
    refine .expect (by decide) fun _ _ _ _ _ => .pure ⟨?_, by rintro ⟨⟩⟩
    refine .exprStmt he.tree (parsed_plain ⟨trivial, trivial, fun hdeclares => hno ?_⟩)
    refine (hdeclares.of_covers he.covers).mono ?_
    rw [hts, List.map_append]
    exact List.prefix_append _ _
  · refine .look (pure_run _ _) (.expect (by decide) fun _ _ _ _ _ => .pure ⟨.localVar hd, ?_⟩)
    cases hd
    rintro ⟨⟩

section

variable {n : Nat} (ih : StatementsTake n) (ts : List Token)
include ih

lemma bareStatement_takes :
    Takes (bareStatement (n + 1)) ts fun s _ rest => TakenStmt s rest := by
  rw [bareStatement]
  refine .look (current_run _) ?_
  split
  · exact (ih.block ts).mono fun s _ _ _ hs => ⟨hs.1, fun h => by cases hs.2.2 ▸ h⟩
  · rename_i hk
    refine .advance (by rw [headKind, hk]; rintro ⟨⟩) fun _ _ _ _ => .pure ⟨?_, by rintro ⟨⟩⟩
    exact .emptyStmt (parsed_plain ⟨trivial, trivial, trivial⟩)
  · rename_i hk
    refine .advance (by rw [headKind, hk]; rintro ⟨⟩) fun _ us _ _ => ?_
    refine .bind ((exprsTake n).parenthesized us) fun c _ vs _ hc => ?_
    refine .bind (ih.statement vs) fun a _ ws _ ha => .ifAccept (by decide)
      (fun e xs hws he _ => ?_) fun hno => .look (pure_run _ _) (.pure ⟨?_, fun _ => hno⟩)
    · refine .bind (.map (R := fun o _ rest => ∃ b, o = some b ∧ TakenStmt b rest) ?_)
        fun o _ rest _ ho => ?_
      · exact (ih.statement xs).mono fun b _ _ _ hb => ⟨b, rfl, hb⟩
      · obtain ⟨b, rfl, hb⟩ := ho
        refine .pure ⟨.ifElse hc ha.tree (by simpa using hb.tree) (parsed_plain ⟨trivial, trivial, ?_⟩),
          fun h => hb.stop ?_⟩
        · refine Bool.eq_false_iff.mpr fun hopen => ha.stop hopen ?_
          rw [hws]
          exact he
        · simpa [endsOpen_mk, Node.plain, Shape.map, Shape.mapAt] using h
    · exact .ifElse hc ha.tree (by simp) (parsed_plain ⟨trivial, trivial, trivial⟩)
  · rename_i hk
    refine .advance (by rw [headKind, hk]; rintro ⟨⟩) fun _ us _ _ => ?_
    refine .bind ((exprsTake n).parenthesized us) fun c _ vs _ hc => ?_
    refine .bind (ih.statement vs) fun a _ ws _ ha => .pure ⟨?_, ha.stop⟩
    exact .whileLoop hc ha.tree (parsed_plain ⟨trivial, trivial, trivial⟩)
  · rename_i hk
    refine .advance (by rw [headKind, hk]; rintro ⟨⟩) fun _ us _ _ => ?_
    refine .bind (ih.statement us) fun a _ vs _ ha => .expect (by decide) fun _ ws _ _ _ => ?_
    refine .bind ((exprsTake n).parenthesized ws) fun c _ xs _ hc => ?_
    refine .expect (by decide) fun _ _ _ _ _ => .pure ⟨?_, by rintro ⟨⟩⟩
    exact .doWhile ha.tree hc (parsed_plain ⟨trivial, trivial, trivial⟩)
  · rename_i hk
    exact .advance (by rw [headKind, hk]; rintro ⟨⟩) fun _ us _ _ => ih.forStatement us
  · rename_i hk
    refine .advance (by rw [headKind, hk]; rintro ⟨⟩) fun _ us _ _ => ?_
    refine .bind (optionalExpr_takes _ n us) fun o _ vs _ ho => ?_
    refine .expect (by decide) fun _ _ _ _ _ => .pure ⟨?_, by rintro ⟨⟩⟩
    exact .returnStmt ho (parsed_plain ⟨trivial, trivial, trivial⟩)
  · rename_i hk
    refine .advance (by rw [headKind, hk]; rintro ⟨⟩) fun _ us _ _ => ?_
    refine .bind (jumpLabel_takes us) fun o _ vs _ ho => ?_
    refine .expect (by decide) fun _ _ _ _ _ => .pure ⟨?_, by rintro ⟨⟩⟩
    exact .breakStmt ho (parsed_plain ⟨trivial, trivial, trivial⟩)
  · rename_i hk
    refine .advance (by rw [headKind, hk]; rintro ⟨⟩) fun _ us _ _ => ?_
    refine .bind (jumpLabel_takes us) fun o _ vs _ ho => ?_
    refine .expect (by decide) fun _ _ _ _ _ => .pure ⟨?_, by rintro ⟨⟩⟩
    exact .continueStmt ho (parsed_plain ⟨trivial, trivial, trivial⟩)
  · rename_i hk
    refine .advance (by rw [headKind, hk]; rintro ⟨⟩) fun _ us _ _ => ?_
    refine .bind ((exprsTake n).expr us) fun e _ vs _ he => ?_
    refine .expect (by decide) fun _ _ _ _ _ => .pure ⟨?_, by rintro ⟨⟩⟩
    exact .throwStmt he.tree (parsed_plain ⟨trivial, trivial, trivial⟩)
  · rename_i hk
    exact .advance (by rw [headKind, hk]; rintro ⟨⟩) fun _ us _ _ => ih.tryStatement us
  · exact .ite (fun _ => .reject _) fun _ => ih.simpleStatement ts
  · rename_i hk
    refine .look (checkNext_run _ _) (.ite (fun hcolon => ?_) fun _ => ih.simpleStatement ts)
    refine .advance (by rw [headKind, hk]; rintro ⟨⟩) fun x us hts hx => ?_
    have hident : x.kind = .ident := by
      rw [hts] at hk
      exact hk
    have hus := headKind_of_next hts (of_decide_eq_true hcolon) (by rw [hident]; rintro ⟨⟩)
    refine .advance (by rw [hus]; rintro ⟨⟩) fun _ vs _ _ => ?_
    refine .bind (ih.statement vs) fun a _ _ _ ha => ?_
    refine .pure ⟨?_, ha.stop⟩
    exact .labeled (hx.name hident).2 ha.tree
      (parsed_plain ⟨trivial, trivial, trivial⟩)
  · exact ih.simpleStatement ts

lemma forStatement_takes :
    Takes (forStatement (n + 1)) ts fun s _ rest => TakenStmt s rest := by
  rw [forStatement]
  refine .expect (by decide) fun _ us _ _ _ => .bind (forEachHead_takes n us) fun o _ vs _ ho => ?_
  rcases ho with ⟨rfl, -⟩ | ⟨v, rfl, hv⟩
  · refine .bind (forInit_takes n vs) fun init _ ws _ hinit => .expect (by decide) fun _ xs _ _ _ => ?_
    refine .bind (optionalExpr_takes _ n xs) fun c _ ys _ hc => .expect (by decide) fun _ zs _ _ _ => ?_
    have hloop : ∀ (update : List Node) (ts : List Token), (∀ e ∈ update, ExprTree Parsed false e) →
        Takes (do
          let _ ← expect rparen
          return .plain (.forLoop init c update (← statement n))) ts
            fun s _ rest => TakenStmt s rest := by
      intro update ts hu
      refine .expect (by decide) fun _ us _ _ _ => .bind (ih.statement us) fun a _ _ _ ha => ?_
      refine .pure ⟨.forLoop hinit hc hu ha.tree (parsed_plain ⟨trivial, trivial, trivial⟩), ?_⟩
      exact fun h => ha.stop (by simpa [endsOpen_mk, Node.plain, Shape.map, Shape.mapAt] using h)
    refine .ifCheck (fun _ => .look (pure_run _ _) (hloop [] zs (by simp))) fun _ => ?_
    exact .bind ((exprsTake n).exprList zs) fun es _ rest _ hes => hloop es rest hes
  · refine .bind ((exprsTake n).expr vs) fun e _ ws _ he => .expect (by decide) fun _ xs _ _ _ => ?_
    refine .bind (ih.statement xs) fun a _ _ _ ha => .pure ⟨?_, ha.stop⟩
    exact .forEach hv he.tree ha.tree (parsed_plain ⟨trivial, trivial, trivial⟩)

lemma tryStatement_takes :
    Takes (tryStatement (n + 1)) ts fun s _ rest => TakenStmt s rest := by
  rw [tryStatement]
  refine .ifCheck (fun _ => .rejectThen _) fun _ => ?_
  refine .bind (ih.block ts) fun b _ us _ hb => .bind (ih.catchClauses us) fun cs _ vs _ hcs => ?_
  have hend : ∀ (f : Option Node) (ts : List Token), (∀ b ∈ f, StmtTree Parsed false b) →
      (∀ b ∈ f, isBlock b = true) → Takes (do
        if cs.isEmpty && f.isNone then reject .expectedHandler
        return .plain (.tryStmt b cs f)) ts fun s _ rest => TakenStmt s rest := by
    intro f ts hf hblocks
    refine .ite (fun _ => .rejectThen _) fun hhandled => .pure ⟨?_, by rintro ⟨⟩⟩
    refine .tryStmt hb.1 hb.2.1 hcs hf hblocks ?_ (parsed_plain ⟨trivial, trivial, trivial⟩)
    simpa [imp_iff_not_or] using hhandled
  refine .ifAccept (by decide) (fun _ ws _ _ _ => ?_) fun _ =>
    .look (pure_run _ _) (hend none vs (by simp) (by simp))
  refine .bind (.map (R := fun o _ _ => ∃ b, o = some b ∧ StmtTree Parsed false b ∧ isBlock b = true)
    ?_) fun o _ rest _ ho => ?_
  · exact (ih.block ws).mono fun b _ _ _ hb => ⟨b, rfl, hb.1, hb.2.1⟩
  · obtain ⟨f, rfl, hf⟩ := ho
    exact hend (some f) rest (by simpa using hf.1) (by simpa using hf.2)

lemma catchClauses_take : Takes (catchClauses (n + 1)) ts fun cs _ _ =>
    ∀ c ∈ cs, StmtTree Parsed true c := by
  rw [catchClauses]
  refine .ifAccept (by decide) (fun _ us _ _ _ => ?_) fun _ => .pure (by simp)
  refine .expect (by decide) fun _ vs _ _ _ => .bind (localModifiers_take n vs) fun mods _ ws _ hmods => ?_
  refine .bind (typeList_takes "|" n ws) fun tys _ xs _ htys => .expect (by decide) fun x ys _ hx hg => ?_
  refine .expect (by decide) fun _ zs _ _ _ => .bind (ih.block zs) fun b _ rest _ hb => ?_
  refine .bind (ih.catchClauses rest) fun cs _ _ _ hcs => .pure (List.forall_mem_cons.mpr ⟨?_, hcs⟩)
  exact .catchClause hmods.1 (hg.name hx).2 htys.1 (fun ty hty => (htys.2 ty hty).parsed) hb.1 hb.2.1
    (parsed_plain ⟨trivial, trivial, trivial⟩)

end

lemma statementsTake (n : Nat) : StatementsTake n := by
  induction n with
  | zero => constructor <;> intro ts <;> exact .exhausted
  | succ n ih =>
    constructor
    case block =>
      intro ts
      rw [block]
      refine .expect (by decide) fun _ us _ _ _ => .bind (ih.blockTail us) fun ss _ _ _ hss => ?_
      exact .pure ⟨.block hss (parsed_plain ⟨trivial, trivial, trivial⟩), rfl, rfl⟩
    case blockTail =>
      intro ts
      rw [blockTail]
      refine .ifAccept (by decide) (fun _ _ _ _ _ => .pure (by simp)) fun _ => ?_
      refine .ifCheck (fun _ => .rejectThen _) fun _ => ?_
      refine .bind (ih.statement ts) fun s _ us _ hs => .bind (ih.blockTail us) fun ss _ _ _ hss => ?_
      exact .pure (List.forall_mem_cons.mpr ⟨hs.tree, hss⟩)
    case statement =>
      intro ts
      rw [statement]
      refine .look (current_run _) (.bind (ih.bareStatement ts) fun s _ _ _ hs => .pure ?_)
      exact ⟨stmtTree_atLine hs.tree _, fun h => hs.stop (endsOpen_atLine s _ ▸ h)⟩
    case bareStatement => exact bareStatement_takes ih
    case simpleStatement => exact simpleStatement_takes n
    case forStatement => exact forStatement_takes ih
    case tryStatement => exact tryStatement_takes ih
    case catchClauses => exact catchClauses_take ih

lemma statements_take (n : Nat) (ts : List Token) :
    Takes (statements n) ts fun ss _ _ => ∀ s ∈ ss, StmtTree Parsed false s := by
  induction n generalizing ts with
  | zero => exact .exhausted
  | succ n ih =>
    rw [statements]
    refine .ifCheck (fun _ => .pure (by simp)) fun _ => ?_
    refine .bind ((statementsTake n).statement ts) fun s _ us _ hs => ?_
    exact .bind (ih us) fun ss _ _ _ hss => .pure (List.forall_mem_cons.mpr ⟨hs.tree, hss⟩)

end LoopLowering.Grammar
