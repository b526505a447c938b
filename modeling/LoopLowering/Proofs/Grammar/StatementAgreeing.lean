import LoopLowering.Proofs.Grammar.ExpressionAgreeing
import LoopLowering.Proofs.Tree.Nodes

/-! The rules for statements read the same tree up to the numbers of its lines wherever the tokens
stand. -/

namespace LoopLowering

namespace Node

/-- The tree with every number of a line replaced by zero. -/
def unnumbered : Node → Node := mapTags fun t => { t with line := t.line.map fun _ => 0 }

lemma unnumbered_mk (t : Tag) (s : Shape Node) :
    (mk t s).unnumbered = mk { t with line := t.line.map fun _ => 0 } (s.map unnumbered) := by
  rw [unnumbered, mapTags, fold_mk]

/-- Two trees are the same up to the numbers of their lines. -/
abbrev Alike (m n : Node) : Prop := m.unnumbered = n.unnumbered

lemma Alike.plain {s s' : Shape Node} (h : s.map unnumbered = s'.map unnumbered) :
    (plain s).Alike (plain s') := by
  rw [Alike, Node.plain, Node.plain, unnumbered_mk, unnumbered_mk, h]

lemma Alike.atLine {m n : Node} (h : m.Alike n) (line line' : Nat) :
    (Grammar.atLine line m).Alike (Grammar.atLine line' n) := by
  obtain ⟨t, s⟩ := m
  obtain ⟨t', s'⟩ := n
  rw [Alike, unnumbered_mk, unnumbered_mk] at h
  obtain ⟨htag, hshape⟩ := Node.mk.inj h
  rw [Alike, Grammar.atLine, Grammar.atLine, unnumbered_mk, unnumbered_mk, hshape]
  obtain ⟨hid, -, hsynthetic⟩ := Tag.mk.inj htag
  rw [hid, hsynthetic, Option.map_some, Option.map_some]

end Node

namespace Grammar

abbrev AlikeAll (ms ns : List Node) : Prop := ms.map Node.unnumbered = ns.map Node.unnumbered

lemma AlikeAll.cons {m n : Node} {ms ns : List Node} (h : m.Alike n) (hs : AlikeAll ms ns) :
    AlikeAll (m :: ms) (n :: ns) := by
  rw [AlikeAll, List.map_cons, List.map_cons, h, hs]

lemma declarators_agree {first first' : Option Token}
    (h : first.map Token.text = first'.map Token.text) (n : Nat) :
    Agree Eq (declarators first n) (declarators first' n) := by
  induction n generalizing first first' with
  | zero => exact .exhausted
  | succ n ih =>
    have hinit : ∀ decl : Node, Uniform
        (do if ← accept comma then return decl :: (← declarators none n) else return [decl]) :=
      fun decl => .ifAccept (.same (ih rfl) fun _ => .pure rfl) (.pure rfl)
    have hname : ∀ t u : Token, t.text = u.text → Agree Eq
        (do
          let d ← dims
          let init ← if ← accept (.mark "=") then some <$> initialValue n else pure none
          let decl := Node.plain (.declarator t.text d init)
          if ← accept comma then return decl :: (← declarators none n) else return [decl])
        (do
          let d ← dims
          let init ← if ← accept (.mark "=") then some <$> initialValue n else pure none
          let decl := Node.plain (.declarator u.text d init)
          if ← accept comma then return decl :: (← declarators none n) else return [decl]) := by
      intro t u htu
      rw [htu]
      refine .same dims_uniform fun d => .ifAccept ?_ (hinit _)
      exact .bindMap (exprsUniform n).initialValue fun _ _ hinits => hinits ▸ hinit _
    match first, first', h with
    | none, none, _ => exact .expect fun t u htu => hname t u htu.text
    | some t, some u, h => exact hname t u (Option.some.inj h)

lemma localVar?_uniform (n : Nat) : Uniform (localVar? n) := by
  cases n with
  | zero => exact .exhausted
  | succ n =>
    rw [localVar?]
    refine .get fun ts us hts => .same (localModifiers_uniform n) fun mods => ?_
    have hstop : Agree (Eq (α := Option Node))
        (do if mods.isEmpty then set ts; return none else reject .expectedVariable)
        (do if mods.isEmpty then set us; return none else reject .expectedVariable) :=
      .ite (.bind (.set hts) fun _ _ _ => .pure rfl) (.reject _)
    have hdecl : ∀ ty : Node, Agree (Eq (α := Option Node))
        (do
          if ← check .ident then
            return some (.plain (.localVar (Word.ofTexts mods) ty (← declarators none n)))
          if mods.isEmpty then set ts; return none else reject .expectedVariable)
        (do
          if ← check .ident then
            return some (.plain (.localVar (Word.ofTexts mods) ty (← declarators none n)))
          if mods.isEmpty then set us; return none else reject .expectedVariable) :=
      fun ty => .ifCheck (.same (declarators_agree rfl n) fun _ => .pure rfl) hstop
    refine .ifCheckAny (.ite (.attempt (typesUniform n).type fun o => ?_) ?_) hstop
    · cases o with
      | some ty => exact hdecl ty
      | none => exact hstop
    · exact .bindMap (typesUniform n).type fun ty _ hty => hty ▸ hdecl ty

lemma forEachHead_uniform (n : Nat) : Uniform (forEachHead n) := by
  cases n with
  | zero => exact .exhausted
  | succ n =>
    rw [forEachHead]
    refine .get fun ts us hts => .same (localModifiers_uniform n) fun mods => ?_
    have hgiveUp : Agree (Eq (α := Option Node)) (do set ts; return none) (do set us; return none) :=
      .bind (.set hts) fun _ _ _ => .pure rfl
    refine .ifCheckAny (.attempt (typesUniform n).type fun o => ?_) hgiveUp
    cases o with
    | none => exact hgiveUp
    | some ty =>
      refine .check fun _ => .checkNext fun _ => .ite (.advance fun t u htu => ?_) hgiveUp
      rw [htu.text]
      exact .advance fun _ _ _ => .pure rfl

lemma forInit_uniform (n : Nat) : Uniform (forInit n) := by
  cases n with
  | zero => exact .exhausted
  | succ n =>
    rw [forInit]
    refine .ifCheck (.pure rfl) (.same (localVar?_uniform n) fun o => ?_)
    cases o with
    | some d => exact .pure rfl
    | none => exact (exprsUniform n).exprList

lemma optionalExpr_uniform (stop : TokenKind) (n : Nat) : Uniform (optionalExpr stop n) := by
  rw [optionalExpr]
  exact .ifCheck (.pure rfl) (.map (exprsUniform n).expr fun _ _ h => congrArg some h)

lemma jumpLabel_uniform : Uniform jumpLabel := by
  rw [jumpLabel]
  refine .ifCheck (.advance fun t u htu => ?_) (.pure rfl)
  rw [htu.text]
  exact .pure rfl

structure StmtsAgree (n : Nat) : Prop where
  block : Agree Node.Alike (block n) (block n)
  blockTail : Agree AlikeAll (blockTail n) (blockTail n)
  statement : Agree Node.Alike (statement n) (statement n)
  bareStatement : Agree Node.Alike (bareStatement n) (bareStatement n)
  simpleStatement : Agree Node.Alike (simpleStatement n) (simpleStatement n)
  forStatement : Agree Node.Alike (forStatement n) (forStatement n)
  tryStatement : Agree Node.Alike (tryStatement n) (tryStatement n)
  catchClauses : Agree AlikeAll (catchClauses n) (catchClauses n)

section

variable {n : Nat} (ih : StmtsAgree n)
include ih

lemma bareStatement_agree : Agree Node.Alike (bareStatement (n + 1)) (bareStatement (n + 1)) := by
  rw [bareStatement]
  refine .current fun t u htu => ?_
  rw [htu.kind]
  split
  · exact ih.block
  · exact .advance fun _ _ _ => .pure rfl
  · refine .advance fun _ _ _ => .same (exprsUniform n).parenthesized fun c => ?_
    refine .bind ih.statement fun a a' ha => .ifAccept ?_ ?_
    · refine .bindMap ih.statement fun b b' hb => .pure (.plain ?_)
      simp only [Shape.map, Shape.mapAt, Option.map_some, ha, hb]
    · exact .pure (.plain (by simp only [Shape.map, Shape.mapAt, ha]))
  · refine .advance fun _ _ _ => .same (exprsUniform n).parenthesized fun c => ?_
    refine .bind ih.statement fun a a' ha => .pure (.plain ?_)
    simp only [Shape.map, Shape.mapAt, ha]
  · refine .advance fun _ _ _ => .bind ih.statement fun a a' ha => .expect fun _ _ _ => ?_
    refine .same (exprsUniform n).parenthesized fun c => .expect fun _ _ _ => .pure (.plain ?_)
    simp only [Shape.map, Shape.mapAt, ha]
  · exact .advance fun _ _ _ => ih.forStatement
  · exact .advance fun _ _ _ => .same (optionalExpr_uniform semicolon n) fun _ =>
      .expect fun _ _ _ => .pure rfl
  · exact .advance fun _ _ _ => .same jumpLabel_uniform fun _ => .expect fun _ _ _ => .pure rfl
  · exact .advance fun _ _ _ => .same jumpLabel_uniform fun _ => .expect fun _ _ _ => .pure rfl
  · exact .advance fun _ _ _ => .same (exprsUniform n).expr fun _ => .expect fun _ _ _ => .pure rfl
  · exact .advance fun _ _ _ => ih.tryStatement
  · exact .ite (.reject _) ih.simpleStatement
  · refine .checkNext fun _ => .ite (.advance fun l l' hl => .advance fun _ _ _ => ?_)
      ih.simpleStatement
    refine .bind ih.statement fun a a' ha => .pure (.plain ?_)
    simp only [Shape.map, Shape.mapAt, ha, hl.text]
  · exact ih.simpleStatement

omit ih in
lemma simpleStatement_agree :
    Agree Node.Alike (simpleStatement (n + 1)) (simpleStatement (n + 1)) := by
  rw [simpleStatement]
  have hend : ∀ s : Node, Agree Node.Alike (do let _ ← expect semicolon; return s)
      (do let _ ← expect semicolon; return s) :=
    fun s => .expect fun _ _ _ => .pure rfl
  refine .same (localVar?_uniform n) fun o => ?_
  cases o with
  | some d => exact hend d
  | none => exact .same (exprsUniform n).expr fun e => hend (.plain (.exprStmt e))

lemma forStatement_agree : Agree Node.Alike (forStatement (n + 1)) (forStatement (n + 1)) := by
  rw [forStatement]
  refine .expect fun _ _ _ => .same (forEachHead_uniform n) fun o => ?_
  cases o with
  | some v =>
    refine .same (exprsUniform n).expr fun _ => .expect fun _ _ _ => ?_
    refine .bind ih.statement fun a a' ha => .pure (.plain ?_)
    simp only [Shape.map, Shape.mapAt, ha]
  | none =>
    refine .same (forInit_uniform n) fun start => .expect fun _ _ _ => ?_
    refine .same (optionalExpr_uniform semicolon n) fun cond => .expect fun _ _ _ => ?_
    have hbody : ∀ update : List Node, Agree Node.Alike
        (do let _ ← expect rparen; return Node.plain (.forLoop start cond update (← statement n)))
        (do let _ ← expect rparen; return Node.plain (.forLoop start cond update (← statement n))) := by
      refine fun update => .expect fun _ _ _ => .bind ih.statement fun a a' ha => .pure (.plain ?_)
      simp only [Shape.map, Shape.mapAt, ha]
    exact .ifCheck (hbody []) (.same (exprsUniform n).exprList hbody)

lemma tryStatement_agree : Agree Node.Alike (tryStatement (n + 1)) (tryStatement (n + 1)) := by
  rw [tryStatement]
  refine .ifCheck (.rejectThen _) (.bind ih.block fun b b' hb => .bind ih.catchClauses fun cs cs' hcs => ?_)
  have hempty : cs.isEmpty = cs'.isEmpty := by
    rw [← List.isEmpty_map (f := Node.unnumbered), hcs, List.isEmpty_map]
  rw [hempty]
  refine .ifAccept ?_ ?_
  · refine .bindMap ih.block fun f f' hf => .ite (.rejectThen _) (.pure (.plain ?_))
    simp only [Shape.map, Shape.mapAt, mapIdx_const, Option.map_some, hb, hcs, hf]
  · refine .ite (.rejectThen _) (.pure (.plain ?_))
    simp only [Shape.map, Shape.mapAt, mapIdx_const, hb, hcs]

lemma catchClauses_agree : Agree AlikeAll (catchClauses (n + 1)) (catchClauses (n + 1)) := by
  rw [catchClauses]
  refine .ifAccept (.expect fun _ _ _ => .same (localModifiers_uniform n) fun mods => ?_) (.pure rfl)
  refine .same (typeList_uniform (.mark "|") n) fun types => .expect fun x x' hx => ?_
  refine .expect fun _ _ _ => .bind ih.block fun b b' hb => .bind ih.catchClauses fun cs cs' hcs => ?_
  refine .pure (.cons (.plain ?_) hcs)
  simp only [Shape.map, Shape.mapAt, hb, hx.text]

end

lemma stmtsAgree (n : Nat) : StmtsAgree n := by
  induction n with
  | zero => constructor <;> exact .exhausted
  | succ n ih =>
    constructor
    case block =>
      rw [block]
      refine .expect fun _ _ _ => .bind ih.blockTail fun ss ss' hss => .pure (.plain ?_)
      simp only [Shape.map, Shape.mapAt, mapIdx_const, hss]
    case blockTail =>
      rw [blockTail]
      refine .ifAccept (.pure rfl) (.ifCheck (.rejectThen _) ?_)
      exact .bind ih.statement fun s s' hs => .bind ih.blockTail fun ss ss' hss => .pure (.cons hs hss)
    case statement =>
      rw [statement]
      exact .current fun t u _ => .bind ih.bareStatement fun s s' hs => .pure (hs.atLine _ _)
    case bareStatement => exact bareStatement_agree ih
    case simpleStatement => exact simpleStatement_agree
    case forStatement => exact forStatement_agree ih
    case tryStatement => exact tryStatement_agree ih
    case catchClauses => exact catchClauses_agree ih

lemma statements_agree (n : Nat) : Agree AlikeAll (statements n) (statements n) := by
  induction n with
  | zero => exact .exhausted
  | succ n ih =>
    rw [statements]
    refine .ifCheck (.pure rfl) (.bind (stmtsAgree n).statement fun s s' hs => ?_)
    exact .bind ih fun ss ss' hss => .pure (.cons hs hss)

end Grammar

end LoopLowering
