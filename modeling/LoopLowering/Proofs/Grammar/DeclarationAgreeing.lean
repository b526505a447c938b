import LoopLowering.Proofs.Grammar.StatementAgreeing

/-! The rules for declarations and whole texts read the same tree up to the numbers of its lines
wherever the tokens stand. -/

namespace LoopLowering.Grammar

lemma typeParam_uniform (n : Nat) : Uniform (typeParam n) := by
  rw [typeParam]
  refine .expect fun t u htu => ?_
  rw [htu.text]
  exact .ifAccept (.same (typeList_uniform _ n) fun _ => .pure rfl) (.pure rfl)

lemma typeParamList_uniform (n : Nat) : Uniform (typeParamList n) := by
  induction n with
  | zero => exact .exhausted
  | succ n ih =>
    rw [typeParamList]
    exact .same (typeParam_uniform n) fun _ => .ifAccept (.same ih fun _ => .pure rfl) (.pure rfl)

lemma typeParams_uniform (n : Nat) : Uniform (typeParams n) := by
  rw [typeParams]
  refine .ifAccept (.same (typeParamList_uniform n) fun _ => ?_) (.pure rfl)
  exact .expect fun _ _ _ => .pure rfl

lemma paramList_uniform (n : Nat) : Uniform (paramList n) := by
  induction n with
  | zero => exact .exhausted
  | succ n ih =>
    rw [paramList]
    refine .same (modifiers_uniform n) fun _ => .same (typesUniform n).type fun _ => ?_
    refine .accept fun _ => .expect fun t u htu => .same dims_uniform fun _ => ?_
    rw [htu.text]
    exact .ifAccept (.same ih fun _ => .pure rfl) (.pure rfl)

lemma params_uniform (n : Nat) : Uniform (params n) := by
  rw [params]
  refine .expect fun _ _ _ => .ifAccept (.pure rfl) (.same (paramList_uniform n) fun _ => ?_)
  exact .expect fun _ _ _ => .pure rfl

lemma typesAfter_uniform (w : String) (n : Nat) : Uniform (typesAfter w n) := by
  rw [typesAfter]
  exact .ifAccept (typeList_uniform comma n) (.pure rfl)

lemma method_agree (n : Nat) (mods typeParams : List String) (t : Node) (name : String) :
    Agree Node.Alike (method n mods typeParams t name) (method n mods typeParams t name) := by
  rw [method]
  refine .same (params_uniform n) fun ps => .same dims_uniform fun d => ?_
  refine .same (typesAfter_uniform "throws" n) fun throws => .ifAccept (.pure (.plain rfl)) ?_
  refine .bindMap (stmtsAgree n).block fun b b' hb => .pure (.plain ?_)
  simp only [Shape.map, Shape.mapAt, mapIdx_const, Option.map_some, hb]

lemma plainMember_agree (n : Nat) (className : String) (mods : List String) :
    Agree Node.Alike (plainMember n className mods) (plainMember n className mods) := by
  rw [plainMember]
  refine .same (typeParams_uniform n) fun tps => .current fun first first' hfirst => ?_
  rw [hfirst.kind, hfirst.text]
  refine .checkNext fun _ => .ite (.advance fun x x' hx => ?_) ?_
  · refine .same (params_uniform n) fun ps => .same (typesAfter_uniform "throws" n) fun throws => ?_
    refine .bind (stmtsAgree n).block fun b b' hb => .pure (.plain ?_)
    simp only [Shape.map, Shape.mapAt, mapIdx_const, hb, hx.text]
  · have hname : ∀ t : Node, Agree Node.Alike
        (do
          let name ← expect .ident
          if ← check lparen then method n mods tps t name.text
          else
            let ds ← declarators (some name) n
            let _ ← expect semicolon
            return .plain (.fieldDecl (Word.ofTexts mods) t ds))
        (do
          let name ← expect .ident
          if ← check lparen then method n mods tps t name.text
          else
            let ds ← declarators (some name) n
            let _ ← expect semicolon
            return .plain (.fieldDecl (Word.ofTexts mods) t ds)) := by
      refine fun t => .expect fun x x' hx => .ifCheck ?_ ?_
      · rw [hx.text]
        exact method_agree n mods tps t _
      · have hfirst : (some x).map Token.text = (some x').map Token.text := congrArg some hx.text
        refine .bind (declarators_agree hfirst n) fun ds ds' hds => ?_
        refine .expect fun _ _ _ => .pure ?_
        rw [hds]
    exact .ifAccept (hname _) (.same (typesUniform n).type hname)

structure MembersAgree (n : Nat) : Prop where
  typeDecl (mods : List String) : Agree Node.Alike (typeDecl n mods) (typeDecl n mods)
  memberTail (className : String) : Agree AlikeAll (memberTail n className) (memberTail n className)
  member (className : String) : Agree Node.Alike (member n className) (member n className)

lemma membersAgree (n : Nat) : MembersAgree n := by
  induction n with
  | zero => constructor <;> intros <;> exact .exhausted
  | succ n ih =>
    constructor
    case typeDecl =>
      intro mods
      rw [typeDecl]
      refine .ifCheckAny (.advance fun k k' hk => .expect fun x x' hx => ?_) (.reject _)
      refine .same (typeParams_uniform n) fun tps => .same (typesAfter_uniform "extends" n) fun es => ?_
      refine .same (typesAfter_uniform "implements" n) fun is => .expect fun _ _ _ => ?_
      rw [hx.text, hk.text]
      refine .bind (ih.memberTail _) fun ms ms' hms => .pure (.plain ?_)
      simp only [Shape.map, Shape.mapAt, mapIdx_const, hms]
    case memberTail =>
      intro className
      rw [memberTail]
      refine .ifAccept (.pure rfl) (.ifCheck (.rejectThen _) (.ifAccept (ih.memberTail _) ?_))
      refine .bind (ih.member _) fun m m' hm => .bind (ih.memberTail _) fun ms ms' hms => ?_
      exact .pure (.cons hm hms)
    case member =>
      intro className
      rw [member]
      refine .same (modifiers_uniform n) fun mods => .ifCheckAny (ih.typeDecl mods) (.ifCheck ?_ ?_)
      · refine .bind (stmtsAgree n).block fun b b' hb => .pure (.plain ?_)
        simp only [Shape.map, Shape.mapAt, hb]
      · exact plainMember_agree n className mods

lemma importDecl_uniform : Uniform importDecl := by
  rw [importDecl]
  refine .accept fun isStatic => .same qualifiedName_uniform fun name => .accept fun asterisk => ?_
  have hend : Uniform (do
      let _ ← expect semicolon
      return Node.plain (.importDecl name isStatic asterisk)) := .expect fun _ _ _ => .pure rfl
  exact .ite (.expect fun _ _ _ => hend) hend

lemma imports_uniform (n : Nat) : Uniform (imports n) := by
  induction n with
  | zero => exact .exhausted
  | succ n ih =>
    rw [imports]
    exact .ifAccept (.same importDecl_uniform fun _ => .same ih fun _ => .pure rfl) (.pure rfl)

lemma typeDecls_agree (n : Nat) : Agree AlikeAll (typeDecls n) (typeDecls n) := by
  induction n with
  | zero => exact .exhausted
  | succ n ih =>
    rw [typeDecls]
    refine .ifCheck (.pure rfl) (.ifAccept ih (.same (modifiers_uniform n) fun mods => ?_))
    refine .bind ((membersAgree n).typeDecl mods) fun d d' hd => .bind ih fun ds ds' hds => ?_
    exact .pure (.cons hd hds)

lemma packageDecl_uniform : Uniform packageDecl := by
  rw [packageDecl]
  refine .ifAccept (.same qualifiedName_uniform fun _ => ?_) (.pure rfl)
  exact .expect fun _ _ _ => .pure rfl

lemma rule_agree (k : TextKind) (n : Nat) : Agree Node.Alike (rule k n) (rule k n) := by
  cases k with
  | unit =>
    refine .same packageDecl_uniform fun p => .same (imports_uniform n) fun is => ?_
    refine .bind (typeDecls_agree n) fun ds ds' hds => .pure (.plain ?_)
    simp only [Shape.map, Shape.mapAt, mapIdx_const, hds]
  | statement => exact (stmtsAgree n).statement
  | statements =>
    refine .bind (statements_agree n) fun ss ss' hss => .pure (.plain ?_)
    simp only [Shape.map, Shape.mapAt, mapIdx_const, hss]
  | expression =>
    exact (exprsUniform n).expr.mono fun _ _ h => congrArg Node.unnumbered h

lemma whole_agree (k : TextKind) (n : Nat) : Agree Node.Alike (whole k n) (whole k n) := by
  rw [whole]
  exact .bind (rule_agree k n) fun t t' ht => .ifCheck (.pure ht) (.reject _)

end LoopLowering.Grammar
