import LoopLowering.Proofs.Grammar.StatementTrees

/-! What the rules for classes, their members and compilation units read, and with it all that is
known of a tree that was read from a text. -/

namespace LoopLowering

namespace Grammar

open Layout

lemma typeParam_takes (n : Nat) (ts : List Token) :
    Takes (typeParam n) ts fun w _ _ => IsTypeParam (.text w) := by
  rw [typeParam]
  refine .expect (by decide) fun x us _ hx hg => .ifAccept (by decide) (fun _ vs _ _ _ => ?_)
    fun _ => .pure ⟨x.text, [], (hg.name hx).2, by simp, rfl⟩
  refine .bind (typeList_takes "&" n vs) fun bounds _ _ _ hb => .pure ?_
  refine ⟨x.text, bounds, (hg.name hx).2, fun b hmem => (hb.2 b hmem).mono fun _ _ _ => trivial, ?_⟩
  simp [typeParamSource, hb.1]

lemma typeParamList_takes (n : Nat) (ts : List Token) :
    Takes (typeParamList n) ts fun ws _ _ => ∀ w ∈ Word.ofTexts ws, IsTypeParam w := by
  induction n generalizing ts with
  | zero => exact .exhausted
  | succ n ih =>
    rw [typeParamList]
    refine .bind (typeParam_takes n ts) fun w _ us _ hw => .ifAccept (by decide)
      (fun _ vs _ _ _ => ?_) fun _ => .pure (forall_ofTexts_cons hw (by simp [Word.ofTexts]))
    exact .bind (ih vs) fun ws _ _ _ hws => .pure (forall_ofTexts_cons hw hws)

lemma typeParams_take (n : Nat) (ts : List Token) :
    Takes (typeParams n) ts fun ws _ _ => ∀ w ∈ Word.ofTexts ws, IsTypeParam w := by
  rw [typeParams]
  refine .ifAccept (by decide) (fun _ us _ _ _ => ?_) fun _ => .pure (by simp [Word.ofTexts])
  refine .bind (typeParamList_takes n us) fun ws _ vs _ hws => ?_
  exact .expect (by decide) fun _ _ _ _ _ => .pure hws

lemma typeTree_addDims {ty : Node} (h : TypeTree TypeNode false ty) (d : Nat) :
    TypeTree TypeNode false (addDims d ty) := by
  cases h with
  | primitive name here => exact .primitive name (here.1 ▸ typeNode_typeRef _ _ _)
  | named name here => exact .named name (here.1 ▸ typeNode_typeRef _ _ _)
  | generic name args here => exact .generic name args (here.1 ▸ typeNode_typeRef _ _ _)

lemma paramList_takes (n : Nat) (ts : List Token) :
    Takes (paramList n) ts fun ps _ _ => ∀ p ∈ ps, ParamTree Parsed p := by
  induction n generalizing ts with
  | zero => exact .exhausted
  | succ n ih =>
    rw [paramList]
    refine .bind (modifiers_take n ts) fun mods _ us _ hmods => ?_
    refine .bind ((typesTake n).type us) fun ty _ vs _ hty => ?_
    refine .bind (accept_takes (by decide) vs) fun varargs _ ws _ _ => ?_
    refine .expect (by decide) fun x xs _ hx hg => .bind (dims_takes xs) fun d _ ys _ _ => ?_
    have hparam : ParamTree Parsed
        (.plain (.parameter (Word.ofTexts mods) x.text varargs (addDims d ty))) :=
      .mk hmods (hg.name hx).2 (typeTree_addDims hty.tree d).parsed
        (parsed_plain ⟨trivial, trivial, trivial⟩)
    refine .ifAccept (by decide) (fun _ zs _ _ _ => ?_) fun _ => .pure (by simpa using hparam)
    exact .bind (ih zs) fun ps _ _ _ hps => .pure (List.forall_mem_cons.mpr ⟨hparam, hps⟩)

lemma params_take (n : Nat) (ts : List Token) :
    Takes (params n) ts fun ps _ _ => ∀ p ∈ ps, ParamTree Parsed p := by
  rw [params]
  refine .expect (by decide) fun _ us _ _ _ => .ifAccept (by decide)
    (fun _ _ _ _ _ => .pure (by simp)) fun _ => .bind (paramList_takes n us) fun ps _ _ _ hps => ?_
  exact .expect (by decide) fun _ _ _ _ _ => .pure hps

lemma typesAfter_takes (w : String) (n : Nat) (ts : List Token) :
    Takes (typesAfter w n) ts fun tys _ _ => ∀ ty ∈ tys, TypeTree Parsed false ty := by
  rw [typesAfter]
  refine .ifAccept (by simp) (fun _ us _ _ _ => ?_) fun _ => .pure (by simp)
  exact (typeList_takes "," n us).mono fun tys _ _ _ h ty hty => (h.2 ty hty).parsed

lemma method_takes (n : Nat) {mods tps : List String} {ty : Node} {x c : String}
    (hmods : ∀ w ∈ Word.ofTexts mods, IsModifier modifierNames w)
    (htps : ∀ w ∈ Word.ofTexts tps, IsTypeParam w)
    (hty : ∀ d, ResultTree Parsed (addDims d ty)) (hx : Token.IsName x) (ts : List Token) :
    Takes (method n mods tps ty x) ts fun m _ _ => MemberTree Parsed c m := by
  rw [method]
  refine .bind (params_take n ts) fun ps _ us _ hps => .bind (dims_takes us) fun d _ vs _ _ => ?_
  refine .bind (typesAfter_takes "throws" n vs) fun ths _ ws _ hths => ?_
  have hbody : ∀ o : Option Node, (∀ b ∈ o, StmtTree Parsed false b) →
      (∀ b ∈ o, isBlock b = true) → MemberTree Parsed c (.plain (.methodDecl (Word.ofTexts mods)
        (Word.ofTexts tps) x (addDims d ty) ps ths o)) :=
    fun o ho hblocks => .methodDecl hmods htps hx (hty d) hps hths ho hblocks
      (parsed_plain ⟨trivial, trivial, trivial⟩)
  refine .ifAccept (by decide) (fun _ xs _ _ _ => .look (pure_run _ _) (.pure ?_)) fun _ => ?_
  · exact hbody none (by simp) (by simp)
  · refine .bind (.map (R := fun o _ _ => ∃ b, o = some b ∧ StmtTree Parsed false b ∧
      isBlock b = true) ?_) fun o _ rest _ ho => ?_
    · exact ((statementsTake n).block ws).mono fun b _ _ _ hb => ⟨b, rfl, hb.1, hb.2.1⟩
    · obtain ⟨b, rfl, hb, hblock⟩ := ho
      exact .pure (hbody (some b) (by simpa using hb) (by simpa using hblock))

lemma plainMember_takes (n : Nat) (c : String) {mods : List String}
    (hmods : ∀ w ∈ Word.ofTexts mods, IsModifier modifierNames w) (ts : List Token) :
    Takes (plainMember n c mods) ts fun m _ _ => MemberTree Parsed c m := by
  rw [plainMember]
  refine .bind (typeParams_take n ts) fun tps _ us _ htps => .look (current_run _) ?_
  refine .look (checkNext_run _ _) (.ite (fun hhead => ?_) fun _ => ?_)
  · simp only [Bool.and_eq_true, decide_eq_true_eq] at hhead
    obtain ⟨⟨hident, htext⟩, -⟩ := hhead
    refine .advance (by rw [headKind, hident]; rintro ⟨⟩) fun x vs hus hg => ?_
    obtain rfl : tokenAt us 0 = x := by rw [hus]; rfl
    refine .bind (params_take n vs) fun ps _ ws _ hps => ?_
    refine .bind (typesAfter_takes "throws" n ws) fun ths _ xs _ hths => ?_
    refine .bind ((statementsTake n).block xs) fun b _ _ _ hb => .pure ?_
    rw [htext]
    exact .constructorDecl hmods (htext ▸ (hg.name hident).2) hps hths hb.1 hb.2.1
      (parsed_plain ⟨trivial, trivial, trivial⟩)
  · have hrest : ∀ (ty : Node) (ts : List Token), (∀ d, ResultTree Parsed (addDims d ty)) →
        ResultTree Parsed ty → (isVoid ty = true → ty.dims = 0) → Takes (do
          let name ← expect .ident
          if ← check lparen then method n mods tps ty name.text
          else
            let ds ← declarators (some name) n
            let _ ← expect semicolon
            return .plain (.fieldDecl (Word.ofTexts mods) ty ds)) ts
              fun m _ _ => MemberTree Parsed c m := by
      intro ty ts hdims hty hvoid
      refine .expect (by decide) fun x vs _ hx hg => .ifCheck (fun _ => ?_) fun _ => ?_
      · exact method_takes n hmods htps hdims (hg.name hx).2 vs
      · refine .bind (declarators_take (some x) (by simpa using ⟨hg, hx⟩) n vs)
          fun ds _ ws _ hds => .expect (by decide) fun _ _ _ _ _ => .pure ?_
        exact .fieldDecl hmods hty hvoid hds.1 hds.2 (parsed_plain ⟨trivial, trivial, trivial⟩)
    refine .ifAccept (by decide) (fun _ vs _ _ _ => .look (pure_run _ _) (hrest _ vs ?_ ?_ ?_))
      fun _ => .bind ((typesTake n).type us) fun ty _ vs _ hty => hrest ty vs ?_ ?_ ?_
    · exact fun d => .void (parsed_plain ⟨trivial, trivial, trivial⟩)
    · exact .void (parsed_plain ⟨trivial, trivial, trivial⟩)
    · exact fun _ => rfl
    · exact fun d => .value (typeTree_addDims hty.tree d).parsed
    · exact .value hty.tree.parsed
    · exact fun h => absurd h (not_isVoid hty.tree)

structure DeclarationsTake (n : Nat) : Prop where
  typeDecl {mods : List String} (c : String) (ts : List Token) :
    (∀ w ∈ Word.ofTexts mods, IsModifier modifierNames w) →
      Takes (typeDecl n mods) ts fun m _ _ => MemberTree Parsed c m ∧ isClass m = true
  memberTail (c : String) (ts : List Token) :
    Takes (memberTail n c) ts fun ms _ _ => ∀ m ∈ ms, MemberTree Parsed c m
  member (c : String) (ts : List Token) :
    Takes (member n c) ts fun m _ _ => MemberTree Parsed c m

lemma declarationsTake (n : Nat) : DeclarationsTake n := by
  induction n with
  | zero => constructor <;> intros <;> exact .exhausted
  | succ n ih =>
    constructor
    case typeDecl =>
      intro mods c ts hmods
      rw [typeDecl]
      refine .ifCheckAny (fun hword => ?_) fun _ => .reject _
      obtain ⟨k, hk, hkind⟩ := List.mem_map (f := TokenKind.word) (l := ["class", "interface"]).mp hword
      refine .advance (by rw [← hkind]; nofun) fun t us hts ht => ?_
      obtain ⟨-, htext, -⟩ := ht.word (w := k) (by rw [hkind, hts]; rfl)
      refine .expect (by decide) fun x vs _ hx hg => .bind (typeParams_take n vs) fun tps _ ws _ htps => ?_
      refine .bind (typesAfter_takes "extends" n ws) fun exts _ xs _ hexts => ?_
      refine .bind (typesAfter_takes "implements" n xs) fun imps _ ys _ himps => ?_
      refine .expect (by decide) fun _ zs _ _ _ => .bind (ih.memberTail x.text zs) fun ms _ _ _ hms => ?_
      refine .pure ⟨.classDecl hmods (htext ▸ hk) (hg.name hx).2 htps hexts himps hms ?_, rfl⟩
      exact parsed_plain ⟨trivial, trivial, trivial⟩
    case memberTail =>
      intro c ts
      rw [memberTail]
      refine .ifAccept (by decide) (fun _ _ _ _ _ => .pure (by simp)) fun _ => ?_
      refine .ifCheck (fun _ => .rejectThen _) fun _ => ?_
      refine .ifAccept (by decide) (fun _ us _ _ _ => ih.memberTail c us) fun _ => ?_
      refine .bind (ih.member c ts) fun m _ us _ hm => .bind (ih.memberTail c us) fun ms _ _ _ hms => ?_
      exact .pure (List.forall_mem_cons.mpr ⟨hm, hms⟩)
    case member =>
      intro c ts
      rw [member]
      refine .bind (modifiers_take n ts) fun mods _ us _ hmods => ?_
      refine .ifCheckAny (fun _ => ?_) fun _ => .ifCheck (fun _ => ?_) fun _ =>
        plainMember_takes n c hmods us
      · exact (ih.typeDecl c us hmods).mono fun m _ _ _ hm => hm.1
      · refine .bind ((statementsTake n).block us) fun b _ _ _ hb => .pure ?_
        exact .initBlock hb.1 hb.2.1 (parsed_plain ⟨trivial, trivial, trivial⟩)

lemma importDecl_takes (ts : List Token) : Takes importDecl ts fun i _ _ => ImportTree Parsed i := by
  rw [importDecl]
  refine .bind (accept_takes (by decide) ts) fun isStatic _ us _ _ => ?_
  refine .bind (qualifiedName_takes us) fun x _ vs _ hx => ?_
  have himport : ∀ asterisk, ImportTree Parsed (.plain (.importDecl x isStatic asterisk)) :=
    fun _ => .mk hx.1 (parsed_plain ⟨trivial, trivial, trivial⟩)
  refine .bind (accept_takes (by decide) vs) fun asterisk _ ws _ _ => .ite (fun _ => ?_) fun _ => ?_
  · refine .expect (by decide) fun _ _ _ _ _ => .expect (by decide) fun _ _ _ _ _ => ?_
    exact .pure (himport _)
  · exact .expect (by decide) fun _ _ _ _ _ => .pure (himport _)

lemma imports_take (n : Nat) (ts : List Token) :
    Takes (imports n) ts fun is _ _ => ∀ i ∈ is, ImportTree Parsed i := by
  induction n generalizing ts with
  | zero => exact .exhausted
  | succ n ih =>
    rw [imports]
    refine .ifAccept (by decide) (fun _ us _ _ _ => ?_) fun _ => .pure (by simp)
    refine .bind (importDecl_takes us) fun i _ vs _ hi => .bind (ih vs) fun is _ _ _ his => ?_
    exact .pure (List.forall_mem_cons.mpr ⟨hi, his⟩)

lemma typeDecls_take (n : Nat) (ts : List Token) : Takes (typeDecls n) ts fun ds _ _ =>
    ∀ d ∈ ds, MemberTree Parsed "" d ∧ isClass d = true := by
  induction n generalizing ts with
  | zero => exact .exhausted
  | succ n ih =>
    rw [typeDecls]
    refine .ifCheck (fun _ => .pure (by simp)) fun _ => .ifAccept (by decide)
      (fun _ us _ _ _ => ih us) fun _ => .bind (modifiers_take n ts) fun mods _ us _ hmods => ?_
    refine .bind ((declarationsTake n).typeDecl "" us hmods) fun d _ vs _ hd => ?_
    exact .bind (ih vs) fun ds _ _ _ hds => .pure (List.forall_mem_cons.mpr ⟨hd, hds⟩)

lemma packageDecl_takes (ts : List Token) :
    Takes packageDecl ts fun o _ _ => ∀ x ∈ o, IsQualified x := by
  rw [packageDecl]
  refine .ifAccept (by decide) (fun _ us _ _ _ => ?_) fun _ => .pure (by simp)
  refine .bind (qualifiedName_takes us) fun x _ vs _ hx => ?_
  exact .expect (by decide) fun _ _ _ _ _ => .pure (by simpa using hx.1)

lemma compilationUnit_takes (n : Nat) (ts : List Token) :
    Takes (compilationUnit n) ts fun u _ _ => UnitTree Parsed u := by
  rw [compilationUnit]
  refine .bind (packageDecl_takes ts) fun p _ us _ hp => .bind (imports_take n us) fun is _ vs _ his => ?_
  refine .bind (typeDecls_take n vs) fun ds _ _ _ hds => .pure ?_
  exact .mk hp his (fun d hd => (hds d hd).1) (fun d hd => (hds d hd).2)
    (parsed_plain ⟨trivial, trivial, trivial⟩)

def TreeOf : TextKind → Node → Prop
  | .unit => UnitTree Parsed
  | .statement | .statements => StmtTree Parsed false
  | .expression => ExprTree Parsed false

lemma rule_takes (k : TextKind) (n : Nat) (ts : List Token) :
    Takes (rule k n) ts fun t _ _ => TreeOf k t := by
  cases k with
  | unit => exact compilationUnit_takes n ts
  | statement => exact ((statementsTake n).statement ts).mono fun s _ _ _ hs => hs.tree
  | statements =>
    refine .bind (statements_take n ts) fun ss _ _ _ hss => .pure ?_
    exact .block hss (parsed_plain ⟨trivial, trivial, trivial⟩)
  | expression => exact ((exprsTake n).expr ts).mono fun e _ _ _ he => he.tree

end Grammar

theorem treeOf_parse {k : TextKind} {source : String} {t : Node} (h : parse k source = .ok t) :
    Grammar.TreeOf k t := by
  simp only [parse, bind, Except.bind] at h
  split at h
  · cases h
  · rename_i ts hts
    have hgenuine : Genuine (Grammar.closed source ts) := by
      refine List.forall_mem_append.mpr ⟨genuine_of_tokenize hts, ?_⟩
      exact List.forall_mem_singleton.mpr trivial
    split at h
    · rename_i u rest hu
      obtain rfl := Except.ok.inj h
      have hwhole : Grammar.Takes (Grammar.whole k (Grammar.nesting (Grammar.closed source ts)))
          (Grammar.closed source ts) fun t _ _ => Grammar.TreeOf k t := by
        refine .bind (Grammar.rule_takes k _ _) fun t _ us _ ht => ?_
        exact .ifCheck (fun _ => .pure ht) fun _ => .reject _
      obtain ⟨-, -, htree⟩ := hwhole hgenuine u rest hu
      exact htree
    · cases h

end LoopLowering
