import LoopLowering.Grammar.Entry
import LoopLowering.Proofs.Grammar.StatementDeciding

/-! The rules for declarations and for whole texts decide the tokens of a text. -/

namespace LoopLowering.Grammar

variable {beyond : List Token}

lemma typeParam_decides (n : Nat) : Decisive beyond 1 1 n typeParam := by
  intro ts m hn hm
  rw [typeParam, typeParam]
  refine .expect (by decide) fun name us hus => .ifAccept (by decide) (fun vs hvs => ?_) fun _ =>
    .pure _ (by omega)
  exact .bind (typeList_decides (by decide) n vs m (by omega) hm) fun bs left _ => .pure _ (by omega)

lemma typeParamList_decides (n : Nat) : Decisive beyond 0 2 n typeParamList := by
  induction n with
  | zero => exact .zero (by omega)
  | succ n ih =>
    refine .succ fun ts m hn hm => ?_
    rw [typeParamList, typeParamList]
    refine .bind (typeParam_decides n ts m (by omega) hm) fun p us hus => .ifAccept (by decide)
      (fun vs hvs => ?_) fun _ => .pure _ (by omega)
    exact .bind (ih vs m (by omega) hm) fun ps left _ => .pure _ (by omega)

lemma typeParams_decide (n : Nat) : Decisive beyond 0 1 n typeParams := by
  intro ts m hn hm
  rw [typeParams, typeParams]
  refine .ifAccept (by decide) (fun us hus => ?_) fun _ => .pure _ (by omega)
  refine .bind (typeParamList_decides n us m (by omega) hm) fun ps vs hvs => ?_
  exact .expect (by decide) fun _ left _ => .pure _ (by omega)

lemma paramList_decides (n : Nat) : Decisive beyond 0 9 n paramList := by
  induction n with
  | zero => exact .zero (by omega)
  | succ n ih =>
    refine .succ fun ts m hn hm => ?_
    rw [paramList, paramList]
    refine .bind (modifiers_decide n ts m (by omega) hm) fun mods us hus => ?_
    refine .bind ((typesDecide n).type us m (by omega) hm) fun ty vs hvs => ?_
    have hname : ∀ (varargs : Bool) (ws : List Token), ws.length ≤ vs.length → Decides beyond ts ws
        (do
          let name ← expect .ident
          let t := addDims (← dims) ty
          let p := Node.plain (.parameter (Word.ofTexts mods) name.text varargs t)
          if ← accept comma then return p :: (← paramList n) else return [p])
        (do
          let name ← expect .ident
          let t := addDims (← dims) ty
          let p := Node.plain (.parameter (Word.ofTexts mods) name.text varargs t)
          if ← accept comma then return p :: (← paramList m) else return [p])
        fun _ left => left + 0 ≤ ts.length := by
      intro varargs ws hws
      refine .expect (by decide) fun name xs hxs => .bind (dims_decides xs) fun d ys hys => ?_
      refine .ifAccept (by decide) (fun zs hzs => ?_) fun _ => .pure _ (by omega)
      exact .bind (ih zs m (by omega) hm) fun ps left _ => .pure _ (by omega)
    exact .accept (by decide) (fun ws hws => hname true ws (by omega)) fun _ =>
      hname false vs (Nat.le_refl _)

lemma params_decide (n : Nat) : Decisive beyond 1 1 n params := by
  intro ts m hn hm
  rw [params, params]
  refine .expect (by decide) fun _ us hus => .ifAccept (by decide) (fun vs hvs => .pure _ (by omega))
    fun _ => ?_
  refine .bind (paramList_decides n us m (by omega) hm) fun ps vs hvs => ?_
  exact .expect (by decide) fun _ left _ => .pure _ (by omega)

lemma typesAfter_decides (w : String) (n : Nat) : Decisive beyond 0 1 n (typesAfter w) := by
  intro ts m hn hm
  rw [typesAfter, typesAfter]
  refine .ifAccept nofun (fun us hus => ?_) fun _ => .pure _ (by omega)
  exact .within (typeList_decides (by decide) n us m (by omega) hm) (by omega)

lemma method_decides (n : Nat) (mods tps : List String) (t : Node) (name : String) :
    Decisive beyond 1 1 n (method · mods tps t name) := by
  intro ts m hn hm
  beta_reduce
  rw [method, method]
  refine .bind (params_decide n ts m (by omega) hm) fun ps us hus => ?_
  refine .bind (dims_decides us) fun d vs hvs => ?_
  refine .bind (typesAfter_decides "throws" n vs m (by omega) hm) fun throws ws hws => ?_
  refine .ifAccept (by decide) (fun xs hxs => .pure _ (by omega)) fun _ => ?_
  exact .bindMap ((stmtsDecide n).block ws m (by omega) hm) fun b left _ => .pure _ (by omega)

lemma plainMember_decides (n : Nat) (className : String) (mods : List String) :
    Decisive beyond 1 9 n (plainMember · className mods) := by
  intro ts m hn hm
  beta_reduce
  rw [plainMember, plainMember]
  refine .bind (typeParams_decide n ts m (by omega) hm) fun tps us hus => .current ?_
  have hname : ∀ (t : Node) (vs : List Token), vs.length ≤ us.length → Decides beyond ts vs
      (do
        let name ← expect .ident
        if ← check lparen then method n mods tps t name.text
        else
          let ds ← declarators (some name) n
          let _ ← expect semicolon
          return .plain (.fieldDecl (Word.ofTexts mods) t ds))
      (do
        let name ← expect .ident
        if ← check lparen then method m mods tps t name.text
        else
          let ds ← declarators (some name) m
          let _ ← expect semicolon
          return .plain (.fieldDecl (Word.ofTexts mods) t ds))
      fun _ left => left + 1 ≤ ts.length := by
    intro t vs hvs
    refine .expect (by decide) fun name ws hws => .ifCheck (fun _ => ?_) fun _ => ?_
    · exact .within (method_decides n mods tps t name.text ws m (by omega) hm) (by omega)
    · refine .bind (declarators_decide (some name) n ws m (by omega) hm) fun ds xs hxs => ?_
      exact .expect (by decide) fun _ left _ => .pure _ (by omega)
  have hfield : Decides beyond ts us
      (do
        let t ← if ← accept (.word "void") then pure (.plain (.typeRef "void" 0 none)) else type n
        let name ← expect .ident
        if ← check lparen then method n mods tps t name.text
        else
          let ds ← declarators (some name) n
          let _ ← expect semicolon
          return .plain (.fieldDecl (Word.ofTexts mods) t ds))
      (do
        let t ← if ← accept (.word "void") then pure (.plain (.typeRef "void" 0 none)) else type m
        let name ← expect .ident
        if ← check lparen then method m mods tps t name.text
        else
          let ds ← declarators (some name) m
          let _ ← expect semicolon
          return .plain (.fieldDecl (Word.ofTexts mods) t ds))
      fun _ left => left + 1 ≤ ts.length := by
    refine .ifAccept (by decide) (fun vs hvs => hname _ vs (by omega)) fun _ => ?_
    exact .bind ((typesDecide n).type us m (by omega) hm) fun t vs hvs => hname t vs (by omega)
  -- The token behind the end of the text is not asked for: the end is no name.
  refine .checkNext fun b b' hb => ?_
  by_cases hident : (tokenAt us 0).kind = .ident
  · obtain rfl := hb (by rw [headKind, hident]; rintro ⟨⟩)
    refine .ite (fun _ => ?_) fun _ => hfield
    refine .advance (by rw [headKind, hident]; rintro ⟨⟩) fun name vs hvs => ?_
    refine .bind (params_decide n vs m (by omega) hm) fun ps ws hws => ?_
    refine .bind (typesAfter_decides "throws" n ws m (by omega) hm) fun throws xs hxs => ?_
    exact .bind ((stmtsDecide n).block xs m (by omega) hm) fun b left _ => .pure _ (by omega)
  · simp only [decide_eq_false hident, Bool.false_and, Bool.false_eq_true, if_false]
    exact hfield

structure MembersDecide (beyond : List Token) (n : Nat) : Prop where
  typeDecl (mods : List String) : Decisive beyond 1 1 n (typeDecl · mods)
  memberTail (className : String) : Decisive beyond 0 11 n (memberTail · className)
  member (className : String) : Decisive beyond 1 10 n (member · className)

lemma membersDecide (n : Nat) : MembersDecide beyond n := by
  induction n with
  | zero => constructor <;> exact fun _ => .zero (by omega)
  | succ n ih =>
    constructor
    case typeDecl =>
      refine fun mods => .succ fun ts m hn hm => ?_
      rw [typeDecl, typeDecl]
      refine .ifCheckAny (fun hword => ?_) fun _ => .reject _
      refine .advance (fun hend => ?_) fun keyword us hus => .expect (by decide) fun name vs hvs => ?_
      · rw [hend] at hword
        exact absurd hword (by decide)
      refine .bind (typeParams_decide n vs m (by omega) hm) fun tps ws hws => ?_
      refine .bind (typesAfter_decides _ n ws m (by omega) hm) fun extended xs hxs => ?_
      refine .bind (typesAfter_decides _ n xs m (by omega) hm) fun implemented ys hys => ?_
      refine .expect (by decide) fun _ zs hzs => ?_
      exact .bind (ih.memberTail name.text zs m (by omega) hm) fun ms left _ => .pure _ (by omega)
    case memberTail =>
      refine fun className => .succ fun ts m hn hm => ?_
      rw [memberTail, memberTail]
      refine .ifAccept (by decide) (fun us hus => .pure _ (by omega)) fun _ =>
        .ifCheck (fun _ => .rejectThen _) fun _ => .ifAccept (by decide) (fun us hus => ?_) fun _ => ?_
      · exact .within (ih.memberTail className us m (by omega) hm) (by omega)
      · refine .bind (ih.member className ts m (by omega) hm) fun d us hus => ?_
        exact .bind (ih.memberTail className us m (by omega) hm) fun ds left _ => .pure _ (by omega)
    case member =>
      refine fun className => .succ fun ts m hn hm => ?_
      rw [member, member]
      refine .bind (modifiers_decide n ts m (by omega) hm) fun mods us hus => ?_
      refine .ifCheckAny (fun _ => ?_) fun _ => .ifCheck (fun _ => ?_) fun _ => ?_
      · exact .within (ih.typeDecl mods us m (by omega) hm) (by omega)
      · exact .bind ((stmtsDecide n).block us m (by omega) hm) fun b left _ => .pure _ (by omega)
      · exact .within (plainMember_decides n className mods us m (by omega) hm) (by omega)

lemma importDecl_decides (ts : List Token) : Gains beyond 0 ts importDecl importDecl := by
  rw [importDecl]
  have hend : ∀ (x : String) (us : List Token) (isStatic : Bool), us.length ≤ ts.length →
      Decides beyond ts us
        (do
          let asterisk ← accept dot
          if asterisk then
            let _ ← expect (.mark "*")
          let _ ← expect semicolon
          return Node.plain (.importDecl x isStatic asterisk))
        (do
          let asterisk ← accept dot
          if asterisk then
            let _ ← expect (.mark "*")
          let _ ← expect semicolon
          return Node.plain (.importDecl x isStatic asterisk))
        fun _ left => left + 0 ≤ ts.length := by
    intro x us isStatic hus
    refine .accept (by decide) (fun vs hvs => ?_) fun _ => ?_
    · rw [if_pos rfl]
      refine .expect (by decide) fun _ ws hws => .expect (by decide) fun _ xs hxs => ?_
      exact .pure _ (by omega)
    · rw [if_neg (by simp)]
      exact .expect (by decide) fun _ vs hvs => .pure _ (by omega)
  refine .accept (by decide) (fun us hus => ?_) fun _ => ?_
  · exact .bind (qualifiedName_decides us) fun x vs hvs => hend x vs true (by omega)
  · exact .bind (qualifiedName_decides ts) fun x vs hvs => hend x vs false (by omega)

lemma imports_decide (n : Nat) : Decisive beyond 0 1 n imports := by
  induction n with
  | zero => exact .zero (by omega)
  | succ n ih =>
    refine .succ fun ts m hn hm => ?_
    rw [imports, imports]
    refine .ifAccept (by decide) (fun us hus => ?_) fun _ => .pure _ (by omega)
    refine .bind (importDecl_decides us) fun i vs hvs => ?_
    exact .bind (ih vs m (by omega) hm) fun is left _ => .pure _ (by omega)

lemma typeDecls_decide (n : Nat) : Decisive beyond 0 2 n typeDecls := by
  induction n with
  | zero => exact .zero (by omega)
  | succ n ih =>
    refine .succ fun ts m hn hm => ?_
    rw [typeDecls, typeDecls]
    refine .ifCheck (fun _ => .pure _ (by omega)) fun _ => .ifAccept (by decide) (fun us hus => ?_)
      fun _ => ?_
    · exact .within (ih us m (by omega) hm) (by omega)
    · refine .bind (modifiers_decide n ts m (by omega) hm) fun mods us hus => ?_
      refine .bind ((membersDecide n).typeDecl mods us m (by omega) hm) fun d vs hvs => ?_
      exact .bind (ih vs m (by omega) hm) fun ds left _ => .pure _ (by omega)

lemma packageDecl_decides (ts : List Token) : Gains beyond 0 ts packageDecl packageDecl := by
  rw [packageDecl]
  refine .ifAccept (by decide) (fun us hus => ?_) fun _ => .pure _ (by omega)
  refine .bind (qualifiedName_decides us) fun x vs hvs => ?_
  exact .expect (by decide) fun _ ws hws => .pure _ (by omega)

lemma compilationUnit_decides (n : Nat) : Decisive beyond 0 2 n compilationUnit := by
  intro ts m hn hm
  rw [compilationUnit, compilationUnit]
  refine .bind (packageDecl_decides ts) fun package us hus => ?_
  refine .bind (imports_decide n us m (by omega) hm) fun is vs hvs => ?_
  exact .bind (typeDecls_decide n vs m (by omega) hm) fun ds left _ => .pure _ (by omega)

lemma rule_decides (k : TextKind) {n m : Nat} (ts : List Token) (hn : 16 * ts.length + 13 ≤ n)
    (hm : n ≤ m) : Gains beyond 0 ts (rule k n) (rule k m) := by
  cases k with
  | unit => exact compilationUnit_decides n ts m (by omega) hm
  | statement => exact .within ((stmtsDecide n).statement ts m (by omega) hm) (by omega)
  | statements =>
    exact .bind (statements_decide n ts m hn hm) fun ss left _ => .pure _ (by omega)
  | expression => exact (exprsDecide n).expr ts m (by omega) hm

lemma whole_decides (k : TextKind) {n m : Nat} (ts : List Token) (hn : 16 * ts.length + 13 ≤ n)
    (hm : n ≤ m) : Decides beyond ts ts (whole k n) (whole k m) fun _ left => left = 1 := by
  rw [whole, whole]
  refine .bind (rule_decides k ts hn hm) fun t rest _ => .ended fun hrest => .ifCheck (fun hend => ?_)
    fun _ => .reject _
  obtain ⟨last, rfl, -⟩ := hrest.eq_singleton hend
  exact .pure _ rfl

end LoopLowering.Grammar
