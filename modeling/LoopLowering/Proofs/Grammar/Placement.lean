import LoopLowering.Grammar.Entry
import LoopLowering.Proofs.Tree.Placement

/-! What the rules of the grammar read: trees in which statements stand only where they belong. -/

namespace LoopLowering.Grammar

def Yields {α : Type} (p : Parser α) (P : α → Prop) : Prop :=
  ∀ ts a rest, p ts = .ok (a, rest) → P a

namespace Yields

variable {α β : Type} {p : Parser α} {P : α → Prop} {f : α → Parser β} {Q : β → Prop}

lemma any (p : Parser α) : Yields p fun _ => True := fun _ _ _ _ => trivial

lemma mono {P' : α → Prop} (h : Yields p P) (hP : ∀ a, P a → P' a) : Yields p P' :=
  fun ts a rest hp => hP a (h ts a rest hp)

lemma pure {a : α} (h : P a) : Yields (pure a) P := by
  intro ts b rest hp
  obtain ⟨rfl, -⟩ := Prod.mk.inj (Except.ok.inj hp)
  exact h

lemma bind (hp : Yields p P) (hf : ∀ a, P a → Yields (f a) Q) : Yields (p >>= f) Q := by
  intro ts b rest h
  simp only [Bind.bind, StateT.bind, Except.bind] at h
  split at h
  · cases h
  · rename_i v hv
    obtain ⟨a, ts'⟩ := v
    exact hf a (hp ts a ts' hv) ts' b rest h

lemma skip (hf : ∀ a, Yields (f a) Q) : Yields (p >>= f) Q := bind (any p) fun a _ => hf a

lemma map {g : α → β} (hp : Yields p P) (hg : ∀ a, P a → Q (g a)) : Yields (g <$> p) Q := by
  rw [map_eq_pure_bind]
  exact bind hp fun a ha => pure (hg a ha)

lemma ite {c : Prop} [Decidable c] {q r : Parser α} (hq : Yields q P) (hr : Yields r P) :
    Yields (if c then q else r) P := by
  split
  · exact hq
  · exact hr

lemma exhausted : Yields (exhausted : Parser α) P := fun _ _ _ h => by cases h

lemma reject (cause : Cause) : Yields (reject cause : Parser α) P := fun _ _ _ h => by cases h

lemma attempt (hp : Yields p P) : Yields (attempt p) fun a => ∀ b, a = some b → P b := by
  intro ts a rest h
  simp only [Grammar.attempt] at h
  split at h
  · rename_i b ts' hb
    obtain ⟨rfl, -⟩ := Prod.mk.inj (Except.ok.inj h)
    rintro c ⟨⟩
    exact hp ts b ts' hb
  · obtain ⟨rfl, -⟩ := Prod.mk.inj (Except.ok.inj h)
    rintro c ⟨⟩
  · cases h

end Yields

open Node (quiet allQuiet quiet_plain_iff IsTypeRef IsElement WellPlaced AllWellPlaced
  wellPlaced_plain)

structure TypesQuiet (n : Nat) : Prop where
  bareType : Yields (bareType n) fun t => ∀ d, IsTypeRef (t d) ∧ (t d).quiet = true
  type : Yields (type n) fun t => IsTypeRef t ∧ t.quiet = true
  typeArgs : Yields (typeArgs n) allQuiet
  typeArgList : Yields (typeArgList n) allQuiet
  typeArg : Yields (typeArg n) fun t => t.quiet = true

lemma typeRef_quiet (name : String) (d : Nat) {args : Option (List Node)}
    (h : ∀ as, args = some as → allQuiet as) :
    IsTypeRef (.plain (.typeRef name d args)) ∧ quiet (.plain (.typeRef name d args)) = true := by
  refine ⟨⟨_, _, _, _, rfl⟩, quiet_plain_iff.mpr ⟨rfl, ?_⟩⟩
  cases args with
  | none => simp [Shape.children, Shape.parts, Part.toList]
  | some as => simpa [Shape.children, Shape.parts, Part.toList] using h as rfl

lemma typesQuiet (n : Nat) : TypesQuiet n := by
  induction n with
  | zero => exact ⟨.exhausted, .exhausted, .exhausted, .exhausted, .exhausted⟩
  | succ n ih =>
    constructor
    · rw [bareType]
      refine .skip fun _ => .ite (.skip fun t => .pure fun d => typeRef_quiet _ d (by simp)) ?_
      refine .skip fun name => .skip fun _ => .ite ?_ (.pure fun d => typeRef_quiet _ d (by simp))
      refine .bind ih.typeArgs fun args hargs => .pure fun d => typeRef_quiet _ d ?_
      rintro as ⟨⟩
      exact hargs
    · rw [type]
      exact .bind ih.bareType fun t ht => .skip fun d => .pure (ht d)
    · rw [typeArgs]
      refine .skip fun _ => .skip fun _ => .ite (.pure Node.allQuiet_nil) ?_
      exact .bind ih.typeArgList fun args hargs => .skip fun _ => .pure hargs
    · rw [typeArgList]
      refine .bind ih.typeArg fun arg harg => .skip fun _ => .ite ?_ (.pure (by simp [harg]))
      exact .bind ih.typeArgList fun args hargs => .pure (by simp [harg, hargs])
    · rw [typeArg]
      refine .skip fun _ => .ite ?_ (ih.type.mono fun t ht => ht.2)
      refine .skip fun _ => .ite (.skip fun k => ?_) (.pure (by rfl))
      refine .bind ih.type fun t ht => .pure (quiet_plain_iff.mpr ⟨rfl, ?_⟩)
      simpa [Shape.children, Shape.parts, Part.toList] using ht.2

lemma typeList_quiet (separator : TokenKind) (n : Nat) : Yields (typeList separator n) allQuiet := by
  induction n with
  | zero => exact .exhausted
  | succ n ih =>
    rw [typeList]
    refine .bind (typesQuiet n).type fun t ht => .skip fun _ => .ite ?_ (.pure (by simp [ht.2]))
    exact .bind ih fun ts hts => .pure (by simp [ht.2, hts])

def IsExpr (n : Node) : Prop := n.quiet = true ∧ n.shape.isDeclaration = false

def AllExprs (ns : List Node) : Prop := ∀ n ∈ ns, IsExpr n

@[simp] lemma allExprs_nil : AllExprs [] := by simp [AllExprs]

@[simp] lemma allExprs_cons {n : Node} {ns : List Node} :
    AllExprs (n :: ns) ↔ IsExpr n ∧ AllExprs ns := List.forall_mem_cons

lemma AllExprs.allQuiet {ns : List Node} (h : AllExprs ns) : allQuiet ns := fun n hn => (h n hn).1

lemma isExpr_plain {s : Shape Node} (hs : s.isStatement = false) (hd : s.isDeclaration = false)
    (hc : allQuiet s.children) : IsExpr (.plain s) :=
  ⟨quiet_plain_iff.mpr ⟨hs, hc⟩, hd⟩

structure ExprsQuiet (n : Nat) : Prop where
  expr : Yields (expr n) IsExpr
  condition : Yields (condition n) IsExpr
  binary (least : Nat) : Yields (binary n least) IsExpr
  binaryTail (least most : Nat) (left : Node) :
    IsExpr left → Yields (binaryTail n least most left) IsExpr
  unary : Yields (unary n) IsExpr
  castType : Yields (castType n) fun t => ∀ c, t = some c → c.quiet = true
  operand : Yields (operand n) IsExpr
  operandTail (e : Node) : IsExpr e → Yields (operandTail n e) IsExpr
  args : Yields (args n) AllExprs
  exprList : Yields (exprList n) AllExprs
  parenthesized : Yields (parenthesized n) IsExpr
  primary : Yields (primary n) IsExpr
  creation : Yields (creation n) IsExpr
  creationDims (extra : Nat) : Yields (creationDims n extra) fun p => AllExprs p.1
  arrayInit : Yields (arrayInit n) IsExpr
  elements : Yields (elements n) AllExprs
  initialValue : Yields (initialValue n) IsExpr

section

variable {n : Nat} (ih : ExprsQuiet n)
include ih

lemma expr_succ_quiet : Yields (expr (n + 1)) IsExpr := by
  rw [expr]
  refine .bind ih.condition fun lhs hl => .skip fun ts => ?_
  split
  · exact .pure hl
  · refine .ite (.skip fun _ => .bind ih.expr fun e he => .pure ?_) (.reject _)
    exact isExpr_plain rfl rfl (by simp [Shape.children, Shape.parts, Part.toList, hl.1, he.1])

lemma condition_succ_quiet : Yields (condition (n + 1)) IsExpr := by
  rw [condition]
  refine .bind (ih.binary 0) fun c hc => .skip fun _ => .ite ?_ (.pure hc)
  refine .bind ih.expr fun a ha => .skip fun _ => .bind ih.condition fun b hb => .pure ?_
  exact isExpr_plain rfl rfl (by
    simp [Shape.children, Shape.parts, Part.toList, hc.1, ha.1, hb.1])

lemma binary_succ_quiet (least : Nat) : Yields (binary (n + 1) least) IsExpr := by
  rw [binary]
  exact .bind ih.unary fun left hl => ih.binaryTail least 9 left hl

lemma binaryTail_succ_quiet (least most : Nat) (left : Node) :
    IsExpr left → Yields (binaryTail (n + 1) least most left) IsExpr := by
  intro hl
  rw [binaryTail]
  refine .skip fun ts => ?_
  split
  · exact .pure hl
  · refine .ite (.pure hl) (.skip fun _ => ?_)
    split
    · refine .bind (typesQuiet n).type fun t ht => ih.binaryTail _ _ _ (isExpr_plain rfl rfl ?_)
      simp [Shape.children, Shape.parts, Part.toList, hl.1, ht.2]
    · refine .bind (ih.binary _) fun r hr => ih.binaryTail _ _ _ (isExpr_plain rfl rfl ?_)
      simp [Shape.children, Shape.parts, Part.toList, hl.1, hr.1]

lemma unary_succ_quiet : Yields (unary (n + 1)) IsExpr := by
  rw [unary]
  refine .skip fun _ => .ite (.skip fun op => .bind ih.unary fun e he => .pure ?_) ?_
  · exact isExpr_plain rfl rfl (by simp [Shape.children, Shape.parts, Part.toList, he.1])
  · refine .skip fun _ => .ite (.bind ih.castType fun t ht => ?_) ih.operand
    split
    · refine .bind ih.unary fun e he => .pure (isExpr_plain rfl rfl ?_)
      simp [Shape.children, Shape.parts, Part.toList, he.1, ht _ rfl]
    · exact ih.operand

omit ih in
lemma castType_succ_quiet :
    Yields (castType (n + 1)) fun t => ∀ c, t = some c → c.quiet = true := by
  rw [castType]
  refine .skip fun start => .skip fun _ => .skip fun _ => .ite ?_ (.skip fun _ => ?_)
  · refine .bind (typesQuiet n).type fun t ht => .skip fun _ => .pure ?_
    rintro c ⟨⟩
    exact ht.2
  · have hnone : Yields (do set start; return none : Parser (Option Node))
        fun t => ∀ c, t = some c → c.quiet = true := .skip fun _ => .pure (by simp)
    refine .ite (.bind (.attempt (typesQuiet n).type) fun t ht => ?_) hnone
    split
    · refine .skip fun _ => .ite (.skip fun _ => .ite (.pure ?_) hnone) hnone
      rintro c ⟨⟩
      exact (ht _ rfl).2
    · exact hnone

lemma operand_succ_quiet : Yields (operand (n + 1)) IsExpr := by
  rw [operand]
  exact .bind ih.primary fun e he => ih.operandTail e he

lemma operandTail_succ_quiet (e : Node) : IsExpr e → Yields (operandTail (n + 1) e) IsExpr := by
  intro he
  rw [operandTail]
  refine .skip fun _ => .ite (.skip fun name => .skip fun _ => .ite ?_ ?_) ?_
  · refine .bind ih.args fun es hes => ih.operandTail _ (isExpr_plain rfl rfl ?_)
    simp [Shape.children, Shape.parts, Part.toList, he.1, hes.allQuiet]
  · refine ih.operandTail _ (isExpr_plain rfl rfl ?_)
    simp [Shape.children, Shape.parts, Part.toList, he.1]
  · refine .skip fun _ => .ite (.bind ih.expr fun i hi => .skip fun _ => ?_) ?_
    · refine ih.operandTail _ (isExpr_plain rfl rfl ?_)
      simp [Shape.children, Shape.parts, Part.toList, he.1, hi.1]
    · refine .skip fun _ => .ite (.skip fun op => ?_) (.pure he)
      refine ih.operandTail _ (isExpr_plain rfl rfl ?_)
      simp [Shape.children, Shape.parts, Part.toList, he.1]

lemma args_succ_quiet : Yields (args (n + 1)) AllExprs := by
  rw [args]
  refine .skip fun _ => .skip fun _ => .ite (.pure (by simp)) ?_
  exact .bind ih.exprList fun es hes => .skip fun _ => .pure hes

lemma exprList_succ_quiet : Yields (exprList (n + 1)) AllExprs := by
  rw [exprList]
  refine .bind ih.expr fun e he => .skip fun _ => .ite ?_ (.pure (by simp [he]))
  exact .bind ih.exprList fun es hes => .pure (by simp [he, hes])

lemma parenthesized_succ_quiet : Yields (parenthesized (n + 1)) IsExpr := by
  rw [parenthesized]
  exact .skip fun _ => .bind ih.expr fun e he => .skip fun _ => .pure he

lemma primary_succ_quiet : Yields (primary (n + 1)) IsExpr := by
  rw [primary]
  have hcall : ∀ t : Token, Yields (return .plain (.methodCall t.text none (← args n))) IsExpr :=
    fun t => .bind ih.args fun es hes => .pure (isExpr_plain rfl rfl (by
      simp [Shape.children, Shape.parts, Part.toList, hes.allQuiet]))
  refine .skip fun t => ?_
  split
  all_goals try exact .skip fun _ => .pure ⟨rfl, rfl⟩
  all_goals try exact .skip fun _ => .skip fun _ => .ite (hcall t) (.pure ⟨rfl, rfl⟩)
  · exact ih.creation
  · refine .bind ih.parenthesized fun e he => .pure (isExpr_plain rfl rfl ?_)
    simp [Shape.children, Shape.parts, Part.toList, he.1]
  · exact .reject _

lemma creation_succ_quiet : Yields (creation (n + 1)) IsExpr := by
  rw [creation]
  refine .skip fun _ => .bind (typesQuiet n).bareType fun t ht => .skip fun _ => .ite ?_ ?_
  · refine .bind (ih.creationDims 0) fun p hp => .skip fun _ => .ite (.ite ?_ (.reject _)) ?_
    · refine .bind ih.arrayInit fun a ha => .pure (isExpr_plain rfl rfl ?_)
      simp [Shape.children, Shape.parts, Part.toList, (ht 0).2, hp.allQuiet, ha.1]
    · refine .ite (.reject _) (.pure (isExpr_plain rfl rfl ?_))
      simp [Shape.children, Shape.parts, Part.toList, (ht 0).2, hp.allQuiet]
  · refine .bind ih.args fun es hes => .skip fun _ => .ite (.reject _) (.pure ?_)
    exact isExpr_plain rfl rfl (by
      simp [Shape.children, Shape.parts, Part.toList, (ht 0).2, hes.allQuiet])

lemma creationDims_succ_quiet (extra : Nat) :
    Yields (creationDims (n + 1) extra) fun p => AllExprs p.1 := by
  rw [creationDims]
  refine .skip fun _ => .ite (.skip fun _ => .ite (ih.creationDims _) ?_) (.pure (by simp))
  refine .ite (.reject _) (.bind ih.expr fun e he => .skip fun _ => ?_)
  exact .bind (ih.creationDims extra) fun p hp => .pure (by simp [he, hp])

lemma arrayInit_succ_quiet : Yields (arrayInit (n + 1)) IsExpr := by
  rw [arrayInit]
  refine .skip fun _ => .bind ih.elements fun vs hvs => .skip fun _ => .pure ?_
  exact isExpr_plain rfl rfl (by
    simp [Shape.children, Shape.parts, Part.toList, hvs.allQuiet])

lemma elements_succ_quiet : Yields (elements (n + 1)) AllExprs := by
  rw [elements]
  refine .skip fun _ => .ite (.pure (by simp)) ?_
  refine .bind ih.initialValue fun v hv => .skip fun _ => .ite ?_ (.pure (by simp [hv]))
  exact .bind ih.elements fun vs hvs => .pure (by simp [hv, hvs])

lemma initialValue_succ_quiet : Yields (initialValue (n + 1)) IsExpr := by
  rw [initialValue]
  exact .skip fun _ => .ite ih.arrayInit ih.expr

end

lemma exprsQuiet (n : Nat) : ExprsQuiet n := by
  induction n with
  | zero => constructor <;> intros <;> exact .exhausted
  | succ n ih =>
    exact {
      expr := expr_succ_quiet ih
      condition := condition_succ_quiet ih
      binary := binary_succ_quiet ih
      binaryTail := binaryTail_succ_quiet ih
      unary := unary_succ_quiet ih
      castType := castType_succ_quiet
      operand := operand_succ_quiet ih
      operandTail := operandTail_succ_quiet ih
      args := args_succ_quiet ih
      exprList := exprList_succ_quiet ih
      parenthesized := parenthesized_succ_quiet ih
      primary := primary_succ_quiet ih
      creation := creation_succ_quiet ih
      creationDims := creationDims_succ_quiet ih
      arrayInit := arrayInit_succ_quiet ih
      elements := elements_succ_quiet ih
      initialValue := initialValue_succ_quiet ih }

lemma declarators_quiet (first : Option Token) (n : Nat) :
    Yields (declarators first n) allQuiet := by
  induction n generalizing first with
  | zero => exact .exhausted
  | succ n ih =>
    have hinit : ∀ (name : Token) (d : Nat) (init : Option Node),
        (∀ e, init = some e → e.quiet = true) →
          Node.quiet (.plain (.declarator name.text d init)) = true := by
      intro name d init h
      exact quiet_plain_iff.mpr ⟨rfl, by simpa [Shape.children, Shape.parts, Part.toList] using h⟩
    have hrest : ∀ (name : Token) (d : Nat) (init : Option Node),
        (∀ e, init = some e → e.quiet = true) → Yields (do
          let decl := Node.plain (.declarator name.text d init)
          if ← accept comma then return decl :: (← declarators none n) else return [decl])
            allQuiet := by
      intro name d init h
      refine .skip fun _ => .ite ?_ (.pure (by simp [hinit name d init h]))
      exact .bind (ih none) fun ds hds => .pure (by simp [hinit name d init h, hds])
    have hname : ∀ name : Token, Yields (do
        let d ← dims
        let init ← if ← accept (.mark "=") then some <$> initialValue n else pure none
        let decl := Node.plain (.declarator name.text d init)
        if ← accept comma then return decl :: (← declarators none n) else return [decl])
          allQuiet := by
      intro name
      refine .skip fun d => .skip fun _ => .ite (.bind (.map (exprsQuiet n).initialValue
        fun e he => ?_) fun init hinit => hrest name d init hinit) ?_
      · rintro _ ⟨⟩
        exact he.1
      · exact .bind (.pure (P := (· = none)) rfl) fun init hi => hrest name d init (by simp [hi])
    unfold declarators
    cases first with
    | some t => exact .skip fun _ => hname _
    | none => exact .skip fun _ => hname _

lemma localVar_placed {mods : List Word} {t : Node} {ds : List Node} (ht : t.quiet = true)
    (hds : allQuiet ds) :
    Node.quiet (.plain (.localVar mods t ds)) = true ∧ WellPlaced (.plain (.localVar mods t ds)) := by
  constructor
  · exact quiet_plain_iff.mpr ⟨rfl, by simp [Shape.children, Shape.parts, Part.toList, ht, hds]⟩
  · refine wellPlaced_plain trivial ?_ (by simp [Shape.bodies])
    simp [Shape.phrases, Shape.children, Shape.parts, Part.toList, ht, hds]

lemma localVar?_placed (n : Nat) :
    Yields (localVar? n) fun v => ∀ d, v = some d → d.quiet = true ∧ WellPlaced d := by
  cases n with
  | zero => exact .exhausted
  | succ n =>
    rw [localVar?]
    refine .skip fun start => .skip fun mods => .skip fun _ => ?_
    have hstop : Yields (do
        if mods.isEmpty then
          set start
          return none
        else reject .expectedVariable : Parser (Option Node))
          fun v => ∀ d, v = some d → d.quiet = true ∧ WellPlaced d :=
      .ite (.skip fun _ => .pure (by simp)) (.reject _)
    have hdecl : ∀ c : Node, IsTypeRef c ∧ c.quiet = true → Yields (do
        if ← check .ident then
          return some (.plain (.localVar (Word.ofTexts mods) c (← declarators none n)))
        if mods.isEmpty then
          set start
          return none
        else reject .expectedVariable : Parser (Option Node))
          fun v => ∀ d, v = some d → d.quiet = true ∧ WellPlaced d := by
      intro c hc
      refine .skip fun _ => .ite (.bind (declarators_quiet none n) fun ds hds => .pure ?_) hstop
      rintro _ ⟨⟩
      exact localVar_placed hc.2 hds
    refine .ite (.ite ?_ ?_) hstop
    · refine .bind (.attempt (typesQuiet n).type) fun t ht => ?_
      cases t with
      | none => exact hstop
      | some c => exact hdecl c (ht c rfl)
    · refine .bind (.map (Q := fun t => ∃ c, t = some c ∧ IsTypeRef c ∧ c.quiet = true)
        (typesQuiet n).type fun t ht => ⟨t, rfl, ht⟩) fun t ht => ?_
      obtain ⟨c, rfl, hc⟩ := ht
      exact hdecl c hc

lemma forEachHead_element (n : Nat) :
    Yields (forEachHead n) fun v => ∀ d, v = some d → IsElement d ∧ d.quiet = true := by
  cases n with
  | zero => exact .exhausted
  | succ n =>
    rw [forEachHead]
    refine .skip fun start => .skip fun mods => .skip fun _ => ?_
    have hstop : Yields (do set start; return none : Parser (Option Node))
        fun v => ∀ d, v = some d → IsElement d ∧ d.quiet = true := .skip fun _ => .pure (by simp)
    refine .ite (.bind (.attempt (typesQuiet n).type) fun t ht => ?_) hstop
    cases t with
    | none => exact hstop
    | some c =>
      have hc := ht c rfl
      refine .skip fun _ => .skip fun _ => .ite (.skip fun name => .skip fun _ => .pure ?_) hstop
      rintro _ ⟨⟩
      refine ⟨⟨_, _, c, _, name.text, hc.1, rfl⟩, (localVar_placed hc.2 ?_).1⟩
      simp [quiet_plain_iff, Shape.isStatement, Shape.children, Shape.parts, Part.toList]

lemma forInit_quiet (n : Nat) : Yields (forInit n) allQuiet := by
  cases n with
  | zero => exact .exhausted
  | succ n =>
    rw [forInit]
    refine .skip fun _ => .ite (.pure (by simp)) (.bind (localVar?_placed n) fun v hv => ?_)
    cases v with
    | none => exact (exprsQuiet n).exprList.mono fun es hes => hes.allQuiet
    | some d => exact .pure (by simp [(hv d rfl).1])

lemma optionalExpr_quiet (stop : TokenKind) (n : Nat) :
    Yields (optionalExpr stop n) fun e => ∀ c, e = some c → c.quiet = true := by
  rw [optionalExpr]
  refine .skip fun _ => .ite (.pure (by simp)) (.map (exprsQuiet n).expr fun e he => ?_)
  rintro _ ⟨⟩
  exact he.1

structure StatementsPlaced (n : Nat) : Prop where
  block : Yields (block n) WellPlaced
  blockTail : Yields (blockTail n) AllWellPlaced
  statement : Yields (statement n) WellPlaced
  bareStatement : Yields (bareStatement n) WellPlaced
  simpleStatement : Yields (simpleStatement n) WellPlaced
  forStatement : Yields (forStatement n) WellPlaced
  tryStatement : Yields (tryStatement n) WellPlaced
  catchClauses : Yields (catchClauses n) AllWellPlaced

lemma atLine_placed {n : Node} (line : Nat) (h : WellPlaced n) : WellPlaced (atLine line n) := by
  cases h with
  | mk head phrases bodies => exact .mk head phrases bodies

lemma optionalStatement_placed {p : Parser Node} (hp : Yields p WellPlaced) (c : Prop)
    [Decidable c] {f : Option Node → Parser Node}
    (hf : ∀ a, (∀ b, a = some b → WellPlaced b) → Yields (f a) WellPlaced) :
    Yields (if c then do let a ← some <$> p; f a else do let a ← pure none; f a) WellPlaced := by
  refine .ite (.bind (.map hp fun a ha => ?_) hf) (.bind (.pure (P := (· = none)) rfl) ?_)
  · rintro _ ⟨⟩
    exact ha
  · rintro a rfl
    exact hf none (by simp)

lemma bareStatement_placed {n : Nat} (ih : StatementsPlaced n) :
    Yields (bareStatement (n + 1)) WellPlaced := by
  rw [bareStatement]
  refine .skip fun first => ?_
  split
  · exact ih.block
  · exact .skip fun _ => .pure (wellPlaced_plain trivial (by rintro _ ⟨⟩) (by simp [Shape.bodies]))
  · refine .skip fun _ => .bind (exprsQuiet n).parenthesized fun c hc => ?_
    refine .bind ih.statement fun a ha => .skip fun _ => ?_
    refine optionalStatement_placed ih.statement _ fun b hb => .pure ?_
    exact wellPlaced_plain trivial (by simp [Shape.phrases, hc.1]) (by simpa [Shape.bodies, ha] using hb)
  · refine .skip fun _ => .bind (exprsQuiet n).parenthesized fun c hc => ?_
    refine .bind ih.statement fun a ha => .pure ?_
    exact wellPlaced_plain trivial (by simp [Shape.phrases, hc.1]) (by simp [Shape.bodies, ha])
  · refine .skip fun _ => .bind ih.statement fun a ha => .skip fun _ => ?_
    refine .bind (exprsQuiet n).parenthesized fun c hc => .skip fun _ => .pure ?_
    exact wellPlaced_plain trivial (by simp [Shape.phrases, hc.1]) (by simp [Shape.bodies, ha])
  · exact .skip fun _ => ih.forStatement
  · refine .skip fun _ => .bind (optionalExpr_quiet _ n) fun e he => .skip fun _ => .pure ?_
    refine wellPlaced_plain trivial ?_ (by simp [Shape.bodies])
    simpa [Shape.phrases, Shape.children, Shape.parts, Part.toList] using he
  · refine .skip fun _ => .skip fun l => .skip fun _ => .pure ?_
    exact wellPlaced_plain trivial (by rintro _ ⟨⟩) (by simp [Shape.bodies])
  · refine .skip fun _ => .skip fun l => .skip fun _ => .pure ?_
    exact wellPlaced_plain trivial (by rintro _ ⟨⟩) (by simp [Shape.bodies])
  · refine .skip fun _ => .bind (exprsQuiet n).expr fun e he => .skip fun _ => .pure ?_
    refine wellPlaced_plain trivial ?_ (by simp [Shape.bodies])
    simp [Shape.phrases, Shape.children, Shape.parts, Part.toList, he.1]
  · exact .skip fun _ => ih.tryStatement
  · exact .ite (.reject _) ih.simpleStatement
  · refine .skip fun _ => .ite (.skip fun l => .skip fun _ => ?_) ih.simpleStatement
    refine .bind ih.statement fun a ha => .pure ?_
    exact wellPlaced_plain trivial (by simp [Shape.phrases]) (by simp [Shape.bodies, ha])
  · exact ih.simpleStatement

lemma forStatement_placed {n : Nat} (ih : StatementsPlaced n) :
    Yields (forStatement (n + 1)) WellPlaced := by
  rw [forStatement]
  refine .skip fun _ => .bind (forEachHead_element n) fun v hv => ?_
  cases v with
  | some var =>
    refine .bind (exprsQuiet n).expr fun e he => .skip fun _ => .bind ih.statement fun a ha => ?_
    refine .pure (wellPlaced_plain (hv var rfl).1 ?_ (by simp [Shape.bodies, ha]))
    simp [Shape.phrases, (hv var rfl).2, he.1]
  | none =>
    refine .bind (forInit_quiet n) fun init hinit => .skip fun _ => ?_
    refine .bind (optionalExpr_quiet _ n) fun cond hcond => .skip fun _ => .skip fun _ => ?_
    have hloop : ∀ update, AllExprs update → Yields (do
        let _ ← expect rparen
        return .plain (.forLoop init cond update (← statement n))) WellPlaced := by
      intro update hu
      refine .skip fun _ => .bind ih.statement fun a ha => .pure ?_
      refine wellPlaced_plain (fun e he => (hu e he).2) ?_ (by simp [Shape.bodies, ha])
      simpa [Shape.phrases, hinit, hu.allQuiet] using hcond
    refine .ite (.bind (.pure (P := (· = [])) rfl) ?_) (.bind (exprsQuiet n).exprList hloop)
    rintro update rfl
    exact hloop [] (by simp)

lemma tryStatement_placed {n : Nat} (ih : StatementsPlaced n) :
    Yields (tryStatement (n + 1)) WellPlaced := by
  rw [tryStatement]
  refine .skip fun _ => .ite (.bind (.reject (P := fun _ => False) _) fun _ h => h.elim) ?_
  refine .bind ih.block fun body hbody => .bind ih.catchClauses fun cs hcs => .skip fun _ => ?_
  refine optionalStatement_placed ih.block _ fun last hlast => ?_
  refine .ite (.bind (.reject (P := fun _ => False) _) fun _ h => h.elim) (.pure ?_)
  refine wellPlaced_plain trivial (by simp [Shape.phrases]) ?_
  simpa [Shape.bodies, hbody, hcs] using hlast

lemma catchClauses_placed {n : Nat} (ih : StatementsPlaced n) :
    Yields (catchClauses (n + 1)) AllWellPlaced := by
  rw [catchClauses]
  refine .skip fun _ => .ite (.skip fun _ => .skip fun mods => ?_) (.pure (by simp))
  refine .bind (typeList_quiet _ n) fun types htypes => .skip fun name => .skip fun _ => ?_
  refine .bind ih.block fun body hbody => .bind ih.catchClauses fun cs hcs => .pure ?_
  refine Node.allWellPlaced_cons.mpr ⟨?_, hcs⟩
  exact wellPlaced_plain trivial (by simpa [Shape.phrases] using htypes) (by simp [Shape.bodies, hbody])

lemma statementsPlaced (n : Nat) : StatementsPlaced n := by
  induction n with
  | zero => constructor <;> exact .exhausted
  | succ n ih =>
    constructor
    case block =>
      rw [block]
      refine .skip fun _ => .bind ih.blockTail fun ss hss => .pure ?_
      exact wellPlaced_plain trivial (by simp [Shape.phrases]) (by simpa [Shape.bodies] using hss)
    case blockTail =>
      rw [blockTail]
      refine .skip fun _ => .ite (.pure (by simp)) (.skip fun _ => ?_)
      refine .ite (.bind (.reject (P := fun _ => False) _) fun _ h => h.elim) ?_
      exact .bind ih.statement fun a ha => .bind ih.blockTail fun ss hss => .pure (by simp [ha, hss])
    case statement =>
      rw [statement]
      exact .skip fun first => .bind ih.bareStatement fun a ha => .pure (atLine_placed _ ha)
    case bareStatement => exact bareStatement_placed ih
    case simpleStatement =>
      rw [simpleStatement]
      refine .bind (localVar?_placed n) fun v hv => ?_
      have hstop : ∀ a, WellPlaced a → Yields (do let _ ← expect semicolon; return a) WellPlaced :=
        fun a ha => .skip fun _ => .pure ha
      cases v with
      | some d => exact .bind (.pure (hv d rfl).2) hstop
      | none =>
        refine .bind (exprsQuiet n).expr fun e he => .bind (.pure ?_) hstop
        refine wellPlaced_plain trivial ?_ (by simp [Shape.bodies])
        simp [Shape.phrases, Shape.children, Shape.parts, Part.toList, he.1]
    case forStatement => exact forStatement_placed ih
    case tryStatement => exact tryStatement_placed ih
    case catchClauses => exact catchClauses_placed ih

lemma statements_placed (n : Nat) : Yields (statements n) AllWellPlaced := by
  induction n with
  | zero => exact .exhausted
  | succ n ih =>
    rw [statements]
    refine .skip fun _ => .ite (.pure (by simp)) (.bind (statementsPlaced n).statement fun a ha => ?_)
    exact .bind ih fun ss hss => .pure (by simp [ha, hss])

lemma addDims_quiet {t : Node} (d : Nat) (h : t.quiet = true) : (addDims d t).quiet = true := by
  unfold addDims
  split
  · rename_i t name e args
    rw [Node.quiet_mk_iff] at h ⊢
    cases args <;> exact h
  · exact h

lemma paramList_quiet (n : Nat) : Yields (paramList n) allQuiet := by
  induction n with
  | zero => exact .exhausted
  | succ n ih =>
    rw [paramList]
    refine .skip fun mods => .bind (typesQuiet n).type fun t ht => .skip fun varargs => ?_
    refine .skip fun name => .skip fun d => .skip fun _ => ?_
    have hp : Node.quiet (.plain (.parameter (Word.ofTexts mods) name.text varargs (addDims d t))) =
        true := by
      refine quiet_plain_iff.mpr ⟨rfl, ?_⟩
      simp [Shape.children, Shape.parts, Part.toList, addDims_quiet d ht.2]
    exact .ite (.bind ih fun ps hps => .pure (by simp [hp, hps])) (.pure (by simp [hp]))

lemma params_quiet (n : Nat) : Yields (params n) allQuiet := by
  rw [params]
  refine .skip fun _ => .skip fun _ => .ite (.pure (by simp)) ?_
  exact .bind (paramList_quiet n) fun ps hps => .skip fun _ => .pure hps

lemma typesAfter_quiet (w : String) (n : Nat) : Yields (typesAfter w n) allQuiet := by
  rw [typesAfter]
  exact .skip fun _ => .ite (typeList_quiet comma n) (.pure (by simp))

lemma method_placed (n : Nat) (mods typeParams : List String) {t : Node} (ht : t.quiet = true)
    (name : String) : Yields (method n mods typeParams t name) WellPlaced := by
  rw [method]
  refine .bind (params_quiet n) fun ps hps => .skip fun d => ?_
  refine .bind (typesAfter_quiet _ n) fun throws hthrows => .skip fun _ => ?_
  have hbody : ∀ body : Option Node, (∀ b, body = some b → WellPlaced b) →
      WellPlaced (.plain (.methodDecl (Word.ofTexts mods) (Word.ofTexts typeParams) name
        (addDims d t) ps throws body)) := by
    intro body hbody
    refine wellPlaced_plain trivial ?_ (by simpa [Shape.bodies] using hbody)
    simp [Shape.phrases, addDims_quiet d ht, hps, hthrows]
  refine .ite (.bind (.pure (P := (· = none)) rfl) ?_) ?_
  · rintro _ rfl
    exact .pure (hbody none (by simp))
  · refine .bind (.map (statementsPlaced n).block fun b hb => ?_) fun body h => .pure (hbody body h)
    rintro _ ⟨⟩
    exact hb

lemma plainMember_placed (n : Nat) (className : String) (mods : List String) :
    Yields (plainMember n className mods) WellPlaced := by
  rw [plainMember]
  refine .skip fun tps => .skip fun first => .skip fun _ => .ite (.skip fun name => ?_) ?_
  · refine .bind (params_quiet n) fun ps hps => .bind (typesAfter_quiet _ n) fun throws ht => ?_
    refine .bind (statementsPlaced n).block fun body hbody => .pure ?_
    exact wellPlaced_plain trivial (by simp [Shape.phrases, hps, ht]) (by simp [Shape.bodies, hbody])
  · have hrest : ∀ t : Node, t.quiet = true → Yields (do
        let name ← expect .ident
        if ← check lparen then method n mods tps t name.text
        else
          let ds ← declarators (some name) n
          let _ ← expect semicolon
          return .plain (.fieldDecl (Word.ofTexts mods) t ds)) WellPlaced := by
      intro t ht
      refine .skip fun name => .skip fun _ => .ite (method_placed n mods tps ht _) ?_
      refine .bind (declarators_quiet _ n) fun ds hds => .skip fun _ => .pure ?_
      refine wellPlaced_plain trivial ?_ (by simp [Shape.bodies])
      simp [Shape.phrases, Shape.children, Shape.parts, Part.toList, ht, hds]
    refine .skip fun _ => .ite (.bind (.pure (P := fun t => t.quiet = true) rfl) hrest) ?_
    exact .bind (typesQuiet n).type fun t ht => hrest t ht.2

structure DeclarationsPlaced (n : Nat) : Prop where
  typeDecl (mods : List String) : Yields (typeDecl n mods) WellPlaced
  memberTail (className : String) : Yields (memberTail n className) AllWellPlaced
  member (className : String) : Yields (member n className) WellPlaced

lemma declarationsPlaced (n : Nat) : DeclarationsPlaced n := by
  induction n with
  | zero => constructor <;> intro <;> exact .exhausted
  | succ n ih =>
    constructor
    case typeDecl =>
      intro mods
      rw [typeDecl]
      refine .skip fun _ => .ite (.skip fun keyword => .skip fun name => .skip fun tps => ?_)
        (.reject _)
      refine .bind (typesAfter_quiet _ n) fun ext hext => ?_
      refine .bind (typesAfter_quiet _ n) fun imp himp => .skip fun _ => ?_
      refine .bind (ih.memberTail _) fun members hm => .pure ?_
      exact wellPlaced_plain trivial (by simp [Shape.phrases, hext, himp]) (by simpa [Shape.bodies])
    case memberTail =>
      intro className
      rw [memberTail]
      refine .skip fun _ => .ite (.pure (by simp)) (.skip fun _ => ?_)
      refine .ite (.bind (.reject (P := fun _ => False) _) fun _ h => h.elim) ?_
      refine .skip fun _ => .ite (ih.memberTail className) ?_
      refine .bind (ih.member className) fun m hm => ?_
      exact .bind (ih.memberTail className) fun ms hms => .pure (by simp [hm, hms])
    case member =>
      intro className
      rw [member]
      refine .skip fun mods => .skip fun _ => .ite (ih.typeDecl mods) (.skip fun _ => .ite ?_ ?_)
      · refine .bind (statementsPlaced n).block fun body hbody => .pure ?_
        exact wellPlaced_plain trivial (by simp [Shape.phrases]) (by simp [Shape.bodies, hbody])
      · exact plainMember_placed n className mods

lemma imports_quiet (n : Nat) : Yields (imports n) allQuiet := by
  induction n with
  | zero => exact .exhausted
  | succ n ih =>
    have himport : Yields importDecl fun i => i.quiet = true := by
      rw [importDecl]
      refine .skip fun _ => .skip fun _ => .skip fun _ => .ite (.skip fun _ => .skip fun _ => ?_) ?_
      · exact .pure rfl
      · exact .skip fun _ => .pure rfl
    rw [imports]
    refine .skip fun _ => .ite (.bind himport fun i hi => ?_) (.pure (by simp))
    exact .bind ih fun is his => .pure (by simp [hi, his])

lemma typeDecls_placed (n : Nat) : Yields (typeDecls n) AllWellPlaced := by
  induction n with
  | zero => exact .exhausted
  | succ n ih =>
    rw [typeDecls]
    refine .skip fun _ => .ite (.pure (by simp)) (.skip fun _ => .ite ih (.skip fun mods => ?_))
    refine .bind ((declarationsPlaced n).typeDecl mods) fun d hd => ?_
    exact .bind ih fun ds hds => .pure (by simp [hd, hds])

lemma rule_placed (k : TextKind) (n : Nat) : Yields (rule k n) WellPlaced := by
  cases k with
  | unit =>
    refine .skip fun package => .bind (imports_quiet n) fun is his => ?_
    refine .bind (typeDecls_placed n) fun types htypes => .pure ?_
    exact wellPlaced_plain trivial (by simpa [Shape.phrases] using his) (by simpa [Shape.bodies])
  | statement => exact (statementsPlaced n).statement
  | statements =>
    refine .bind (statements_placed n) fun ss hss => .pure ?_
    exact wellPlaced_plain trivial (by simp [Shape.phrases]) (by simpa [Shape.bodies] using hss)
  | expression => exact (exprsQuiet n).expr.mono fun e he => Node.wellPlaced_of_quiet he.1

lemma whole_placed (k : TextKind) (n : Nat) : Yields (whole k n) WellPlaced :=
  .bind (rule_placed k n) fun _ ht => .skip fun _ => .ite (.pure ht) (.reject _)

end LoopLowering.Grammar

namespace LoopLowering

theorem wellPlaced_of_parse {k : TextKind} {source : String} {tree : Node}
    (h : parse k source = .ok tree) : tree.WellPlaced := by
  simp only [parse, bind, Except.bind] at h
  split at h
  · cases h
  · split at h
    · rename_i t rest ht
      obtain rfl := Except.ok.inj h
      exact Grammar.whole_placed k _ _ _ _ ht
    · cases h

end LoopLowering
