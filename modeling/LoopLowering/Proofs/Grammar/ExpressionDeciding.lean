import LoopLowering.Proofs.Grammar.TypeDeciding

/-! The rules for expressions decide the tokens of a text. -/

namespace LoopLowering.Grammar

variable {beyond : List Token}

def Droppable (ts : List Token) (count : Nat) : Prop :=
  0 < count ∧ ∀ j < count, ∃ t, ts[j]? = some t ∧ t.kind ≠ .finish

lemma droppable_one {ts : List Token} (h : headKind ts ≠ .finish) : Droppable ts 1 := by
  refine ⟨Nat.one_pos, fun j hj => ?_⟩
  obtain rfl := Nat.lt_one_iff.mp hj
  cases ts with
  | nil => exact absurd rfl h
  | cons t ts => exact ⟨t, rfl, h⟩

lemma droppable_closers {ts : List Token} {count : Nat} (hpos : 0 < count)
    (h : count ≤ closers ts) : Droppable ts count := by
  refine ⟨hpos, fun j hj => ?_⟩
  obtain ⟨t, ht, hkind⟩ := closers_tokens (Nat.lt_of_lt_of_le hj h)
  exact ⟨t, ht, by rw [hkind]; nofun⟩

lemma Decides.drop {β : Type} {origin ts : List Token} {count : Nat} {f g : Unit → Parser β}
    {R : β → Nat → Prop}
    (hcount : Droppable ts count) (hf : ∀ us, us.length + 1 ≤ ts.length →
      Decides beyond origin us (f ()) (g ()) R) :
    Decides beyond origin ts (Grammar.drop count >>= f) (Grammar.drop count >>= g) R := by
  intro hts hsuffix
  obtain ⟨hpos, htaken⟩ := hcount
  have hlen : count - 1 < ts.length := by
    obtain ⟨t, ht, -⟩ := htaken (count - 1) (by omega)
    exact (List.getElem?_eq_some_iff.mp ht).1
  have hp : Grammar.drop count ts = .ok ((), ts.drop count) := rfl
  have hq : Grammar.drop count (ts ++ beyond) = .ok ((), ts.drop count ++ beyond) := by
    rw [← List.drop_append_of_le_length (by omega)]
    rfl
  rw [bind_of_ok hp, bind_of_ok hq]
  refine hf _ (by rw [List.length_drop]; omega) ?_ ((List.drop_suffix _ _).trans hsuffix)
  refine Ended.of_append ((List.take_append_drop count ts).symm ▸ hts) fun t ht => ?_
  obtain ⟨j, hj, rfl⟩ := List.getElem_of_mem ht
  rw [List.length_take] at hj
  obtain ⟨u, hu, hkind⟩ := htaken j (by omega)
  rw [List.getElem_take, ← Option.some.inj ((List.getElem?_eq_getElem _).symm.trans hu).symm]
  exact hkind

lemma closers_append {ts : List Token} (h : Ended ts) : closers (ts ++ beyond) = closers ts := by
  have hlen := List.length_pos_iff.mpr h.ne_nil
  have h0 : tokenAt (ts ++ beyond) 0 = tokenAt ts 0 := h.tokenAt_zero
  by_cases hfirst : (tokenAt ts 0).kind = .mark ">"
  · have hlen1 := h.succ_lt hlen (by rw [hfirst]; nofun)
    have h1 : tokenAt (ts ++ beyond) 1 = tokenAt ts 1 := Ended.tokenAt_append hlen1
    by_cases hsecond : (tokenAt ts 1).kind = .mark ">"
    · have hlen2 := h.succ_lt hlen1 (by rw [hsecond]; nofun)
      have h2 : tokenAt (ts ++ beyond) 2 = tokenAt ts 2 := Ended.tokenAt_append hlen2
      simp [closers, h0, h1, h2]
    · simp [closers, h0, h1, hsecond]
  · simp [closers, h0, hfirst]

lemma closers_lt {ts : List Token} (h : Ended ts) : closers ts < ts.length := by
  rcases Nat.eq_zero_or_pos (closers ts) with hzero | hpos
  · rw [hzero]
    exact List.length_pos_iff.mpr h.ne_nil
  · obtain ⟨t, ht, hkind⟩ := closers_tokens (Nat.sub_lt hpos Nat.one_pos)
    have hlen := (List.getElem?_eq_some_iff.mp ht).1
    have hlt := h.succ_lt hlen (by rw [tokenAt, ht, Option.getD_some, hkind]; rintro ⟨⟩)
    omega

lemma closersThenGe_append {ts : List Token} (h : Ended ts) :
    closersThenGe (ts ++ beyond) (closers ts) = closersThenGe ts (closers ts) := by
  have hlen := closers_lt h
  rw [closersThenGe, closersThenGe, Ended.tokenAt_append hlen, Ended.tokenAt_append (by omega)]

lemma assignOpAt_append {ts : List Token} (h : Ended ts) :
    assignOpAt (ts ++ beyond) = assignOpAt ts := by
  simp only [assignOpAt, h.tokenAt_zero, closers_append h, closersThenGe_append h]

lemma connectiveAt_append {ts : List Token} (h : Ended ts) :
    connectiveAt (ts ++ beyond) = connectiveAt ts := by
  simp only [connectiveAt, h.tokenAt_zero, closers_append h, closersThenGe_append h]

lemma droppable_shift {ts : List Token} (h : Ended ts)
    (hge : closersThenGe ts (closers ts) = true) : Droppable ts (closers ts + 1) := by
  simp only [closersThenGe, Bool.and_eq_true, decide_eq_true_eq] at hge
  refine ⟨Nat.succ_pos _, fun j hj => ?_⟩
  rcases Nat.lt_or_eq_of_le (Nat.le_of_lt_succ hj) with hj | rfl
  · exact (droppable_closers hge.1.1.1 (Nat.le_refl _)).2 j hj
  · have hget := List.getElem?_eq_getElem (closers_lt h)
    have hlast := hge.1.2
    rw [tokenAt, hget, Option.getD_some] at hlast
    exact ⟨_, hget, by rw [hlast]; rintro ⟨⟩⟩

lemma assignOpAt_droppable {ts : List Token} {op : AssignOp} {count : Nat} (h : Ended ts)
    (hop : assignOpAt ts = some (op, count)) : Droppable ts count := by
  rw [assignOpAt] at hop
  split at hop
  · rename_i m hkind
    have hfirst : headKind ts ≠ .finish := by rw [headKind, hkind]; rintro ⟨⟩
    dsimp only at hop
    split_ifs at hop with hplain hmarks hge
    · obtain ⟨-, rfl⟩ := Prod.mk.inj (Option.some.inj hop)
      exact droppable_one hfirst
    · obtain ⟨-, rfl⟩ := Prod.mk.inj (Option.some.inj hop)
      exact droppable_one hfirst
    · obtain ⟨-, rfl⟩ := Prod.mk.inj (Option.some.inj hop)
      exact droppable_shift h hge
    · obtain ⟨-, rfl⟩ := Prod.mk.inj (Option.some.inj hop)
      exact droppable_shift h hge
  · cases hop

lemma connectiveAt_droppable {ts : List Token} {c : Connective} {count : Nat}
    (hc : connectiveAt ts = some (c, count)) : Droppable ts count := by
  rw [connectiveAt] at hc
  split at hc
  · rename_i hkind
    obtain ⟨-, rfl⟩ := Prod.mk.inj (Option.some.inj hc)
    exact droppable_one (by rw [headKind, hkind]; rintro ⟨⟩)
  · rename_i m hkind
    have hfirst : headKind ts ≠ .finish := by rw [headKind, hkind]; rintro ⟨⟩
    dsimp only at hc
    split_ifs at hc with hm hge hone htwo hmarks
    · obtain ⟨-, rfl⟩ := Prod.mk.inj (Option.some.inj hc)
      exact droppable_one hfirst
    · obtain ⟨-, rfl⟩ := Prod.mk.inj (Option.some.inj hc)
      exact droppable_closers (by omega) (by omega)
    · obtain ⟨-, rfl⟩ := Prod.mk.inj (Option.some.inj hc)
      have hpos : closers ts ≠ 0 := by
        rw [hm] at hkind
        simp only [closers, hkind, decide_true, Bool.not_true, Bool.false_eq_true, if_false]
        split_ifs <;> simp
      exact droppable_closers (by omega) (by omega)
    · obtain ⟨-, rfl⟩ := Prod.mk.inj (Option.some.inj hc)
      exact droppable_one hfirst
  · cases hc

structure ExprsDecide (beyond : List Token) (n : Nat) : Prop where
  expr : Decisive beyond 0 7 n expr
  condition : Decisive beyond 0 6 n condition
  binary (least : Nat) : Decisive beyond 0 5 n (binary · least)
  binaryTail (least most : Nat) (left : Node) :
    Decisive beyond 0 1 n (binaryTail · least most left)
  unary : Decisive beyond 0 4 n unary
  castType (ts : List Token) (m : Nat) : headKind ts = lparen → 16 * ts.length + 1 ≤ n → n ≤ m →
    Decides beyond ts ts (castType n) (castType m) fun o left =>
      left + (if o.isSome then 1 else 0) ≤ ts.length
  operand : Decisive beyond 0 3 n operand
  operandTail (e : Node) : Decisive beyond 0 1 n (operandTail · e)
  args : Decisive beyond 0 1 n args
  exprList : Decisive beyond 0 8 n exprList
  parenthesized : Decisive beyond 0 1 n parenthesized
  primary : Decisive beyond 0 2 n primary
  creation : Decisive beyond 0 1 n creation
  creationDims (extra : Nat) : Decisive beyond 0 1 n (creationDims · extra)
  arrayInit : Decisive beyond 0 1 n arrayInit
  elements : Decisive beyond 0 9 n elements
  initialValue : Decisive beyond 0 8 n initialValue

section

variable {n : Nat} (ih : ExprsDecide beyond n)
include ih

lemma expr_decides : Decisive beyond 0 7 (n + 1) expr := by
  refine .succ fun ts m hn hm => ?_
  rw [expr, expr]
  refine .bind (ih.condition ts m (by omega) hm) fun l rest hrest => .ended fun hended => .get ?_
  rw [assignOpAt_append hended]
  cases hop : assignOpAt rest with
  | none => exact .pure _ (by omega)
  | some p =>
    obtain ⟨op, count⟩ := p
    refine .ite (fun _ => .drop (assignOpAt_droppable hended hop) fun us hus => ?_) fun _ => .reject _
    exact .bind (ih.expr us m (by omega) hm) fun r left _ => .pure _ (by omega)

lemma condition_decides : Decisive beyond 0 6 (n + 1) condition := by
  refine .succ fun ts m hn hm => ?_
  rw [condition, condition]
  refine .bind (ih.binary 0 ts m (by omega) hm) fun c rest hrest => .ifAccept (by decide)
    (fun us hus => ?_) fun _ => .pure _ (by omega)
  refine .bind (ih.expr us m (by omega) hm) fun a left hleft => .expect (by decide) fun _ vs hvs => ?_
  exact .bind (ih.condition vs m (by omega) hm) fun b last _ => .pure _ (by omega)

lemma binaryTail_decides (least most : Nat) (left : Node) :
    Decisive beyond 0 1 (n + 1) (binaryTail · least most left) := by
  refine .succ fun ts m hn hm => ?_
  rw [binaryTail, binaryTail]
  refine .ended fun hended => .get ?_
  rw [connectiveAt_append hended]
  cases hc : connectiveAt ts with
  | none => exact .pure _ (by omega)
  | some p =>
    obtain ⟨c, count⟩ := p
    refine .ite (fun _ => .pure _ (by omega)) fun _ => .drop (connectiveAt_droppable hc) fun us hus => ?_
    cases c with
    | instanceOf =>
      refine .bind ((typesDecide n).type us m (by omega) hm) fun ty rest hrest => ?_
      exact .within (ih.binaryTail least _ _ rest m (by omega) hm) (by omega)
    | operator op =>
      refine .bind (ih.binary _ us m (by omega) hm) fun r rest hrest => ?_
      exact .within (ih.binaryTail least _ _ rest m (by omega) hm) (by omega)

lemma unary_decides : Decisive beyond 0 4 (n + 1) unary := by
  refine .succ fun ts m hn hm => ?_
  rw [unary, unary]
  refine .ifCheckAny (fun hmark => ?_) fun _ => .ifCheck (fun hparen => ?_) fun _ => ?_
  · refine .advance (fun hend => ?_) fun op us hus => ?_
    · rw [hend] at hmark
      exact absurd hmark (by decide)
    · exact .bind (ih.unary us m (by omega) hm) fun e rest _ => .pure _ (by omega)
  · refine .bind (ih.castType ts m hparen (by omega) hm) fun o rest hrest => ?_
    cases o with
    | none => exact .within (ih.operand rest m (by simp at hrest; omega) hm) (by simpa using hrest)
    | some ty =>
      simp only [Option.isSome_some, if_true] at hrest
      exact .bind (ih.unary rest m (by omega) hm) fun e left _ => .pure _ (by omega)
  · exact ih.operand ts m (by omega) hm

omit ih in
lemma castType_decides {ts : List Token} {m : Nat} (hparen : headKind ts = lparen)
    (hn : 16 * ts.length + 1 ≤ n + 1) (hm : n ≤ m) :
    Decides beyond ts ts (castType (n + 1)) (castType (m + 1)) fun o left =>
      left + (if o.isSome then 1 else 0) ≤ ts.length := by
  rw [castType, castType]
  refine .ended fun hended => .get ?_
  have hgiveUp : ∀ us, Decides beyond ts us (do set ts; return none) (do set (ts ++ beyond); return none)
      fun (o : Option Node) left => left + (if o.isSome then 1 else 0) ≤ ts.length :=
    fun us => .rewind hended (List.suffix_refl ts) (.pure _ (by simp))
  refine .advance (by rw [hparen]; rintro ⟨⟩) fun t us hus => .ifCheckAny (fun _ => ?_) fun _ => ?_
  · refine .bind ((typesDecide n).type us m (by omega) hm) fun ty rest hrest => ?_
    exact .expect (by decide) fun _ left hleft => .pure _ (by simp; omega)
  · refine .ifCheck (fun _ => ?_) fun _ => hgiveUp us
    refine .attempt ((typesDecide n).type us m (by omega) hm) (fun ty rest hrest => ?_) (hgiveUp us)
    refine .ifAccept (by decide) (fun vs hvs => .ifCheckAny (fun _ => .pure _ (by simp; omega))
      fun _ => hgiveUp vs) fun _ => hgiveUp rest

lemma operandTail_decides (e : Node) : Decisive beyond 0 1 (n + 1) (operandTail · e) := by
  refine .succ fun ts m hn hm => ?_
  rw [operandTail, operandTail]
  refine .ifAccept (by decide) (fun us hus => ?_) fun _ => .ifAccept (by decide) (fun us hus => ?_)
    fun _ => .ifCheckAny (fun hmark => ?_) fun _ => .pure _ (by omega)
  · refine .expect (by decide) fun x vs hvs => .ifCheck (fun _ => ?_) fun _ => ?_
    · refine .bind (ih.args vs m (by omega) hm) fun as rest hrest => ?_
      exact .within (ih.operandTail _ rest m (by omega) hm) (by omega)
    · exact .within (ih.operandTail _ vs m (by omega) hm) (by omega)
  · refine .bind (ih.expr us m (by omega) hm) fun i rest hrest => .expect (by decide) fun _ vs hvs => ?_
    exact .within (ih.operandTail _ vs m (by omega) hm) (by omega)
  · refine .advance (fun hend => ?_) fun op us hus => ?_
    · rw [hend] at hmark
      exact absurd hmark (by decide)
    · exact .within (ih.operandTail _ us m (by omega) hm) (by omega)

lemma call_decides {origin us : List Token} {m : Nat} (hus : us.length + 1 = origin.length)
    (hn : 16 * us.length + 1 ≤ n) (hm : n ≤ m) (f : List Node → Node) (e : Node) :
    Decides beyond origin us (do if ← check lparen then return f (← args n) else return e)
      (do if ← check lparen then return f (← args m) else return e)
      fun _ left => left + 0 ≤ origin.length := by
  refine .ifCheck (fun _ => ?_) fun _ => .pure _ (by omega)
  exact .bind (ih.args us m hn hm) fun as rest _ => .pure _ (by omega)

lemma primary_decides : Decisive beyond 0 2 (n + 1) primary := by
  refine .succ fun ts m hn hm => ?_
  rw [primary, primary]
  refine .current ?_
  split
  · rename_i k hk
    exact .advance (by rw [headKind, hk]; rintro ⟨⟩) fun _ us _ => .pure _ (by omega)
  · rename_i hk
    refine .advance (by rw [headKind, hk]; rintro ⟨⟩) fun _ us hus => ?_
    exact call_decides ih hus (by omega) hm _ _
  · rename_i hk
    exact .advance (by rw [headKind, hk]; rintro ⟨⟩) fun _ us _ => .pure _ (by omega)
  · rename_i hk
    exact .advance (by rw [headKind, hk]; rintro ⟨⟩) fun _ us _ => .pure _ (by omega)
  · rename_i hk
    exact .advance (by rw [headKind, hk]; rintro ⟨⟩) fun _ us _ => .pure _ (by omega)
  · rename_i hk
    refine .advance (by rw [headKind, hk]; rintro ⟨⟩) fun _ us hus => ?_
    exact call_decides ih hus (by omega) hm _ _
  · rename_i hk
    refine .advance (by rw [headKind, hk]; rintro ⟨⟩) fun _ us hus => ?_
    exact call_decides ih hus (by omega) hm _ _
  · exact ih.creation ts m (by omega) hm
  · exact .bind (ih.parenthesized ts m (by omega) hm) fun e rest _ => .pure _ (by omega)
  · exact .reject _

lemma creation_decides : Decisive beyond 0 1 (n + 1) creation := by
  refine .succ fun ts m hn hm => ?_
  rw [creation, creation]
  refine .expect (by decide) fun _ us hus => ?_
  refine .bind ((typesDecide n).bareType us m (by omega) hm) fun f rest hrest => .ifCheck (fun _ => ?_)
    fun _ => ?_
  · refine .bind (ih.creationDims 0 rest m (by omega) hm) fun p left hleft => ?_
    obtain ⟨ds, extra⟩ := p
    refine .ifCheck (fun _ => .ite (fun _ => ?_) fun _ => .reject _) fun _ =>
      .ite (fun _ => .reject _) fun _ => .pure _ (by omega)
    exact .bind (ih.arrayInit left m (by omega) hm) fun i last _ => .pure _ (by omega)
  · exact .bind (ih.args rest m (by omega) hm) fun as left _ => .ifCheck (fun _ => .reject _) fun _ =>
      .pure _ (by omega)

lemma creationDims_decides (extra : Nat) : Decisive beyond 0 1 (n + 1) (creationDims · extra) := by
  refine .succ fun ts m hn hm => ?_
  rw [creationDims, creationDims]
  refine .ifAccept (by decide) (fun us hus => .ifAccept (by decide) (fun vs hvs => ?_) fun _ =>
    .ite (fun _ => .reject _) fun _ => ?_) fun _ => .pure _ (by omega)
  · exact .within (ih.creationDims _ vs m (by omega) hm) (by omega)
  · refine .bind (ih.expr us m (by omega) hm) fun e rest hrest => .expect (by decide) fun _ vs hvs => ?_
    exact .bind (ih.creationDims extra vs m (by omega) hm) fun p left _ => .pure _ (by omega)

lemma elements_decides : Decisive beyond 0 9 (n + 1) elements := by
  refine .succ fun ts m hn hm => ?_
  rw [elements, elements]
  refine .ifCheck (fun _ => .pure _ (by omega)) fun _ => ?_
  refine .bind (ih.initialValue ts m (by omega) hm) fun v rest hrest => .ifAccept (by decide)
    (fun us hus => ?_) fun _ => .pure _ (by omega)
  exact .bind (ih.elements us m (by omega) hm) fun vs left _ => .pure _ (by omega)

end

lemma exprsDecide (n : Nat) : ExprsDecide beyond n := by
  induction n with
  | zero =>
    constructor
    case castType => exact fun _ _ _ hn => by omega
    all_goals intros; exact .zero (by omega)
  | succ n ih =>
    constructor
    case expr => exact expr_decides ih
    case condition => exact condition_decides ih
    case binary =>
      refine fun least => .succ fun ts m hn hm => ?_
      rw [binary, binary]
      refine .bind (ih.unary ts m (by omega) hm) fun l rest hrest => ?_
      exact .within (ih.binaryTail least 9 l rest m (by omega) hm) (by omega)
    case binaryTail => exact binaryTail_decides ih
    case unary => exact unary_decides ih
    case castType =>
      intro ts m hparen hn hm
      obtain ⟨m, rfl⟩ := Nat.exists_eq_add_of_lt hm
      exact castType_decides hparen hn (by omega)
    case operand =>
      refine .succ fun ts m hn hm => ?_
      rw [operand, operand]
      refine .bind (ih.primary ts m (by omega) hm) fun e rest hrest => ?_
      exact .within (ih.operandTail e rest m (by omega) hm) (by omega)
    case operandTail => exact operandTail_decides ih
    case args =>
      refine .succ fun ts m hn hm => ?_
      rw [args, args]
      refine .expect (by decide) fun _ us hus => .ifAccept (by decide) (fun vs _ => .pure _ (by omega))
        fun _ => ?_
      refine .bind (ih.exprList us m (by omega) hm) fun es rest hrest => ?_
      exact .expect (by decide) fun _ left _ => .pure _ (by omega)
    case exprList =>
      refine .succ fun ts m hn hm => ?_
      rw [exprList, exprList]
      refine .bind (ih.expr ts m (by omega) hm) fun e rest hrest => .ifAccept (by decide)
        (fun us hus => ?_) fun _ => .pure _ (by omega)
      exact .bind (ih.exprList us m (by omega) hm) fun es left _ => .pure _ (by omega)
    case parenthesized =>
      refine .succ fun ts m hn hm => ?_
      rw [parenthesized, parenthesized]
      refine .expect (by decide) fun _ us hus => .bind (ih.expr us m (by omega) hm) fun e rest hrest => ?_
      exact .expect (by decide) fun _ left _ => .pure _ (by omega)
    case primary => exact primary_decides ih
    case creation => exact creation_decides ih
    case creationDims => exact creationDims_decides ih
    case arrayInit =>
      refine .succ fun ts m hn hm => ?_
      rw [arrayInit, arrayInit]
      refine .expect (by decide) fun _ us hus => .bind (ih.elements us m (by omega) hm)
        fun vs rest hrest => ?_
      exact .expect (by decide) fun _ left _ => .pure _ (by omega)
    case elements => exact elements_decides ih
    case initialValue =>
      refine .succ fun ts m hn hm => ?_
      rw [initialValue, initialValue]
      exact .ifCheck (fun _ => ih.arrayInit ts m (by omega) hm) fun _ => ih.expr ts m (by omega) hm

end LoopLowering.Grammar
