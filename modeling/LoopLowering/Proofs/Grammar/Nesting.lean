import LoopLowering.Proofs.Grammar.Consumption
import LoopLowering.Proofs.Grammar.TypeReading

/-! Parentheses are balanced in the items of an expression. An expression in parentheses is therefore
not taken for a cast unless an operand follows. -/

namespace LoopLowering

open Grammar Layout

def Flat (k : TokenKind) : Prop := k ≠ lparen ∧ k ≠ rparen

instance : DecidablePred Flat := fun k => inferInstanceAs (Decidable (k ≠ lparen ∧ k ≠ rparen))

lemma flat_ident : Flat .ident := by decide

lemma flat_word (w : String) : Flat (.word w) := ⟨nofun, nofun⟩

lemma flat_literal (k : LiteralKind) : Flat (.literal k) := ⟨nofun, nofun⟩

lemma flat_of_inType {k : TokenKind} (h : InType k) : Flat k := by
  simp only [InType, List.mem_cons, not_or] at h
  exact ⟨h.1, h.2.1⟩

def Item.opens (is : List Item) : Nat := is.countP fun i => i.kind = lparen

def Item.closes (is : List Item) : Nat := is.countP fun i => i.kind = rparen

structure Balanced (is : List Item) : Prop where
  total : Item.closes is = Item.opens is
  before : ∀ p, p <+: is → Item.closes p ≤ Item.opens p

namespace Balanced

variable {is js : List Item}

lemma append (hi : Balanced is) (hj : Balanced js) : Balanced (is ++ js) := by
  refine ⟨by simp only [Item.closes, Item.opens, List.countP_append]; exact congrArg₂ _ hi.1 hj.1,
    fun p hp => ?_⟩
  rcases Nat.le_total p.length is.length with hle | hle
  · exact hi.before p (List.prefix_of_prefix_length_le hp (List.prefix_append is js) hle)
  · obtain ⟨q, rfl⟩ := List.prefix_of_prefix_length_le (List.prefix_append is js) hp hle
    have hq := hj.before q ((List.prefix_append_right_inj is).mp hp)
    have htotal := hi.total
    simp only [Item.closes, Item.opens, List.countP_append] at htotal hq ⊢
    omega

lemma of_flat (h : ∀ i ∈ is, Flat i.kind) : Balanced is := by
  have hnone : ∀ p : List Item, (∀ i ∈ p, Flat i.kind) → Item.closes p = 0 ∧ Item.opens p = 0 := by
    intro p hp
    simp only [Item.closes, Item.opens, List.countP_eq_zero, decide_eq_true_eq]
    exact ⟨fun i hi => (hp i hi).2, fun i hi => (hp i hi).1⟩
  refine ⟨by rw [(hnone is h).1, (hnone is h).2], fun p hp => ?_⟩
  rw [(hnone p fun i hi => h i (hp.subset hi)).1]
  exact Nat.zero_le _

lemma nil : Balanced [] := of_flat (by simp)

lemma single {i : Item} (hi : Flat i.kind) : Balanced [i] := of_flat (by simpa using hi)

lemma cons {i : Item} (hi : Flat i.kind) (h : Balanced is) : Balanced (i :: is) :=
  (single hi).append h

lemma concat {i : Item} (hi : Flat i.kind) (h : Balanced is) : Balanced (is ++ [i]) :=
  h.append (single hi)

lemma parenthesized (h : Balanced is) : Balanced (Item.parenthesized is) := by
  have hcounts : ∀ p, Item.closes (Item.mark "(" :: p) = Item.closes p ∧
      Item.opens (Item.mark "(" :: p) = Item.opens p + 1 := by
    intro p
    simp [Item.closes, Item.opens, Item.mark, lparen, rparen]
  have hlast : ∀ p, Item.closes (p ++ [Item.mark ")"]) = Item.closes p + 1 ∧
      Item.opens (p ++ [Item.mark ")"]) = Item.opens p := by
    intro p
    simp [Item.closes, Item.opens, Item.mark, lparen, rparen]
  have htotal := h.total
  rw [Item.parenthesized, List.cons_append]
  refine ⟨by rw [(hcounts _).1, (hcounts _).2, (hlast _).1, (hlast _).2]; omega, fun p hp => ?_⟩
  cases p with
  | nil => exact Nat.le_refl _
  | cons i q =>
    obtain ⟨rfl, hq⟩ := List.cons_prefix_cons.mp hp
    rw [(hcounts q).1, (hcounts q).2]
    rcases List.prefix_concat_iff.mp hq with rfl | hq
    · rw [(hlast is).1, (hlast is).2]
      omega
    · have := h.before q hq
      omega

lemma separated {m : String} (hm : Flat (.mark m)) {iss : List (List Item)}
    (h : ∀ is ∈ iss, Balanced is) : Balanced (Item.separated m iss) := by
  rw [Item.separated]
  induction iss with
  | nil => exact nil
  | cons is iss ih =>
    have his := h is List.mem_cons_self
    cases iss with
    | nil => simpa using his
    | cons js iss =>
      rw [List.intercalate_cons_cons]
      exact (his.concat hm).append (ih fun k hk => h k (List.mem_cons_of_mem is hk))

lemma flatMap {α : Type} {f : α → List Item} {as : List α} (h : ∀ a ∈ as, Balanced (f a)) :
    Balanced (as.flatMap f) := by
  induction as with
  | nil => exact nil
  | cons a as ih =>
    rw [List.flatMap_cons]
    exact (h a List.mem_cons_self).append (ih fun b hb => h b (List.mem_cons_of_mem a hb))

end Balanced

lemma forall_separated {Q : Item → Prop} {m : String} (hm : Q (Item.mark m))
    {iss : List (List Item)} (h : ∀ is ∈ iss, ∀ i ∈ is, Q i) : ∀ i ∈ Item.separated m iss, Q i := by
  rw [Item.separated]
  induction iss with
  | nil => simp
  | cons is iss ih =>
    have his := h is List.mem_cons_self
    have hrest := ih fun k hk => h k (List.mem_cons_of_mem is hk)
    cases iss with
    | nil => simpa using his
    | cons js iss =>
      rw [List.intercalate_cons_cons, List.forall_mem_append, List.forall_mem_append,
        List.forall_mem_singleton]
      exact ⟨⟨his, hm⟩, hrest⟩

def typeKinds : List TokenKind :=
  [.ident, dot, comma, lbracket, rbracket, .mark "<", .mark ">", .mark "?", .word "extends",
    .word "super"] ++ primitiveTypes

def Item.OfType (i : Item) : Prop := i.kind ∈ typeKinds ∧ i.glued = false

lemma ofName_ofType {x : String} (hx : x ∈ primitiveNames ∨ IsQualified x) :
    ∀ i ∈ Item.ofName x, i.OfType := by
  rcases hx with hx | hx
  · rw [(primitiveNames_reserved x hx).2, List.forall_mem_singleton]
    exact ⟨List.mem_append_right _ (List.mem_map_of_mem hx), rfl⟩
  · refine forall_separated ⟨by decide, rfl⟩ ?_
    intro is his
    obtain ⟨p, hp, rfl⟩ := List.mem_map.mp his
    rw [IsName.ofText (hx p hp), List.forall_mem_singleton]
    exact ⟨List.mem_cons_self, rfl⟩

lemma brackets_ofType (d : Nat) : ∀ i ∈ Item.brackets d, i.OfType := by
  intro i hi
  obtain ⟨is, his, hi⟩ := List.mem_flatten.mp hi
  obtain rfl := List.eq_of_mem_replicate his
  fin_cases hi <;> exact ⟨by decide, rfl⟩

variable {P : Tag → Shape Node → Prop}

lemma typeTree_ofType {w : Bool} {a : Node} (h : TypeTree P w a) : ∀ i ∈ a.items, i.OfType := by
  have hplain : ∀ {x : String} (t : Tag) (d : Nat), x ∈ primitiveNames ∨ IsQualified x →
      ∀ i ∈ (Node.mk t (.typeRef x d none)).items, i.OfType := by
    intro x t d hx
    rw [Node.items_typeRef, List.forall_mem_append]
    exact ⟨ofName_ofType hx, brackets_ofType d⟩
  induction h with
  | primitive name _ => exact hplain _ _ (.inl name)
  | named name _ => exact hplain _ _ (.inr name)
  | @generic w t x d as name _ _ ih =>
    rw [Node.items_typeRef, List.forall_mem_append, List.forall_mem_append]
    refine ⟨ofName_ofType (.inr name), ?_, brackets_ofType d⟩
    rw [Option.map_some, Option.getD_some, List.cons_append, List.forall_mem_cons,
      List.forall_mem_append, List.forall_mem_singleton]
    refine ⟨⟨by decide, rfl⟩, ?_, by decide, rfl⟩
    exact forall_separated ⟨by decide, rfl⟩ (List.forall_mem_map.mpr ih)
  | anything _ => exact List.forall_mem_singleton.mpr ⟨by decide, rfl⟩
  | @bounded t k b word _ _ ih =>
    have key : ∀ k ∈ ["extends", "super"], TokenKind.word k ∈ typeKinds := by decide
    exact List.forall_mem_cons.mpr ⟨⟨by decide, rfl⟩, List.forall_mem_cons.mpr ⟨⟨key k word, rfl⟩, ih⟩⟩

lemma Balanced.of_ofType {is : List Item} (h : ∀ i ∈ is, i.OfType) : Balanced is := by
  have key : ∀ k ∈ typeKinds, Flat k := by decide
  exact .of_flat fun i hi => key _ (h i hi).1

lemma Balanced.type {w : Bool} {a : Node} (h : TypeTree P w a) : Balanced a.items :=
  .of_ofType (typeTree_ofType h)

lemma Balanced.args {as : List Node} (h : ∀ a ∈ as, Balanced a.items) :
    Balanced (Item.listed (as.map Node.items)) :=
  .separated (by decide) fun is his => by
    obtain ⟨a, ha, rfl⟩ := List.mem_map.mp his
    exact h a ha

lemma ofBinary_flat : ∀ op ∈ BinaryOp.known, ∀ i ∈ Item.ofBinary op, Flat i.kind := by
  have key : ∀ op ∈ BinaryOp.known, ∀ k ∈ (Item.ofBinary op).map (·.kind), Flat k := by decide
  exact fun op hop i hi => key op hop _ (List.mem_map_of_mem hi)

lemma ofAssign_flat {op : AssignOp} (hop : op.Known) : ∀ i ∈ Item.ofAssign op, Flat i.kind := by
  have key : ∀ op ∈ assignable, ∀ k ∈ (Item.ofAssign (.compound op)).map (·.kind), Flat k := by
    decide
  cases op with
  | plain => exact List.forall_mem_singleton.mpr (by decide)
  | compound op => exact fun i hi => key op hop _ (List.mem_map_of_mem hi)
  | other x => cases hop

lemma balanced_items {v : Bool} {e : Node} (h : ExprTree P v e) : Balanced e.items := by
  induction h with
  | @literal v t c k holds _ =>
    cases k <;> first | exact .single (flat_literal _) | exact .single (flat_word _)
  | ident _ _ => exact .single flat_ident
  | this _ => exact .single (flat_word _)
  | super _ => exact .single (flat_word _)
  | parens _ _ ih => exact ih.parenthesized
  | fieldAccess _ _ _ ih => exact ih.append ((Balanced.single flat_ident).cons (by decide))
  | arrayAccess _ _ _ ihe ihi => exact (ihe.append (ihi.cons (by decide))).concat (by decide)
  | @call v t x as name _ _ ih =>
    rw [Node.items_call]
    refine (Balanced.args ih).parenthesized.cons ?_
    rw [Item.ofText]
    split
    · exact flat_word x
    · exact flat_ident
  | @methodCall v t x e as name _ _ _ ihe ih =>
    rw [Node.items_methodCall]
    exact ihe.append (((Balanced.args ih).parenthesized.cons flat_ident).cons (by decide))
  | objectCreation type _ _ _ ih =>
    rw [Node.items_objectCreation]
    exact ((Balanced.type type).append (Balanced.args ih).parenthesized).cons (by decide)
  | @arrayCreation v t n ty ds o type _ _ _ _ _ ihd ihi =>
    rw [Node.items_arrayCreation]
    refine Balanced.cons (by decide) ((Balanced.type type).append (.append ?_ (.append
      (.of_ofType (brackets_ofType n)) ?_)))
    · exact .flatMap fun d hd => ((ihd d hd).cons (by decide)).concat (by decide)
    · cases o with
      | none => exact .nil
      | some i => exact ihi i rfl
  | arrayInit _ _ ih =>
    rw [Node.items_arrayInit]
    exact ((Balanced.args ih).cons (by decide)).concat (by decide)
  | assign known _ _ _ _ ihl ihr => exact (ihl.append (.of_flat (ofAssign_flat known))).append ihr
  | binary known _ _ _ ihl ihr => exact (ihl.append (.of_flat (ofBinary_flat _ known))).append ihr
  | @before v t op e known _ _ ih => exact ih.cons (by fin_cases known <;> decide)
  | @after v t op e known _ _ ih => exact ih.concat (by fin_cases known <;> decide)
  | conditional _ _ _ _ ihc iha ihb =>
    exact (ihc.append (iha.cons (by decide))).append (ihb.cons (by decide))
  | cast type _ _ ih => exact (Balanced.type type).parenthesized.append ih
  | instanceOf _ type _ ih => exact ih.append ((Balanced.type type).cons (by decide))

def StartsExpr : TokenKind → Prop
  | .ident | .literal _ => True
  | .word w => w ∈ ["true", "false", "null", "this", "super", "new"]
  | .mark m => m ∈ ["(", "++", "--", "+", "-", "!", "~"]
  | .finish => False

lemma head?_append_of {is : List Item} {i : Item} (h : is.head? = some i) (js : List Item) :
    (is ++ js).head? = some i := by
  rw [List.head?_append, h]
  rfl

lemma exprTree_start {v : Bool} {e : Node} (h : ExprTree P v e) :
    ∃ i, e.items.head? = some i ∧ (StartsExpr i.kind ∨ v = true ∧ i.kind = lbrace) := by
  have hfirst : ∀ {v : Bool} {e : Node} (is : List Item),
      (∃ i, e.items.head? = some i ∧ (StartsExpr i.kind ∨ false = true ∧ i.kind = lbrace)) →
        ∃ i, (e.items ++ is).head? = some i ∧ (StartsExpr i.kind ∨ v = true ∧ i.kind = lbrace) := by
    rintro v e is ⟨i, hi, hk⟩
    exact ⟨i, head?_append_of hi is, .inl (hk.resolve_right (by simp))⟩
  have hword : ∀ w ∈ ["true", "false", "null", "this", "super", "new"], StartsExpr (.word w) :=
    fun w hw => hw
  induction h with
  | @literal v t c k holds _ =>
    cases k with
    | boolean =>
      obtain ⟨b, rfl⟩ := holds
      cases b <;> exact ⟨_, rfl, .inl (hword _ (by decide))⟩
    | null => exact ⟨_, rfl, .inl (hword "null" (by decide))⟩
    | _ => exact ⟨_, rfl, .inl trivial⟩
  | ident _ _ => exact ⟨_, rfl, .inl trivial⟩
  | this _ => exact ⟨_, rfl, .inl (hword "this" (by decide))⟩
  | super _ => exact ⟨_, rfl, .inl (hword "super" (by decide))⟩
  | parens _ _ _ => exact ⟨Item.mark "(", rfl, .inl (by simp [StartsExpr, Item.mark])⟩
  | fieldAccess _ _ _ ih => exact hfirst _ ih
  | @arrayAccess v t e i _ _ _ ih _ =>
    rw [Node.items_arrayAccess]
    exact hfirst _ ih
  | @call v t x as name _ _ _ =>
    rw [Node.items_call]
    refine ⟨_, rfl, .inl ?_⟩
    rcases name with name | rfl | rfl
    · rw [IsName.ofText name]
      trivial
    · exact hword "this" (by decide)
    · exact hword "super" (by decide)
  | @methodCall v t x e as _ _ _ _ ih _ =>
    rw [Node.items_methodCall]
    exact hfirst _ ih
  | @objectCreation v t ty as _ _ _ _ _ =>
    rw [Node.items_objectCreation]
    exact ⟨_, rfl, .inl (hword "new" (by decide))⟩
  | @arrayCreation v t n ty ds o _ _ _ _ _ _ _ _ =>
    rw [Node.items_arrayCreation]
    exact ⟨_, rfl, .inl (hword "new" (by decide))⟩
  | @arrayInit t vs _ _ _ =>
    rw [Node.items_arrayInit]
    exact ⟨_, rfl, .inr ⟨rfl, rfl⟩⟩
  | @assign v t op l r _ _ _ _ _ ih _ =>
    rw [Node.items_assign]
    exact hfirst _ ih
  | @binary v t op l r _ _ _ _ ih _ =>
    rw [Node.items_binary]
    exact hfirst _ ih
  | @before v t op e known _ _ _ =>
    have key : ∀ op ∈ UnaryOp.known, op.symbol ∈ ["(", "++", "--", "+", "-", "!", "~"] := by decide
    exact ⟨_, rfl, .inl (key op known)⟩
  | after _ _ _ ih => exact hfirst _ ih
  | @conditional v t c a b _ _ _ _ ih _ _ =>
    rw [Node.items_conditional]
    exact hfirst _ ih
  | cast _ _ _ _ => exact ⟨Item.mark "(", rfl, .inl (by simp [StartsExpr, Item.mark])⟩
  | instanceOf _ _ _ ih => exact hfirst _ ih

lemma realizes_kinds {is : List Item} {us : List Token} (h : Realizes is us) :
    us.map (·.kind) = is.map (·.kind) := by
  induction h with
  | nil => rfl
  | cons kind _ _ _ ih => rw [List.map_cons, List.map_cons, kind, ih]

lemma Balanced.eq_of_append {is : List Item} (hb : Balanced is) {us used rest rest' : List Token}
    (h : Realizes is us) {r r' : Token} (hr : r.kind = rparen) (hr' : r'.kind = rparen)
    (hused : ∀ t ∈ used, Flat t.kind) (heq : us ++ r :: rest = used ++ r' :: rest') :
    used = us ∧ rest' = rest := by
  rcases List.append_eq_append_iff.mp heq with ⟨more, rfl, hmore⟩ | ⟨more, rfl, hmore⟩
  · cases more with
    | nil => exact ⟨by simp, (List.cons.inj hmore).2.symm⟩
    | cons t more =>
      obtain ⟨rfl, -⟩ := List.cons.inj hmore
      exact absurd hr (hused r (by simp)).2
  · cases more with
    | nil => exact ⟨by simp, (List.cons.inj hmore).2⟩
    | cons t more =>
      obtain ⟨rfl, -⟩ := List.cons.inj hmore
      -- The prefix that ends with this parenthesis would close one that is not open.
      have hkinds : (is.take (used.length + 1)).map (·.kind) = used.map (·.kind) ++ [rparen] := by
        rw [List.map_take, ← realizes_kinds h, List.map_append, List.map_cons, hr',
          List.take_append, List.length_map, Nat.add_sub_cancel_left, List.take_of_length_le (by simp)]
        rfl
      have hbefore := hb.before _ (List.take_prefix (used.length + 1) is)
      have hcloses : Item.closes (is.take (used.length + 1)) =
          ((is.take (used.length + 1)).map (·.kind)).countP (· = rparen) := by
        rw [List.countP_map]
        rfl
      have hopens : Item.opens (is.take (used.length + 1)) =
          ((is.take (used.length + 1)).map (·.kind)).countP (· = lparen) := by
        rw [List.countP_map]
        rfl
      have hnone : (used.map (·.kind)).countP (· = lparen) = 0 := by
        rw [List.countP_eq_zero]
        intro k hk
        obtain ⟨t, ht, rfl⟩ := List.mem_map.mp hk
        simpa using (hused t ht).1
      rw [hcloses, hopens, hkinds, List.countP_append, List.countP_append, hnone] at hbefore
      simp [lparen, rparen] at hbefore

namespace Grammar

lemma castType_none {e : Node} (he : ExprTree P false e) {n : Nat} {us rest : List Token}
    (h : Realizes e.items us) {l r : Token} (hl : l.kind = lparen) (hr : r.kind = rparen)
    (hn : 16 * (us ++ r :: rest).length + 9 ≤ n) (hrest : headKind rest ∉ castFollow) :
    castType n (l :: (us ++ r :: rest)) = .ok (none, l :: (us ++ r :: rest)) := by
  obtain ⟨n, rfl⟩ : ∃ m, n = m + 1 := ⟨n - 1, by omega⟩
  obtain ⟨i, hi, hstart⟩ := exprTree_start he
  have hstart := hstart.resolve_right (by simp)
  have hhead : headKind (us ++ r :: rest) = i.kind := headKind_items h hi _
  have hprimitive : headKind (us ++ r :: rest) ∉ primitiveTypes := by
    rw [hhead]
    intro hmem
    obtain ⟨x, hx, heq⟩ := List.mem_map.mp hmem
    rw [← heq] at hstart
    have key : ∀ x ∈ ["boolean", "byte", "char", "short", "int", "long", "float", "double"],
      x ∉ ["true", "false", "null", "this", "super", "new"] := by decide
    exact key x hx hstart
  rw [castType, bind_of_ok (get_run _), bind_of_ok (advance_cons (by rw [hl]; decide)),
    bind_of_ok (checkAny_no hprimitive), if_neg (by simp)]
  by_cases hident : headKind (us ++ r :: rest) = .ident
  · rw [bind_of_ok (check_yes hident), if_pos rfl]
    obtain ⟨hdone, hused⟩ := (typesConsume n).type (us ++ r :: rest) (by omega)
    cases htype : type n (us ++ r :: rest) with
    | error f =>
      cases f with
      | exhausted => exact absurd htype hdone
      | rejected cause found =>
        rw [bind_of_ok (a := none) (l := us ++ r :: rest) (by rw [attempt, htype])]
        rfl
    | ok res =>
      obtain ⟨ty, ts⟩ := res
      rw [bind_of_ok (attempt_ok htype)]
      obtain ⟨used, heq, hflat⟩ := hused ty ts htype
      by_cases hclose : headKind ts = rparen
      · cases ts with
        | nil => cases hclose
        | cons r' rest' =>
          obtain ⟨-, rfl⟩ := (balanced_items he).eq_of_append h hr hclose
            (fun t ht => flat_of_inType (hflat t ht)) heq
          simp only []
          rw [bind_of_ok (accept_yes (t := r') hclose (by decide)), if_pos rfl,
            bind_of_ok (checkAny_no hrest), if_neg (by simp)]
          rfl
      · simp only []
        rw [bind_of_ok (accept_no hclose), if_neg (by simp)]
        rfl
  · rw [bind_of_ok (check_no hident), if_neg (by simp)]
    rfl

end Grammar

end LoopLowering
