import LoopLowering.Proofs.Grammar.Running

/-! The rules for types end in a type or in a rejected token when their bound is large enough, and
they never go across a parenthesis. -/

namespace LoopLowering.Grammar

def Consumes {α : Type} (K : TokenKind → Prop) (p : Parser α) (ts : List Token) : Prop :=
  p ts ≠ .error .exhausted ∧
    ∀ a rest, p ts = .ok (a, rest) → ∃ used, ts = used ++ rest ∧ ∀ t ∈ used, K t.kind

namespace Consumes

variable {α β : Type} {K : TokenKind → Prop} {p : Parser α} {f : α → Parser β} {ts : List Token}

lemma length_le (h : Consumes K p ts) {a : α} {rest : List Token} (hp : p ts = .ok (a, rest)) :
    rest.length ≤ ts.length := by
  obtain ⟨used, rfl, -⟩ := h.2 a rest hp
  simp

lemma pure (a : α) : Consumes K (pure a) ts := by
  refine ⟨by simp, ?_⟩
  rintro b rest ⟨⟩
  exact ⟨[], rfl, by simp⟩

lemma bind (hp : Consumes K p ts)
    (hf : ∀ a rest, p ts = .ok (a, rest) → Consumes K (f a) rest) : Consumes K (p >>= f) ts := by
  cases hrun : p ts with
  | error e =>
    have hbind : (p >>= f) ts = .error e := by simp only [Bind.bind, StateT.bind, hrun, Except.bind]
    refine ⟨?_, ?_⟩
    · rw [hbind]
      rintro ⟨⟩
      exact hp.1 hrun
    · rw [hbind]
      rintro _ _ ⟨⟩
  | ok r =>
    obtain ⟨a, rest⟩ := r
    obtain ⟨used, rfl, hused⟩ := hp.2 a rest hrun
    have hrest := hf a rest hrun
    rw [Consumes, bind_of_ok hrun]
    refine ⟨hrest.1, fun b rest' hb => ?_⟩
    obtain ⟨more, rfl, hmore⟩ := hrest.2 b rest' hb
    refine ⟨used ++ more, by simp, fun t ht => ?_⟩
    rcases List.mem_append.mp ht with ht | ht
    · exact hused t ht
    · exact hmore t ht

lemma ite {c : Prop} [Decidable c] {q r : Parser α} (hq : Consumes K q ts) (hr : Consumes K r ts) :
    Consumes K (if c then q else r) ts := by
  split
  · exact hq
  · exact hr

lemma look {a : α} (h : p ts = .ok (a, ts)) (hf : Consumes K (f a) ts) : Consumes K (p >>= f) ts := by
  rw [Consumes, bind_of_ok h]
  exact hf

end Consumes

section

variable {K : TokenKind → Prop} {k : TokenKind} {ts : List Token}

lemma advance_consumes (hK : headKind ts = .finish ∨ K (headKind ts)) : Consumes K advance ts := by
  refine ⟨by simp [advance], ?_⟩
  intro t rest h
  cases ts with
  | nil =>
    obtain ⟨-, rfl⟩ := Prod.mk.inj (Except.ok.inj h)
    exact ⟨[], by simp [tokenAt, endToken], by simp⟩
  | cons u us =>
    obtain ⟨-, rfl⟩ := Prod.mk.inj (Except.ok.inj h)
    by_cases hu : u.kind = .finish
    · exact ⟨[], by simp [hu], by simp⟩
    · exact ⟨[u], by simp [hu], by simpa using hK.resolve_left hu⟩

lemma expect_consumes (hK : K k) : Consumes K (expect k) ts := by
  rw [expect]
  by_cases h : headKind ts = k
  · refine .look (check_yes h) ?_
    rw [if_pos rfl]
    exact advance_consumes (.inr (h ▸ hK))
  · refine .look (check_no h) ?_
    rw [if_neg (by simp)]
    exact ⟨by rintro ⟨⟩, by rintro _ _ ⟨⟩⟩

lemma expect_ok {t : Token} {rest : List Token} (hk : k ≠ .finish)
    (h : expect k ts = .ok (t, rest)) : ts = t :: rest ∧ t.kind = k := by
  by_cases hts : headKind ts = k
  · cases ts with
    | nil => exact absurd hts.symm hk
    | cons u us =>
      rw [expect_yes (t := u) hts hk] at h
      obtain ⟨rfl, rfl⟩ := Prod.mk.inj (Except.ok.inj h)
      exact ⟨rfl, hts⟩
  · rw [expect, bind_of_ok (check_no hts), if_neg (by simp)] at h
    cases h

lemma accept_consumes (hK : K k) : Consumes K (accept k) ts := by
  rw [accept]
  by_cases h : headKind ts = k
  · refine .look (check_yes h) ?_
    rw [if_pos rfl]
    exact .bind (advance_consumes (.inr (h ▸ hK))) fun _ _ _ => .pure _
  · refine .look (check_no h) ?_
    rw [if_neg (by simp)]
    exact .pure _

lemma accept_ok {b : Bool} {rest : List Token} (hk : k ≠ .finish)
    (h : accept k ts = .ok (b, rest)) :
    (b = true ∧ ∃ t, ts = t :: rest ∧ t.kind = k) ∨ (b = false ∧ rest = ts ∧ headKind ts ≠ k) := by
  by_cases hts : headKind ts = k
  · cases ts with
    | nil => exact absurd hts.symm hk
    | cons u us =>
      rw [accept_yes (t := u) hts hk] at h
      obtain ⟨rfl, rfl⟩ := Prod.mk.inj (Except.ok.inj h)
      exact .inl ⟨rfl, u, rfl, hts⟩
  · rw [accept_no hts] at h
    obtain ⟨rfl, rfl⟩ := Prod.mk.inj (Except.ok.inj h)
    exact .inr ⟨rfl, rfl, hts⟩

end

def InType (k : TokenKind) : Prop := k ∉ [lparen, rparen, lbrace, rbrace]

instance : DecidablePred InType := fun k =>
  inferInstanceAs (Decidable (k ∉ [lparen, rparen, lbrace, rbrace]))

lemma nameTail_consumes (ts : List Token) : Consumes InType (splitting nameTail) ts := by
  refine ⟨by simp [splitting], ?_⟩
  rintro s rest h
  rw [splitting, Except.ok.injEq] at h
  fun_induction nameTail ts generalizing s rest with
  | case1 d i ts hdi s' rest' heq ih =>
    obtain ⟨rfl, rfl⟩ := Prod.mk.inj h
    obtain ⟨used, rfl, hused⟩ := ih _ _ heq
    have hkinds := Bool.and_eq_true_iff.mp hdi
    simp only [decide_eq_true_eq] at hkinds
    refine ⟨d :: i :: used, rfl, ?_⟩
    simp only [List.forall_mem_cons]
    exact ⟨by rw [hkinds.1]; decide, by rw [hkinds.2]; decide, hused⟩
  | case2 =>
    obtain ⟨-, rfl⟩ := Prod.mk.inj h
    exact ⟨[], rfl, by simp⟩
  | case3 =>
    obtain ⟨-, rfl⟩ := Prod.mk.inj h
    exact ⟨[], rfl, by simp⟩

lemma dims_consumes (ts : List Token) : Consumes InType dims ts := by
  refine ⟨by simp [dims, splitting], ?_⟩
  rintro d rest h
  rw [dims, splitting, Except.ok.injEq] at h
  fun_induction dimsTail ts generalizing d rest with
  | case1 l r ts hlr d' rest' heq ih =>
    obtain ⟨rfl, rfl⟩ := Prod.mk.inj h
    obtain ⟨used, rfl, hused⟩ := ih _ _ heq
    have hkinds := Bool.and_eq_true_iff.mp hlr
    simp only [decide_eq_true_eq] at hkinds
    refine ⟨l :: r :: used, rfl, ?_⟩
    simp only [List.forall_mem_cons]
    exact ⟨by rw [hkinds.1]; decide, by rw [hkinds.2]; decide, hused⟩
  | case2 =>
    obtain ⟨-, rfl⟩ := Prod.mk.inj h
    exact ⟨[], rfl, by simp⟩
  | case3 =>
    obtain ⟨-, rfl⟩ := Prod.mk.inj h
    exact ⟨[], rfl, by simp⟩

lemma qualifiedName_consumes (ts : List Token) : Consumes InType qualifiedName ts :=
  .bind (expect_consumes (by decide)) fun _ rest _ =>
    .bind (nameTail_consumes rest) fun _ _ _ => .pure _

lemma qualifiedName_shorter {ts : List Token} {x : String} {rest : List Token}
    (h : qualifiedName ts = .ok (x, rest)) : rest.length < ts.length := by
  cases hfirst : expect .ident ts with
  | error e =>
    simp only [qualifiedName, Bind.bind, StateT.bind, hfirst, Except.bind] at h
    cases h
  | ok r =>
    obtain ⟨t, us⟩ := r
    obtain ⟨rfl, -⟩ := expect_ok (by decide) hfirst
    have htail := splitting_of_eq (Prod.eta (nameTail us)).symm
    rw [qualifiedName, bind_of_ok hfirst, bind_of_ok htail] at h
    obtain ⟨-, rfl⟩ := Prod.mk.inj (Except.ok.inj h)
    exact Nat.lt_succ_of_le ((nameTail_consumes us).length_le htail)

structure TypesConsume (n : Nat) : Prop where
  bareType (ts : List Token) : 16 * ts.length + 7 ≤ n → Consumes InType (bareType n) ts
  type (ts : List Token) : 16 * ts.length + 8 ≤ n → Consumes InType (type n) ts
  typeArgs (ts : List Token) : 16 * ts.length + 6 ≤ n → Consumes InType (typeArgs n) ts
  typeArgList (ts : List Token) : 16 * ts.length + 10 ≤ n → Consumes InType (typeArgList n) ts
  typeArg (ts : List Token) : 16 * ts.length + 9 ≤ n → Consumes InType (typeArg n) ts

lemma typesConsume (n : Nat) : TypesConsume n := by
  induction n with
  | zero => constructor <;> intro ts h <;> omega
  | succ n ih =>
    constructor
    · intro ts hn
      rw [bareType]
      by_cases hprimitive : headKind ts ∈ primitiveTypes
      · refine .look (checkAny_yes hprimitive) ?_
        rw [if_pos rfl]
        have hK : InType (headKind ts) := by
          have key : ∀ k ∈ primitiveTypes, InType k := by decide
          exact key _ hprimitive
        exact .bind (advance_consumes (.inr hK)) fun _ _ _ => .pure _
      · refine .look (checkAny_no hprimitive) ?_
        rw [if_neg (by simp)]
        refine .bind (qualifiedName_consumes ts) fun x rest hx => ?_
        have hshort := qualifiedName_shorter hx
        refine .look (check_run _ _) (.ite ?_ (.pure _))
        exact .bind (ih.typeArgs rest (by omega)) fun _ _ _ => .pure _
    · intro ts hn
      rw [type]
      exact .bind (ih.bareType ts (by omega)) fun _ rest _ =>
        .bind (dims_consumes rest) fun _ _ _ => .pure _
    · intro ts hn
      rw [typeArgs]
      refine .bind (expect_consumes (by decide)) fun t rest ht => ?_
      obtain ⟨rfl, -⟩ := expect_ok (by decide) ht
      rw [List.length_cons] at hn
      refine .bind (accept_consumes (by decide)) fun b rest' hb => .ite (.pure _) ?_
      have hle := (accept_consumes (K := InType) (by decide)).length_le hb
      exact .bind (ih.typeArgList rest' (by omega)) fun _ _ _ =>
        .bind (expect_consumes (by decide)) fun _ _ _ => .pure _
    · intro ts hn
      rw [typeArgList]
      refine .bind (ih.typeArg ts (by omega)) fun a rest ha => ?_
      have hle := (ih.typeArg ts (by omega)).length_le ha
      refine .bind (accept_consumes (by decide)) fun b rest' hb => ?_
      rcases accept_ok (by decide) hb with ⟨rfl, t, rfl, -⟩ | ⟨rfl, rfl, -⟩
      · rw [if_pos rfl]
        rw [List.length_cons] at hle
        exact .bind (ih.typeArgList rest' (by omega)) fun _ _ _ => .pure _
      · rw [if_neg (by simp)]
        exact .pure _
    · intro ts hn
      rw [typeArg]
      refine .bind (accept_consumes (by decide)) fun b rest hb => ?_
      rcases accept_ok (by decide) hb with ⟨rfl, t, rfl, -⟩ | ⟨rfl, rfl, -⟩
      · rw [if_pos rfl]
        rw [List.length_cons] at hn
        by_cases hbound : headKind rest ∈ [TokenKind.word "extends", .word "super"]
        · refine .look (checkAny_yes hbound) ?_
          rw [if_pos rfl]
          have hK : InType (headKind rest) := by
            have key : ∀ k ∈ [TokenKind.word "extends", .word "super"], InType k := by decide
            exact key _ hbound
          refine .bind (advance_consumes (.inr hK)) fun k rest' hk => ?_
          have hle := (advance_consumes (.inr hK)).length_le hk
          exact .bind (ih.type rest' (by omega)) fun _ _ _ => .pure _
        · refine .look (checkAny_no hbound) ?_
          rw [if_neg (by simp)]
          exact .pure _
      · rw [if_neg (by simp)]
        exact ih.type rest (by omega)

end LoopLowering.Grammar
