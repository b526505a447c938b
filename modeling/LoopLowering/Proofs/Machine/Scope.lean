import LoopLowering.Proofs.Machine.Library

/-! Scopes of a method in two runs. The second run may have scopes that the first does not see, and
one scope where the first has two. -/

namespace LoopLowering.Machine

lemma lookup_cons (b : Variable) (bs : Bindings) (m : String) :
    Bindings.lookup (b :: bs) m = if b.name = m then some b.value else bs.lookup m := rfl

lemma lookup_put (bs : Bindings) (n : String) (v : Value) (origin : Origin) (m : String) :
    (bs.put n v origin).lookup m = if n = m then some v else bs.lookup m := by
  induction bs with
  | nil => simp [Bindings.put, Bindings.lookup]
  | cons b bs ih =>
    unfold Bindings.put
    by_cases hb : b.name = n
    · rw [if_pos hb, lookup_cons, lookup_cons, Variable.give_name, Variable.give_value, hb]
      split <;> rfl
    · rw [if_neg hb, lookup_cons, lookup_cons, ih]
      by_cases hm : b.name = m
      · rw [if_pos hm, if_pos hm, if_neg fun hn => hb (hm.trans hn.symm)]
      · rw [if_neg hm, if_neg hm]

lemma mem_put {bs : Bindings} {n : String} {v : Value} {origin : Origin} {b : Variable}
    (h : b ∈ bs.put n v origin) : b.name = n ∨ b ∈ bs := by
  induction bs with
  | nil =>
    obtain rfl := List.mem_singleton.mp h
    exact .inl (Variable.create_name n v origin)
  | cons c bs ih =>
    unfold Bindings.put at h
    split at h
    · rename_i hc
      rcases List.mem_cons.mp h with rfl | h
      · exact .inl ((c.give_name v origin).trans hc)
      · exact .inr (List.mem_cons_of_mem _ h)
    · rcases List.mem_cons.mp h with rfl | h
      · exact .inr List.mem_cons_self
      · exact (ih h).imp_right (List.mem_cons_of_mem _)

lemma mem_keys_of_lookup {bs : Bindings} {n : String} {v : Value} (h : bs.lookup n = some v) :
    ∃ b ∈ bs, b.name = n := by
  induction bs with
  | nil => cases h
  | cons b bs ih =>
    rw [lookup_cons] at h
    split at h
    · exact ⟨b, List.mem_cons_self, ‹_›⟩
    · obtain ⟨c, hc, rfl⟩ := ih h
      exact ⟨c, List.mem_cons_of_mem _ hc, rfl⟩

def scopesValue (ss : List Bindings) (n : String) : Option Value := ss.findSome? (·.lookup n)

def assignScopes (n : String) (v : Value) (origin : Origin) : List Bindings → List Bindings
  | [] => []
  | bs :: ss =>
    if (bs.lookup n).isSome then bs.put n v origin :: ss else bs :: assignScopes n v origin ss

/-- How the scopes of two runs correspond, one link for each scope of the second run. -/
inductive Link where
  | both (names : String → Prop)
  | hidden (bs : Bindings)
  | merged

inductive Aligned (w : World) : List Link → List Bindings → List Bindings → Prop
  | nil : Aligned w [] [] []
  | both {names : String → Prop} {links : List Link} {bs bs' : Bindings} {ss ss' : List Bindings}
      (h : bs.Rel w bs') (hnames : ∀ b ∈ bs', names b.name) (rest : Aligned w links ss ss') :
    Aligned w (.both names :: links) (bs :: ss) (bs' :: ss')
  | hidden {bs : Bindings} {links : List Link} {ss ss' : List Bindings}
      (rest : Aligned w links ss ss') : Aligned w (.hidden bs :: links) ss (bs :: ss')
  | merged {links : List Link} {inner outer bs' : Bindings} {ss ss' : List Bindings}
      (h : ∀ n, Option.Rel (Value.Rel w) ((inner.lookup n).or (outer.lookup n)) (bs'.lookup n))
      (rest : Aligned w links ss ss') :
    Aligned w (.merged :: links) (inner :: outer :: ss) (bs' :: ss')

namespace Link

def hides (n : String) : List Link → Prop
  | [] => False
  | .hidden bs :: links => (bs.lookup n).isSome = true ∨ hides n links
  | _ :: links => hides n links

def admits (n : String) : List Link → Prop
  | .both names :: _ => names n
  | .merged :: _ => True
  | _ => False

end Link

namespace Aligned

variable {w w₁ : World} {links : List Link} {ss ss' : List Bindings} {v v' : Value} {n : String}

lemma extend (hw : w.image <+: w₁.image) (h : Aligned w links ss ss') :
    Aligned w₁ links ss ss' := by
  induction h with
  | nil => exact .nil
  | both h hnames _ ih => exact .both (h.extend hw) hnames ih
  | hidden _ ih => exact .hidden ih
  | merged h _ ih =>
    refine .merged (fun n => ?_) ih
    obtain ⟨hn, hn'⟩ | ⟨x, x', hx, hx', hrel⟩ := option_cases (h n)
    · rw [hn, hn']
      exact .none
    · rw [hx, hx']
      exact .some (hrel.extend hw)

lemma value (h : Aligned w links ss ss') (hn : ¬ Link.hides n links) :
    Option.Rel (Value.Rel w) (scopesValue ss n) (scopesValue ss' n) := by
  induction h with
  | nil => exact .none
  | both h _ _ ih =>
    simp only [scopesValue, List.findSome?_cons]
    obtain ⟨hl, hl'⟩ | ⟨x, x', hx, hx', hrel⟩ := option_cases (h.lookup n)
    · rw [hl, hl']
      exact ih hn
    · rw [hx, hx']
      exact .some hrel
  | @hidden bs _ _ _ _ ih =>
    have hl : bs.lookup n = none := by
      cases hl : bs.lookup n with
      | none => rfl
      | some x => exact absurd (.inl (by simp [hl])) hn
    simp only [scopesValue, List.findSome?_cons, hl]
    exact ih fun h => hn (.inr h)
  | @merged _ inner outer _ _ _ h _ ih =>
    have hscope := h n
    simp only [scopesValue, List.findSome?_cons]
    cases hi : inner.lookup n with
    | some x =>
      obtain ⟨hl, -⟩ | ⟨y, y', hy, hy', hrel⟩ := option_cases hscope
      · simp [hi] at hl
      · obtain rfl : x = y := by simpa [hi] using hy
        rw [hy']
        exact .some hrel
    | none =>
      obtain ⟨hl, hl'⟩ | ⟨y, y', hy, hy', hrel⟩ := option_cases hscope
      · rw [hi, Option.none_or] at hl
        rw [hl, hl']
        exact ih hn
      · rw [hi, Option.none_or] at hy
        rw [hy, hy']
        exact .some hrel

lemma assign (h : Aligned w links ss ss') (hn : ¬ Link.hides n links) (hv : Value.Rel w v v')
    (origin origin' : Origin) :
    Aligned w links (assignScopes n v origin ss) (assignScopes n v' origin' ss') := by
  induction h with
  | nil => exact .nil
  | @both names _ bs bs' _ _ h hnames rest ih =>
    unfold assignScopes
    rw [option_isSome (h.lookup n)]
    cases hl : bs.lookup n with
    | none => exact .both h hnames (ih hn)
    | some x =>
      refine .both (h.put n hv origin origin') (fun b hb => ?_) rest
      obtain ⟨hl, -⟩ | ⟨-, x', -, hx', -⟩ := option_cases (h.lookup n)
      · simp_all
      obtain ⟨c, hc, hname⟩ := mem_keys_of_lookup hx'
      rcases mem_put hb with hb | h
      · exact (hname.trans hb.symm) ▸ hnames c hc
      · exact hnames b h
  | @hidden bs _ _ _ _ ih =>
    have hl : (bs.lookup n).isSome = false := by
      cases hl : bs.lookup n with
      | none => rfl
      | some x => exact absurd (.inl (by simp [hl])) hn
    simp only [assignScopes, hl]
    exact .hidden (ih fun h => hn (.inr h))
  | @merged _ inner outer bs' _ _ h rest ih =>
    have hput : ∀ (inner₁ outer₁ : Bindings), (∀ m, (inner₁.lookup m).or (outer₁.lookup m) =
        if n = m then some v else (inner.lookup m).or (outer.lookup m)) →
        ∀ m, Option.Rel (Value.Rel w) ((inner₁.lookup m).or (outer₁.lookup m))
          ((bs'.put n v' origin').lookup m) := by
      intro inner₁ outer₁ heq m
      rw [heq m, lookup_put]
      split
      · exact .some hv
      · exact h m
    simp only [assignScopes, option_isSome (h n)]
    cases hi : inner.lookup n with
    | some x =>
      refine .merged (hput _ _ fun m => ?_) rest
      rw [lookup_put]
      split <;> rfl
    | none =>
      cases ho : outer.lookup n with
      | some x =>
        refine .merged (hput _ _ fun m => ?_) rest
        rw [lookup_put]
        split
        · rename_i hm
          rw [← hm, hi]
          rfl
        · rfl
      | none => exact .merged h (ih hn)

lemma declare (h : Aligned w links ss ss') (hn : Link.admits n links) (hv : Value.Rel w v v')
    (origin origin' : Origin) : ∃ bs tl bs' tl', ss = bs :: tl ∧ ss' = bs' :: tl' ∧
      Aligned w links (bs.put n v origin :: tl) (bs'.put n v' origin' :: tl') := by
  cases h with
  | nil => exact hn.elim
  | hidden rest => exact hn.elim
  | both h hnames rest =>
    refine ⟨_, _, _, _, rfl, rfl, .both (h.put n hv origin origin') (fun b hb => ?_) rest⟩
    rcases mem_put hb with hb | hb
    · exact hb.symm ▸ hn
    · exact hnames b hb
  | merged h rest =>
    refine ⟨_, _, _, _, rfl, rfl, .merged (fun m => ?_) rest⟩
    rw [lookup_put, lookup_put]
    split
    · exact .some hv
    · exact h m

end Aligned

lemma findIdx?_cons_scopes (n : String) (bs : Bindings) (ss : List Bindings) :
    (bs :: ss).findIdx? (fun bs => (bs.lookup n).isSome) =
      if (bs.lookup n).isSome then some 0
      else (ss.findIdx? fun bs => (bs.lookup n).isSome).map (· + 1) := by
  rw [List.findIdx?_cons]

lemma scopesValue_eq (ss : List Bindings) (n : String) :
    ((ss.findIdx? fun bs => (bs.lookup n).isSome).bind fun d => (ss[d]?).bind (·.lookup n)) =
      scopesValue ss n := by
  induction ss with
  | nil => rfl
  | cons bs ss ih =>
    rw [findIdx?_cons_scopes, scopesValue, List.findSome?_cons]
    cases hl : bs.lookup n with
    | some x => simp [hl]
    | none =>
      rw [scopesValue] at ih
      rw [← ih, if_neg (by simp), Option.bind_map]
      rfl

lemma findIdx?_isSome (ss : List Bindings) (n : String) :
    (ss.findIdx? fun bs => (bs.lookup n).isSome).isSome = (scopesValue ss n).isSome := by
  induction ss with
  | nil => rfl
  | cons bs ss ih =>
    rw [findIdx?_cons_scopes, scopesValue, List.findSome?_cons]
    cases hl : bs.lookup n with
    | some x => rfl
    | none =>
      rw [if_neg (by simp), Option.isSome_map, ih]
      rfl

lemma modify_eq_assignScopes {ss : List Bindings} {n : String} {d : Nat}
    (h : (ss.findIdx? fun bs => (bs.lookup n).isSome) = some d) (v : Value) (origin : Origin) :
    ss.modify d (·.put n v origin) = assignScopes n v origin ss := by
  induction ss generalizing d with
  | nil => cases h
  | cons bs ss ih =>
    rw [findIdx?_cons_scopes] at h
    unfold assignScopes
    split at h
    · obtain rfl := Option.some.inj h
      rw [if_pos ‹_›]
      rfl
    · obtain ⟨k, hk, rfl⟩ := Option.map_eq_some_iff.mp h
      rw [if_neg ‹_›, ← ih hk]
      rfl

end LoopLowering.Machine
