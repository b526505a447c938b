import LoopLowering.Proofs.Grammar.OperatorReading
import LoopLowering.Proofs.Syntax.Statement
import LoopLowering.Proofs.Token.Genuine

/-! What parsers take off the tokens of a text: names, types and modifiers are read from exactly the
tokens that their items stand for. -/

namespace LoopLowering

/-- What a token has besides its place. -/
def Token.face (t : Token) : TokenKind × Constant := (t.kind, t.value)

def Item.face (i : Item) : TokenKind × Constant := (i.kind, i.value)

def Shows (is : List Item) (ts : List Token) : Prop := ts.map Token.face = is.map Item.face

namespace Shows

variable {is js : List Item} {ts us : List Token} {t : Token} {i : Item}

@[simp] lemma nil : Shows [] [] := rfl

lemma append (h : Shows is ts) (h' : Shows js us) : Shows (is ++ js) (ts ++ us) := by
  rw [Shows, List.map_append, List.map_append, h, h']

lemma cons (h : t.face = i.face) (h' : Shows is ts) : Shows (i :: is) (t :: ts) := by
  rw [Shows, List.map_cons, List.map_cons, h, h']

lemma realizes (h : Shows is ts) (hfree : ∀ i ∈ is, i.glued = false) : Realizes is ts := by
  induction is generalizing ts with
  | nil =>
    obtain rfl := List.map_eq_nil_iff.mp h
    exact .nil
  | cons i is ih =>
    obtain ⟨t, us, rfl, ht, hus⟩ := List.map_eq_cons_iff.mp h
    obtain ⟨hkind, hvalue⟩ := Prod.mk.inj ht
    have hrest := List.forall_mem_cons.mp hfree
    refine .cons hkind hvalue (fun j hj hglued => ?_) (ih hus hrest.2)
    rw [hrest.2 j (List.mem_of_mem_head? hj)] at hglued
    cases hglued

end Shows

lemma Realizes.shows {is : List Item} {ts : List Token} (h : Realizes is ts) : Shows is ts := by
  induction h with
  | nil => rfl
  | cons kind value _ _ ih => exact Shows.cons (Prod.ext kind value) ih

namespace Token

variable {t : Token}

lemma Genuine.mark (h : t.Genuine) {m : String} (hk : t.kind = .mark m) :
    t.face = (Item.mark m).face := by
  rw [Genuine, hk] at h
  exact Prod.ext hk h

lemma Genuine.markText (h : t.Genuine) {m : String} (hk : t.kind = .mark m) : t.text = m := by
  rw [Genuine, hk] at h
  rw [text, h]

lemma Genuine.word (h : t.Genuine) {w : String} (hk : t.kind = .word w) :
    t.face = (Item.word w).face ∧ t.text = w ∧ w ∈ reservedWords := by
  rw [Genuine, hk] at h
  exact ⟨Prod.ext hk h.1, by rw [text, h.1], h.2⟩

lemma Genuine.name (h : t.Genuine) (hk : t.kind = .ident) :
    t.face = (Item.name t.text).face ∧ IsName t.text := by
  rw [Genuine, hk] at h
  obtain ⟨x, hx, hname⟩ := h
  have htext : t.text = x := by rw [text, hx]
  rw [htext]
  exact ⟨Prod.ext hk hx, hname⟩

end Token

namespace Genuine

variable {ts us : List Token}

lemma right (h : Genuine (ts ++ us)) : Genuine us := (List.forall_mem_append.mp h).2

end Genuine

namespace Grammar

/-- On genuine tokens, what a parser reads has a property, together with the tokens that it takes
and those that it leaves. -/
def Takes {α : Type} (p : Parser α) (ts : List Token) (Q : α → List Token → List Token → Prop) :
    Prop :=
  Genuine ts → ∀ a rest, p ts = .ok (a, rest) → ∃ used, ts = used ++ rest ∧ Q a used rest

namespace Takes

variable {α β : Type} {p : Parser α} {f : α → Parser β} {ts : List Token} {k : TokenKind}
  {Q : α → List Token → List Token → Prop} {R : β → List Token → List Token → Prop}

lemma mono {Q' : α → List Token → List Token → Prop} (h : Takes p ts Q)
    (hQ : ∀ a used rest, ts = used ++ rest → Q a used rest → Q' a used rest) : Takes p ts Q' := by
  intro hts a rest hp
  obtain ⟨used, hused, hq⟩ := h hts a rest hp
  exact ⟨used, hused, hQ a used rest hused hq⟩

lemma pure {a : α} (h : Q a [] ts) : Takes (pure a) ts Q := by
  rintro - b rest ⟨⟩
  exact ⟨[], rfl, h⟩

lemma bind (hp : Takes p ts Q) (hf : ∀ a used rest, ts = used ++ rest → Q a used rest →
    Takes (f a) rest fun b more left => R b (used ++ more) left) : Takes (p >>= f) ts R := by
  intro hts b left h
  cases hrun : p ts with
  | error e =>
    simp only [Bind.bind, StateT.bind, hrun, Except.bind] at h
    cases h
  | ok r =>
    obtain ⟨a, rest⟩ := r
    obtain ⟨used, rfl, hq⟩ := hp hts a rest hrun
    rw [bind_of_ok hrun] at h
    obtain ⟨more, rfl, hr⟩ := hf a used rest rfl hq hts.right b left h
    exact ⟨used ++ more, (List.append_assoc _ _ _).symm, hr⟩

lemma map {g : α → β} (hp : Takes p ts fun a used rest => R (g a) used rest) :
    Takes (g <$> p) ts R := by
  rw [map_eq_pure_bind]
  refine .bind hp fun a used rest _ hr => .pure ?_
  rwa [List.append_nil]

lemma look {a : α} (h : p ts = .ok (a, ts)) (hf : Takes (f a) ts R) : Takes (p >>= f) ts R := by
  rw [Takes, bind_of_ok h]
  exact hf

lemma exhausted : Takes (exhausted : Parser α) ts Q := fun _ _ _ h => by cases h

lemma reject (cause : Cause) : Takes (reject cause : Parser α) ts Q := fun _ _ _ h => by cases h

lemma rejectThen (cause : Cause) : Takes (Grammar.reject cause >>= f) ts R :=
  .bind (.reject (Q := fun _ _ _ => False) cause) fun _ _ _ _ h => h.elim

lemma expect (hk : k ≠ .finish) {f : Token → Parser β} (hf : ∀ t us, ts = t :: us → t.kind = k →
    t.Genuine → Takes (f t) us fun b used rest => R b (t :: used) rest) :
    Takes (expect k >>= f) ts R := by
  intro hts b rest h
  cases hrun : Grammar.expect k ts with
  | error e =>
    simp only [Bind.bind, StateT.bind, hrun, Except.bind] at h
    cases h
  | ok r =>
    obtain ⟨t, us⟩ := r
    obtain ⟨rfl, ht⟩ := expect_ok hk hrun
    rw [bind_of_ok hrun] at h
    obtain ⟨hgt, hgus⟩ := List.forall_mem_cons.mp hts
    obtain ⟨used, rfl, hr⟩ := hf t us rfl ht hgt hgus b rest h
    exact ⟨t :: used, rfl, hr⟩

lemma advance (hk : headKind ts ≠ .finish) {f : Token → Parser β} (hf : ∀ t us, ts = t :: us →
    t.Genuine → Takes (f t) us fun b used rest => R b (t :: used) rest) :
    Takes (advance >>= f) ts R := by
  cases ts with
  | nil => exact absurd rfl hk
  | cons t us =>
    intro hts b rest h
    rw [bind_of_ok (advance_cons (t := t) hk)] at h
    obtain ⟨hgt, hgus⟩ := List.forall_mem_cons.mp hts
    obtain ⟨used, rfl, hr⟩ := hf t us rfl hgt hgus b rest h
    exact ⟨t :: used, rfl, hr⟩

lemma ifCheck {p q : Parser β} (hp : headKind ts = k → Takes p ts R)
    (hq : headKind ts ≠ k → Takes q ts R) :
    Takes (check k >>= fun b => if b = true then p else q) ts R := by
  by_cases h : headKind ts = k
  · refine .look (check_yes h) ?_
    rw [if_pos rfl]
    exact hp h
  · refine .look (check_no h) ?_
    rw [if_neg (by simp)]
    exact hq h

lemma ifCheckAny {ks : List TokenKind} {p q : Parser β} (hp : headKind ts ∈ ks → Takes p ts R)
    (hq : headKind ts ∉ ks → Takes q ts R) :
    Takes (checkAny ks >>= fun b => if b = true then p else q) ts R := by
  by_cases h : headKind ts ∈ ks
  · refine .look (checkAny_yes h) ?_
    rw [if_pos rfl]
    exact hp h
  · refine .look (checkAny_no h) ?_
    rw [if_neg (by simp)]
    exact hq h

lemma accept (hk : k ≠ .finish) {f : Bool → Parser β} (hp : ∀ t us, ts = t :: us → t.kind = k →
    t.Genuine → Takes (f true) us fun b used rest => R b (t :: used) rest)
    (hq : headKind ts ≠ k → Takes (f false) ts R) : Takes (accept k >>= f) ts R := by
  by_cases h : headKind ts = k
  · cases ts with
    | nil => exact absurd h.symm hk
    | cons t us =>
      intro hts b rest hrun
      rw [bind_of_ok (accept_yes (t := t) h hk)] at hrun
      obtain ⟨hgt, hgus⟩ := List.forall_mem_cons.mp hts
      obtain ⟨used, rfl, hr⟩ := hp t us rfl h hgt hgus b rest hrun
      exact ⟨t :: used, rfl, hr⟩
  · exact .look (accept_no h) (hq h)

lemma ifAccept (hk : k ≠ .finish) {p q : Parser β} (hp : ∀ t us, ts = t :: us → t.kind = k →
    t.Genuine → Takes p us fun b used rest => R b (t :: used) rest)
    (hq : headKind ts ≠ k → Takes q ts R) :
    Takes (Grammar.accept k >>= fun b => if b = true then p else q) ts R := by
  refine .accept hk (fun t us hts ht hg => ?_) fun h => ?_
  · rw [if_pos rfl]
    exact hp t us hts ht hg
  · rw [if_neg (by simp)]
    exact hq h

lemma ite {c : Prop} [Decidable c] {p q : Parser α} (hp : c → Takes p ts Q)
    (hq : ¬ c → Takes q ts Q) : Takes (if c then p else q) ts Q := by
  split
  · exact hp ‹_›
  · exact hq ‹_›

lemma attempt (hp : Takes p ts Q) : Takes (attempt p) ts fun o used rest =>
    (∃ a, o = some a ∧ Q a used rest) ∨ (o = none ∧ used = [] ∧ ∀ a left, p ts ≠ .ok (a, left)) := by
  intro hts o rest h
  simp only [Grammar.attempt] at h
  split at h
  · rename_i a left ha
    obtain ⟨rfl, rfl⟩ := Prod.mk.inj (Except.ok.inj h)
    obtain ⟨used, hused, hq⟩ := hp hts a left ha
    exact ⟨used, hused, .inl ⟨a, rfl, hq⟩⟩
  · rename_i hrun
    obtain ⟨rfl, rfl⟩ := Prod.mk.inj (Except.ok.inj h)
    refine ⟨[], rfl, .inr ⟨rfl, rfl, fun a left ha => ?_⟩⟩
    rw [hrun] at ha
    cases ha
  · cases h

end Takes

def Tries {α : Type} (p : Parser (Option α)) (ts start : List Token)
    (Q : α → List Token → Prop) : Prop :=
  Genuine ts → ts <:+ start → ∀ o rest, p ts = .ok (o, rest) →
    (o = none ∧ rest = start) ∨ ∃ a, o = some a ∧ rest <:+ start ∧ Q a rest

namespace Tries

variable {α β : Type} {p : Parser α} {f : α → Parser (Option β)} {ts start : List Token}
  {Q : α → List Token → List Token → Prop} {R : β → List Token → Prop}

lemma bind (hp : Takes p ts Q) (hf : ∀ a used rest, ts = used ++ rest → Q a used rest →
    Tries (f a) rest start R) : Tries (p >>= f) ts start R := by
  intro hts hsuffix o left h
  cases hrun : p ts with
  | error e =>
    simp only [Bind.bind, StateT.bind, hrun, Except.bind] at h
    cases h
  | ok r =>
    obtain ⟨a, rest⟩ := r
    obtain ⟨used, rfl, hq⟩ := hp hts a rest hrun
    rw [bind_of_ok hrun] at h
    exact hf a used rest rfl hq hts.right ((List.suffix_append _ _).trans hsuffix) o left h

lemma look {a : α} (h : p ts = .ok (a, ts)) (hf : Tries (f a) ts start R) :
    Tries (p >>= f) ts start R := by
  rw [Tries, bind_of_ok h]
  exact hf

lemma ite {c : Prop} [Decidable c] {p q : Parser (Option β)} (hp : c → Tries p ts start R)
    (hq : ¬ c → Tries q ts start R) : Tries (if c then p else q) ts start R := by
  split
  · exact hp ‹_›
  · exact hq ‹_›

lemma found {b : β} (h : R b ts) : Tries (pure (some b)) ts start R := by
  rintro - hsuffix o rest ⟨⟩
  exact .inr ⟨b, rfl, hsuffix, h⟩

lemma giveUp : Tries (do set start; return none : Parser (Option β)) ts start R := by
  rintro - - o rest ⟨⟩
  exact .inl ⟨rfl, rfl⟩

lemma reject (cause : Cause) : Tries (reject cause : Parser (Option β)) ts start R :=
  fun _ _ _ _ h => by cases h

lemma takes {p : Parser (Option β)} (h : Tries p ts ts R) : Takes p ts fun o used rest =>
    (o = none ∧ used = []) ∨ ∃ b, o = some b ∧ R b rest := by
  intro hts o rest hp
  rcases h hts (List.suffix_refl ts) o rest hp with ⟨rfl, rfl⟩ | ⟨b, rfl, ⟨used, hused⟩, hr⟩
  · exact ⟨[], rfl, .inl ⟨rfl, rfl⟩⟩
  · exact ⟨used, hused.symm, .inr ⟨b, rfl, hr⟩⟩

end Tries

section

variable {ts : List Token} {k : TokenKind}

lemma advance_takes (h : headKind ts ≠ .finish) : Takes advance ts fun t used _ =>
    used = [t] ∧ t.kind = headKind ts ∧ t.Genuine := by
  rw [← bind_pure advance]
  exact .advance h fun t us hts ht => .pure ⟨rfl, by rw [hts]; rfl, ht⟩

lemma expect_takes (hk : k ≠ .finish) (ts : List Token) : Takes (expect k) ts fun t used _ =>
    used = [t] ∧ t.kind = k ∧ t.Genuine := by
  rw [← bind_pure (expect k)]
  exact .expect hk fun t us _ ht hg => .pure ⟨rfl, ht, hg⟩

lemma accept_takes (hk : k ≠ .finish) (ts : List Token) : Takes (accept k) ts fun b used _ =>
    (b = true ∧ ∃ t, used = [t] ∧ t.kind = k) ∨ (b = false ∧ used = [] ∧ headKind ts ≠ k) := by
  rw [← bind_pure (accept k)]
  exact .accept hk (fun t us _ ht _ => .pure (.inl ⟨rfl, t, rfl, ht⟩))
    fun h => .pure (.inr ⟨rfl, rfl, h⟩)

end

lemma dot_notMem_of_isName {x : String} (hx : Token.IsName x) : '.' ∉ x.toList := by
  obtain ⟨⟨c, cs, hcs, hc, hpart⟩, -⟩ := hx
  rw [hcs]
  intro hmem
  rcases List.mem_cons.mp hmem with rfl | hmem
  · exact absurd hc (by decide)
  · exact absurd (hpart _ hmem) (by decide)

lemma nameTail_takes (ts : List Token) : Takes (splitting nameTail) ts fun s used _ =>
    ∃ ps : List (List Char), (∀ p ∈ ps, Token.IsName (String.ofList p)) ∧
      s.toList = ps.flatMap ('.' :: ·) ∧
        Shows (ps.flatMap fun p => [Item.mark ".", Item.ofText (String.ofList p)]) used := by
  rintro hts s rest h
  rw [splitting, Except.ok.injEq] at h
  fun_induction nameTail ts generalizing s rest with
  | case1 d i ts hdi s' rest' heq ih =>
    obtain ⟨rfl, rfl⟩ := Prod.mk.inj h
    simp only [Genuine, List.forall_mem_cons] at hts
    obtain ⟨hd, hi, hts⟩ := hts
    obtain ⟨used, rfl, ps, hps, hs, hshow⟩ := ih hts _ _ heq
    have hkinds := Bool.and_eq_true_iff.mp hdi
    simp only [decide_eq_true_eq] at hkinds
    obtain ⟨hface, hname⟩ := hi.name hkinds.2
    refine ⟨d :: i :: used, rfl, i.text.toList :: ps, ?_, ?_, ?_⟩
    · simpa [String.ofList_toList, hname] using hps
    · simp [hs]
    · rw [List.flatMap_cons, String.ofList_toList, IsName.ofText hname]
      exact .cons (hd.mark hkinds.1) (.cons hface hshow)
  | case2 =>
    obtain ⟨rfl, rfl⟩ := Prod.mk.inj h
    exact ⟨[], rfl, [], by simp, rfl, rfl⟩
  | case3 =>
    obtain ⟨rfl, rfl⟩ := Prod.mk.inj h
    exact ⟨[], rfl, [], by simp, rfl, rfl⟩

lemma qualifiedName_takes (ts : List Token) : Takes qualifiedName ts fun x used _ =>
    IsQualified x ∧ Shows (Item.ofName x) used := by
  refine .expect (by decide) fun t us _ hk ht => ?_
  refine .bind (nameTail_takes us) fun s used rest _ hs => .pure ?_
  obtain ⟨ps, hps, hs, hshow⟩ := hs
  obtain ⟨hface, hname⟩ := ht.name hk
  have hparts : (t.text ++ s).toList.splitOn '.' = t.text.toList :: ps := by
    rw [String.toList_append, hs, ← intercalate_cons, List.splitOn_intercalate]
    · rw [List.forall_mem_cons]
      refine ⟨dot_notMem_of_isName hname, fun p hp => ?_⟩
      simpa using dot_notMem_of_isName (hps p hp)
    · simp
  constructor
  · rw [IsQualified, hparts, List.forall_mem_cons, String.ofList_toList]
    exact ⟨hname, hps⟩
  · rw [Item.ofName, Item.separated, hparts, List.map_cons, intercalate_cons, List.flatMap_map,
      String.ofList_toList, IsName.ofText hname, List.append_nil]
    exact .cons hface hshow

lemma dims_takes (ts : List Token) : Takes dims ts fun d used _ => Shows (Item.brackets d) used := by
  rintro hts d rest h
  rw [dims, splitting, Except.ok.injEq] at h
  fun_induction dimsTail ts generalizing d rest with
  | case1 l r ts hlr d' rest' heq ih =>
    obtain ⟨rfl, rfl⟩ := Prod.mk.inj h
    simp only [Genuine, List.forall_mem_cons] at hts
    obtain ⟨hl, hr, hts⟩ := hts
    obtain ⟨used, rfl, hshow⟩ := ih hts _ _ heq
    have hkinds := Bool.and_eq_true_iff.mp hlr
    simp only [decide_eq_true_eq] at hkinds
    exact ⟨l :: r :: used, rfl, .cons (hl.mark hkinds.1) (.cons (hr.mark hkinds.2) hshow)⟩
  | case2 =>
    obtain ⟨rfl, rfl⟩ := Prod.mk.inj h
    exact ⟨[], rfl, rfl⟩
  | case3 =>
    obtain ⟨rfl, rfl⟩ := Prod.mk.inj h
    exact ⟨[], rfl, rfl⟩

def TypeNode (t : Tag) (s : Shape Node) : Prop :=
  t = {} ∧ ((∃ x d o, s = .typeRef x d o) ∨ ∃ k o, s = .wildcard k o)

lemma typeNode_typeRef (x : String) (d : Nat) (o : Option (List Node)) :
    TypeNode {} (.typeRef x d o) := ⟨rfl, .inl ⟨x, d, o, rfl⟩⟩

lemma typeNode_wildcard (k : Option String) (o : Option Node) : TypeNode {} (.wildcard k o) :=
  ⟨rfl, .inr ⟨k, o, rfl⟩⟩

def argItems (as : List Node) : List Item :=
  Item.mark "<" :: Item.listed (as.map Node.items) ++ [Item.mark ">"]

structure OpenType (f : Nat → Node) (used rest : List Token) (x : String)
    (o : Option (List Node)) : Prop where
  eq : f = fun d => .plain (.typeRef x d o)
  tree (d : Nat) : TypeTree TypeNode false (.plain (.typeRef x d o))
  shows : Shows (Item.ofName x ++ (o.map argItems).getD []) used
  stop : x ∉ primitiveNames → o = none → headKind rest ≠ .mark "<"

structure TakenType (ty : Node) (used rest : List Token) : Prop where
  tree : TypeTree TypeNode false ty
  shows : Shows ty.items used
  stop : Layout.isClassName ty = true → headKind rest ≠ .mark "<"

structure TypesTake (n : Nat) : Prop where
  bareType (ts : List Token) :
    Takes (bareType n) ts fun f used rest => ∃ x o, OpenType f used rest x o
  type (ts : List Token) : Takes (type n) ts TakenType
  typeArgs (ts : List Token) : Takes (typeArgs n) ts fun as used _ =>
    (∀ a ∈ as, TypeTree TypeNode true a) ∧ Shows (argItems as) used
  typeArgList (ts : List Token) : Takes (typeArgList n) ts fun as used _ =>
    (∀ a ∈ as, TypeTree TypeNode true a) ∧ as ≠ [] ∧ Shows (Item.listed (as.map Node.items)) used
  typeArg (ts : List Token) : Takes (typeArg n) ts fun a used _ =>
    TypeTree TypeNode true a ∧ Shows a.items used

lemma primitiveTypes_eq : primitiveTypes = primitiveNames.map .word := rfl

lemma bareType_takes {n : Nat} (ih : TypesTake n) (ts : List Token) :
    Takes (bareType (n + 1)) ts fun f used rest => ∃ x o, OpenType f used rest x o := by
  rw [bareType]
  refine .ifCheckAny (fun hprim => ?_) fun _ => ?_
  · obtain ⟨x, hx, hkind⟩ := List.mem_map.mp (primitiveTypes_eq ▸ hprim)
    refine .advance (by rw [← hkind]; rintro ⟨⟩) fun t us hts ht => .pure ⟨x, none, ?_⟩
    obtain ⟨hface, htext, -⟩ := ht.word (w := x) (by rw [hkind, hts]; rfl)
    refine ⟨by rw [htext], fun d => .primitive hx (typeNode_typeRef x d none), ?_, ?_⟩
    · rw [(primitiveNames_reserved x hx).2]
      exact .cons hface .nil
    · exact fun h => absurd hx h
  · refine .bind (qualifiedName_takes ts) fun x used rest _ hx => .ifCheck (fun _ => ?_) fun hno => ?_
    · refine .bind (ih.typeArgs rest) fun as more left _ has => .pure ⟨x, some as, rfl, ?_, ?_, ?_⟩
      · exact fun d => .generic hx.1 has.1 (typeNode_typeRef x d (some as))
      · rw [List.append_nil]
        exact hx.2.append has.2
      · rintro _ ⟨⟩
    · refine .pure ⟨x, none, rfl, fun d => .named hx.1 (typeNode_typeRef x d none), ?_, ?_⟩
      · exact hx.2.append .nil
      · exact fun _ _ => hno

lemma type_takes {n : Nat} (ih : TypesTake n) (ts : List Token) :
    Takes (type (n + 1)) ts TakenType := by
  rw [type]
  refine .bind (ih.bareType ts) fun f used rest _ hf => ?_
  obtain ⟨x, o, hf⟩ := hf
  refine .bind (dims_takes rest) fun d more left hrest hd => .pure ?_
  obtain rfl := hf.eq
  refine ⟨hf.tree d, ?_, fun hclass => ?_⟩
  · have hitems := Node.items_typeRef {} x d o
    rw [← List.append_assoc] at hitems
    rw [List.append_nil]
    exact hitems ▸ hf.shows.append hd
  · -- A name alone has no brackets, so what follows it is what follows the brackets.
    simp only [Layout.isClassName, Node.plain, Node.shape_mk] at hclass
    split at hclass
    · rename_i heq
      obtain ⟨rfl, rfl, rfl⟩ := Shape.typeRef.inj heq
      obtain rfl := List.map_eq_nil_iff.mp hd
      rw [List.nil_append] at hrest
      exact hrest ▸ hf.stop (by simpa using hclass) rfl
    · cases hclass

lemma listed_singleton (is : List Item) : Item.listed [is] = is := by
  simp [Item.listed, Item.separated]

lemma shows_separated {m : String} {is : List Item} {iss : List (List Item)} {us vs : List Token}
    {t : Token} (h : Shows is us) (ht : t.face = (Item.mark m).face)
    (hne : iss ≠ []) (hs : Shows (Item.separated m iss) vs) :
    Shows (Item.separated m (is :: iss)) (us ++ t :: vs) := by
  obtain ⟨js, jss, rfl⟩ := List.exists_cons_of_ne_nil hne
  rw [Item.separated, List.intercalate_cons_cons, List.append_assoc]
  exact h.append (.cons ht hs)

lemma typesTake (n : Nat) : TypesTake n := by
  induction n with
  | zero => constructor <;> intro ts <;> exact .exhausted
  | succ n ih =>
    constructor
    case bareType => exact bareType_takes ih
    case type => exact type_takes ih
    case typeArgs =>
      intro ts
      rw [typeArgs]
      refine .expect (by decide) fun l us _ hl hgl => .ifAccept (by decide) (fun r vs _ hr hgr => ?_)
        fun _ => ?_
      · exact .pure ⟨by simp, .cons (hgl.mark hl) (.cons (hgr.mark hr) .nil)⟩
      · refine .bind (ih.typeArgList us) fun as used rest _ has => ?_
        refine .expect (by decide) fun r vs _ hr hgr => .pure ⟨has.1, ?_⟩
        exact .cons (hgl.mark hl) (has.2.2.append (.cons (hgr.mark hr) .nil))
    case typeArgList =>
      intro ts
      rw [typeArgList]
      refine .bind (ih.typeArg ts) fun a used rest _ ha => .ifAccept (by decide)
        (fun c us _ hc hgc => ?_) fun _ => .pure ?_
      · refine .bind (ih.typeArgList us) fun as more left _ has => .pure ⟨?_, by simp, ?_⟩
        · exact List.forall_mem_cons.mpr ⟨ha.1, has.1⟩
        · rw [List.append_nil]
          exact shows_separated ha.2 (hgc.mark hc) (by simpa using has.2.1) has.2.2
      · refine ⟨by simpa using ha.1, by simp, ?_⟩
        rw [List.map_singleton, listed_singleton, List.append_nil]
        exact ha.2
    case typeArg =>
      intro ts
      rw [typeArg]
      refine .ifAccept (by decide) (fun w us _ hw hgw => .ifCheckAny (fun hbound => ?_) fun _ => ?_)
        fun _ => ?_
      · obtain ⟨k, hk, hkind⟩ := List.mem_map (f := TokenKind.word) (l := ["extends", "super"]).mp hbound
        refine .advance (by rw [← hkind]; rintro ⟨⟩) fun t vs hus ht => ?_
        obtain ⟨hface, htext, -⟩ := ht.word (w := k) (by rw [hkind, hus]; rfl)
        refine .bind (ih.type vs) fun b used rest _ hb => .pure ?_
        rw [htext, List.append_nil]
        refine ⟨.bounded hk hb.tree (typeNode_wildcard _ _), ?_⟩
        exact .cons (hgw.mark hw) (.cons hface hb.shows)
      · exact .pure ⟨.anything (typeNode_wildcard none none), .cons (hgw.mark hw) .nil⟩
      · refine (ih.type ts).mono fun a used rest _ ha => ⟨?_, ha.shows⟩
        cases ha.tree with
        | primitive name here => exact .primitive name here
        | named name here => exact .named name here
        | generic name args here => exact .generic name args here

lemma typeList_takes (m : String) (n : Nat) (ts : List Token) : Takes (typeList (.mark m) n) ts
    fun tys _ _ => tys ≠ [] ∧ ∀ ty ∈ tys, TypeTree TypeNode false ty := by
  induction n generalizing ts with
  | zero => exact .exhausted
  | succ n ih =>
    rw [typeList]
    refine .bind ((typesTake n).type ts) fun ty used rest _ hty => .ifAccept (by simp)
      (fun c us _ _ _ => ?_) fun _ => .pure ⟨by simp, by simpa using hty.tree⟩
    refine .bind (ih us) fun tys _ _ _ htys => .pure ⟨by simp, ?_⟩
    exact List.forall_mem_cons.mpr ⟨hty.tree, htys.2⟩

lemma skipParens_takes (depth : Nat) (ts : List Token) :
    Takes (skipParens depth) ts fun _ _ _ => True := by
  rintro - a rest h
  refine ⟨ts.take (ts.length - rest.length), ?_, trivial⟩
  have hsuffix : rest <:+ ts := by
    fun_induction skipParens depth ts with
    | case1 => cases h
    | case2 => cases h
    | case3 _ _ _ _ _ ih => exact (ih h).trans (List.suffix_cons _ _)
    | case4 =>
      obtain ⟨-, rfl⟩ := Prod.mk.inj (Except.ok.inj h)
      exact List.suffix_cons _ _
    | case5 _ _ _ _ _ _ _ ih => exact (ih h).trans (List.suffix_cons _ _)
    | case6 _ _ _ _ _ _ ih => exact (ih h).trans (List.suffix_cons _ _)
  obtain ⟨used, rfl⟩ := hsuffix
  simp

lemma annotationName_takes (ts : List Token) : Takes annotationName ts fun m _ _ =>
    ∃ x, IsQualified x ∧ m = "@" ++ x := by
  rw [annotationName]
  refine .expect (by decide) fun _ us _ _ _ => .bind (qualifiedName_takes us) fun x _ rest _ hx => ?_
  refine .ifCheck (fun _ => ?_) fun _ => .pure ⟨x, hx.1, rfl⟩
  exact .bind (skipParens_takes 0 rest) fun _ _ _ _ _ => .pure ⟨x, hx.1, rfl⟩

lemma isModifier_word {words : List String} {w : String} (h : w ∈ words) :
    IsModifier words (.text w) := .inl ⟨w, h, rfl⟩

lemma forall_ofTexts_cons {Q : Word → Prop} {m : String} {ms : List String} (hm : Q (.text m))
    (hms : ∀ w ∈ Word.ofTexts ms, Q w) : ∀ w ∈ Word.ofTexts (m :: ms), Q w :=
  List.forall_mem_cons.mpr ⟨hm, hms⟩

lemma modifiers_take (n : Nat) (ts : List Token) : Takes (modifiers n) ts fun ms _ _ =>
    ∀ w ∈ Word.ofTexts ms, IsModifier modifierNames w := by
  induction n generalizing ts with
  | zero => exact .exhausted
  | succ n ih =>
    rw [modifiers]
    refine .ifCheckAny (fun hword => ?_) fun _ => ?_
    · obtain ⟨w, hw, hkind⟩ := List.mem_map.mp hword
      refine .advance (by rw [← hkind]; nofun) fun t us hts ht => ?_
      obtain ⟨-, htext, -⟩ := ht.word (w := w) (by rw [hkind, hts]; rfl)
      refine .bind (ih us) fun ms _ _ _ hms => .pure ?_
      exact forall_ofTexts_cons (isModifier_word (htext ▸ hw)) hms
    · refine .look (check_run _ _) (.look (checkNext_run _ _) (.ite (fun _ => ?_) fun _ => ?_))
      · refine .bind (annotationName_takes ts) fun m _ rest _ hm => ?_
        obtain ⟨x, hx, rfl⟩ := hm
        refine .bind (ih rest) fun ms _ _ _ hms => .pure ?_
        exact forall_ofTexts_cons (.inr ⟨x, hx, rfl⟩) hms
      · exact .pure (by simp [Word.ofTexts])

lemma localModifiers_take (n : Nat) (ts : List Token) : Takes (localModifiers n) ts fun ms used _ =>
    (∀ w ∈ Word.ofTexts ms, IsModifier localModifierNames w) ∧ (ms = [] → used = []) := by
  induction n generalizing ts with
  | zero => exact .exhausted
  | succ n ih =>
    rw [localModifiers]
    refine .ifCheck (fun hfinal => ?_) fun _ => .ifCheck (fun _ => ?_) fun _ => ?_
    · refine .advance (by rw [hfinal]; nofun) fun t us hts ht => ?_
      obtain ⟨-, htext, -⟩ := ht.word (w := "final") (by rw [← hfinal, hts]; rfl)
      refine .bind (ih us) fun ms _ _ _ hms => .pure ⟨?_, nofun⟩
      refine forall_ofTexts_cons (isModifier_word ?_) hms.1
      rw [htext]
      decide
    · refine .bind (annotationName_takes ts) fun m _ rest _ hm => ?_
      obtain ⟨x, hx, rfl⟩ := hm
      refine .bind (ih rest) fun ms _ _ _ hms => .pure ⟨?_, nofun⟩
      exact forall_ofTexts_cons (.inr ⟨x, hx, rfl⟩) hms.1
    · exact .pure ⟨by simp [Word.ofTexts], fun _ => rfl⟩

def Approaches {α : Type} (p q : Parser α) : Prop :=
  ∀ ts, p ts = .error .exhausted ∨ p ts = q ts

namespace Approaches

variable {α β : Type} {p q : Parser α} {f g : α → Parser β}

lemma refl (p : Parser α) : Approaches p p := fun _ => .inr rfl

lemma exhausted (p : Parser α) : Approaches exhausted p := fun _ => .inl rfl

lemma bind (hp : Approaches p q) (hf : ∀ a, Approaches (f a) (g a)) :
    Approaches (p >>= f) (q >>= g) := by
  intro ts
  rcases hp ts with h | h
  · left
    simp only [Bind.bind, StateT.bind, h, Except.bind]
  · cases hrun : p ts with
    | error e =>
      right
      simp only [Bind.bind, StateT.bind, hrun, ← h, Except.bind]
    | ok r =>
      obtain ⟨a, rest⟩ := r
      rw [bind_of_ok hrun, bind_of_ok (h ▸ hrun)]
      exact hf a rest

lemma ite {c : Prop} [Decidable c] {p' q' : Parser α} (hp : Approaches p q)
    (hq : Approaches p' q') : Approaches (if c then p else p') (if c then q else q') := by
  split
  · exact hp
  · exact hq

end Approaches

structure TypesApproach (n : Nat) : Prop where
  bareType : Approaches (bareType n) (bareType (n + 1))
  type : Approaches (type n) (type (n + 1))
  typeArgs : Approaches (typeArgs n) (typeArgs (n + 1))
  typeArgList : Approaches (typeArgList n) (typeArgList (n + 1))
  typeArg : Approaches (typeArg n) (typeArg (n + 1))

lemma typesApproach (n : Nat) : TypesApproach n := by
  induction n with
  | zero => constructor <;> exact .exhausted _
  | succ n ih =>
    constructor
    · rw [bareType, bareType]
      refine .bind (.refl _) fun _ => .ite (.refl _) (.bind (.refl _) fun _ => ?_)
      exact .bind (.refl _) fun _ => .ite (.bind ih.typeArgs fun _ => .refl _) (.refl _)
    · rw [type, type]
      exact .bind ih.bareType fun _ => .refl _
    · rw [typeArgs, typeArgs]
      refine .bind (.refl _) fun _ => .bind (.refl _) fun _ => .ite (.refl _) ?_
      exact .bind ih.typeArgList fun _ => .refl _
    · rw [typeArgList, typeArgList]
      refine .bind ih.typeArg fun _ => .bind (.refl _) fun _ => .ite ?_ (.refl _)
      exact .bind ih.typeArgList fun _ => .refl _
    · rw [typeArg, typeArg]
      refine .bind (.refl _) fun _ => .ite (.bind (.refl _) fun _ => .ite ?_ (.refl _)) ih.type
      exact .bind (.refl _) fun _ => .bind ih.type fun _ => .refl _

lemma type_eq_of_le {n m : Nat} (hnm : n ≤ m) {ts : List Token}
    (h : type n ts ≠ .error .exhausted) : type m ts = type n ts := by
  induction m, hnm using Nat.le_induction with
  | base => rfl
  | succ m _ ih =>
    rcases (typesApproach m).type ts with hm | hm
    · exact absurd (ih ▸ hm) h
    · rw [← hm, ih]

def Declares (faces : List (TokenKind × Constant)) : Prop :=
  ∃ ty x, TypeTree Layout.Legible false ty ∧
    (ty.items ++ [Item.name x]).map Item.face <+: faces

lemma tokens_of_declares {ts : List Token} (h : Declares (ts.map Token.face)) :
    ∃ ty us t vs, ts = us ++ t :: vs ∧ TypeTree Layout.Legible false ty ∧ Realizes ty.items us ∧
      t.kind = .ident := by
  obtain ⟨ty, x, htree, vs, hvs⟩ := h
  rw [List.map_append, List.append_assoc] at hvs
  obtain ⟨us, ws, rfl, hus, hws⟩ := List.map_eq_append_iff.mp hvs.symm
  obtain ⟨t, vs', rfl, ht, -⟩ := List.map_eq_cons_iff.mp hws
  exact ⟨ty, us, t, vs', rfl, htree, Shows.realizes hus fun i hi => (typeTree_ofType htree i hi).2,
    congrArg Prod.fst ht⟩

lemma headKind_of_declares {ts : List Token} (h : Declares (ts.map Token.face)) :
    headKind ts ∈ .ident :: primitiveTypes := by
  obtain ⟨ty, us, t, vs, rfl, htree, hus, -⟩ := tokens_of_declares h
  obtain ⟨i, hi, hkind⟩ := typeTree_start htree
  rw [headKind_items hus hi]
  rcases hkind with hk | hk | ⟨hk, -⟩
  · exact hk ▸ List.mem_cons_self
  · exact List.mem_cons_of_mem _ hk
  · cases hk

lemma type_of_declares {ts : List Token} (h : Declares (ts.map Token.face)) {n : Nat}
    (hn : type n ts ≠ .error .exhausted) :
    ∃ ty rest, type n ts = .ok (ty, rest) ∧ headKind rest = .ident := by
  obtain ⟨ty, us, t, vs, rfl, htree, hus, hident⟩ := tokens_of_declares h
  have hread := (readsType_of_tree htree).type (n := max n (16 * (us ++ (t :: vs)).length))
    (t :: vs) hus (Nat.le_max_right _ _) (by rw [headKind_cons, hident]; decide)
    (by rw [headKind_cons, hident]; nofun)
  rw [type_eq_of_le (Nat.le_max_left _ _) hn] at hread
  exact ⟨ty, _, hread, hident⟩

end Grammar

end LoopLowering
