import LoopLowering.Proofs.Grammar.StatementReading
import LoopLowering.Proofs.Layout.Unit

/-! Declarations and compilation units are read from their items, up to the numbers of lines. -/

namespace LoopLowering.Grammar

open Layout

lemma boundTexts_eq (ns : List Node) : boundTexts ns = ns.map boundText := by
  induction ns with
  | nil => rfl
  | cons n ns ih => rw [boundTexts, ih, List.map_cons]

lemma boundText_reread {P : Tag → Shape Node → Prop} {w : Bool} {ty : Node} (h : TypeTree P w ty) :
    boundText ty.shown.reread = boundText ty := by
  induction h with
  | primitive | named | anything | bounded => rfl
  | @generic w t x d as _ _ _ ih =>
    have hargs : boundTexts ((as.map Node.shown).map Node.reread) = boundTexts as := by
      simp only [boundTexts_eq, List.map_map]
      exact List.map_congr_left ih
    rw [shown_generic, Node.reread_mk]
    simp only [Shape.map, Shape.mapAt, mapIdx_const, fitted, Option.map_some, Node.plain, boundText,
      hargs]

section

variable {n : Nat} {us : List Token} {rest : List Token}

lemma typeParam_items {x : String} {bounds : List Node}
    (hb : ∀ b ∈ bounds, TypeTree (fun _ _ => True) false b) (rest : List Token)
    (h : Realizes (Item.ofTypeParam x bounds) us) (hn : 16 * (us ++ rest).length ≤ n)
    (hrest : headKind rest ∈ [comma, .mark ">"]) :
    typeParam n (us ++ rest) = .ok (typeParamSource x bounds, rest) := by
  obtain ⟨t, us, rfl, ht, hname, h⟩ := h.of_name
  rw [typeParam, List.cons_append, bind_of_ok (expect_yes ht (by decide)), typeParamSource]
  cases bounds with
  | nil =>
    cases h
    have hno : headKind rest ≠ .word "extends" := fun heq => absurd (heq ▸ hrest) (by decide)
    rw [List.nil_append, bind_of_ok (accept_no hno), if_neg (by simp), hname]
    rfl
  | cons b bs =>
    rw [if_neg (by simp)] at h
    obtain ⟨w, us, rfl, hw, -, h⟩ := h.of_word
    have hlist : typeList (.mark "&") n (us ++ rest) =
        .ok ((b :: bs).map fun b => b.shown.reread, rest) := by
      simp only [List.cons_append, List.length_cons] at hn
      refine typeList_items (List.forall_mem_map.mpr fun b hmem => ?_) (by simp) (by decide)
        (q := (· ∈ [comma, .mark ">"])) (by decide) rest (by rwa [List.map_map]) (by omega) hrest
      exact (typeTree_shown (hb b hmem)).reread
    have htexts : ((b :: bs).map fun b => b.shown.reread).map boundText = (b :: bs).map boundText := by
      rw [List.map_map]
      exact List.map_congr_left fun b hmem => boundText_reread (hb b hmem)
    rw [List.cons_append, bind_of_ok (accept_yes hw (by decide)), if_pos rfl, bind_of_ok hlist,
      htexts, hname]
    rfl

lemma exists_typeParam {w : Word} (h : IsTypeParam w) : ∃ x bounds, Token.IsName x ∧
    (∀ b ∈ bounds, TypeTree (fun _ _ => True) false b) ∧ w.listed = typeParamSource x bounds ∧
      Item.ofSource w.listed = Item.ofTypeParam x bounds := by
  obtain ⟨x, bounds, hx, hb, rfl⟩ := h
  exact ⟨x, bounds, hx, hb, rfl, ofSource_typeParam hx hb⟩

lemma ofTexts_listed {ws : List Word} (h : ∀ w ∈ ws, IsTypeParam w) :
    Word.ofTexts (ws.map Word.listed) = ws := by
  rw [Word.ofTexts, List.map_map]
  refine (List.map_congr_left fun w hw => ?_).trans (List.map_id ws)
  obtain ⟨x, bounds, -, -, rfl⟩ := h w hw
  rfl

lemma typeParams_items {ws : List Word} (hws : ∀ w ∈ ws, IsTypeParam w) (rest : List Token)
    (h : Realizes (Item.ofTypeParams ws) us) (hn : 16 * (us ++ rest).length ≤ n)
    (hrest : headKind rest ≠ .mark "<") :
    typeParams n (us ++ rest) = .ok (ws.map Word.listed, rest) := by
  rw [typeParams]
  cases ws with
  | nil =>
    cases h
    rw [List.nil_append, bind_of_ok (accept_no hrest), if_neg (by simp)]
    rfl
  | cons w ws =>
    obtain ⟨l, us, rfl, hl, -, h⟩ := Realizes.of_mark
      (l := Item.listed ((w :: ws).map fun w => Item.ofSource w.listed) ++ [Item.mark ">"]) h
    obtain ⟨up, ur, rfl, hup, h⟩ := h.of_append
    obtain ⟨r, ur, rfl, hr, -, h⟩ := h.of_mark
    cases h
    simp only [List.cons_append, List.length_cons, List.append_assoc, List.nil_append] at hn ⊢
    have hlist : typeParamList n (up ++ r :: rest) =
        .ok ((w :: ws).map Word.listed, r :: rest) := by
      refine list_items_map (g := typeParam) (q := (· = .mark ">")) (c := 0)
        (fun n => by rw [typeParamList]; rfl) (by decide) (fun a ha n us rest hus hn hrest => ?_)
        (by simp) (r :: rest) hup (by omega) hr
      obtain ⟨x, bounds, hx, hb, hsource, hitems⟩ := exists_typeParam (hws a ha)
      rw [hitems] at hus
      rw [hsource]
      refine typeParam_items hb rest hus hn ?_
      rcases hrest with hrest | hrest <;> rw [hrest] <;> decide
    rw [bind_of_ok (accept_yes hl (by decide)), if_pos rfl, bind_of_ok hlist,
      bind_of_ok (expect_yes hr (by decide))]
    rfl

def param (n : Nat) : Parser Node := do
  let mods ← modifiers n
  let t ← type n
  let varargs ← accept (.mark "...")
  let name ← expect .ident
  let t := addDims (← dims) t
  return .plain (.parameter (Word.ofTexts mods) name.text varargs t)

lemma paramList_succ (n : Nat) : paramList (n + 1) = (do
    let p ← param n
    if ← accept comma then return p :: (← paramList n) else return [p]) := by
  rw [paramList, param]
  simp only [bind_assoc, pure_bind]

lemma items_parameter (t : Tag) (mods : List Word) (x : String) (varargs : Bool) (ty : Node) :
    (Node.mk t (.parameter mods x varargs ty)).items = Item.ofModifiers mods ++
      (ty.items ++ ((if varargs then [Item.mark "..."] else []) ++ [Item.name x])) := rfl

lemma addDims_zero {ty : Node} {P : Tag → Shape Node → Prop} (h : ResultTree P ty) :
    addDims 0 ty = ty := by
  cases h with
  | value type => cases type <;> rfl
  | void _ => rfl

lemma dims_none (h : headKind rest ≠ lbracket) : dims rest = .ok (0, rest) :=
  splitting_of_eq (dimsTail_items (d := 0) .nil h)

lemma param_items {p : Node} (hp : ParamTree Legible p) (rest : List Token)
    (h : Realizes p.items us) (hn : 16 * (us ++ rest).length ≤ n)
    (hrest : headKind rest ∈ [comma, rparen]) : param n (us ++ rest) = .ok (p, rest) := by
  cases hp with
  | @mk t mods x varargs ty modifiers name type here =>
    obtain rfl := here.1
    rw [items_parameter] at h
    obtain ⟨um, us, rfl, hum, h⟩ := h.of_append
    obtain ⟨ut, us, rfl, hut, h⟩ := h.of_append
    obtain ⟨uv, us, rfl, huv, h⟩ := h.of_append
    obtain ⟨i, us, rfl, hi, hx, h⟩ := h.of_name
    cases h
    simp only [List.append_assoc, List.singleton_append] at hn ⊢
    have hstart := type_start type hut (uv ++ i :: rest)
    have key : ∀ k ∈ TokenKind.ident :: primitiveTypes, k ∈ memberStarts := by decide
    obtain ⟨ms, hms, rfl⟩ := modifiers_items modifiers (n := n) (ut ++ (uv ++ i :: rest)) hum
      (by simp only [List.length_append, List.length_cons] at hn ⊢; omega) (key _ hstart)
    have hbracket : headKind rest ≠ lbracket := fun heq => absurd (heq ▸ hrest) (by decide)
    have hnext : headKind (uv ++ i :: rest) ∉ [dot, lbracket, .mark "<"] := by
      cases varargs with
      | false =>
        cases huv
        rw [List.nil_append, headKind_cons, hi]
        decide
      | true =>
        rw [headKind_items huv rfl]
        decide
    simp only [List.length_append] at hn
    have htype := (readsType_of_tree type).type (n := n) (uv ++ i :: rest) hut
      (by simp only [List.length_append]; omega) (fun hmem => hnext ?_) (fun _ heq => hnext ?_)
    · have hvarargs : accept (.mark "...") (uv ++ i :: rest) = .ok (varargs, i :: rest) := by
        cases varargs with
        | false =>
          cases huv
          exact accept_no (by rw [List.nil_append, headKind_cons, hi]; decide)
        | true =>
          obtain ⟨v, uv, rfl, hv, -, huv⟩ := huv.of_mark
          cases huv
          exact accept_yes hv (by decide)
      rw [param, bind_of_ok hms, bind_of_ok htype, bind_of_ok hvarargs,
        bind_of_ok (expect_yes hi (by decide)), bind_of_ok (dims_none hbracket),
        addDims_zero (.value type), hx]
      rfl
    · exact List.mem_append_left [TokenKind.mark "<"] hmem
    · simp [heq]

lemma param_start {p : Node} (hp : ParamTree Legible p) :
    ∃ i, p.items.head? = some i ∧ i.kind ≠ rparen := by
  cases hp with
  | @mk t mods x varargs ty modifiers name type here =>
    obtain ⟨i, hi, hkind⟩ := typeTree_start type
    obtain ⟨j, hj, hjkind⟩ := modifiers_start (by decide) modifiers
      (head?_append_of hi ((if varargs then [Item.mark "..."] else []) ++ [Item.name x]))
    refine ⟨j, hj, fun heq => ?_⟩
    rw [heq] at hjkind
    rcases hjkind with hjkind | hjkind
    · rw [← hjkind] at hkind
      exact absurd hkind (by decide)
    · exact absurd hjkind (by decide)

lemma params_items {ps : List Node} (hps : ∀ p ∈ ps, ParamTree Legible p) (rest : List Token)
    (h : Realizes (Item.parenthesized (Item.listed (ps.map Node.items))) us)
    (hn : 16 * (us ++ rest).length ≤ n) : params n (us ++ rest) = .ok (ps, rest) := by
  obtain ⟨l, up, r, rfl, hl, hup, hr⟩ := realizes_parenthesized h
  simp only [List.cons_append, List.length_cons, List.append_assoc, List.nil_append] at hn ⊢
  rw [params, bind_of_ok (expect_yes hl (by decide))]
  cases ps with
  | nil =>
    cases hup
    rw [List.nil_append, bind_of_ok (accept_yes hr (by decide)), if_pos rfl]
    rfl
  | cons p ps =>
    have hlist : paramList n (up ++ r :: rest) = .ok (p :: ps, r :: rest) := by
      refine list_items (f := paramList) (g := param) (m := ",") (q := (· = rparen)) (c := 0)
        paramList_succ (by decide) (fun a ha n us rest hus hn hrest => ?_) (by simp) (r :: rest) hup
        (by omega) hr
      refine param_items (hps a ha) rest hus hn ?_
      rcases hrest with hrest | hrest <;> rw [hrest] <;> decide
    have hno : headKind (up ++ r :: rest) ≠ rparen := by
      obtain ⟨i, hi, hkind⟩ := param_start (hps p List.mem_cons_self)
      rw [headKind_items hup (head?_separated hi _)]
      exact hkind
    rw [bind_of_ok (accept_no hno), if_neg (by simp), bind_of_ok hlist,
      bind_of_ok (expect_yes hr (by decide))]
    rfl

def typesStop (k : TokenKind) : Prop := k ∉ [dot, lbracket, .mark "<", comma]

lemma typesAfter_items {w : String} {tys : List Node} (htys : ∀ ty ∈ tys, TypeTree Legible false ty)
    (rest : List Token) (h : Realizes (Item.behind w (tys.map Node.items)) us)
    (hn : 16 * (us ++ rest).length ≤ n) (hstop : typesStop (headKind rest))
    (hw : headKind rest ≠ .word w) : typesAfter w n (us ++ rest) = .ok (tys, rest) := by
  rw [typesAfter]
  cases tys with
  | nil =>
    cases h
    rw [List.nil_append, bind_of_ok (accept_no hw), if_neg (by simp)]
    rfl
  | cons ty tys =>
    obtain ⟨t, us, rfl, ht, -, h⟩ := Realizes.of_word
      (l := Item.listed ((ty :: tys).map Node.items)) h
    rw [List.cons_append, List.length_cons] at hn
    rw [List.cons_append, bind_of_ok (accept_yes ht (by simp)), if_pos rfl]
    exact typeList_items htys (by simp) (by decide) (q := typesStop) (fun _ h => h) rest h
      (by omega) hstop

lemma result_items {ty : Node} (hty : ResultTree Legible ty)
    (hvoid : isVoid ty = true → ty.dims = 0) (h : Realizes ty.items us)
    (hrest : headKind rest = .ident) :
    headKind (us ++ rest) ∈ .word "void" :: .ident :: primitiveTypes ∧
      (headKind (us ++ rest) = .ident → (tokenAt (us ++ rest) 1).kind ≠ lparen) ∧
        (16 * (us ++ rest).length ≤ n → ∀ k : Node → Parser Node, (do
          if ← accept (.word "void") then pure (Node.plain (.typeRef "void" 0 none)) >>= k
          else type n >>= k) (us ++ rest) = k ty rest) := by
  cases hty with
  | value type =>
    have hstart := type_start type h rest
    have hno : headKind (us ++ rest) ≠ .word "void" := fun heq => absurd (heq ▸ hstart) (by decide)
    refine ⟨List.mem_cons_of_mem _ hstart, fun _ heq => ?_, fun hn k => ?_⟩
    · exact absurd (heq ▸ type_second type h rest hrest) (by decide)
    · have htype := (readsType_of_tree type).type (n := n) rest h hn (by rw [hrest]; decide)
        (by rw [hrest]; nofun)
      rw [bind_of_ok (accept_no hno), if_neg (by simp), bind_of_ok htype]
  | @void t d here =>
    obtain rfl := here.1
    obtain rfl : d = 0 := hvoid (by simp [isVoid])
    rw [Node.items_typeRef, Layout.ofName_void] at h
    obtain ⟨w, us, rfl, hw, -, h⟩ := h.of_word
    cases h
    refine ⟨by simp [hw], fun heq => ?_, fun _ k => ?_⟩
    · rw [List.singleton_append, headKind_cons, hw] at heq
      cases heq
    · rw [List.singleton_append, bind_of_ok (accept_yes hw (by decide)), if_pos rfl, pure_bind]
      rfl

lemma plainMember_run (c : String) (ms : List String) {ws : List Word} {ty : Node} {up ut : List Token}
    (hws : ∀ w ∈ ws, IsTypeParam w) (hup : Realizes (Item.ofTypeParams ws) up)
    (hty : ResultTree Legible ty) (hvoid : isVoid ty = true → ty.dims = 0)
    (hut : Realizes ty.items ut) {i : Token} (hi : i.kind = .ident) (rest : List Token)
    (hn : 16 * (up ++ (ut ++ i :: rest)).length ≤ n) :
    plainMember n c ms (up ++ (ut ++ i :: rest)) = (do
      if ← check lparen then method n ms (ws.map Word.listed) ty i.text
      else
        let ds ← declarators (some i) n
        let _ ← expect semicolon
        return Node.plain (.fieldDecl (Word.ofTexts ms) ty ds)) rest := by
  have hnext : headKind (i :: rest) = .ident := hi
  obtain ⟨hhead, hparen, hread⟩ := result_items (n := n) hty hvoid hut hnext
  have hless : headKind (ut ++ i :: rest) ≠ .mark "<" := fun heq => absurd (heq ▸ hhead) (by decide)
  have hparams := typeParams_items hws (n := n) (ut ++ i :: rest) hup hn hless
  rw [List.length_append] at hn
  have hname : ¬ ((tokenAt (ut ++ i :: rest) 0).kind = .ident &&
      (tokenAt (ut ++ i :: rest) 0).text = c &&
        (decide ((tokenAt (ut ++ i :: rest) 1).kind = lparen))) = true := by
    simp only [Bool.and_eq_true, decide_eq_true_eq, not_and]
    exact fun h => hparen h.1
  rw [plainMember, bind_of_ok hparams, bind_of_ok (current_run _), bind_of_ok (checkNext_run _ _),
    if_neg hname, hread (by omega)]
  beta_reduce
  rw [bind_of_ok (expect_yes hi (by decide))]

def memberStops : List TokenKind := [rbrace, .finish, semicolon, .word "import", .word "package"]

structure ReadsMember (c : String) (m : Node) : Prop where
  start : ∃ i, m.memberItems.head? = some i ∧ i.kind ∉ memberStops
  read : ∀ ⦃n : Nat⦄ ⦃us : List Token⦄ (rest : List Token), Realizes m.memberItems us →
    Remaining (us ++ rest) → rest ≠ [] → 16 * (us ++ rest).length + 6 ≤ n →
      ∃ r, member n c (us ++ rest) = .ok (r, rest) ∧ r.bare = m.bare

lemma member_start {mods : List Word} (hmods : ∀ w ∈ mods, IsModifier modifierNames w) {i : Item}
    {is : List Item} (hi : is.head? = some i) (hkind : i.kind ∈ memberStarts) :
    ∃ j, (Item.ofModifiers mods ++ is).head? = some j ∧ j.kind ∉ memberStops := by
  obtain ⟨j, hj, hjkind⟩ := modifiers_start (by decide) hmods hi
  refine ⟨j, hj, ?_⟩
  have hstarts : ∀ k ∈ memberStarts, k ∉ memberStops := by decide
  have hwords : ∀ k ∈ .mark "@" :: modifierNames.map TokenKind.word, k ∉ memberStops := by decide
  exact hjkind.elim (fun heq => heq ▸ hstarts _ hkind) (hwords _)

lemma ReadsMember.of_modifiers {c : String} {m : Node} {mods : List Word} {i : Item} {is : List Item}
    (hmods : ∀ w ∈ mods, IsModifier modifierNames w)
    (hitems : m.memberItems = Item.ofModifiers mods ++ is) (hi : is.head? = some i)
    (hkind : i.kind ∈ memberStarts)
    (h : ∀ ⦃n : Nat⦄ ⦃ms : List String⦄ ⦃us : List Token⦄ (rest : List Token), Realizes is us →
      Word.ofTexts ms = mods → Remaining (us ++ rest) → rest ≠ [] →
        16 * (us ++ rest).length + 5 ≤ n → ∃ r, (do
          if ← checkAny [.word "class", .word "interface"] then typeDecl n ms
          else if ← check lbrace then
            return Node.plain (.initBlock (ms.contains "static") (← block n))
          else plainMember n c ms) (us ++ rest) = .ok (r, rest) ∧ r.bare = m.bare) :
    ReadsMember c m := by
  refine ⟨hitems ▸ member_start hmods hi hkind, fun n us rest hus hall hne hn => ?_⟩
  rw [hitems] at hus
  obtain ⟨um, us, rfl, hum, hus⟩ := hus.of_append
  obtain ⟨n, rfl⟩ : ∃ k, n = k + 1 := ⟨n - 1, by omega⟩
  rw [List.append_assoc] at hall hn ⊢
  have hhead : headKind (us ++ rest) ∈ memberStarts := by rwa [headKind_items hus hi]
  obtain ⟨ms, hms, heq⟩ := modifiers_items hmods (n := n) (us ++ rest) hum (by omega) hhead
  rw [List.length_append] at hn
  obtain ⟨r, hr, hbare⟩ := h (n := n) rest hus heq (hall.right (by simp [hne])) hne (by omega)
  exact ⟨r, by rw [member, bind_of_ok hms, hr], hbare⟩

lemma ReadsMember.of_plain {c : String} {m : Node} {mods : List Word} {i : Item} {is : List Item}
    (hmods : ∀ w ∈ mods, IsModifier modifierNames w)
    (hitems : m.memberItems = Item.ofModifiers mods ++ is) (hi : is.head? = some i)
    (hkind : i.kind ∈ [.ident, .word "void", .mark "<"] ++ primitiveTypes)
    (h : ∀ ⦃n : Nat⦄ ⦃ms : List String⦄ ⦃us : List Token⦄ (rest : List Token), Realizes is us →
      Word.ofTexts ms = mods → Remaining (us ++ rest) → rest ≠ [] →
        16 * (us ++ rest).length + 5 ≤ n →
          ∃ r, plainMember n c ms (us ++ rest) = .ok (r, rest) ∧ r.bare = m.bare) :
    ReadsMember c m := by
  have key : ∀ k ∈ [.ident, .word "void", .mark "<"] ++ primitiveTypes,
      k ∈ memberStarts ∧ k ∉ [.word "class", .word "interface"] ∧ k ≠ lbrace := by decide
  obtain ⟨hstart, hclass, hbrace⟩ := key _ hkind
  refine .of_modifiers hmods hitems hi hstart fun n ms us rest hus hms hall hne hn => ?_
  obtain ⟨r, hr, hbare⟩ := h (n := n) rest hus hms hall hne hn
  have hhead : headKind (us ++ rest) = i.kind := headKind_items hus hi rest
  refine ⟨r, ?_, hbare⟩
  rw [bind_of_ok (checkAny_no (hhead ▸ hclass)), if_neg (by simp),
    bind_of_ok (check_no (hhead ▸ hbrace)), if_neg (by simp), hr]

lemma result_start {ty : Node} (hty : ResultTree Legible ty) :
    ∃ i, ty.items.head? = some i ∧ i.kind ∈ .word "void" :: .ident :: primitiveTypes := by
  cases hty with
  | value type =>
    obtain ⟨i, hi, hkind⟩ := typeTree_start type
    exact ⟨i, hi, List.mem_cons_of_mem _ (by simpa using hkind)⟩
  | void here =>
    rw [Node.items_typeRef, Layout.ofName_void]
    exact ⟨_, rfl, List.mem_cons_self⟩

lemma readsMember_fieldDecl {c : String} {t : Tag} {mods : List Word} {ty : Node} {ds : List Node}
    (hmods : ∀ w ∈ mods, IsModifier modifierNames w) (hty : ResultTree Legible ty)
    (hvoid : isVoid ty = true → ty.dims = 0) (hne : ds ≠ [])
    (hds : ∀ d ∈ ds, DeclaratorTree Legible d) : ReadsMember c (.mk t (.fieldDecl mods ty ds)) := by
  obtain ⟨i, hi, hkind⟩ := result_start hty
  have key : ∀ k ∈ .word "void" :: .ident :: primitiveTypes,
      k ∈ [.ident, .word "void", .mark "<"] ++ primitiveTypes := by decide
  refine .of_plain hmods (by rw [Node.memberItems]) (head?_append_of hi _) (key _ hkind) ?_
  rintro n ms us rest hus rfl hall - hn
  obtain ⟨ut, us, rfl, hut, hus⟩ := hus.of_append
  obtain ⟨ud, m, rfl, hud, hm⟩ := realizes_semicolon hus
  obtain ⟨u, vs, hu, hident, hfollow⟩ := declarators_start hds hne hud
  simp only [List.append_assoc, List.singleton_append] at hn ⊢
  have hlist := declarators_items hds hne (n := n) (m :: rest) hud
    (by rw [List.length_append] at hn; omega) hm
  have hno : headKind (vs ++ m :: rest) ≠ lparen := fun heq =>
    absurd (heq ▸ hfollow (m :: rest) hm) (by decide)
  subst hu
  refine ⟨.plain (.fieldDecl (Word.ofTexts ms) ty ds), ?_, by rw [Node.plain, Node.bare_mk, Node.bare_mk]⟩
  have hup : Realizes (Item.ofTypeParams []) [] := .nil
  have hrun := plainMember_run c ms (n := n) (by simp) hup hty hvoid hut hident (vs ++ m :: rest)
    (by rw [List.nil_append]; exact Nat.le_of_add_right_le hn)
  rw [List.nil_append] at hrun
  rw [List.cons_append, hrun, bind_of_ok (check_no hno), if_neg (by simp)]
  rw [bind_of_ok (a := ds) (l := m :: rest) (by rw [declarators_first hident]; exact hlist),
    bind_of_ok (expect_yes hm (by decide))]
  rfl

lemma signature_items {ps ths : List Node} (hps : ∀ p ∈ ps, ParamTree Legible p)
    (hths : ∀ ty ∈ ths, TypeTree Legible false ty)
    (h : Realizes (Node.signatureItems ps ths) us) (rest : List Token)
    (hn : 16 * (us ++ rest).length ≤ n) (hrest : headKind rest ∈ [semicolon, lbrace]) :
    ∃ ut, params n (us ++ rest) = .ok (ps, ut ++ rest) ∧ headKind (ut ++ rest) ≠ lbracket ∧
      typesAfter "throws" n (ut ++ rest) = .ok (ths, rest) := by
  obtain ⟨up, ut, rfl, hup, hut⟩ := h.of_append
  rw [List.append_assoc] at hn ⊢
  have hparams := params_items hps (n := n) (ut ++ rest) hup hn
  rw [List.length_append] at hn
  have key : ∀ k ∈ [semicolon, lbrace], typesStop k ∧ k ≠ .word "throws" ∧ k ≠ lbracket := by
    unfold typesStop
    decide
  obtain ⟨hstop, hthrows, hbracket⟩ := key _ hrest
  refine ⟨ut, hparams, ?_, typesAfter_items hths rest hut (by omega) hstop hthrows⟩
  cases ths with
  | nil =>
    cases hut
    exact hbracket
  | cons ty tys =>
    rw [headKind_items (i := Item.word "throws") hut rfl]
    decide

lemma readsMember_methodDecl {c : String} {t : Tag} {mods tps : List Word} {x : String} {ty : Node}
    {ps ths : List Node} {o : Option Node} (hmods : ∀ w ∈ mods, IsModifier modifierNames w)
    (htps : ∀ w ∈ tps, IsTypeParam w) (hty : ResultTree Legible ty)
    (hvoid : isVoid ty = true → ty.dims = 0) (hps : ∀ p ∈ ps, ParamTree Legible p)
    (hths : ∀ ty ∈ ths, TypeTree Legible false ty) (ho : ∀ b ∈ o, ReadsStmt b)
    (hblock : ∀ b ∈ o, isBlock b = true) : ReadsMember c (.mk t (.methodDecl mods tps x ty ps ths o)) := by
  obtain ⟨i, hi, hkind⟩ : ∃ i, (Item.ofTypeParams tps ++ (ty.items ++ Item.name x ::
      (Node.signatureItems ps ths ++ (o.map Node.stmtItems).getD [Item.mark ";"]))).head? = some i ∧
        i.kind ∈ [.ident, .word "void", .mark "<"] ++ primitiveTypes := by
    cases tps with
    | nil =>
      obtain ⟨i, hi, hkind⟩ := result_start hty
      have key : ∀ k ∈ .word "void" :: .ident :: primitiveTypes,
          k ∈ [.ident, .word "void", .mark "<"] ++ primitiveTypes := by decide
      exact ⟨i, head?_append_of hi _, key _ hkind⟩
    | cons w tps => exact ⟨Item.mark "<", rfl, by decide⟩
  refine .of_plain hmods (by rw [Node.memberItems]) hi hkind ?_
  rintro n ms us rest hus rfl hall hne hn
  obtain ⟨up, us, rfl, hup, hus⟩ := hus.of_append
  obtain ⟨ut, us, rfl, hut, hus⟩ := hus.of_append
  obtain ⟨u, us, rfl, hu, hx, hus⟩ := hus.of_name
  obtain ⟨us, ub, rfl, hus, hub⟩ := hus.of_append
  simp only [List.append_assoc, List.cons_append] at hall hn ⊢
  have hrun := plainMember_run c ms htps hup hty hvoid hut hu (us ++ (ub ++ rest)) (n := n) (by omega)
  simp only [List.length_append, List.length_cons] at hn
  have hopen : headKind (us ++ (ub ++ rest)) = lparen := headKind_items hus rfl _
  have hend : headKind (ub ++ rest) ∈ [semicolon, lbrace] := by
    cases o with
    | none =>
      rw [headKind_items hub rfl]
      decide
    | some b =>
      obtain ⟨is, his⟩ := block_start (hblock b rfl)
      rw [headKind_items (i := Item.mark "\x7b") hub (by rw [Option.map_some, Option.getD_some, his]; rfl)]
      decide
  obtain ⟨uh, hparams, hbracket, hthrows⟩ := signature_items hps hths (n := n) hus (ub ++ rest)
    (by simp only [List.length_append]; omega) hend
  have hbody : ∃ g, g.map Node.bare = o.map Node.bare ∧ ∀ k : Option Node → Parser Node, (do
      if ← accept semicolon then pure none >>= k else (some <$> block n) >>= k)
        (ub ++ rest) = k g rest := by
    cases o with
    | none =>
      obtain ⟨m, ub, rfl, hm, -, hub⟩ := hub.of_mark
      cases hub
      refine ⟨none, rfl, fun k => ?_⟩
      rw [List.singleton_append, bind_of_ok (accept_yes (k := semicolon) hm (by decide)),
        if_pos rfl, pure_bind]
    | some b =>
      have hb := hblock b rfl
      obtain ⟨is, his⟩ := block_start hb
      have hno : headKind (ub ++ rest) ≠ semicolon := by
        rw [headKind_items (i := Item.mark "\x7b") hub
          (by rw [Option.map_some, Option.getD_some, his]; rfl)]
        decide
      have hall' : Remaining (ub ++ rest) :=
        hall.suffix ⟨up ++ (ut ++ u :: us), by simp⟩ (by simp [hne])
      obtain ⟨g, hg, hbare⟩ := (ho b rfl).block hb rest hub hall' (n := n)
        (by rw [List.length_append]; omega)
      refine ⟨some g, by rw [Option.map_some, Option.map_some, hbare], fun k => ?_⟩
      rw [bind_of_ok (accept_no hno), if_neg (by simp), bind_of_ok (map_of_ok hg)]
  obtain ⟨g, hbares, hg⟩ := hbody
  refine ⟨.plain (.methodDecl (Word.ofTexts ms) tps x ty ps ths g), ?_, ?_⟩
  · rw [hrun, bind_of_ok (check_yes hopen), if_pos rfl, method, bind_of_ok hparams,
      bind_of_ok (dims_none hbracket), addDims_zero hty]
    dsimp only
    rw [bind_of_ok hthrows, hg, ofTexts_listed htps, hx]
    rfl
  · rw [Node.plain, Node.bare_mk, Node.bare_mk]
    simp only [Shape.map, Shape.mapAt, hbares]

lemma readsMember_constructorDecl {t : Tag} {mods : List Word} {x : String} {ps ths : List Node}
    {b : Node} (hmods : ∀ w ∈ mods, IsModifier modifierNames w)
    (hps : ∀ p ∈ ps, ParamTree Legible p) (hths : ∀ ty ∈ ths, TypeTree Legible false ty)
    (hb : ReadsStmt b) (hblock : isBlock b = true) :
    ReadsMember x (.mk t (.constructorDecl mods x ps ths b)) := by
  refine .of_plain hmods (by rw [Node.memberItems]) (i := Item.name x) rfl List.mem_cons_self ?_
  rintro n ms us rest hus rfl hall hne hn
  obtain ⟨u, us, rfl, hu, hx, hus⟩ := hus.of_name
  obtain ⟨us, ub, rfl, hus, hub⟩ := hus.of_append
  simp only [List.append_assoc, List.cons_append] at hall hn ⊢
  simp only [List.length_append, List.length_cons] at hn
  obtain ⟨is, his⟩ := block_start hblock
  have hend : headKind (ub ++ rest) ∈ [semicolon, lbrace] := by
    rw [headKind_items hub (by rw [his]; rfl)]
    decide
  have hopen : headKind (us ++ (ub ++ rest)) = lparen := headKind_items hus rfl _
  obtain ⟨uh, hparams, hbracket, hthrows⟩ := signature_items hps hths (n := n) hus (ub ++ rest)
    (by simp only [List.length_append]; omega) hend
  have hall' : Remaining (ub ++ rest) := hall.suffix ⟨u :: us, by simp⟩ (by simp [hne])
  obtain ⟨g, hg, hbare⟩ := hb.block hblock rest hub hall' (n := n)
    (by rw [List.length_append]; omega)
  have hnext : (tokenAt (u :: (us ++ (ub ++ rest))) 1).kind = lparen := by
    rw [tokenAt_succ (by simp [hne])]
    exact hopen
  refine ⟨.plain (.constructorDecl (Word.ofTexts ms) x ps ths g), ?_, ?_⟩
  · have hparams' : typeParams n (u :: (us ++ (ub ++ rest))) = .ok ([], u :: (us ++ (ub ++ rest))) := by
      rw [typeParams, bind_of_ok (accept_no (by rw [headKind_cons, hu]; decide)), if_neg (by simp)]
      rfl
    rw [plainMember, bind_of_ok hparams', bind_of_ok (current_run _),
      bind_of_ok (checkNext_run _ _), tokenAt_zero, hu, hx,
      decide_eq_true hnext, if_pos (by simp), bind_of_ok (advance_cons (by simp [hu])),
      bind_of_ok hparams, bind_of_ok hthrows, bind_of_ok hg, hx]
    rfl
  · rw [Node.plain, Node.bare_mk, Node.bare_mk]
    simp only [Shape.map, Shape.mapAt, hbare]

lemma readsMember_initBlock {c : String} {t : Tag} {isStatic : Bool} {b : Node} (hb : ReadsStmt b)
    (hblock : isBlock b = true) : ReadsMember c (.mk t (.initBlock isStatic b)) := by
  obtain ⟨is, his⟩ := block_start hblock
  have hmods : ∀ w ∈ (if isStatic then [Word.text "static"] else []), IsModifier modifierNames w := by
    cases isStatic with
    | false => simp
    | true => exact List.forall_mem_singleton.mpr (isModifier_word (by decide))
  have hitems : (Node.mk t (.initBlock isStatic b)).memberItems =
      Item.ofModifiers (if isStatic then [Word.text "static"] else []) ++ b.stmtItems := by
    rw [Node.memberItems]
    cases isStatic with
    | false => rfl
    | true => rw [if_pos rfl, if_pos rfl, Item.ofModifiers, List.flatMap_singleton,
        Item.ofModifier_word (by decide)]
  refine .of_modifiers hmods hitems (i := Item.mark "\x7b") (by rw [his]; rfl) (by decide) ?_
  intro n ms us rest hus hms hall hne hn
  have hhead : headKind (us ++ rest) = lbrace := headKind_items hus (by rw [his]; rfl) rest
  obtain ⟨g, hg, hbare⟩ := hb.block hblock rest hus hall (n := n) (by omega)
  have hcontains : ms.contains "static" = isStatic := by
    cases isStatic with
    | false =>
      obtain rfl := List.map_eq_nil_iff.mp hms
      rfl
    | true =>
      obtain ⟨m, ms, rfl, hm, hnil⟩ := List.map_eq_cons_iff.mp hms
      obtain rfl := List.map_eq_nil_iff.mp hnil
      obtain rfl := Word.text.inj hm
      rfl
  refine ⟨.plain (.initBlock isStatic g), ?_, ?_⟩
  · rw [bind_of_ok (checkAny_no (by rw [hhead]; decide)), if_neg (by simp),
      bind_of_ok (check_yes hhead), if_pos rfl, bind_of_ok hg, hcontains]
    rfl
  · rw [Node.plain, Node.bare_mk, Node.bare_mk]
    simp only [Shape.map, Shape.mapAt, hbare]

lemma memberTail_items {c : String} {ms : List Node} (hms : ∀ m ∈ ms, ReadsMember c m)
    (h : Realizes (Node.membersItems ms) us) {r : Token} (hr : r.kind = rbrace)
    (hall : Remaining (us ++ r :: rest)) (hn : 16 * (us ++ r :: rest).length + 7 ≤ n) :
    ∃ rs, memberTail n c (us ++ r :: rest) = .ok (rs, rest) ∧ rs.map Node.bare = ms.map Node.bare := by
  induction ms generalizing n us with
  | nil =>
    cases h
    obtain ⟨n, rfl⟩ : ∃ m, n = m + 1 := ⟨n - 1, by omega⟩
    refine ⟨[], ?_, rfl⟩
    rw [memberTail, List.nil_append, bind_of_ok (accept_yes hr (by decide)), if_pos rfl]
    rfl
  | cons m ms ih =>
    obtain ⟨hm, hothers⟩ := List.forall_mem_cons.mp hms
    obtain ⟨n, rfl⟩ : ∃ m, n = m + 1 := ⟨n - 1, by omega⟩
    rw [Node.membersItems] at h
    obtain ⟨ua, vs, rfl, ha, hv⟩ := h.of_append
    rw [List.append_assoc] at hall hn ⊢
    obtain ⟨i, hi, hkind⟩ := hm.start
    have hhead : headKind (ua ++ (vs ++ r :: rest)) ∉ memberStops := by rwa [headKind_items ha hi]
    have hne : vs ++ r :: rest ≠ [] := by simp
    obtain ⟨q, hq, hbare⟩ := hm.read (n := n) (vs ++ r :: rest) ha hall hne (by omega)
    have hpos : 0 < ua.length := by
      obtain ⟨is, his⟩ := List.head?_eq_some_iff.mp hi
      rw [ha.length, his]
      exact Nat.succ_pos _
    rw [List.length_append] at hn
    obtain ⟨rs, hrs, hbares⟩ := ih hothers hv (hall.right hne) (n := n) (by omega)
    refine ⟨q :: rs, ?_, by rw [List.map_cons, List.map_cons, hbare, hbares]⟩
    rw [memberTail, bind_of_ok (accept_no fun h => hhead (by simp [memberStops, h])),
      if_neg (by simp), bind_of_ok (check_no fun h => hhead (by simp [memberStops, h])),
      if_neg (by simp)]
    dsimp only
    rw [bind_of_ok (accept_no fun h => hhead (by simp [memberStops, h])), if_neg (by simp),
      bind_of_ok hq, bind_of_ok hrs]
    rfl

lemma classDecl_items {t : Tag} {mods tps : List Word} {k x : String} {exts imps ms : List Node}
    (hk : k ∈ ["class", "interface"]) (htps : ∀ w ∈ tps, IsTypeParam w)
    (hexts : ∀ ty ∈ exts, TypeTree Legible false ty) (himps : ∀ ty ∈ imps, TypeTree Legible false ty)
    (hms : ∀ m ∈ ms, ReadsMember x m) {words : List String} (hwords : Word.ofTexts words = mods)
    (h : Realizes (Item.word k :: Item.name x :: (Item.ofTypeParams tps ++
      (Item.behind "extends" (exts.map Node.items) ++
        (Item.behind "implements" (imps.map Node.items) ++
          Item.braced (Node.membersItems ms))))) us)
    (hall : Remaining (us ++ rest)) (hn : 16 * (us ++ rest).length ≤ n) :
    headKind (us ++ rest) ∈ [.word "class", .word "interface"] ∧
      ∃ r, typeDecl n words (us ++ rest) = .ok (r, rest) ∧
        r.bare = (Node.mk t (.classDecl mods k x tps exts imps ms)).bare := by
  obtain ⟨w, us, rfl, hw, hword, h⟩ := h.of_word
  obtain ⟨i, us, rfl, hi, hx, h⟩ := h.of_name
  obtain ⟨up, us, rfl, hup, h⟩ := h.of_append
  obtain ⟨ue, us, rfl, hue, h⟩ := h.of_append
  obtain ⟨ui, us, rfl, hui, h⟩ := h.of_append
  obtain ⟨l, um, r, rfl, hl, hum, hr⟩ := realizes_braced h
  simp only [List.append_assoc, List.cons_append, List.nil_append] at hall hn ⊢
  simp only [List.length_append, List.length_cons] at hn
  obtain ⟨n, rfl⟩ : ∃ m, n = m + 1 := ⟨n - 1, by omega⟩
  have hkeyword : headKind (w :: i :: (up ++ (ue ++ (ui ++ l :: (um ++ r :: rest))))) ∈
      [.word "class", .word "interface"] := by
    rw [headKind_cons, hw]
    simpa using hk
  have hafter : headKind (ui ++ l :: (um ++ r :: rest)) ∈ [.word "implements", lbrace] := by
    cases imps with
    | nil =>
      cases hui
      rw [List.nil_append, headKind_cons, hl]
      decide
    | cons ty tys =>
      rw [headKind_items (i := Item.word "implements") hui rfl]
      decide
  have hbehind : headKind (ue ++ (ui ++ l :: (um ++ r :: rest))) ≠ .mark "<" := by
    cases exts with
    | nil =>
      cases hue
      exact fun heq => absurd (heq ▸ hafter) (by decide)
    | cons ty tys =>
      rw [headKind_items (i := Item.word "extends") hue rfl]
      decide
  have key : ∀ k ∈ [.word "implements", lbrace], typesStop k ∧ k ≠ .word "extends" := by
    unfold typesStop
    decide
  have hparams := typeParams_items htps (n := n) (ue ++ (ui ++ l :: (um ++ r :: rest))) hup
    (by simp only [List.length_append, List.length_cons]; omega) hbehind
  have hextended := typesAfter_items hexts (n := n) (ui ++ l :: (um ++ r :: rest)) hue
    (by simp only [List.length_append, List.length_cons]; omega) (key _ hafter).1 (key _ hafter).2
  have himplemented := typesAfter_items himps (n := n) (l :: (um ++ r :: rest)) hui
    (by simp only [List.length_append, List.length_cons]; omega)
    (by rw [headKind_cons, hl]; unfold typesStop; decide) (by rw [headKind_cons, hl]; decide)
  have hall' : Remaining (um ++ r :: rest) :=
    hall.suffix ⟨w :: i :: (up ++ (ue ++ (ui ++ [l]))), by simp⟩ (by simp)
  obtain ⟨rs, hrs, hbares⟩ := memberTail_items hms hum hr hall' (n := n)
    (by simp only [List.length_append, List.length_cons]; omega)
  refine ⟨hkeyword, .plain (.classDecl mods k x tps exts imps rs), ?_, ?_⟩
  · rw [typeDecl, bind_of_ok (checkAny_yes hkeyword), if_pos rfl,
      bind_of_ok (advance_cons (by simp [hw])), bind_of_ok (expect_yes hi (by decide)),
      bind_of_ok hparams, bind_of_ok hextended, bind_of_ok himplemented,
      bind_of_ok (expect_yes hl (by decide)), hx, bind_of_ok hrs, hword, ofTexts_listed htps, hwords]
    rfl
  · rw [Node.plain, Node.bare_mk, Node.bare_mk]
    simp only [Shape.map, Shape.mapAt, mapIdx_const, hbares]

lemma classDecl_start {k : String} (hk : k ∈ ["class", "interface"]) :
    (Item.word k).kind ∈ memberStarts := by
  have key : ∀ k ∈ ["class", "interface"], (Item.word k).kind ∈ memberStarts := by decide
  exact key k hk

lemma readsMember_classDecl {c : String} {t : Tag} {mods tps : List Word} {k x : String}
    {exts imps ms : List Node} (hmods : ∀ w ∈ mods, IsModifier modifierNames w)
    (hk : k ∈ ["class", "interface"]) (htps : ∀ w ∈ tps, IsTypeParam w)
    (hexts : ∀ ty ∈ exts, TypeTree Legible false ty) (himps : ∀ ty ∈ imps, TypeTree Legible false ty)
    (hms : ∀ m ∈ ms, ReadsMember x m) :
    ReadsMember c (.mk t (.classDecl mods k x tps exts imps ms)) := by
  refine .of_modifiers hmods (by rw [Node.memberItems]) rfl (classDecl_start hk) ?_
  intro n words us rest hus hwords hall hne hn
  obtain ⟨hkeyword, r, hr, hbare⟩ := classDecl_items hk htps hexts himps hms hwords hus hall (n := n)
    (by omega)
  exact ⟨r, by rw [bind_of_ok (checkAny_yes hkeyword), if_pos rfl, hr], hbare⟩

end

theorem readsMember_of_tree {c : String} {m : Node} (h : MemberTree Readable c m) :
    ReadsMember c m := by
  have htypes : ∀ {tys : List Node}, (∀ ty ∈ tys, TypeTree Readable false ty) →
      ∀ ty ∈ tys, TypeTree Legible false ty :=
    fun h ty hty => (h ty hty).mono fun _ _ here => here.legible
  have hparams : ∀ {ps : List Node}, (∀ p ∈ ps, ParamTree Readable p) →
      ∀ p ∈ ps, ParamTree Legible p := fun h p hp => (h p hp).mono fun _ _ here => here.legible
  induction h with
  | fieldDecl modifiers type bare nonempty declarators _ =>
    exact readsMember_fieldDecl modifiers (type.mono fun _ _ here => here.legible) bare nonempty
      fun d hd => (declarators d hd).mono fun _ _ here => here.legible
  | methodDecl modifiers typeParams _ type params throws body blocks here =>
    exact readsMember_methodDecl modifiers typeParams (type.mono fun _ _ here => here.legible)
      here.voidBare (hparams params) (htypes throws) (fun b hb => readsStmt_of_tree (body b hb)) blocks
  | constructorDecl modifiers _ params throws body block _ =>
    exact readsMember_constructorDecl modifiers (hparams params) (htypes throws)
      (readsStmt_of_tree body) block
  | initBlock body block _ => exact readsMember_initBlock (readsStmt_of_tree body) block
  | classDecl modifiers keyword _ typeParams extended implemented _ _ ih =>
    exact readsMember_classDecl modifiers keyword typeParams (htypes extended) (htypes implemented) ih

section

variable {n : Nat} {us : List Token} {rest : List Token}

lemma nameTail_asterisk {d s : Token} (hs : s.kind ≠ .ident) (ts : List Token) :
    nameTail (d :: s :: ts) = ("", d :: s :: ts) := by
  simp [nameTail, hs]

lemma importDecl_items {i : Node} (hi : ImportTree Legible i) (rest : List Token)
    (h : Realizes i.importItems us) : ∃ t vs, us = t :: vs ∧ t.kind = .word "import" ∧
      importDecl (vs ++ rest) = .ok (i, rest) := by
  cases hi with
  | @mk t x isStatic asterisk name here =>
    obtain rfl := here.1
    obtain ⟨w, us, rfl, hw, -, h⟩ := Realizes.of_word
      (l := (if isStatic then [Item.word "static"] else []) ++ (Item.ofName x ++
        ((if asterisk then [Item.mark ".", Item.mark "*"] else []) ++ [Item.mark ";"]))) h
    obtain ⟨us', ux, rfl, hus', h⟩ := h.of_append
    obtain ⟨un, us, rfl, hun, h⟩ := h.of_append
    obtain ⟨ua, m, rfl, hua, hm⟩ := realizes_semicolon h
    refine ⟨w, _, rfl, hw, ?_⟩
    simp only [List.append_assoc, List.singleton_append]
    have hstatic : accept (.word "static") (us' ++ (un ++ (ua ++ m :: rest))) =
        .ok (isStatic, un ++ (ua ++ m :: rest)) := by
      cases isStatic with
      | false =>
        cases hus'
        obtain ⟨y, is, hy⟩ := ofName_qualified name
        refine accept_no ?_
        rw [List.nil_append, headKind_items (i := Item.name y) hun (by rw [hy]; rfl)]
        rintro ⟨⟩
      | true =>
        obtain ⟨s, us', rfl, hs, -, h⟩ := hus'.of_word
        cases h
        exact accept_yes hs (by decide)
    rw [importDecl, bind_of_ok hstatic]
    cases asterisk with
    | false =>
      cases hua
      have hname := qualifiedName_items name hun (m :: rest) (by rw [headKind_cons, hm]; decide)
      rw [List.nil_append, bind_of_ok hname,
        bind_of_ok (accept_no (by rw [headKind_cons, hm]; decide)), if_neg (by simp)]
      dsimp only
      rw [bind_of_ok (expect_yes hm (by decide))]
      rfl
    | true =>
      obtain ⟨d, ua, rfl, hd, -, hua⟩ := Realizes.of_mark (x := ".") (l := [Item.mark "*"]) hua
      obtain ⟨s, ua, rfl, hs, -, hua⟩ := hua.of_mark
      cases hua
      have hname := qualifiedName_items_of name hun (d :: s :: m :: rest)
        (nameTail_asterisk (by rw [hs]; rintro ⟨⟩) _)
      simp only [List.cons_append, List.nil_append]
      rw [bind_of_ok hname, bind_of_ok (accept_yes (k := dot) hd (by decide)), if_pos rfl,
        bind_of_ok (expect_yes hs (by decide))]
      rw [bind_of_ok (expect_yes hm (by decide))]
      rfl

lemma imports_items {is : List Node} (his : ∀ i ∈ is, ImportTree Legible i) (rest : List Token)
    (h : Realizes (is.flatMap Node.importItems) us) (hn : (us ++ rest).length + 1 ≤ n)
    (hrest : headKind rest ≠ .word "import") : imports n (us ++ rest) = .ok (is, rest) := by
  induction is generalizing n us with
  | nil =>
    cases h
    obtain ⟨n, rfl⟩ : ∃ m, n = m + 1 := ⟨n - 1, by omega⟩
    rw [imports, List.nil_append, bind_of_ok (accept_no hrest), if_neg (by simp)]
    rfl
  | cons i is ih =>
    obtain ⟨hi, hothers⟩ := List.forall_mem_cons.mp his
    obtain ⟨n, rfl⟩ : ∃ m, n = m + 1 := ⟨n - 1, by omega⟩
    rw [List.flatMap_cons] at h
    obtain ⟨ui, us, rfl, hui, hus⟩ := h.of_append
    obtain ⟨t, vs, rfl, ht, hread⟩ := importDecl_items hi (us ++ rest) hui
    rw [List.append_assoc, List.cons_append] at hn ⊢
    have hlist := ih hothers hus (n := n) (by
      simp only [List.length_cons, List.length_append] at hn ⊢
      omega)
    rw [imports, bind_of_ok (accept_yes ht (by decide)), if_pos rfl, bind_of_ok hread,
      bind_of_ok hlist]
    rfl

lemma packageDecl_items {p : Option String} (hp : ∀ x ∈ p, IsQualified x) (rest : List Token)
    (h : Realizes ((p.map fun p => Item.word "package" :: (Item.ofName p ++ [Item.mark ";"])).getD [])
      us) (hrest : headKind rest ≠ .word "package") : packageDecl (us ++ rest) = .ok (p, rest) := by
  rw [packageDecl]
  cases p with
  | none =>
    cases h
    rw [List.nil_append, bind_of_ok (accept_no hrest), if_neg (by simp)]
    rfl
  | some x =>
    obtain ⟨w, us, rfl, hw, -, h⟩ := Realizes.of_word (l := Item.ofName x ++ [Item.mark ";"]) h
    obtain ⟨ux, m, rfl, hux, hm⟩ := realizes_semicolon h
    have hname := qualifiedName_items (hp x rfl) hux (m :: rest) (by rw [headKind_cons, hm]; decide)
    rw [List.cons_append, List.append_assoc, List.singleton_append,
      bind_of_ok (accept_yes hw (by decide)), if_pos rfl, bind_of_ok hname,
      bind_of_ok (expect_yes hm (by decide))]
    rfl

lemma class_items {d : Node} (hd : MemberTree Readable "" d) (hclass : isClass d = true)
    (h : Realizes d.memberItems us) (hall : Remaining (us ++ rest)) (hne : rest ≠ [])
    (hn : 16 * (us ++ rest).length ≤ n) : ∃ ms vs r, modifiers n (us ++ rest) = .ok (ms, vs) ∧
      typeDecl n ms vs = .ok (r, rest) ∧ r.bare = d.bare := by
  have htypes : ∀ {tys : List Node}, (∀ ty ∈ tys, TypeTree Readable false ty) →
      ∀ ty ∈ tys, TypeTree Legible false ty :=
    fun h ty hty => (h ty hty).mono fun _ _ here => here.legible
  cases hd with
  | classDecl modifiers keyword name typeParams extended implemented members here =>
    rw [Node.memberItems] at h
    obtain ⟨um, us, rfl, hum, hus⟩ := h.of_append
    rw [List.append_assoc] at hall hn ⊢
    have hhead : headKind (us ++ rest) ∈ memberStarts := by
      rw [headKind_items hus rfl]
      exact classDecl_start keyword
    have hpos : 0 < (us ++ rest).length := by
      rw [List.length_append]
      have := List.length_pos_iff.mpr hne
      omega
    obtain ⟨ms, hms, hwords⟩ := modifiers_items modifiers (n := n) (us ++ rest) hum
      (by rw [List.length_append] at hn ⊢; omega) hhead
    rw [List.length_append] at hn
    obtain ⟨-, r, hr, hbare⟩ := classDecl_items keyword typeParams (htypes extended)
      (htypes implemented) (fun m hm => readsMember_of_tree (members m hm)) hwords hus
      (hall.right (List.length_pos_iff.mp hpos)) (n := n) (by omega)
    exact ⟨ms, us ++ rest, r, hms, hr, hbare⟩
  | _ => cases hclass

lemma typeDecls_items {ds : List Node} (hds : ∀ d ∈ ds, MemberTree Readable "" d)
    (hclass : ∀ d ∈ ds, isClass d = true) (h : Realizes (Node.membersItems ds) us) {t : Token}
    (ht : t.kind = .finish) (hall : Remaining (us ++ [t])) (hn : 16 * (us ++ [t]).length + 1 ≤ n) :
    ∃ rs, typeDecls n (us ++ [t]) = .ok (rs, [t]) ∧ rs.map Node.bare = ds.map Node.bare := by
  induction ds generalizing n us with
  | nil =>
    cases h
    obtain ⟨n, rfl⟩ : ∃ m, n = m + 1 := ⟨n - 1, by omega⟩
    refine ⟨[], ?_, rfl⟩
    rw [typeDecls, List.nil_append, bind_of_ok (check_yes (l := [t]) ht), if_pos rfl]
    rfl
  | cons d ds ih =>
    obtain ⟨hd, hothers⟩ := List.forall_mem_cons.mp hds
    obtain ⟨hdclass, hclasses⟩ := List.forall_mem_cons.mp hclass
    obtain ⟨n, rfl⟩ : ∃ m, n = m + 1 := ⟨n - 1, by omega⟩
    rw [Node.membersItems] at h
    obtain ⟨ua, vs, rfl, ha, hv⟩ := h.of_append
    rw [List.append_assoc] at hall hn ⊢
    obtain ⟨i, hi, hkind⟩ := (readsMember_of_tree hd).start
    have hhead : headKind (ua ++ (vs ++ [t])) ∉ memberStops := by rwa [headKind_items ha hi]
    obtain ⟨ms, ws, r, hms, hr, hbare⟩ := class_items hd hdclass ha hall (by simp) (n := n)
      (by omega)
    have hpos : 0 < ua.length := by
      obtain ⟨is, his⟩ := List.head?_eq_some_iff.mp hi
      rw [ha.length, his]
      exact Nat.succ_pos _
    rw [List.length_append] at hn
    obtain ⟨rs, hrs, hbares⟩ := ih hothers hclasses hv (hall.right (by simp)) (n := n) (by omega)
    refine ⟨r :: rs, ?_, by rw [List.map_cons, List.map_cons, hbare, hbares]⟩
    rw [typeDecls, bind_of_ok (check_no fun h => hhead (by simp [memberStops, h])), if_neg (by simp),
      bind_of_ok (accept_no fun h => hhead (by simp [memberStops, h])), if_neg (by simp),
      bind_of_ok hms, bind_of_ok hr, bind_of_ok hrs]
    rfl

end

theorem compilationUnit_items {u : Node} (hu : UnitTree Readable u) {n : Nat} {us : List Token}
    {t : Token} (h : Realizes u.unitItems us) (ht : t.kind = .finish) (hall : Remaining (us ++ [t]))
    (hn : 16 * (us ++ [t]).length + 1 ≤ n) :
    ∃ r, compilationUnit n (us ++ [t]) = .ok (r, [t]) ∧ r.bare = u.bare := by
  obtain ⟨package, imports, types, classes, here⟩ := hu
  rename_i tag p is ds
  obtain ⟨up, us, rfl, hup, h⟩ := Realizes.of_append (b := is.flatMap Node.importItems ++
    Node.membersItems ds) h
  obtain ⟨ui, ud, rfl, hui, hud⟩ := h.of_append
  simp only [List.append_assoc] at hall hn ⊢
  have hclass : headKind (ud ++ [t]) ∉ [.word "import", .word "package"] := by
    cases ds with
    | nil =>
      cases hud
      rw [List.nil_append, headKind_cons, ht]
      decide
    | cons d ds =>
      obtain ⟨i, hi, hkind⟩ := (readsMember_of_tree (types d List.mem_cons_self)).start
      rw [Node.membersItems] at hud
      rw [headKind_items hud (head?_append_of hi _)]
      exact fun hmem => hkind (List.mem_append_right [rbrace, .finish, semicolon] hmem)
  have himport : headKind (ui ++ (ud ++ [t])) ≠ .word "package" := by
    cases is with
    | nil =>
      cases hui
      exact fun h => hclass (by simp_all)
    | cons i is =>
      obtain ⟨ua, vs, rfl, ha, -⟩ := Realizes.of_append (a := i.importItems) hui
      obtain ⟨w, ws, rfl, hw, -⟩ := importDecl_items
        ((imports i List.mem_cons_self).mono fun _ _ here => here.legible) [] ha
      simp [hw]
  have hpackage := packageDecl_items package (ui ++ (ud ++ [t])) hup himport
  rw [List.length_append] at hn
  have himports := imports_items (n := n)
    (fun i hi => (imports i hi).mono fun _ _ here => here.legible) (ud ++ [t]) hui (by omega)
    fun h => hclass (by simp [h])
  rw [List.length_append] at hn
  obtain ⟨rs, hrs, hbares⟩ := typeDecls_items types classes hud ht (n := n)
    ((hall.right (by simp)).right (by simp)) (by omega)
  refine ⟨.plain (.unit p is rs), ?_, ?_⟩
  · rw [compilationUnit, bind_of_ok hpackage, bind_of_ok himports, bind_of_ok hrs]
    rfl
  · rw [Node.plain, Node.bare_mk, Node.bare_mk]
    simp only [Shape.map, Shape.mapAt, mapIdx_const, hbares]

end LoopLowering.Grammar
