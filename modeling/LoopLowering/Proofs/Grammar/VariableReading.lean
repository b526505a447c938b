import LoopLowering.Proofs.Grammar.StatementExpression
import LoopLowering.Proofs.Grammar.StatementTrees
import LoopLowering.Proofs.Grammar.TypeDeciding

/-! Modifiers and declared variables are read from their items, and no declaration is read where the
tokens do not begin like one. -/

namespace LoopLowering

namespace Node

lemma items_declarator (t : Tag) (x : String) (d : Nat) (o : Option Node) :
    (mk t (.declarator x d o)).items = Item.name x ::
      (Item.brackets d ++ (o.map fun e => Item.mark "=" :: e.items).getD []) := by
  cases o <;> rfl

lemma items_localVar (t : Tag) (mods : List Word) (ty : Node) (ds : List Node) :
    (mk t (.localVar mods ty ds)).items =
      Item.ofModifiers mods ++ (ty.items ++ Item.listed (ds.map items)) := by
  rw [items_mk, ← mapIdx_const items ds]
  rfl

end Node

namespace Grammar

open Layout

def modifierOpen : List TokenKind := [dot, lparen]

lemma annotationName_items {x : String} (hx : IsQualified x) {us : List Token}
    (h : Realizes (Item.mark "@" :: Item.ofName x) us) (rest : List Token)
    (hrest : headKind rest ∉ modifierOpen) :
    annotationName (us ++ rest) = .ok ("@" ++ x, rest) := by
  obtain ⟨t, us, rfl, ht, -, h⟩ := h.of_mark
  have hdot : headKind rest ≠ dot := fun heq => hrest (heq ▸ by decide)
  have hparen : headKind rest ≠ lparen := fun heq => hrest (heq ▸ by decide)
  rw [annotationName, List.cons_append, bind_of_ok (expect_yes ht (by decide)),
    bind_of_ok (qualifiedName_items hx h rest hdot), bind_of_ok (check_no hparen), if_neg (by simp)]
  rfl

lemma modifiers_items_of {f : Nat → Parser (List String)} {words : List String}
    (hwords : words ⊆ Token.reservedWords) {q : TokenKind → Prop} (hq : ∀ k ∈ modifierOpen, ¬ q k)
    (hword : ∀ m ∈ words, ∀ (n : Nat) (t : Token) (us : List Token), t.kind = .word m →
      t.text = m → f (n + 1) (t :: us) = (f n >>= fun ms => pure (m :: ms)) us)
    (hannotated : ∀ (x : String) (n : Nat) (us rest : List Token), headKind us = .mark "@" →
      headKind us.tail = .ident → annotationName us = .ok ("@" ++ x, rest) →
        f (n + 1) us = (f n >>= fun ms => pure (("@" ++ x) :: ms)) rest)
    (hstop : ∀ (n : Nat) (rest : List Token), q (headKind rest) → f (n + 1) rest = .ok ([], rest))
    {mods : List Word} (hmods : ∀ w ∈ mods, IsModifier words w) {n : Nat} {us : List Token}
    (rest : List Token) (h : Realizes (Item.ofModifiers mods) us)
    (hn : (us ++ rest).length + 1 ≤ n) (hrest : q (headKind rest)) :
    ∃ ms, f n (us ++ rest) = .ok (ms, rest) ∧ Word.ofTexts ms = mods := by
  induction mods generalizing n us with
  | nil =>
    cases h
    obtain ⟨n, rfl⟩ : ∃ m, n = m + 1 := ⟨n - 1, by omega⟩
    exact ⟨[], hstop n rest hrest, rfl⟩
  | cons w mods ih =>
    obtain ⟨hw, hothers⟩ := List.forall_mem_cons.mp hmods
    clear hmods
    obtain ⟨n, rfl⟩ : ∃ m, n = m + 1 := ⟨n - 1, by omega⟩
    rw [Item.ofModifiers, List.flatMap_cons] at h
    obtain ⟨ua, vs, rfl, ha, hv⟩ := h.of_append
    clear h
    simp only [List.length_append] at hn
    rcases hw with ⟨m, hm, rfl⟩ | ⟨x, hx, rfl⟩
    · rw [Item.ofModifier_word (hwords hm)] at ha
      obtain ⟨t, ua, rfl, ht, htext, ha⟩ := ha.of_word
      cases ha
      obtain ⟨ms, hms, rfl⟩ := ih hothers hv (n := n)
        (by simp only [List.length_append, List.length_cons] at hn ⊢; omega)
      refine ⟨m :: ms, ?_, rfl⟩
      rw [List.append_assoc, List.singleton_append, hword m hm n t _ ht htext, bind_of_ok hms]
      rfl
    · rw [Item.ofModifier_annotation] at ha
      -- Another modifier behind the name does not go on with it either.
      have hnext : headKind (vs ++ rest) ∉ modifierOpen := by
        cases mods with
        | nil =>
          cases hv
          exact fun hmem => hq _ hmem hrest
        | cons w' mods =>
          rw [List.flatMap_cons] at hv
          rcases hothers w' List.mem_cons_self with ⟨m, hm, rfl⟩ | ⟨y, -, rfl⟩
          · rw [Item.ofModifier_word (hwords hm)] at hv
            rw [headKind_items hv rfl]
            simp [Item.word, modifierOpen, dot, lparen]
          · rw [Item.ofModifier_annotation] at hv
            rw [headKind_items hv rfl]
            decide
      have hname := annotationName_items hx ha (vs ++ rest) hnext
      obtain ⟨y, is, hy⟩ := ofName_qualified hx
      rw [hy] at ha
      obtain ⟨t, ua, rfl, ht, -, ha⟩ := ha.of_mark
      obtain ⟨i, ua, rfl, hi, -, ha⟩ := ha.of_name
      obtain ⟨ms, hms, rfl⟩ := ih hothers hv (n := n)
        (by simp only [List.length_append, List.length_cons] at hn ⊢; omega)
      refine ⟨("@" ++ x) :: ms, ?_, rfl⟩
      rw [List.append_assoc, hannotated x n (t :: i :: ua ++ (vs ++ rest)) (vs ++ rest) ht hi hname,
        bind_of_ok hms]
      rfl

lemma localModifiers_items {mods : List Word} (hmods : ∀ w ∈ mods, IsModifier localModifierNames w)
    {n : Nat} {us : List Token} (rest : List Token) (h : Realizes (Item.ofModifiers mods) us)
    (hn : (us ++ rest).length + 1 ≤ n) (hrest : headKind rest ∈ .ident :: primitiveTypes) :
    ∃ ms, localModifiers n (us ++ rest) = .ok (ms, rest) ∧ Word.ofTexts ms = mods := by
  refine modifiers_items_of (q := (· ∈ .ident :: primitiveTypes)) (by decide) (by decide) ?_ ?_ ?_
    hmods rest h hn hrest
  · intro m hm n t us ht htext
    obtain rfl := List.mem_singleton.mp hm
    rw [localModifiers, bind_of_ok (check_yes (l := t :: us) ht), if_pos rfl,
      bind_of_ok (advance_cons (by simp [ht])), htext]
  · intro x n us rest hat _ hname
    rw [localModifiers, bind_of_ok (check_no (by rw [hat]; rintro ⟨⟩)), if_neg (by simp),
      bind_of_ok (check_yes hat), if_pos rfl, bind_of_ok hname]
  · intro n rest hrest
    obtain ⟨hfinal, hat⟩ := start_no_modifier _ hrest
    exact localModifiers_none hfinal hat

lemma modifiers_start {words : List String} (hwords : words ⊆ Token.reservedWords)
    {mods : List Word} (hmods : ∀ w ∈ mods, IsModifier words w) {i : Item} {is : List Item}
    (hi : is.head? = some i) : ∃ j, (Item.ofModifiers mods ++ is).head? = some j ∧
      (j.kind = i.kind ∨ j.kind ∈ .mark "@" :: words.map .word) := by
  cases mods with
  | nil => exact ⟨i, hi, .inl rfl⟩
  | cons w mods =>
    rw [Item.ofModifiers, List.flatMap_cons]
    rcases hmods w List.mem_cons_self with ⟨m, hm, rfl⟩ | ⟨x, -, rfl⟩
    · rw [Item.ofModifier_word (hwords hm)]
      exact ⟨_, rfl, .inr (List.mem_cons_of_mem _ (List.mem_map_of_mem hm))⟩
    · rw [Item.ofModifier_annotation]
      exact ⟨_, rfl, .inr List.mem_cons_self⟩

def memberStarts : List TokenKind :=
  [.ident, .word "void", .word "class", .word "interface", .mark "<", lbrace] ++ primitiveTypes

lemma memberStarts_spec : ∀ k ∈ memberStarts, k ∉ modifierWords ∧ k ≠ .mark "@" ∧
    k ∉ modifierOpen := by
  decide

lemma modifiers_items {mods : List Word} (hmods : ∀ w ∈ mods, IsModifier modifierNames w)
    {n : Nat} {us : List Token} (rest : List Token) (h : Realizes (Item.ofModifiers mods) us)
    (hn : (us ++ rest).length + 1 ≤ n) (hrest : headKind rest ∈ memberStarts) :
    ∃ ms, modifiers n (us ++ rest) = .ok (ms, rest) ∧ Word.ofTexts ms = mods := by
  refine modifiers_items_of (q := (· ∈ memberStarts)) (by decide)
    (fun k hk hmem => (memberStarts_spec k hmem).2.2 hk) ?_ ?_ ?_ hmods rest h hn hrest
  · intro m hm n t us ht htext
    have hword : headKind (t :: us) ∈ modifierWords := by
      rw [headKind_cons, ht]
      exact List.mem_map_of_mem hm
    rw [modifiers, bind_of_ok (checkAny_yes hword), if_pos rfl,
      bind_of_ok (advance_cons (by simp [ht])), htext]
  · intro x n us rest hat hident hname
    have hword : headKind us ∉ modifierWords := by rw [hat]; decide
    have hnext : (tokenAt us 1).kind ≠ .word "interface" := by
      rcases us with _ | ⟨t, _ | ⟨u, us⟩⟩
      · rintro ⟨⟩
      · exact fun h => by cases hat.symm.trans h
      · exact fun h => by cases hident.symm.trans h
    rw [modifiers, bind_of_ok (checkAny_no hword), if_neg (by simp), bind_of_ok (check_yes hat),
      bind_of_ok (checkNext_run _ _), decide_eq_false hnext, if_pos (by rfl), bind_of_ok hname]
  · intro n rest hrest
    obtain ⟨hword, hat, -⟩ := memberStarts_spec _ hrest
    rw [modifiers, bind_of_ok (checkAny_no hword), if_neg (by simp), bind_of_ok (check_no hat),
      bind_of_ok (checkNext_run _ _), if_neg (by simp)]
    rfl

def declarator (n : Nat) : Parser Node := do
  let name ← expect .ident
  let d ← dims
  let init ← if ← accept (.mark "=") then some <$> initialValue n else pure none
  return .plain (.declarator name.text d init)

lemma declarators_succ (n : Nat) : declarators none (n + 1) = (do
    let d ← declarator n
    if ← accept comma then return d :: (← declarators none n) else return [d]) := by
  rw [declarators, declarator]
  simp only [bind_assoc, pure_bind]
  refine bind_congr fun _ => bind_congr fun _ => bind_congr fun b => ?_
  cases b <;> simp

lemma declarators_first {t : Token} (ht : t.kind = .ident) (n : Nat) (us : List Token) :
    declarators (some t) n us = declarators none n (t :: us) := by
  cases n with
  | zero => rfl
  | succ n =>
    rw [declarators, declarators, bind_of_ok (expect_yes ht (by decide)), bind_of_ok (pure_run t us)]

lemma declarator_items {d : Node} (h : DeclaratorTree Legible d) {n : Nat} {us : List Token}
    (rest : List Token) (hus : Realizes d.items us) (hn : 16 * (us ++ rest).length ≤ n)
    (hrest : headKind rest ∈ [comma, semicolon]) : declarator n (us ++ rest) = .ok (d, rest) := by
  cases h with
  | @mk t x k o name init here =>
    obtain rfl := here.1
    rw [Node.items_declarator] at hus
    obtain ⟨u, us, rfl, hu, hx, h⟩ := hus.of_name
    obtain ⟨ub, uo, rfl, hb, ho⟩ := h.of_append
    have hrest' : headKind rest ∉ [.mark "=", lbracket] ∧ headKind rest ∈ closing := by
      have key : ∀ k ∈ [comma, semicolon], k ∉ [.mark "=", lbracket] ∧ k ∈ closing := by decide
      exact key _ hrest
    simp only [List.mem_cons, List.not_mem_nil, not_or, or_false] at hrest'
    rw [declarator, List.cons_append, List.append_assoc, bind_of_ok (expect_yes hu (by decide)), dims]
    cases o with
    | none =>
      cases ho
      rw [List.nil_append, bind_of_ok (splitting_of_eq (dimsTail_items hb hrest'.1.2)),
        bind_of_ok (accept_no hrest'.1.1), if_neg (by simp), bind_of_ok (pure_run _ _), hx]
      rfl
    | some e =>
      obtain ⟨q, ue, rfl, hq, -, he⟩ := Realizes.of_mark (x := "=") (l := e.items) ho
      simp only [List.length_cons, List.cons_append, List.length_append] at hn
      have hnext : headKind (q :: ue ++ rest) ≠ lbracket := by
        rw [List.cons_append, headKind_cons, hq]
        decide
      have hdims := dimsTail_items hb hnext
      have hvalue := initialValue_items (value_of_tree (init e rfl)) (n := n) rest he
        (by rw [List.length_append]; omega) hrest'.2
      rw [bind_of_ok (splitting_of_eq hdims), List.cons_append, bind_of_ok (accept_yes hq (by decide)),
        if_pos rfl, bind_of_ok (map_of_ok hvalue), hx]
      rfl

lemma declarators_items {ds : List Node} (hds : ∀ d ∈ ds, DeclaratorTree Legible d) (hne : ds ≠ [])
    {n : Nat} {us : List Token} (rest : List Token)
    (h : Realizes (Item.listed (ds.map Node.items)) us) (hn : 16 * (us ++ rest).length + 1 ≤ n)
    (hrest : headKind rest = semicolon) : declarators none n (us ++ rest) = .ok (ds, rest) := by
  refine list_items (f := declarators none) (g := declarator) (m := ",") (c := 0)
    (q := (· = semicolon)) declarators_succ (by decide) (fun d hd n us rest hus hn hrest => ?_) hne
    rest h hn hrest
  refine declarator_items (hds d hd) rest hus hn ?_
  rcases hrest with hrest | hrest <;> rw [hrest] <;> decide

def nameFollow : List TokenKind := [lbracket, .mark "=", comma, semicolon]

lemma declarators_start {ds : List Node} (hds : ∀ d ∈ ds, DeclaratorTree Legible d) (hne : ds ≠ [])
    {us : List Token} (h : Realizes (Item.listed (ds.map Node.items)) us) :
    ∃ t vs, us = t :: vs ∧ t.kind = .ident ∧
      ∀ rest, headKind rest = semicolon → headKind (vs ++ rest) ∈ nameFollow := by
  obtain ⟨d, ds, rfl⟩ := List.exists_cons_of_ne_nil hne
  cases hds d List.mem_cons_self with
  | @mk t x k o name init here =>
    rw [Item.listed, Item.separated, List.map_cons, intercalate_cons] at h
    obtain ⟨ud, vs, rfl, hd, hothers⟩ := h.of_append
    rw [Node.items_declarator] at hd
    obtain ⟨u, ud, rfl, hu, -, h⟩ := hd.of_name
    obtain ⟨ub, uo, rfl, hb, ho⟩ := h.of_append
    refine ⟨u, ub ++ uo ++ vs, rfl, hu, fun rest hrest => ?_⟩
    rw [List.append_assoc, List.append_assoc]
    cases k with
    | succ k => rw [headKind_items hb rfl]; decide
    | zero =>
      cases hb
      cases o with
      | some e => rw [List.nil_append, headKind_items ho rfl]; decide
      | none =>
        cases ho
        cases ds with
        | nil =>
          cases hothers
          rw [List.nil_append, List.nil_append, List.nil_append, hrest]
          decide
        | cons d ds => rw [List.nil_append, List.nil_append, headKind_items hothers rfl]; decide

lemma type_start {ty : Node} (h : TypeTree Legible false ty) {us : List Token}
    (hus : Realizes ty.items us) (rest : List Token) :
    headKind (us ++ rest) ∈ .ident :: primitiveTypes := by
  obtain ⟨i, hi, hkind⟩ := typeTree_start h
  rw [headKind_items hus hi]
  simpa using hkind

lemma type_second {ty : Node} (h : TypeTree Legible false ty) {us : List Token}
    (hus : Realizes ty.items us) (rest : List Token) (hrest : headKind rest = .ident) :
    (tokenAt (us ++ rest) 1).kind ∈ typeKinds := by
  obtain ⟨i, hi, -⟩ := typeTree_start h
  obtain ⟨is, his⟩ := List.head?_eq_some_iff.mp hi
  have hkinds := typeTree_ofType h
  rw [his] at hus hkinds
  obtain ⟨t, us, rfl, -, -, hus⟩ := hus.of_cons
  have hne : us ++ rest ≠ [] := by
    rw [Ne, List.append_eq_nil_iff, not_and]
    rintro - rfl
    cases hrest
  rw [List.cons_append, tokenAt_succ hne]
  show headKind (us ++ rest) ∈ typeKinds
  cases is with
  | nil =>
    cases hus
    rw [List.nil_append, hrest]
    decide
  | cons j is =>
    rw [headKind_items hus rfl]
    exact (hkinds j (by simp)).1

lemma localVar?_items {d : Node} (h : LocalVarTree Legible d) {n : Nat} {us : List Token}
    (rest : List Token) (hus : Realizes d.items us) (hn : 16 * (us ++ rest).length + 2 ≤ n)
    (hrest : headKind rest = semicolon) : localVar? n (us ++ rest) = .ok (some d, rest) := by
  obtain ⟨n, rfl⟩ : ∃ m, n = m + 1 := ⟨n - 1, by omega⟩
  cases h with
  | @mk t mods ty ds modifiers type nonempty declarators here =>
    obtain rfl := here.1
    rw [Node.items_localVar] at hus
    obtain ⟨um, us, rfl, hum, hus⟩ := hus.of_append
    obtain ⟨ut, ud, rfl, hut, hud⟩ := hus.of_append
    simp only [List.append_assoc] at hn ⊢
    have hstart := type_start type hut (ud ++ rest)
    obtain ⟨ms, hms, rfl⟩ := localModifiers_items modifiers (n := n) (ut ++ (ud ++ rest)) hum
      (by omega) hstart
    obtain ⟨u, vs, rfl, hu, -⟩ := declarators_start declarators nonempty hud
    have hhead : headKind (u :: vs ++ rest) = .ident := hu
    simp only [List.length_append] at hn
    have htype := (readsType_of_tree type).type (n := n) (u :: vs ++ rest) hut
      (by simp only [List.length_append]; omega) (by rw [hhead]; decide) (by rw [hhead]; nofun)
    have hds := declarators_items declarators nonempty (n := n) rest hud
      (by simp only [List.length_append]; omega) hrest
    rw [localVar?, bind_of_ok (get_run _), bind_of_ok hms, bind_of_ok (checkAny_yes hstart),
      if_pos rfl]
    -- A type behind modifiers must be there; without them it is tried.
    split
    · rw [bind_of_ok (attempt_ok htype)]
      dsimp only
      rw [bind_of_ok (check_yes hhead), if_pos rfl, bind_of_ok hds]
      rfl
    · rw [bind_of_ok (map_of_ok htype)]
      dsimp only
      rw [bind_of_ok (check_yes hhead), if_pos rfl, bind_of_ok hds]
      rfl

lemma forEachHead_localVar {d : Node} (h : LocalVarTree Legible d) {n : Nat} {us : List Token}
    (rest : List Token) (hus : Realizes d.items us) (hn : 16 * (us ++ rest).length + 2 ≤ n)
    (hrest : headKind rest = semicolon) :
    forEachHead n (us ++ rest) = .ok (none, us ++ rest) := by
  obtain ⟨n, rfl⟩ : ∃ m, n = m + 1 := ⟨n - 1, by omega⟩
  cases h with
  | @mk t mods ty ds modifiers type nonempty declarators here =>
    rw [Node.items_localVar] at hus
    obtain ⟨um, us, rfl, hum, hus⟩ := hus.of_append
    obtain ⟨ut, ud, rfl, hut, hud⟩ := hus.of_append
    simp only [List.append_assoc] at hn ⊢
    have hstart := type_start type hut (ud ++ rest)
    obtain ⟨ms, hms, rfl⟩ := localModifiers_items modifiers (n := n) (ut ++ (ud ++ rest)) hum
      (by omega) hstart
    obtain ⟨u, vs, rfl, hu, hfollow⟩ := declarators_start declarators nonempty hud
    have hhead : headKind (u :: vs ++ rest) = .ident := hu
    simp only [List.length_append] at hn
    have htype := (readsType_of_tree type).type (n := n) (u :: vs ++ rest) hut
      (by simp only [List.length_append]; omega) (by rw [hhead]; decide) (by rw [hhead]; nofun)
    have hne : vs ++ rest ≠ [] := by
      rw [Ne, List.append_eq_nil_iff, not_and]
      rintro - rfl
      cases hrest
    have hnext : (tokenAt (u :: vs ++ rest) 1).kind ≠ colon := by
      rw [List.cons_append, tokenAt_succ hne]
      have hkind := hfollow rest hrest
      exact fun heq : headKind (vs ++ rest) = colon => absurd (heq ▸ hkind) (by decide)
    rw [forEachHead, bind_of_ok (get_run _), bind_of_ok hms, bind_of_ok (checkAny_yes hstart),
      if_pos rfl, bind_of_ok (attempt_ok htype)]
    dsimp only
    rw [bind_of_ok (check_yes hhead), bind_of_ok (checkNext_run _ _), decide_eq_false hnext,
      if_neg (by simp)]
    rfl

lemma forEachHead_items {v : Node} (h : ElementTree Legible v) {n : Nat} {us : List Token}
    {c : Token} (hc : c.kind = colon) (rest : List Token) (hus : Realizes v.items us)
    (hn : 16 * (us ++ c :: rest).length + 2 ≤ n) :
    forEachHead n (us ++ c :: rest) = .ok (some v, rest) := by
  obtain ⟨n, rfl⟩ : ∃ m, n = m + 1 := ⟨n - 1, by omega⟩
  cases h with
  | @mk t u mods ty x modifiers type name inner here =>
    obtain rfl := here.1
    obtain rfl := inner.1
    rw [Node.items_localVar] at hus
    obtain ⟨um, us, rfl, hum, hus⟩ := hus.of_append
    obtain ⟨ut, ud, rfl, hut, hud⟩ := hus.of_append
    rw [List.map_singleton, listed_singleton] at hud
    obtain ⟨u, ud, rfl, hu, hx, hud⟩ := Realizes.of_name (x := x) (l := []) hud
    cases hud
    simp only [List.append_assoc] at hn ⊢
    have hstart := type_start type hut ([u] ++ c :: rest)
    obtain ⟨ms, hms, rfl⟩ := localModifiers_items modifiers (n := n) (ut ++ ([u] ++ c :: rest)) hum
      (by omega) hstart
    have hhead : headKind ([u] ++ c :: rest) = .ident := hu
    simp only [List.length_append] at hn
    have htype := (readsType_of_tree type).type (n := n) ([u] ++ c :: rest) hut
      (by simp only [List.length_append]; omega) (by rw [hhead]; decide) (by rw [hhead]; nofun)
    have hnext : (tokenAt ([u] ++ c :: rest) 1).kind = colon := hc
    rw [forEachHead, bind_of_ok (get_run _), bind_of_ok hms, bind_of_ok (checkAny_yes hstart),
      if_pos rfl, bind_of_ok (attempt_ok htype)]
    dsimp only
    rw [bind_of_ok (check_yes hhead), bind_of_ok (checkNext_run _ _), decide_eq_true hnext,
      if_pos (by rfl), List.singleton_append, bind_of_ok (advance_cons (by simp [hu])),
      bind_of_ok (advance_cons (by simp [hc, colon])), hx]
    rfl

lemma declares_of_type {n : Nat} {ts rest : List Token} {ty : Node} (hts : Genuine ts)
    (h : type n ts = .ok (ty, rest)) (hrest : headKind rest = .ident) :
    Declares (ts.map Token.face) := by
  obtain ⟨used, rfl, htaken⟩ := (typesTake n).type ts hts ty rest h
  cases rest with
  | nil => cases hrest
  | cons t rest =>
    have ht := (List.forall_mem_cons.mp hts.right).1
    refine ⟨ty, t.text, htaken.tree.mono fun m _ hm => ?_, rest.map Token.face, ?_⟩
    · obtain ⟨htag, ⟨x, d, o, hs⟩ | ⟨k, o, hs⟩⟩ := hm <;> rw [hs] <;> exact ⟨htag, trivial, trivial⟩
    · rw [List.map_append, List.map_append, ← htaken.shows, List.append_assoc]
      exact congrArg (used.map Token.face ++ · :: rest.map Token.face) (ht.name hrest).1.symm

lemma attempt_type {n : Nat} {ts : List Token} (hts : Genuine ts) (hended : Ended ts)
    (hn : 16 * ts.length + 8 ≤ n) (h : ¬ Declares (ts.map Token.face)) :
    ∃ o rest, attempt (type n) ts = .ok (o, rest) ∧ ∀ ty ∈ o, headKind rest ≠ .ident := by
  have hdecide : TypesDecide [] n := typesDecide n
  rcases hdecide.type ts n hn (Nat.le_refl n) hended (List.suffix_refl ts) with
    ⟨ty, rest, hty, -⟩ | ⟨cause, found, -, hrejected, -⟩
  · exact ⟨some ty, rest, attempt_ok hty, fun _ _ hrest => h (declares_of_type hts hty hrest)⟩
  · exact ⟨none, ts, by rw [attempt, hrejected], by simp⟩

lemma localVar?_none {n : Nat} {ts : List Token} (hts : Genuine ts) (hended : Ended ts)
    (hn : 16 * ts.length + 9 ≤ n) (h : ¬ Declares (ts.map Token.face))
    (hhead : headKind ts ∉ [.word "final", .mark "@"]) : localVar? n ts = .ok (none, ts) := by
  obtain ⟨n, rfl⟩ : ∃ m, n = m + 2 := ⟨n - 2, by omega⟩
  simp only [List.mem_cons, List.not_mem_nil, not_or, or_false] at hhead
  rw [localVar?, bind_of_ok (get_run _), bind_of_ok (localModifiers_none hhead.1 hhead.2)]
  by_cases hstart : headKind ts ∈ .ident :: primitiveTypes
  · obtain ⟨o, rest, ho, hrest⟩ := attempt_type hts hended (n := n + 1) (by omega) h
    rw [bind_of_ok (checkAny_yes hstart), if_pos rfl,
      if_pos (show ([] : List String).isEmpty = true from rfl), bind_of_ok ho]
    cases o with
    | none => rfl
    | some ty =>
      dsimp only
      rw [bind_of_ok (check_no (hrest ty rfl)), if_neg (by simp)]
      rfl
  · rw [bind_of_ok (checkAny_no hstart), if_neg (by simp)]
    rfl

lemma forEachHead_none {n : Nat} {ts : List Token} (hts : Genuine ts) (hended : Ended ts)
    (hn : 16 * ts.length + 9 ≤ n) (h : ¬ Declares (ts.map Token.face))
    (hhead : headKind ts ∉ [.word "final", .mark "@"]) : forEachHead n ts = .ok (none, ts) := by
  obtain ⟨n, rfl⟩ : ∃ m, n = m + 2 := ⟨n - 2, by omega⟩
  simp only [List.mem_cons, List.not_mem_nil, not_or, or_false] at hhead
  rw [forEachHead, bind_of_ok (get_run _), bind_of_ok (localModifiers_none hhead.1 hhead.2)]
  by_cases hstart : headKind ts ∈ .ident :: primitiveTypes
  · obtain ⟨o, rest, ho, hrest⟩ := attempt_type hts hended (n := n + 1) (by omega) h
    rw [bind_of_ok (checkAny_yes hstart), if_pos rfl, bind_of_ok ho]
    cases o with
    | none => rfl
    | some ty =>
      dsimp only
      rw [bind_of_ok (check_no (hrest ty rfl)), bind_of_ok (checkNext_run _ _), Bool.false_and,
        if_neg (by simp)]
      rfl
  · rw [bind_of_ok (checkAny_no hstart), if_neg (by simp)]
    rfl

lemma Declares.of_stop {fs gs : List (TokenKind × Constant)} {g : TokenKind × Constant}
    (hg : g.1 ∉ typeKinds) (h : Declares (fs ++ g :: gs)) : Declares fs := by
  obtain ⟨ty, x, hty, hprefix⟩ := h
  refine ⟨ty, x, hty, ?_⟩
  have hkinds : ∀ f ∈ (ty.items ++ [Item.name x]).map Item.face, f.1 ∈ typeKinds := by
    intro f hf
    obtain ⟨i, hi, rfl⟩ := List.mem_map.mp hf
    rcases List.mem_append.mp hi with hi | hi
    · exact (typeTree_ofType hty i hi).1
    · rw [List.mem_singleton.mp hi]
      exact List.mem_cons_self
  have hconcat : fs ++ [g] <+: fs ++ g :: gs := ⟨gs, by simp⟩
  rcases List.prefix_or_prefix_of_prefix hprefix hconcat with h | h
  · rcases List.prefix_concat_iff.mp h with h | h
    · exact absurd (hkinds g (h ▸ by simp)) hg
    · exact h
  · exact absurd (hkinds g (h.subset (by simp))) hg

end Grammar

end LoopLowering
