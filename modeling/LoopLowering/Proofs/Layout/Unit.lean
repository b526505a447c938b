import LoopLowering.Proofs.Grammar.Nesting
import LoopLowering.Proofs.Layout.Statement

/-! The lines of a declaration, and of a compilation unit, spell it with all its parentheses and
braces. -/

namespace LoopLowering

open Layout Token Text

def Node.shown : Node → Node :=
  fold fun t s =>
    match s with
    | .wildcard _ _ => mk t (.wildcard none none)
    | s => mk t s

namespace Layout

variable {P : Tag → Shape Node → Prop}

lemma shown_generic (t : Tag) (x : String) (d : Nat) (as : List Node) :
    (Node.mk t (.typeRef x d (some as))).shown = .mk t (.typeRef x d (some (as.map Node.shown))) := by
  rw [← mapIdx_const Node.shown as]
  exact Node.fold_mk _ t _

lemma typeTree_shown {w : Bool} {n : Node} (h : TypeTree P w n) :
    TypeTree (fun _ _ => True) w n.shown := by
  induction h with
  | primitive name _ => exact .primitive name trivial
  | named name _ => exact .named name trivial
  | generic name _ _ ih =>
    rw [shown_generic]
    exact .generic name (List.forall_mem_map.mpr ih) trivial
  | anything _ => exact .anything trivial
  | bounded _ _ _ _ => exact .anything trivial

lemma typeTexts_shown {as : List Node}
    (h : ∀ a ∈ as, typeText a.shown = .ok (Grammar.boundText a)) :
    typeTexts (as.map Node.shown) = .ok (Grammar.boundTexts as) := by
  induction as with
  | nil => rfl
  | cons a as ih =>
    obtain ⟨ha, has⟩ := List.forall_mem_cons.mp h
    rw [List.map_cons, typeTexts, ha, ih has]
    rfl

lemma typeText_shown {w : Bool} {n : Node} (h : TypeTree P w n) :
    typeText n.shown = .ok (Grammar.boundText n) := by
  induction h with
  | primitive | named => rfl
  | generic _ _ _ ih =>
    rw [shown_generic, typeText, typeTexts_shown ih]
    rfl
  | anything | bounded => rfl

end Layout

def Item.ofTypeParam (x : String) (bounds : List Node) : List Item :=
  Item.name x :: (if bounds.isEmpty then [] else
    Item.word "extends" :: Item.separated "&" (bounds.map fun b => b.shown.reread.items))

lemma Spells.ofSource {s : String} {is : List Item} {next : Option Char → Prop}
    (h : Spells s.toList is next) (hend : next none) (hfree : ∀ i ∈ is, i.glued = false) :
    Item.ofSource s = is := by
  obtain ⟨ts, hts, hreal⟩ := h.tokenize hend
  rw [Item.ofSource, hts]
  show ts.map (fun t => (⟨t.kind, t.value, false⟩ : Item)) = is
  clear h hts
  induction hreal with
  | nil => rfl
  | @cons i t is ts kind value _ _ ih =>
    obtain ⟨hi, his⟩ := List.forall_mem_cons.mp hfree
    rw [List.map_cons, ih his, kind, value, ← hi]

namespace Layout

lemma typeParamSource_written {x : String} (hx : IsName x) {bounds : List Node}
    (hb : ∀ b ∈ bounds, TypeTree (fun _ _ => True) false b) :
    Written (typeParamSource x bounds).toList (Item.ofTypeParam x bounds) typeEnds := by
  have hname : Written x.toList [Item.name x] typeEnds := by
    obtain ⟨c, cs, hcs, hc⟩ := isName_start hx
    exact ⟨(Spells.name hx).mono fun _ => Ends.wordEnds (forall_mem_of_all (by decide)), c, cs, hcs,
      identStart_notMem hc⟩
  rw [typeParamSource, Item.ofTypeParam]
  split
  · exact hname
  · have htypes : Spells (" & ".intercalate (bounds.map Grammar.boundText)).toList
        (Item.separated "&" (bounds.map fun b => b.shown.reread.items)) (Ends typeEnds) := by
      rw [String.toList_intercalate]
      refine Spells.separated (Spells.spaced (m := "&") (by decide)) rfl ?_
      simp only [List.forall₂_map_left_iff, List.forall₂_map_right_iff, List.forall₂_same]
      intro b hmem
      obtain ⟨s, hs, hw⟩ := typeText_written (typeTree_shown (hb b hmem))
      obtain rfl := Except.ok.inj ((typeText_shown (hb b hmem)).symm.trans hs)
      exact hw.spells
    rw [String.toList_append, String.toList_append, List.append_assoc]
    exact hname.followed ((Spells.wordSpace (w := "extends") (by decide)).space.followedBy htypes) rfl

lemma ofTypeParam_free {x : String} {bounds : List Node}
    (hb : ∀ b ∈ bounds, TypeTree (fun _ _ => True) false b) :
    ∀ i ∈ Item.ofTypeParam x bounds, i.glued = false := by
  rw [Item.ofTypeParam]
  refine List.forall_mem_cons.mpr ⟨rfl, ?_⟩
  split
  · simp
  · refine List.forall_mem_cons.mpr ⟨rfl, forall_separated (Q := fun i => i.glued = false) rfl
      (List.forall_mem_map.mpr ?_)⟩
    exact fun b hmem i hi => (typeTree_ofType (typeTree_shown (hb b hmem)).reread i hi).2

lemma ofSource_typeParam {x : String} (hx : IsName x) {bounds : List Node}
    (hb : ∀ b ∈ bounds, TypeTree (fun _ _ => True) false b) :
    Item.ofSource (typeParamSource x bounds) = Item.ofTypeParam x bounds :=
  (typeParamSource_written hx hb).spells.ofSource (by simp [Ends]) (ofTypeParam_free hb)

lemma typeParamsText_spells {tps : List Word} (h : ∀ w ∈ tps, IsTypeParam w) :
    ∃ s, typeParamsText tps = .ok s ∧ s.isEmpty = tps.isEmpty ∧
      Spells s.toList (Item.ofTypeParams tps) (Ends typeEnds) ∧ ∀ c ∈ s.toList.head?, c = '<' := by
  have hwords : ∃ ss, wordTexts tps = .ok ss ∧ List.Forall₂
      (fun w (s : String) => Written s.toList (Item.ofSource w.listed) typeEnds) tps ss := by
    refine mapM_of_forall fun w hw => ?_
    obtain ⟨x, bounds, hx, hb, rfl⟩ := h w hw
    refine ⟨_, rfl, ?_⟩
    rw [Word.listed, ofSource_typeParam hx hb]
    exact typeParamSource_written hx hb
  obtain ⟨ss, hss, hs⟩ := hwords
  cases tps with
  | nil => exact ⟨"", rfl, rfl, Spells.nil _, nofun⟩
  | cons w tps =>
    have hlist : ("<" ++ commaList ss ++ ">").toList = '<' :: ((commaList ss).toList ++ ['>']) := by
      rw [String.toList_append, String.toList_append]
      rfl
    refine ⟨"<" ++ commaList ss ++ ">", by rw [typeParamsText, hss]; rfl, ?_, ?_, ?_⟩
    · refine Bool.eq_false_iff.mpr fun hempty => ?_
      rw [String.isEmpty_iff.mp hempty] at hlist
      cases hlist
    · rw [hlist]
      exact angled_spells (commaList_spells (by decide) hs) (commaList_starts hs (by decide))
    · rw [hlist]
      rintro c ⟨⟩
      rfl

def headerEnds : List Char := [' ', ';']

lemma spells_optional {cs ds : List Char} {is js : List Item} {ends : List Char}
    (h : Spells cs is (Ends ends)) (hsub : headerEnds ⊆ ends)
    (hd : Spells ds js (Ends headerEnds)) (hs : ∀ c ∈ ds.head?, c ∈ ends) :
    Spells (cs ++ ds) (is ++ js) (Ends headerEnds) := by
  refine h.append hd fun rest hrest => ?_
  cases ds with
  | nil => exact fun c hc => hsub (hrest c hc)
  | cons d ds => exact hs

lemma typesText_spells {w : String} (hw : w ∈ reservedWords) {types : List Node}
    (h : ∀ ty ∈ types, TypeTree P false ty) : ∃ s, typesText (" " ++ w ++ " ") types = .ok s ∧
      (∀ c ∈ s.toList.head?, c = ' ') ∧
      Spells s.toList (Item.behind w (types.map fun ty => ty.reread.items)) (Ends headerEnds) := by
  obtain ⟨ss, hss, hs⟩ := typeTexts_of_forall fun ty hty => typeText_written (h ty hty)
  cases types with
  | nil => exact ⟨"", rfl, nofun, Spells.nil _⟩
  | cons ty types =>
    refine ⟨" " ++ w ++ " " ++ commaList ss, by rw [typesText, hss]; rfl, ?_, ?_⟩
    · simp only [String.toList_append, List.append_assoc]
      rintro c ⟨⟩
      rfl
    · have hlist := commaList_spells (l := typeEnds) (by decide) hs
      have hspells := (Spells.wordSpace hw).space.followedBy hlist
      have hnext := hspells.mono fun _ (hnext : Ends headerEnds _) => hnext.mono (by decide)
      simpa [String.toList_append, Item.behind] using hnext

lemma paramText_spells {n : Node} (h : ParamTree P n) :
    ∃ s, paramText n = .ok s ∧ Spells s.toList n.reread.items (Ends nameEnds) := by
  obtain ⟨modifiers, name, type, -⟩ := h
  rename_i t mods x varargs ty
  obtain ⟨u, hu, hw⟩ := typeText_written type
  obtain ⟨m, hm, -, hmods⟩ := modifiersText_spells modifierNames_reserved modifiers
  refine ⟨_, by rw [paramText, Node.shape_mk]; simp only [hu, hm]; rfl, ?_⟩
  have hname := (name_written name).spells.space
  have htype : Spells (u.toList ++ ((if varargs then "..." else "").toList ++ ' ' :: x.toList))
      (ty.reread.items ++ ((if varargs then [Item.mark "..."] else []) ++ [Item.name x]))
      (Ends nameEnds) := by
    split
    · exact hw.spells.followed ((Spells.solo (m := "...") (by decide) fun _ => True).followedBy hname)
        rfl
    · exact hw.spells.followed hname rfl
  have hspells := hmods.followedBy htype
  simp only [String.toList_append, List.append_assoc]
  exact hspells

lemma signatureText_spells {x : String} (hx : IsName x) {ps ths : List Node}
    (hps : ∀ p ∈ ps, ParamTree P p) (hths : ∀ ty ∈ ths, TypeTree P false ty) :
    ∃ s, signatureText x ps ths = .ok s ∧ (∃ c cs, s.toList = c :: cs ∧ isBlank c = false) ∧
      Spells s.toList (Item.name x ::
        Node.signatureItems (ps.map Node.reread) (ths.map Node.reread)) (Ends headerEnds) := by
  obtain ⟨ss, hss, hs⟩ := mapM_of_forall fun p hp => paramText_spells (hps p hp)
  obtain ⟨u, hu, hstart, hthrows⟩ := typesText_spells (w := "throws") (by decide) hths
  refine ⟨x ++ "(" ++ commaList ss ++ ")" ++ u, ?_, ?_, ?_⟩
  · rw [signatureText, hss]
    exact congrArg (· >>= fun u => pure (x ++ "(" ++ commaList ss ++ ")" ++ u)) hu
  · obtain ⟨c, cs, hcs, hc⟩ := isName_start hx
    simp only [String.toList_append, List.append_assoc]
    exact ⟨c, _, by rw [hcs]; rfl, isBlank_identStart hc⟩
  · have hlist := commaList_parts_spells (f := fun p : Node => p.reread.items) (by decide) hs
    have hparens := Spells.enclosed (l := "(") (r := ")") (Ends headerEnds) (by decide) (by decide)
      hlist (by decide)
    have hrest := spells_optional hparens (List.Subset.refl _) hthrows
      fun c hc => by rw [hstart c hc]; decide
    have h := (name_written hx).spells.followed hrest rfl
    simpa [Node.signatureItems, Item.parenthesized, Function.comp_def] using h

lemma ofName_void : Item.ofName "void" = [Item.word "void"] := by
  have hsplit : "void".toList.splitOn '.' = ["void".toList] := by decide
  rw [Item.ofName, hsplit, List.map_singleton, String.ofList_toList, Item.ofText_word (by decide)]
  rfl

lemma typeText_result {ty : Node} (h : ResultTree P ty) : ∃ s, typeText ty = .ok s ∧
    (∃ c cs, s.toList = c :: cs ∧ isBlank c = false) ∧
      Spells s.toList ty.reread.items (Ends nameEnds) := by
  cases h with
  | value type =>
    obtain ⟨s, hs, hw⟩ := typeText_written type
    obtain ⟨c, cs, hcs, -⟩ := hw.starts
    have hsolid := typeText_solid type hs
    rw [hcs] at hsolid
    exact ⟨s, hs, ⟨c, cs, hcs, hsolid c rfl⟩, hw.spells.mono fun _ hnext => hnext.mono (by decide)⟩
  | @void t d _ =>
    have hw := (word_written (w := "void") (by decide)).brackets (by decide) (List.Subset.refl _) d
    have hitems : (Node.mk t (.typeRef "void" d none)).reread.items =
        [Item.word "void"] ++ Item.brackets d := by
      rw [Node.reread_mk]
      exact (Node.items_typeRef _ _ _ _).trans (by rw [ofName_void]; rfl)
    refine ⟨_, rfl, ?_, ?_⟩
    · rw [String.toList_append]
      exact ⟨'v', _, rfl, by decide⟩
    · rw [hitems, String.toList_append]
      exact hw.spells

structure Declares (header : String) (is : List Item) : Prop where
  spells : Spells header.toList is (Ends headerEnds)
  starts : ∃ c cs, header.toList = c :: cs ∧ isBlank c = false

lemma Declares.of_append {header : String} {is : List Item} (cs : List Char)
    (heq : header.toList = cs) (h : Spells cs is (Ends headerEnds))
    (hstart : ∃ c ds, cs = c :: ds ∧ isBlank c = false) : Declares header is :=
  ⟨heq ▸ h, heq ▸ hstart⟩

lemma Declares.bodyLines {header : String} {is : List Item} (h : Declares header is) {b : Node}
    (hb : StmtTree (fun _ s => Writable s) false b) (hblock : isBlock b = true) (level : Nat) :
    ∃ ls, bodyLines level header b = .ok ls ∧ LinesSpell ls (is ++ b.reread.stmtItems) := by
  obtain ⟨ls, hls, hspell⟩ := (laysOut_of_tree hb).lines (bodyLevel level b)
  refine ⟨_, by rw [Layout.bodyLines, hls]; rfl, ?_⟩
  rw [bodyLevel, if_pos hblock] at hspell
  exact (withBlock_spells (h.spells.mono fun _ hnext => hnext.mono (by decide)) h.starts hblock
    hspell).lines

lemma bodyLines_spells {b : Node} (hb : StmtTree (fun _ s => Writable s) false b)
    (hblock : isBlock b = true) (level : Nat) :
    ∃ ls, bodyLines level "" b = .ok ls ∧ LinesSpell ls b.reread.stmtItems := by
  obtain ⟨ls, hls, hspell⟩ := (laysOut_of_tree hb).lines (bodyLevel level b)
  refine ⟨_, by rw [Layout.bodyLines, hls]; rfl, ?_⟩
  rw [bodyLevel, if_pos hblock] at hspell
  obtain ⟨rest, rfl⟩ := hspell.opens hblock
  rw [withBody, if_pos hblock]
  exact hspell.spell.lines

def LaysOutMember (n : Node) : Prop :=
  ∀ level, ∃ ls, memberLines n level = .ok ls ∧ LinesSpell ls n.reread.memberItems

lemma membersLines_spell {ms : List Node} (h : ∀ m ∈ ms, LaysOutMember m) (level : Nat) :
    ∃ ls, membersLines ms level = .ok ls ∧
      LinesSpell ls (Node.membersItems (ms.map Node.reread)) := by
  induction ms with
  | nil => exact ⟨[], rfl, .nil⟩
  | cons m ms ih =>
    obtain ⟨hm, hms⟩ := List.forall_mem_cons.mp h
    obtain ⟨ls, hls, hspell⟩ := hm level
    cases ms with
    | nil => exact ⟨ls, hls, by simpa [Node.membersItems] using hspell⟩
    | cons m' ms =>
      obtain ⟨ls', hls', hspell'⟩ := ih hms
      refine ⟨ls ++ "" :: ls', by rw [membersLines, hls, hls']; rfl; simp, ?_⟩
      have hempty : LinesSpell ("" :: ls') ([] ++ Node.membersItems ((m' :: ms).map Node.reread)) :=
        .cons (Spells.nil _) hspell'
      exact hspell.append hempty

lemma laysOut_fieldDecl {t : Tag} {mods : List Word} {ty : Node} {ds : List Node}
    (hmods : ∀ w ∈ mods, IsModifier modifierNames w) (hty : ResultTree P ty)
    (hds : ∀ d ∈ ds, DeclaratorTree (fun _ s => Writable s) d) :
    LaysOutMember (.mk t (.fieldDecl mods ty ds)) := by
  obtain ⟨m, hm, -, hmods⟩ := modifiersText_spells modifierNames_reserved hmods
  obtain ⟨u, hu, -, htype⟩ := typeText_result hty
  obtain ⟨s, hs, hspells⟩ := declaratorsText_spells hds
  intro level
  refine ⟨_, by rw [memberLines, hm, hu, hs]; rfl, .single (indented_spells ?_ level)⟩
  have hend := hspells.followed (Spells.solo (m := ";") (by decide) (Ends ['\n'])) (by decide)
  have h := hmods.followedBy (htype.followed hend.space rfl)
  simpa [Node.reread_mk, Node.memberItems, Node.plain, Shape.map, Shape.mapAt, mapIdx_const, fitted,
    Function.comp_def] using h

lemma laysOut_methodDecl {t : Tag} {mods tps : List Word} {x : String} {ty : Node}
    {ps ths : List Node} {o : Option Node} (hmods : ∀ w ∈ mods, IsModifier modifierNames w)
    (htps : ∀ w ∈ tps, IsTypeParam w) (hx : IsName x) (hty : ResultTree P ty)
    (hps : ∀ p ∈ ps, ParamTree P p) (hths : ∀ ty ∈ ths, TypeTree P false ty)
    (ho : ∀ b ∈ o, StmtTree (fun _ s => Writable s) false b) (hblock : ∀ b ∈ o, isBlock b = true) :
    LaysOutMember (.mk t (.methodDecl mods tps x ty ps ths o)) := by
  obtain ⟨m, hm, hsolid, hmods⟩ := modifiersText_spells modifierNames_reserved hmods
  obtain ⟨a, ha, hempty, hparams, hless⟩ := typeParamsText_spells htps
  obtain ⟨u, hu, hstart, htype⟩ := typeText_result hty
  obtain ⟨s, hs, -, hsignature⟩ := signatureText_spells hx hps hths
  -- The type parameters are set apart from the type behind them.
  have hangled : Solid (if a.isEmpty then "" else a ++ " ").toList ∧
      Spells (if a.isEmpty then "" else a ++ " ").toList (Item.ofTypeParams tps) fun _ => True := by
    split
    · rename_i h
      obtain rfl := List.isEmpty_iff.mp (hempty.symm.trans h)
      exact ⟨nofun, Spells.nil _⟩
    · rename_i h
      have hspells := hparams.followed (Spells.blank (c := ' ') rfl fun _ => True) rfl
      rw [List.append_nil] at hspells
      rw [String.toList_append]
      refine ⟨fun c hc => ?_, hspells⟩
      cases hcs : a.toList with
      | nil => exact absurd (String.isEmpty_iff.mpr (String.toList_inj.mp hcs)) h
      | cons d ds =>
        rw [hcs] at hc hless
        obtain rfl := Option.some.inj hc
        rw [hless d rfl]
        decide
  obtain ⟨hasolid, haspells⟩ := hangled
  have hheader : Declares (m ++ (if a.isEmpty then "" else a ++ " ") ++ u ++ " " ++ s)
      (Item.ofModifiers mods ++ (Item.ofTypeParams tps ++ (ty.reread.items ++
        Item.name x :: Node.signatureItems (ps.map Node.reread) (ths.map Node.reread)))) := by
    obtain ⟨c, cs, hcs, hc⟩ := hstart
    refine .of_append (m.toList ++ ((if a.isEmpty then "" else a ++ " ").toList ++
      (u.toList ++ (' ' :: s.toList)))) (by simp [String.toList_append]) ?_
      (hsolid.starts (hasolid.starts ⟨c, _, by rw [hcs]; rfl, hc⟩))
    exact hmods.followedBy (haspells.followedBy (htype.followed hsignature.space rfl))
  intro level
  have hitems : (Node.mk t (.methodDecl mods tps x ty ps ths o)).reread.memberItems =
      Item.ofModifiers mods ++ (Item.ofTypeParams tps ++ (ty.reread.items ++
        Item.name x :: Node.signatureItems (ps.map Node.reread) (ths.map Node.reread))) ++
        (o.map fun b => b.reread.stmtItems).getD [Item.mark ";"] := by
    simp [Node.reread_mk, Node.memberItems, Node.plain, Shape.map, Shape.mapAt, mapIdx_const, fitted,
      Function.comp_def]
  rw [hitems, memberLines, hm, ha, hu, hs]
  cases o with
  | none =>
    refine ⟨_, rfl, .single (indented_spells ?_ level)⟩
    rw [String.toList_append]
    exact hheader.spells.followed (Spells.solo (m := ";") (by decide) _) rfl
  | some b => exact hheader.bodyLines (ho b rfl) (hblock b rfl) level

lemma laysOut_constructorDecl {t : Tag} {mods : List Word} {x : String} {ps ths : List Node}
    {b : Node} (hmods : ∀ w ∈ mods, IsModifier modifierNames w) (hx : IsName x)
    (hps : ∀ p ∈ ps, ParamTree P p) (hths : ∀ ty ∈ ths, TypeTree P false ty)
    (hb : StmtTree (fun _ s => Writable s) false b) (hblock : isBlock b = true) :
    LaysOutMember (.mk t (.constructorDecl mods x ps ths b)) := by
  obtain ⟨m, hm, hsolid, hmods⟩ := modifiersText_spells modifierNames_reserved hmods
  obtain ⟨s, hs, hstart, hsignature⟩ := signatureText_spells hx hps hths
  have hheader : Declares (m ++ s) (Item.ofModifiers mods ++
      Item.name x :: Node.signatureItems (ps.map Node.reread) (ths.map Node.reread)) :=
    .of_append _ (String.toList_append ..) (hmods.followedBy hsignature) (hsolid.starts hstart)
  intro level
  obtain ⟨ls, hls, hspell⟩ := hheader.bodyLines hb hblock level
  refine ⟨ls, by rw [memberLines, hm, hs]; exact hls, ?_⟩
  simpa [Node.reread_mk, Node.memberItems, Node.plain, Shape.map, Shape.mapAt, mapIdx_const, fitted,
    Function.comp_def] using hspell

lemma laysOut_initBlock {t : Tag} {isStatic : Bool} {b : Node}
    (hb : StmtTree (fun _ s => Writable s) false b) (hblock : isBlock b = true) :
    LaysOutMember (.mk t (.initBlock isStatic b)) := by
  intro level
  cases isStatic with
  | false => exact bodyLines_spells hb hblock level
  | true =>
    have hheader : Declares "static" [Item.word "static"] :=
      ⟨(word_spells (by decide)).mono fun _ hnext => hnext.mono (by decide), 's', _, rfl, by decide⟩
    exact hheader.bodyLines hb hblock level

lemma laysOut_classDecl {t : Tag} {mods tps : List Word} {k x : String} {exts imps ms : List Node}
    (hmods : ∀ w ∈ mods, IsModifier modifierNames w) (hk : k ∈ ["class", "interface"])
    (hx : IsName x) (htps : ∀ w ∈ tps, IsTypeParam w) (hexts : ∀ ty ∈ exts, TypeTree P false ty)
    (himps : ∀ ty ∈ imps, TypeTree P false ty) (hms : ∀ m ∈ ms, LaysOutMember m) :
    LaysOutMember (.mk t (.classDecl mods k x tps exts imps ms)) := by
  have hword : k ∈ reservedWords := (by decide : ["class", "interface"] ⊆ reservedWords) hk
  obtain ⟨m, hm, hsolid, hmods⟩ := modifiersText_spells modifierNames_reserved hmods
  obtain ⟨a, ha, -, hparams, hless⟩ := typeParamsText_spells htps
  obtain ⟨e, he, hestart, hextended⟩ := typesText_spells (w := "extends") (by decide) hexts
  obtain ⟨i, hi, histart, himplemented⟩ := typesText_spells (w := "implements") (by decide) himps
  intro level
  obtain ⟨ls, hls, hspell⟩ := membersLines_spell hms (level + 1)
  have hparts := spells_optional hextended (List.Subset.refl _) himplemented
    fun c hc => by rw [histart c hc]; decide
  have hblank : ∀ c ∈ (e.toList ++ i.toList).head?, c = ' ' := forall_head?_append hestart histart
  have hangled := spells_optional hparams (by decide) hparts
    fun c hc => by rw [hblank c hc]; decide
  have hname : Spells x.toList [Item.name x] (Ends ('<' :: headerEnds)) :=
    (Spells.name hx).mono fun _ => Ends.wordEnds (forall_mem_of_all (by decide))
  have hnamed := spells_optional hname (by decide) hangled (forall_head?_append
    (fun c hc => by rw [hless c hc]; decide) fun c hc => by rw [hblank c hc]; decide)
  have hheader := hmods.followedBy ((Spells.wordSpace hword).followedBy hnamed)
  have hopen : Spells "\x7b".toList [Item.mark "\x7b"] (Ends ['\n']) := Spells.solo (by decide) _
  have hlist : (m ++ k ++ " " ++ x ++ a ++ e ++ i ++ " \x7b").toList =
      m.toList ++ (k.toList ++ [' '] ++ (x.toList ++ (a.toList ++ (e.toList ++ i.toList)))) ++
        ' ' :: "\x7b".toList := by
    simp [String.toList_append]
  have hline := indented_spells (hlist ▸ hheader.followed hopen.space rfl) level
  have he' : typesText " extends " exts = .ok e := he
  have hi' : typesText " implements " imps = .ok i := hi
  refine ⟨indented level (m ++ k ++ " " ++ x ++ a ++ e ++ i ++ " \x7b") ::
    (ls ++ [indented level "\x7d"]), by rw [memberLines, hm, ha, he', hi', hls]; rfl, ?_⟩
  have h := LinesSpell.cons hline (hspell.append (closingLine_spells level))
  simpa [Node.reread_mk, Node.memberItems, Node.plain, Shape.map, Shape.mapAt, mapIdx_const,
    fitted, Item.braced, Function.comp_def] using h

lemma laysOutMember_of_tree {c : String} {n : Node}
    (h : MemberTree (fun _ s => Writable s) c n) : LaysOutMember n := by
  induction h with
  | fieldDecl modifiers type _ _ declarators _ => exact laysOut_fieldDecl modifiers type declarators
  | methodDecl modifiers typeParams name type params throws body blocks _ =>
    exact laysOut_methodDecl modifiers typeParams name type params throws body blocks
  | constructorDecl modifiers name params throws body block _ =>
    exact laysOut_constructorDecl modifiers name params throws body block
  | initBlock body block _ => exact laysOut_initBlock body block
  | classDecl modifiers keyword name typeParams extended implemented _ _ ih =>
    exact laysOut_classDecl modifiers keyword name typeParams extended implemented ih

lemma asterisk_spells : Spells ".*".toList [Item.mark ".", Item.mark "*"] (Ends [';']) := by
  have hdot : MarkEnds "." (some '*') := by
    rintro c ⟨⟩
    exact ⟨by decide, fun h => absurd h (by decide), fun _ => by decide⟩
  have hstar : Spells "*".toList [Item.mark "*"] (Ends [';']) := by
    refine (Spells.mark (m := "*") (by decide)).mono fun next hnext => ?_
    refine markEnds_of_notMem (fun c hc => ?_) (by decide) (by decide)
    obtain rfl := List.mem_singleton.mp (hnext c hc)
    decide
  exact (Spells.mark (m := ".") (by decide)).append_cons hstar hdot

lemma qualified_spells {x : String} (hx : IsQualified x) :
    Spells x.toList (Item.ofName x) (Ends ['.', ';']) :=
  (Spells.qualified hx).mono fun _ => Ends.wordEnds (forall_mem_of_all (by decide))

lemma semicolon_spells (next : Option Char → Prop) : Spells ";".toList [Item.mark ";"] next :=
  Spells.solo (by decide) next

lemma importLine_spells {n : Node} (h : ImportTree P n) : ∃ s, importLine n = .ok s ∧
    Spells s.toList n.reread.importItems (Ends ['\n']) := by
  obtain ⟨name, -⟩ := h
  rename_i t x isStatic asterisk
  have hend : Spells ((if asterisk then ".*" else "").toList ++ ";".toList)
      ((if asterisk then [Item.mark ".", Item.mark "*"] else []) ++ [Item.mark ";"])
      (Ends ['\n']) := by
    split
    · exact asterisk_spells.followed (semicolon_spells _) rfl
    · exact semicolon_spells _
  have hname : Spells (x.toList ++ ((if asterisk then ".*" else "").toList ++ ";".toList))
      (Item.ofName x ++ ((if asterisk then [Item.mark ".", Item.mark "*"] else []) ++
        [Item.mark ";"])) (Ends ['\n']) :=
    (qualified_spells name).followed hend (by cases asterisk <;> rfl)
  have hstatic : Spells (if isStatic then "static " else "").toList
      (if isStatic then [Item.word "static"] else []) fun _ => True := by
    split
    · exact Spells.wordSpace (w := "static") (by decide)
    · exact Spells.nil _
  have himport := (Spells.wordSpace (w := "import") (by decide)).followedBy
    (hstatic.followedBy hname)
  refine ⟨_, rfl, ?_⟩
  have hlist : ("import " ++ (if isStatic then "static " else "") ++ x ++
      (if asterisk then ".*" else "") ++ ";").toList = "import".toList ++ [' '] ++
        ((if isStatic then "static " else "").toList ++
          (x.toList ++ ((if asterisk then ".*" else "").toList ++ ";".toList))) := by
    simp only [String.toList_append, List.append_assoc]
    rfl
  rw [hlist]
  exact himport

lemma importLines_spell {is : List Node} (h : ∀ i ∈ is, ImportTree P i) :
    ∃ ls, is.mapM importLine = .ok ls ∧
      LinesSpell ls ((is.map Node.reread).flatMap Node.importItems) := by
  obtain ⟨ls, hls, hspell⟩ := mapM_of_forall fun i hi => importLine_spells (h i hi)
  refine ⟨ls, hls, ?_⟩
  clear hls h
  induction hspell with
  | nil => exact .nil
  | cons hline _ ih => exact .cons hline ih

lemma packageLines_spell {package : Option String} : (∀ p ∈ package, IsQualified p) →
    LinesSpell (match package with
      | some p => if p.isEmpty then [] else ["package " ++ p ++ ";", ""]
      | none => []) ((package.map fun p => Item.word "package" ::
        (Item.ofName p ++ [Item.mark ";"])).getD []) := by
  intro h
  cases package with
  | none => exact .nil
  | some p =>
    have hp := h p rfl
    obtain ⟨c, cs, hcs, -⟩ := typeName_start (.inr hp)
    have hne : p.isEmpty = false := by
      refine Bool.eq_false_iff.mpr fun hempty => ?_
      rw [String.isEmpty_iff.mp hempty] at hcs
      cases hcs
    have hline : Spells ("package " ++ p ++ ";").toList
        (Item.word "package" :: (Item.ofName p ++ [Item.mark ";"])) (Ends ['\n']) := by
      have h := (Spells.wordSpace (w := "package") (by decide)).followedBy
        ((qualified_spells hp).followed (semicolon_spells (Ends ['\n'])) rfl)
      simpa [String.toList_append] using h
    have hempty : LinesSpell [""] [] := .single (Spells.nil _)
    simpa [hne] using LinesSpell.cons hline hempty

end Layout

lemma UnitTree.javaText_spells {n : Node} (h : UnitTree (fun _ s => Writable s) n) :
    ∃ s, javaText n = .ok s ∧ Spells s.toList n.reread.unitItems (Ends ['\n']) := by
  obtain ⟨package, imports, types, -, -⟩ := h
  rename_i t p is ds
  obtain ⟨ls, hls, himports⟩ := importLines_spell imports
  obtain ⟨ms, hms, hmembers⟩ := membersLines_spell (fun d hd => laysOutMember_of_tree (types d hd)) 0
  have hblank : LinesSpell (if is.isEmpty then [] else [""]) [] := by
    split
    · exact .nil
    · exact .single (Spells.nil _)
  refine ⟨_, by rw [javaText, Node.shape_mk]; simp only [unitLines, hls, hms]; rfl, ?_⟩
  have h := (((packageLines_spell package).append himports).append hblank).append hmembers
  have hitems : (Node.mk t (.unit p is ds)).reread.unitItems =
      (p.map fun p => Item.word "package" :: (Item.ofName p ++ [Item.mark ";"])).getD [] ++
        ((is.map Node.reread).flatMap Node.importItems ++
          Node.membersItems (ds.map Node.reread)) := by
    simp [Node.reread_mk, Node.unitItems, Node.plain, Shape.map, Shape.mapAt, mapIdx_const, fitted]
  rw [List.append_nil] at h
  rw [hitems, ← List.append_assoc]
  exact h.spells

end LoopLowering
