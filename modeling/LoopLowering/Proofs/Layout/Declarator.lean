import LoopLowering.Proofs.Layout.Lines
import LoopLowering.Proofs.Syntax.Statement

/-! Modifiers, declared variables, and the heads of loops and handlers, as texts with the items that
they spell. -/

namespace LoopLowering

open Layout Token Text

lemma isBlank_identStart {c : Char} (hc : isIdentStart c = true) : isBlank c = false := by
  have hrange := isIdentStart_range hc
  rw [isBlank, Bool.eq_false_iff]
  intro hblank
  simp only [blankRanges, Ranges.contains, List.any_cons, List.any_nil, Bool.or_eq_true,
    Bool.and_eq_true, decide_eq_true_eq, Bool.or_false] at hblank
  omega

def Solid (cs : List Char) : Prop := ∀ c ∈ cs.head?, isBlank c = false

lemma solid_of_identStart {cs : List Char} (h : ∃ c ds, cs = c :: ds ∧ isIdentStart c = true) :
    Solid cs := by
  obtain ⟨c, ds, rfl, hc⟩ := h
  rintro d ⟨⟩
  exact isBlank_identStart hc

lemma Solid.starts {cs ds : List Char} (h : Solid cs)
    (hd : ∃ c es, ds = c :: es ∧ isBlank c = false) :
    ∃ c es, cs ++ ds = c :: es ∧ isBlank c = false := by
  cases cs with
  | nil => exact hd
  | cons c cs => exact ⟨c, cs ++ ds, rfl, h c rfl⟩

lemma forall_head?_append {Q : Char → Prop} {cs ds : List Char} (hcs : ∀ c ∈ cs.head?, Q c)
    (hds : ∀ c ∈ ds.head?, Q c) : ∀ c ∈ (cs ++ ds).head?, Q c := by
  cases cs with
  | nil => exact hds
  | cons c cs => exact hcs

lemma Solid.append {cs ds : List Char} (hcs : Solid cs) (hds : Solid ds) : Solid (cs ++ ds) :=
  forall_head?_append hcs hds

variable {P : Tag → Shape Node → Prop}

lemma typeText_solid {w : Bool} {n : Node} (h : TypeTree P w n) {s : String}
    (hs : typeText n = .ok s) : Solid s.toList := by
  have hname : ∀ {x : String} (rest : List Char), x ∈ primitiveNames ∨ IsQualified x →
      Solid (x.toList ++ rest) := by
    intro x rest hx
    obtain ⟨c, cs, hcs, hc⟩ := typeName_start hx
    exact solid_of_identStart ⟨c, cs ++ rest, by rw [hcs]; rfl, hc⟩
  cases h with
  | primitive name _ =>
    obtain rfl := Except.ok.inj hs
    rw [String.toList_append]
    exact hname _ (.inl name)
  | named name _ =>
    obtain rfl := Except.ok.inj hs
    rw [String.toList_append]
    exact hname _ (.inr name)
  | @generic w t x d as name _ _ =>
    rw [typeText] at hs
    cases has : typeTexts as with
    | error e => rw [has] at hs; cases hs
    | ok ss =>
      rw [has] at hs
      obtain rfl := Except.ok.inj hs
      simp only [String.toList_append, List.append_assoc]
      exact hname _ (.inr name)
  | anything _ =>
    obtain rfl := Except.ok.inj hs
    rintro c ⟨⟩
    decide
  | @bounded t k b _ _ _ =>
    rw [typeText] at hs
    cases hb : typeText b with
    | error e => rw [hb] at hs; cases hs
    | ok u =>
      rw [hb] at hs
      obtain rfl := Except.ok.inj hs
      simp only [String.toList_append, List.append_assoc]
      rintro c ⟨⟩
      decide

lemma modifier_spells {words : List String} (hwords : words ⊆ reservedWords) {w : Word}
    (h : IsModifier words w) : ∃ s, w = .text s ∧ Solid (s ++ " ").toList ∧
      Spells (s ++ " ").toList (Item.ofModifier w) fun _ => True := by
  rcases h with ⟨m, hm, rfl⟩ | ⟨x, hx, rfl⟩
  · have hreserved := hwords hm
    refine ⟨m, rfl, ?_, ?_⟩
    · obtain ⟨c, cs, hcs, hc, -⟩ := reservedWords_isWord m hreserved
      exact solid_of_identStart ⟨c, cs ++ [' '], by rw [String.toList_append, hcs]; rfl, hc⟩
    · rw [Item.ofModifier_word hreserved, String.toList_append]
      exact Spells.wordSpace hreserved
  · refine ⟨"@" ++ x, rfl, ?_, ?_⟩
    · rw [String.toList_append, String.toList_append]
      rintro c ⟨⟩
      decide
    · rw [Item.ofModifier_annotation, String.toList_append, String.toList_append, List.append_assoc]
      have hname : Spells (x.toList ++ [' ']) (Item.ofName x ++ []) fun _ => True :=
        (Spells.qualified hx).append_cons (Spells.blank (c := ' ') rfl _) (by rintro c ⟨⟩; decide)
      rw [List.append_nil] at hname
      exact (Spells.solo (m := "@") (by decide) fun _ => True).followedBy hname

lemma modifiersText_spells {words : List String} (hwords : words ⊆ reservedWords)
    {mods : List Word} (h : ∀ w ∈ mods, IsModifier words w) :
    ∃ s, modifiersText mods = .ok s ∧ Solid s.toList ∧
      Spells s.toList (Item.ofModifiers mods) fun _ => True := by
  suffices hsuff : ∃ ss : List String, wordTexts mods = .ok ss ∧
      Solid (String.join (ss.map (· ++ " "))).toList ∧
      Spells (String.join (ss.map (· ++ " "))).toList (Item.ofModifiers mods) fun _ => True by
    obtain ⟨ss, hss, hsolid, hspells⟩ := hsuff
    exact ⟨_, by rw [modifiersText, hss]; rfl, hsolid, hspells⟩
  induction mods with
  | nil => exact ⟨[], rfl, by simp [Solid], Spells.nil _⟩
  | cons w mods ih =>
    obtain ⟨hw, hmods⟩ := List.forall_mem_cons.mp h
    obtain ⟨ss, hss, hsolid, hspells⟩ := ih hmods
    obtain ⟨s, rfl, hs, hword⟩ := modifier_spells hwords hw
    rw [wordTexts] at hss
    refine ⟨s :: ss, by rw [wordTexts, List.mapM_cons, hss]; rfl, ?_, ?_⟩
    · rw [List.map_cons, String.join_cons, String.toList_append]
      exact hs.append hsolid
    · rw [List.map_cons, String.join_cons, String.toList_append]
      exact hword.followedBy hspells

lemma localModifierNames_reserved : localModifierNames ⊆ reservedWords := by decide

lemma modifierNames_reserved : modifierNames ⊆ reservedWords := by decide

lemma mapM_of_forall {α : Type} {f : α → Result String} {Q : α → String → Prop} {as : List α}
    (h : ∀ a ∈ as, ∃ s, f a = .ok s ∧ Q a s) :
    ∃ ss, as.mapM f = .ok ss ∧ List.Forall₂ Q as ss := by
  induction as with
  | nil => exact ⟨[], rfl, .nil⟩
  | cons a as ih =>
    obtain ⟨ha, has⟩ := List.forall_mem_cons.mp h
    obtain ⟨s, hs, hq⟩ := ha
    obtain ⟨ss, hss, hqs⟩ := ih has
    exact ⟨s :: ss, by rw [List.mapM_cons, hs, hss]; rfl, .cons hq hqs⟩

lemma exprText_written_short {v : Bool} {e : Node} (h : ExprTree (fun _ s => Writable s) v e) :
    ∃ s, exprText e = .ok s ∧ Written s.toList e.reread.items exprEnds := by
  obtain ⟨s, hs, hw⟩ := exprText_written h
  exact ⟨s, hs, hw.mono (exprEnds_subset_endsOf e)⟩

lemma declaratorText_written {d : Node} (h : DeclaratorTree (fun _ s => Writable s) d) :
    ∃ s, declaratorText d = .ok s ∧ Written s.toList d.reread.items exprEnds := by
  obtain ⟨name, init, -⟩ := h
  rename_i t x d o
  have hname : Written (x ++ brackets d).toList (Item.name x :: Item.brackets d) exprEnds := by
    rw [String.toList_append]
    exact (name_written name).brackets (by decide) (by decide) d
  cases o with
  | none => exact ⟨_, rfl, by simpa [Node.reread_mk, Node.items_mk, Node.plain, Shape.map,
      Shape.mapAt, fitted, Item.ofShape] using hname⟩
  | some e =>
    obtain ⟨s, hs, hw⟩ := exprText_written_short (init e rfl)
    refine ⟨_, by rw [declaratorText, Node.shape_mk]; simp only [hs]; rfl, ?_⟩
    have hequals := (Spells.spaced (m := "=") (by decide)).followedBy hw.spells
    have h := hname.followed hequals rfl
    have hitems : (Node.mk t (.declarator x d (some e))).reread.items =
        Item.name x :: Item.brackets d ++ ([Item.mark "="] ++ e.reread.items) := rfl
    rw [hitems]
    simpa [String.toList_append] using h

lemma declaratorsText_spells {ds : List Node}
    (h : ∀ d ∈ ds, DeclaratorTree (fun _ s => Writable s) d) :
    ∃ s, declaratorsText ds = .ok s ∧
      Spells s.toList (Item.listed (ds.map fun d => d.reread.items)) (Ends exprEnds) := by
  obtain ⟨ss, hss, hs⟩ := mapM_of_forall fun d hd => declaratorText_written (h d hd)
  exact ⟨_, by rw [declaratorsText, hss]; rfl, commaList_spells (by decide) hs⟩

lemma typed_spells {words : List String} (hwords : words ⊆ reservedWords) {mods : List Word}
    (hmods : ∀ w ∈ mods, IsModifier words w) {type : String} {tis : List Item}
    (htype : Spells type.toList tis (Ends typeEnds)) {rest : String} {is : List Item}
    {next : Option Char → Prop} (hrest : Spells rest.toList is next) :
    ∃ m, modifiersText mods = .ok m ∧ Solid m.toList ∧
      Spells (m ++ type ++ " " ++ rest).toList (Item.ofModifiers mods ++ tis ++ is) next := by
  obtain ⟨m, hm, hsolid, hspells⟩ := modifiersText_spells hwords hmods
  refine ⟨m, hm, hsolid, ?_⟩
  simp only [String.toList_append, List.append_assoc]
  exact hspells.followedBy (htype.append_cons hrest.space (by rintro c ⟨⟩; decide))

lemma localVarText_spells {n : Node} (h : LocalVarTree (fun _ s => Writable s) n) :
    ∃ s, localVarText n = .ok s ∧ Spells s.toList n.reread.items (Ends exprEnds) := by
  obtain ⟨modifiers, type, -, declarators, -⟩ := h
  rename_i t mods ty ds
  obtain ⟨u, hu, htype⟩ := typeText_written type
  obtain ⟨ss, hss, hs⟩ := declaratorsText_spells declarators
  obtain ⟨m, hm, -, hspells⟩ := typed_spells localModifierNames_reserved modifiers htype.spells hs
  refine ⟨_, by rw [localVarText, Node.shape_mk]; simp only [hm, hu, hss]; rfl, ?_⟩
  simpa [Node.reread_mk, Node.items_mk, Node.plain, Shape.map, Shape.mapAt, mapIdx_const, fitted,
    Item.ofShape, Function.comp_def] using hspells

lemma localVarTree_of_element {n : Node} (h : ElementTree P n) : LocalVarTree P n := by
  obtain ⟨modifiers, type, name, inner, here⟩ := h
  refine .mk modifiers type (by simp) (List.forall_mem_singleton.mpr ?_) here
  exact .mk name (by simp) inner

lemma exprTexts_spells {es : List Node} (h : ∀ e ∈ es, ExprTree (fun _ s => Writable s) false e) :
    ∃ ss, exprTexts es = .ok ss ∧
      Spells (commaList ss).toList (Item.listed (es.map fun e => e.reread.items)) (Ends exprEnds) := by
  obtain ⟨ss, hss, hs⟩ := exprTexts_of_forall fun e he => exprText_written_short (h e he)
  exact ⟨ss, hss, commaList_spells (by decide) hs⟩

lemma forInitText_spells {init : List Node} (h : ForInit (fun _ s => Writable s) init) :
    ∃ s, forInitText init = .ok s ∧
      Spells s.toList (Item.listed (init.map fun e => e.reread.items)) (Ends exprEnds) := by
  rcases h with ⟨d, rfl, hd⟩ | h
  · obtain ⟨s, hs, hspells⟩ := localVarText_spells hd
    refine ⟨s, ?_, by simpa [Item.listed, Item.separated] using hspells⟩
    cases hd
    exact hs
  · obtain ⟨ss, hss, hs⟩ := exprTexts_spells h
    refine ⟨_, ?_, hs⟩
    rw [forInitText]
    · rw [hss]
      rfl
    · -- An expression is no declaration.
      rintro t mods type ds rfl
      cases h _ List.mem_cons_self

lemma forHeader_heads {init update : List Node} {o : Option Node}
    (hinit : ForInit (fun _ s => Writable s) init)
    (hcond : ∀ e ∈ o, ExprTree (fun _ s => Writable s) false e)
    (hupdate : ∀ e ∈ update, ExprTree (fun _ s => Writable s) false e) :
    ∃ s, forHeader init o update = .ok s ∧ Heads s (Item.word "for" :: Item.parenthesized
      (Item.listed (init.map fun e => e.reread.items) ++ Item.mark ";" ::
        (o.map fun e => e.reread.items).getD [] ++ Item.mark ";" ::
        Item.listed (update.map fun e => e.reread.items))) := by
  have hsemicolon : Spells ";".toList [Item.mark ";"] fun _ => True := Spells.solo (by decide) _
  obtain ⟨i, hi, hispells⟩ := forInitText_spells hinit
  obtain ⟨us, hus, huspells⟩ := exprTexts_spells hupdate
  have hcondition : ∃ c, forHeader init o update = .ok ("for (" ++ i ++ ";" ++ c ++ ";" ++
        (if (commaList us).isEmpty then "" else " " ++ commaList us) ++ ")") ∧
      Spells c.toList ((o.map fun e => e.reread.items).getD []) (Ends exprEnds) := by
    cases o with
    | none => exact ⟨"", by rw [forHeader, hi, hus]; rfl, Spells.nil _⟩
    | some c =>
      obtain ⟨s, hs, hw⟩ := exprText_written_short (hcond c rfl)
      refine ⟨" " ++ s, by rw [forHeader, hi, hus]; simp only [hs]; rfl, ?_⟩
      rw [String.toList_append]
      exact hw.spells.space
  obtain ⟨c, hc, hcspells⟩ := hcondition
  have hupdates : Spells (if (commaList us).isEmpty then "" else " " ++ commaList us).toList
      (Item.listed (update.map fun e => e.reread.items)) (Ends exprEnds) := by
    split
    · rename_i hempty
      rw [String.isEmpty_iff.mp hempty] at huspells
      exact huspells
    · rw [String.toList_append]
      exact huspells.space
  have hinner : Spells (i ++ ";" ++ c ++ ";" ++
      (if (commaList us).isEmpty then "" else " " ++ commaList us)).toList
      (Item.listed (init.map fun e => e.reread.items) ++ Item.mark ";" ::
        (o.map fun e => e.reread.items).getD [] ++ Item.mark ";" ::
        Item.listed (update.map fun e => e.reread.items)) (Ends exprEnds) := by
    simp only [String.toList_append, List.append_assoc]
    refine hispells.append_cons (hsemicolon.followedBy ?_) (by rintro c ⟨⟩; decide)
    exact hcspells.append_cons (hsemicolon.followedBy hupdates) (by rintro c ⟨⟩; decide)
  refine ⟨_, hc, ?_⟩
  have hheads := heads_parenthesized (w := "for") (by decide) hinner (by decide)
  simpa [String.append_assoc] using hheads

lemma catchHeader_heads {mods : List Word} {x : String} {tys : List Node}
    (hmods : ∀ w ∈ mods, IsModifier localModifierNames w) (hx : IsName x)
    (htypes : ∀ ty ∈ tys, TypeTree P false ty) :
    ∃ s, catchHeader mods x tys = .ok s ∧ Heads s (Item.word "catch" :: Item.parenthesized
      (Item.ofModifiers mods ++ Item.separated "|" (tys.map fun ty => ty.reread.items) ++
        [Item.name x])) := by
  obtain ⟨ss, hss, hs⟩ := typeTexts_of_forall fun ty hty => typeText_written (htypes ty hty)
  have htypes' : Spells (" | ".intercalate ss).toList
      (Item.separated "|" (tys.map fun ty => ty.reread.items)) (Ends typeEnds) := by
    rw [String.toList_intercalate]
    refine Spells.separated (Spells.spaced (m := "|") (by decide)) rfl ?_
    rw [List.forall₂_map_left_iff, List.forall₂_map_right_iff]
    exact hs.flip.imp fun _ _ hw => hw.spells
  obtain ⟨m, hm, -, hspells⟩ := typed_spells localModifierNames_reserved hmods htypes'
    ((name_written hx).spells)
  refine ⟨_, by rw [catchHeader, hss, hm]; rfl, ?_⟩
  have hheads := heads_parenthesized (w := "catch") (by decide) hspells (by decide)
  simpa [String.append_assoc] using hheads

end LoopLowering
