import LoopLowering.Proofs.Layout.Declarator

/-! The lines of a statement spell the statement with all its parentheses and braces. -/

namespace LoopLowering

open Layout Token

namespace Layout

structure LaysOut (n : Node) : Prop where
  lines : ∀ level, ∃ ls, stmtLines n level = .ok ls ∧ BodySpell level n ls n.reread.stmtItems
  behind : ∀ {level : Nat} {lines : List String} {is : List Item}, StmtSpell level lines is →
    ∃ ls, elseLines (some n) level lines = .ok ls ∧
      StmtSpell level ls (is ++ Item.word "else" :: n.reread.stmtItems)

def HandlerSpells (n : Node) : Prop :=
  ∀ {level : Nat} {lines : List String} {is : List Item} (cs : List Node),
    StmtSpell level lines is → ∃ ls, catchLines (n :: cs) level lines = catchLines cs level ls ∧
      StmtSpell level ls (is ++ n.reread.stmtItems)

section

variable {t : Tag} {n : Node}

attribute [local simp] Node.reread_mk Node.stmtItems Node.branchItems Node.contentItems Node.plain
  Shape.map Shape.mapAt mapIdx_const fitted

lemma ok_bind {α β : Type} {x : Result α} {a : α} (h : x = .ok a) (f : α → Result β) :
    (x >>= f) = f a := by
  rw [h]
  rfl

lemma elseLines_of_not_if (h : isIf n = false) (level : Nat) (lines : List String) :
    elseLines (some n) level lines = (do
      let (lines, header) := joinClosing level lines "else"
      return lines ++ withBody level header n (← stmtLines n (bodyLevel level n))) := by
  obtain ⟨t, s⟩ := n
  cases s <;> first | rfl | cases h

lemma joined_spells {level : Nat} {lines ls : List String} {is hs js : List Item} {header : String}
    {body : Node} (h : StmtSpell level lines is) (hh : Heads header hs)
    (hb : BodySpell (bodyLevel level body) body ls js) :
    StmtSpell level ((joinClosing level lines header).1 ++
      withBody level (joinClosing level lines header).2 body ls) (is ++ (hs ++ js)) := by
  obtain ⟨is', hs', hlines, hheader, heq⟩ := joinClosing_spells h hh
  rw [← List.append_assoc, ← heq, List.append_assoc]
  exact hlines.append (withBody_spells hheader hb).lines

lemma LaysOut.of_lines (hif : isIf n = false)
    (h : ∀ level, ∃ ls, stmtLines n level = .ok ls ∧ BodySpell level n ls n.reread.stmtItems) :
    LaysOut n where
  lines := h
  behind {level lines is} hlines := by
    obtain ⟨ls, hls, hb⟩ := h (bodyLevel level n)
    refine ⟨_, by rw [elseLines_of_not_if hif, hls]; rfl, ?_⟩
    exact joined_spells hlines (heads_word (w := "else") (by decide)) hb

lemma LaysOut.of_spells (hif : isIf n = false) (hblock : isBlock n = false)
    (h : ∀ level, ∃ ls, stmtLines n level = .ok ls ∧ StmtSpell level ls n.reread.stmtItems) :
    LaysOut n := by
  refine .of_lines hif fun level => ?_
  obtain ⟨ls, hls, hspell⟩ := h level
  exact ⟨ls, hls, hspell, fun hb => absurd (hblock ▸ hb) nofun⟩

lemma isIf_reread (n : Node) : isIf n.reread = isIf n := by
  obtain ⟨t, s⟩ := n
  rw [Node.reread_mk]
  cases s with
  | unary op after e => cases after <;> rfl
  | methodCall x e as => cases e <;> rfl
  | _ => rfl

lemma isBlock_reread (n : Node) : isBlock n.reread = isBlock n := by
  obtain ⟨t, s⟩ := n
  rw [Node.reread_mk]
  cases s with
  | unary op after e => cases after <;> rfl
  | methodCall x e as => cases e <;> rfl
  | _ => rfl

lemma needsBraces_reread (a : Node) (o : Option Node) :
    needsBraces a.reread (o.map Node.reread) = needsBraces a o := by
  rw [needsBraces, needsBraces, isIf_reread, Option.isSome_map]

def branchItemsOf (a : Node) (o : Option Node) : List Item :=
  if needsBraces a o then Item.braced a.reread.stmtItems else a.reread.stmtItems

lemma stmtItems_reread_ifElse (t : Tag) (c a : Node) (o : Option Node) :
    (Node.mk t (.ifElse c a o)).reread.stmtItems =
      Item.word "if" :: (Item.parenthesized c.reread.items ++
        (branchItemsOf a o ++ Node.branchItems "else" (o.map Node.reread))) := by
  have hreread : (Node.mk t (.ifElse c a o)).reread = .plain (.ifElse c.reread
      (if needsBraces a.reread (o.map Node.reread) then .plain (.block [a.reread]) else a.reread)
      (o.map Node.reread)) := Node.reread_mk t _
  rw [hreread, needsBraces_reread, branchItemsOf]
  split <;> simp

lemma contents_spell {ss : List Node} (h : ∀ s ∈ ss, LaysOut s) (level : Nat) :
    ∃ ls, contents ss level = .ok ls ∧
      LinesSpell ls (Node.contentItems (ss.map Node.reread)) := by
  induction ss with
  | nil => exact ⟨[], rfl, .nil⟩
  | cons s ss ih =>
    obtain ⟨hs, hss⟩ := List.forall_mem_cons.mp h
    obtain ⟨ls, hls, hb⟩ := hs.lines level
    obtain ⟨ls', hls', hspell⟩ := ih hss
    exact ⟨ls ++ ls', by rw [contents, hls, hls']; rfl, hb.spell.lines.append hspell⟩

lemma ifElse_spells {a : Node} {o : Option Node} {header : String} {hs : List Item} {level : Nat}
    {lines : List String} {is : List Item} (ha : LaysOut a) (ho : ∀ b ∈ o, LaysOut b)
    (hh : Heads header hs)
    (hbefore : ∀ {ls : List String} {js : List Item}, StmtSpell level ls js →
      StmtSpell level (lines ++ ls) (is ++ js)) :
    ∃ ls ls', stmtLines a (thenLevel level a o) = .ok ls ∧
      elseLines o level (lines ++ withBranch level header a o ls) = .ok ls' ∧
      StmtSpell level ls' (is ++ (hs ++ (branchItemsOf a o ++
        Node.branchItems "else" (o.map Node.reread)))) := by
  obtain ⟨ls, hls, hb⟩ := ha.lines (thenLevel level a o)
  have hbranch := hbefore (withBranch_spells hh hb)
  cases o with
  | none =>
    refine ⟨ls, _, hls, rfl, ?_⟩
    simpa [branchItemsOf] using hbranch
  | some b =>
    obtain ⟨ls', hls', hspell⟩ := (ho b rfl).behind hbranch
    refine ⟨ls, ls', hls, hls', ?_⟩
    simpa [branchItemsOf] using hspell

lemma laysOut_ifElse {c a : Node} {o : Option Node}
    (hc : ExprTree (fun _ s => Writable s) false c) (ha : LaysOut a) (ho : ∀ b ∈ o, LaysOut b) :
    LaysOut (.mk t (.ifElse c a o)) where
  lines level := by
    obtain ⟨s, hs, hw⟩ := exprText_written_short hc
    have hh : Heads ("if (" ++ s ++ ")") _ :=
      heads_parenthesized (w := "if") (by decide) hw.spells (by decide)
    have hbefore : ∀ {ls : List String} {js : List Item}, StmtSpell level ls js →
        StmtSpell level ([] ++ ls) ([] ++ js) := fun h => h
    obtain ⟨ls, ls', hls, hls', hspell⟩ := ifElse_spells ha ho hh hbefore
    refine ⟨ls', ?_, ?_, nofun⟩
    · exact (ok_bind hs _).trans ((ok_bind hls _).trans hls')
    · rw [stmtItems_reread_ifElse]
      simpa using hspell
  behind {level lines is} hlines := by
    obtain ⟨s, hs, hw⟩ := exprText_written_short hc
    have hh : Heads ("else if (" ++ s ++ ")") _ :=
      (heads_parenthesized (w := "if") (by decide) hw.spells (by decide)).behind
        (w := "else") (by decide)
    obtain ⟨is', hs', hjoined, hheader, heq⟩ := joinClosing_spells hlines hh
    obtain ⟨ls, ls', hls, hls', hspell⟩ := ifElse_spells ha ho hheader
      fun h => hjoined.append h.lines
    refine ⟨ls', ?_, ?_⟩
    · exact (ok_bind hs _).trans ((ok_bind hls _).trans hls')
    · rw [stmtItems_reread_ifElse]
      simp only [← List.append_assoc, heq] at hspell ⊢
      simpa using hspell

lemma LaysOut.of_ended (hif : isIf n = false) (hblock : isBlock n = false) {s : String}
    {is : List Item} {ends : List Char} (hends : ';' ∈ ends)
    (hlines : ∀ level, stmtLines n level = .ok [indented level (s ++ ";")])
    (hitems : n.reread.stmtItems = is ++ [Item.mark ";"]) (h : Spells s.toList is (Ends ends)) :
    LaysOut n :=
  .of_spells hif hblock fun level => ⟨_, hlines level, hitems ▸ StmtSpell.ended level h hends⟩

lemma laysOut_localVar (h : LocalVarTree (fun _ s => Writable s) n) : LaysOut n := by
  obtain ⟨s, hs, hspells⟩ := localVarText_spells h
  cases h
  exact .of_ended rfl rfl (by decide) (fun _ => ok_bind hs _) rfl hspells

lemma word_spells {w : String} (hw : w ∈ reservedWords) :
    Spells w.toList [Item.word w] (Ends [' ', ';']) :=
  (Spells.word hw).mono fun _ => Ends.wordEnds (forall_mem_of_all (by decide))

lemma behindWord_spells {w s : String} {is : List Item} {next : Option Char → Prop}
    (hw : w ∈ reservedWords) (h : Spells s.toList is next) :
    Spells (w ++ " " ++ s).toList (Item.word w :: is) next := by
  rw [String.toList_append, String.toList_append]
  exact (Spells.wordSpace hw).followedBy h

lemma jumpText_spells {w : String} (hw : w ∈ reservedWords) {label : Option String}
    (hlabel : ∀ x ∈ label, IsName x) : ∃ s, jumpText w label = s ++ ";" ∧
      Spells s.toList (Item.word w :: (label.map Item.name).toList) (Ends [' ', ';']) := by
  cases label with
  | none => exact ⟨w, rfl, word_spells hw⟩
  | some x =>
    obtain ⟨c, cs, hcs, -⟩ := isName_start (hlabel x rfl)
    have hne : x.isEmpty = false := by
      rw [Bool.eq_false_iff]
      intro h
      rw [String.isEmpty_iff.mp h] at hcs
      cases hcs
    refine ⟨w ++ " " ++ x, by rw [jumpText]; simp only [hne]; rfl, behindWord_spells hw ?_⟩
    exact (name_written (hlabel x rfl)).spells.mono fun _ hnext => hnext.mono (by decide)

lemma bodySpell_block {ss : List Node} (h : ∀ s ∈ ss, LaysOut s) (level : Nat) :
    ∃ ls, stmtLines (.mk t (.block ss)) level = .ok ls ∧
      BodySpell level (.mk t (.block ss)) ls (Node.mk t (.block ss)).reread.stmtItems := by
  obtain ⟨ls, hls, hspell⟩ := contents_spell h (level + 1)
  have hitems : (Node.mk t (.block ss)).reread.stmtItems =
      [Item.mark "\x7b"] ++ (Node.contentItems (ss.map Node.reread) ++ [Item.mark "\x7d"]) := by
    rw [Node.reread_mk, ← mapIdx_const Node.reread ss]
    rfl
  have hopen : Spells "\x7b".toList [Item.mark "\x7b"] (Ends ['\n']) := Spells.solo (by decide) _
  refine ⟨_, ok_bind hls _, ?_, fun _ => ⟨_, rfl⟩⟩
  rw [hitems]
  exact .mk (by decide) (by decide) hopen (hspell.append (closingLine_spells level))

lemma LaysOut.headed {b : Node} (hb : LaysOut b) (level : Nat) {header : String} {hs : List Item}
    (hh : Heads header hs) : ∃ ls, stmtLines b (bodyLevel level b) = .ok ls ∧
      StmtSpell level (withBody level header b ls) (hs ++ b.reread.stmtItems) := by
  obtain ⟨ls, hls, hspell⟩ := hb.lines (bodyLevel level b)
  exact ⟨ls, hls, withBody_spells hh hspell⟩

lemma laysOut_whileLoop {c b : Node} (hc : ExprTree (fun _ s => Writable s) false c)
    (hb : LaysOut b) : LaysOut (.mk t (.whileLoop c b)) := by
  obtain ⟨s, hs, hw⟩ := exprText_written_short hc
  have hh : Heads ("while (" ++ s ++ ")") _ :=
    heads_parenthesized (w := "while") (by decide) hw.spells (by decide)
  refine .of_spells rfl rfl fun level => ?_
  obtain ⟨ls, hls, hspell⟩ := hb.headed level hh
  exact ⟨_, (ok_bind hs _).trans (ok_bind hls _), hspell⟩

lemma laysOut_doWhile {b c : Node} (hb : LaysOut b)
    (hc : ExprTree (fun _ s => Writable s) false c) : LaysOut (.mk t (.doWhile b c)) := by
  obtain ⟨s, hs, hw⟩ := exprText_written_short hc
  have hspells : Spells ("while (" ++ s ++ ")").toList _ (Ends [';']) :=
    parenthesized_spells (w := "while") (by decide) hw.spells (by decide) _
  have hh : Heads ("while (" ++ s ++ ")" ++ ";") _ :=
    (heads_parenthesized (w := "while") (by decide) hw.spells (by decide)).ended hspells (by decide)
  have hheader : "while (" ++ s ++ ");" = "while (" ++ s ++ ")" ++ ";" := by
    simp only [String.append_assoc]
    rfl
  refine .of_spells rfl rfl fun level => ?_
  obtain ⟨ls, hls, hspell⟩ := hb.headed level (heads_word (w := "do") (by decide))
  obtain ⟨is', hs', hlines, hlast, heq⟩ := joinClosing_spells hspell hh
  refine ⟨_, (ok_bind hls _).trans ((ok_bind hs _).trans (by rw [hheader]; rfl)), ?_⟩
  have h := hlines.append (.single (indented_spells hlast.line level))
  rw [heq] at h
  rw [List.append_assoc] at h
  exact h

lemma laysOut_forLoop {init update : List Node} {o : Option Node} {b : Node}
    (hinit : ForInit (fun _ s => Writable s) init)
    (hcond : ∀ e ∈ o, ExprTree (fun _ s => Writable s) false e)
    (hupdate : ∀ e ∈ update, ExprTree (fun _ s => Writable s) false e) (hb : LaysOut b) :
    LaysOut (.mk t (.forLoop init o update b)) := by
  obtain ⟨s, hs, hh⟩ := forHeader_heads hinit hcond hupdate
  refine .of_spells rfl rfl fun level => ?_
  obtain ⟨ls, hls, hspell⟩ := hb.headed level hh
  refine ⟨_, (ok_bind hs _).trans (ok_bind hls _), ?_⟩
  simpa [Function.comp_def] using hspell

lemma laysOut_forEach {v e b : Node} (hv : ElementTree (fun _ s => Writable s) v)
    (he : ExprTree (fun _ s => Writable s) false e) (hb : LaysOut b) :
    LaysOut (.mk t (.forEach v e b)) := by
  obtain ⟨u, hu, hvar⟩ := localVarText_spells (localVarTree_of_element hv)
  obtain ⟨s, hs, hw⟩ := exprText_written_short he
  have hinner : Spells (u ++ " : " ++ s).toList (v.reread.items ++ Item.mark ":" :: e.reread.items)
      (Ends exprEnds) := by
    rw [String.toList_append, String.toList_append, List.append_assoc]
    exact hvar.append_cons ((Spells.spaced (m := ":") (by decide)).followedBy hw.spells)
      (by rintro c ⟨⟩; decide)
  have hh := heads_parenthesized (w := "for") (by decide) hinner (by decide)
  have hheader : "for (" ++ u ++ " : " ++ s ++ ")" =
      "for" ++ " (" ++ (u ++ " : " ++ s) ++ ")" := by
    simp only [String.append_assoc]
    rfl
  refine .of_spells rfl rfl fun level => ?_
  obtain ⟨ls, hls, hspell⟩ := hb.headed level hh
  exact ⟨_, (ok_bind hu _).trans ((ok_bind hs _).trans (hheader ▸ ok_bind hls _)), hspell⟩

lemma laysOut_labeled {l : String} {b : Node} (hl : IsName l) (hb : LaysOut b) :
    LaysOut (.mk t (.labeled l b)) := by
  refine .of_spells rfl rfl fun level => ?_
  obtain ⟨ls, hls, hspell⟩ := hb.lines level
  obtain ⟨ls', hls', hlabeled⟩ := labelLines_spells hl hspell.spell
  exact ⟨ls', (ok_bind hls _).trans hls', hlabeled⟩

lemma handlerSpells_catchClause {mods : List Word} {x : String} {tys : List Node} {b : Node}
    {P : Tag → Shape Node → Prop} (hmods : ∀ w ∈ mods, IsModifier localModifierNames w)
    (hx : IsName x) (htypes : ∀ ty ∈ tys, TypeTree P false ty) (hb : LaysOut b) :
    HandlerSpells (.mk t (.catchClause mods x tys b)) := by
  obtain ⟨s, hs, hh⟩ := catchHeader_heads hmods hx htypes
  intro level lines is cs hlines
  obtain ⟨ls, hls, hspell⟩ := hb.lines (bodyLevel level b)
  refine ⟨(joinClosing level lines s).1 ++ withBody level (joinClosing level lines s).2 b ls,
    (ok_bind hs _).trans (ok_bind hls _), ?_⟩
  have h := joined_spells hlines hh hspell
  simpa [Function.comp_def] using h

lemma catches_spell {cs : List Node} (h : ∀ c ∈ cs, HandlerSpells c) {level : Nat}
    {lines : List String} {is : List Item} (hlines : StmtSpell level lines is) :
    ∃ ls, catchLines cs level lines = .ok ls ∧
      StmtSpell level ls (is ++ Node.contentItems (cs.map Node.reread)) := by
  induction cs generalizing lines is with
  | nil => exact ⟨lines, rfl, by simpa using hlines⟩
  | cons c cs ih =>
    obtain ⟨hc, hcs⟩ := List.forall_mem_cons.mp h
    obtain ⟨ls, heq, hspell⟩ := hc cs hlines
    obtain ⟨ls', hls', hspell'⟩ := ih hcs hspell
    exact ⟨ls', heq.trans hls', by simpa using hspell'⟩

lemma laysOut_tryStmt {b : Node} {cs : List Node} {f : Option Node} (hb : LaysOut b)
    (hcs : ∀ c ∈ cs, HandlerSpells c) (hf : ∀ b ∈ f, LaysOut b) :
    LaysOut (.mk t (.tryStmt b cs f)) := by
  refine .of_spells rfl rfl fun level => ?_
  obtain ⟨ls, hls, hspell⟩ := hb.headed level (heads_word (w := "try") (by decide))
  obtain ⟨ls', hls', hcatches⟩ := catches_spell hcs hspell
  cases f with
  | none =>
    refine ⟨ls', (ok_bind hls _).trans hls', ?_⟩
    simpa using hcatches
  | some f =>
    obtain ⟨fs, hfs, hfinal⟩ := (hf f rfl).lines (bodyLevel level f)
    refine ⟨(joinClosing level ls' "finally").1 ++
      withBody level (joinClosing level ls' "finally").2 f fs,
        (ok_bind hls _).trans ((ok_bind hls' _).trans (ok_bind hfs _)), ?_⟩
    have h := joined_spells hcatches (heads_word (w := "finally") (by decide)) hfinal
    simpa using h

end

lemma laysOut_of_tree {handler : Bool} {n : Node}
    (h : StmtTree (fun _ s => Writable s) handler n) :
    if handler then HandlerSpells n else LaysOut n := by
  induction h with
  | block _ _ ih => exact .of_lines rfl (bodySpell_block ih)
  | localVar declaration => exact laysOut_localVar declaration
  | exprStmt expr _ =>
    obtain ⟨s, hs, hw⟩ := exprText_written_short expr
    exact .of_ended rfl rfl (by decide) (fun _ => ok_bind hs _) rfl hw.spells
  | ifElse cond _ _ _ iha ihb => exact laysOut_ifElse cond iha ihb
  | whileLoop cond _ _ ih => exact laysOut_whileLoop cond ih
  | doWhile _ cond _ ih => exact laysOut_doWhile ih cond
  | forLoop start cond updates _ _ ih => exact laysOut_forLoop start cond updates ih
  | forEach var iterable _ _ ih => exact laysOut_forEach var iterable ih
  | @returnStmt t o value _ =>
    cases o with
    | none =>
      exact .of_ended rfl rfl (s := "return") (by decide) (fun _ => rfl) rfl
        (word_spells (by decide))
    | some e =>
      obtain ⟨s, hs, hw⟩ := exprText_written_short (value e rfl)
      exact .of_ended rfl rfl (s := "return " ++ s) (by decide)
        (fun _ => ok_bind hs _) rfl
        (behindWord_spells (w := "return") (by decide) hw.spells)
  | breakStmt label _ =>
    obtain ⟨s, hs, hspells⟩ := jumpText_spells (w := "break") (by decide) label
    exact .of_ended rfl rfl (by decide) (fun _ => by rw [← hs]; rfl) rfl hspells
  | continueStmt label _ =>
    obtain ⟨s, hs, hspells⟩ := jumpText_spells (w := "continue") (by decide) label
    exact .of_ended rfl rfl (by decide) (fun _ => by rw [← hs]; rfl) rfl hspells
  | throwStmt expr _ =>
    obtain ⟨s, hs, hw⟩ := exprText_written_short expr
    exact .of_ended rfl rfl (s := "throw " ++ s) (by decide)
      (fun _ => ok_bind hs _) rfl
      (behindWord_spells (w := "throw") (by decide) hw.spells)
  | tryStmt _ _ _ _ _ _ _ ihb ihc ihf => exact laysOut_tryStmt ihb ihc ihf
  | catchClause modifiers name _ types _ _ _ ih =>
    exact handlerSpells_catchClause modifiers name types ih
  | labeled label _ _ ih => exact laysOut_labeled label ih
  | emptyStmt _ =>
    have hspells : Spells "".toList [] (Ends [';']) := Spells.nil _
    exact .of_ended rfl rfl (by decide) (fun _ => rfl) rfl hspells

end Layout

end LoopLowering
