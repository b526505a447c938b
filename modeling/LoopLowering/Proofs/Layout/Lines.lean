import LoopLowering.Proofs.Layout.Expression

/-! The lines of source text. Each line is read on its own, since every token ends before the end of
its line; a closing brace may be taken back into the header behind it. -/

namespace LoopLowering

open Layout Token Text

lemma Ends.mono {cs ds : List Char} {next : Option Char} (h : Ends cs next) (hsub : cs ⊆ ds) :
    Ends ds next := fun c hc => hsub (h c hc)

namespace Item

lemma ext_mark {i : Item} {m : String} (hk : i.kind = .mark m) (hv : i.value = .text m)
    (hglued : i.glued = false) : i = mark m := by
  obtain ⟨k, v, g⟩ := i
  obtain rfl : k = .mark m := hk
  obtain rfl : v = .text m := hv
  obtain rfl : g = false := hglued
  rfl

end Item

lemma Spells.eq_mark {cs : List Char} {is : List Item} {m : String}
    {next next' : Option Char → Prop} (h : Spells cs is next) (hend : next none)
    (hm : Spells cs [Item.mark m] next') (hend' : next' none) : is = [Item.mark m] := by
  obtain ⟨ts, _, hts, hpieces⟩ := h.read [] hend 1 0
  obtain ⟨us, _, hus, hpieces'⟩ := hm.read [] hend' 1 0
  obtain ⟨u, _, rfl, hkind, hvalue, hnil⟩ := hus.of_cons
  cases hnil
  have heq : ts.map Token.Piece.token ++ [] = [u].map Token.Piece.token ++ [] :=
    Except.ok.inj (hpieces.symm.trans hpieces')
  obtain rfl : ts = [u] := by
    rw [List.append_nil, List.append_nil] at heq
    exact List.map_injective_iff.mpr (fun _ _ h => Token.Piece.token.inj h) heq
  cases hts with
  | @cons i t is ts kind value glue rest =>
    cases rest
    have hglued := h.free i rfl
    rw [Item.ext_mark (kind.symm.trans hkind) (value.symm.trans hvalue) hglued]

inductive LinesSpell : List String → List Item → Prop
  | nil : LinesSpell [] []
  | cons {l : String} {ls : List String} {is js : List Item}
      (line : Spells l.toList is (Ends ['\n'])) (lines : LinesSpell ls js) :
      LinesSpell (l :: ls) (is ++ js)

namespace LinesSpell

variable {l : String} {ls ls' : List String} {is js : List Item}

lemma append (h : LinesSpell ls is) (h' : LinesSpell ls' js) : LinesSpell (ls ++ ls') (is ++ js) := by
  induction h with
  | nil => exact h'
  | cons line _ ih =>
    rw [List.append_assoc]
    exact .cons line ih

lemma single (h : Spells l.toList is (Ends ['\n'])) : LinesSpell [l] is := by
  simpa using LinesSpell.cons h .nil

lemma of_concat (h : LinesSpell (ls ++ [l]) is) :
    ∃ js ks, is = js ++ ks ∧ LinesSpell ls js ∧ Spells l.toList ks (Ends ['\n']) := by
  induction ls generalizing is with
  | nil =>
    cases h with
    | cons line lines =>
      cases lines
      exact ⟨[], _, by simp, .nil, line⟩
  | cons m ls ih =>
    cases h with
    | @cons _ _ is' js' line lines =>
      obtain ⟨js, ks, rfl, hls, hl⟩ := ih lines
      exact ⟨is' ++ js, ks, (List.append_assoc _ _ _).symm, .cons line hls, hl⟩

lemma forall₂ (h : LinesSpell ls is) : ∃ iss : List (List Item), is = iss.flatten ∧
    List.Forall₂ (fun cs is => Spells cs is (Ends ['\n'])) (ls.map String.toList) iss := by
  induction h with
  | nil => exact ⟨[], rfl, .nil⟩
  | cons line _ ih =>
    obtain ⟨iss, rfl, hiss⟩ := ih
    exact ⟨_ :: iss, rfl, .cons line hiss⟩

lemma intercalate_nil {α : Type} (as : List (List α)) : [].intercalate as = as.flatten := by
  induction as with
  | nil => rfl
  | cons a as ih =>
    cases as with
    | nil => simp
    | cons b bs => simp [List.intercalate_cons_cons, ih]

lemma spells (h : LinesSpell ls is) : Spells ("\n".intercalate ls).toList is (Ends ['\n']) := by
  obtain ⟨iss, rfl, hiss⟩ := h.forall₂
  have hnewline : Spells ['\n'] [] fun _ => True := Spells.blank rfl _
  rw [String.toList_intercalate]
  have hjoined := Spells.separated (l := []) hnewline rfl hiss
  rwa [intercalate_nil] at hjoined

end LinesSpell

namespace Layout

lemma toList_pushn (s : String) (c : Char) (n : Nat) :
    (s.pushn c n).toList = s.toList ++ List.replicate n c := by
  induction n with
  | zero => simp [String.pushn, Nat.repeat]
  | succ n ih =>
    have hpush : s.pushn c (n + 1) = (s.pushn c n).push c := rfl
    rw [hpush, String.toList_push, ih, List.replicate_succ', List.append_assoc]

lemma toList_indentation (level : Nat) :
    (indentation level).toList = List.replicate (4 * level) ' ' := toList_pushn "" ' ' _

lemma indented_of_ne {line : String} (h : line ≠ "") (level : Nat) :
    indented level line = indentation level ++ line :=
  if_neg (by simpa using h)

lemma indented_inj {level : Nat} {x y : String} (hx : x ≠ "") (hy : y ≠ "")
    (h : indented level x = indented level y) : x = y := by
  rw [indented_of_ne hx, indented_of_ne hy] at h
  have hlist := congrArg String.toList h
  rw [String.toList_append, String.toList_append] at hlist
  exact String.toList_inj.mp (List.append_cancel_left hlist)

lemma indented_spells {line : String} {is : List Item} {next : Option Char → Prop}
    (h : Spells line.toList is next) (level : Nat) :
    Spells (indented level line).toList is next := by
  by_cases hline : line = ""
  · subst hline
    exact h
  · rw [indented_of_ne hline, String.toList_append, toList_indentation]
    exact (Spells.blanks fun _ => True).followedBy h

structure Heads (header : String) (is : List Item) : Prop where
  spells : Spells header.toList is (Ends [' ', '\n'])
  starts : ∃ c cs, header.toList = c :: cs ∧ isBlank c = false
  ne_brace : header ≠ "\x7d"

inductive StmtSpell (level : Nat) : List String → List Item → Prop
  | mk {x : String} {ls : List String} {is js : List Item} (ne_empty : x ≠ "")
      (ne_brace : x ≠ "\x7d") (first : Spells x.toList is (Ends ['\n']))
      (rest : LinesSpell ls js) : StmtSpell level (indented level x :: ls) (is ++ js)

lemma StmtSpell.lines {level : Nat} {ls : List String} {is : List Item}
    (h : StmtSpell level ls is) : LinesSpell ls is := by
  cases h with
  | mk _ _ first rest => exact .cons (indented_spells first level) rest

lemma StmtSpell.append {level : Nat} {ls ls' : List String} {is js : List Item}
    (h : StmtSpell level ls is) (h' : LinesSpell ls' js) :
    StmtSpell level (ls ++ ls') (is ++ js) := by
  cases h with
  | mk ne_empty ne_brace first rest =>
    rw [List.append_assoc]
    exact .mk ne_empty ne_brace first (rest.append h')

lemma StmtSpell.single {x : String} {is : List Item} (level : Nat) (ne_empty : x ≠ "")
    (ne_brace : x ≠ "\x7d") (h : Spells x.toList is (Ends ['\n'])) :
    StmtSpell level [indented level x] is := by
  have hspell : StmtSpell level _ _ := .mk ne_empty ne_brace h .nil
  simpa using hspell

lemma Heads.ne_empty {header : String} {is : List Item} (h : Heads header is) : header ≠ "" := by
  obtain ⟨c, cs, hcs, -⟩ := h.starts
  rintro rfl
  cases hcs

lemma Heads.line {header : String} {is : List Item} (h : Heads header is) :
    Spells header.toList is (Ends ['\n']) :=
  h.spells.mono fun _ hnext => hnext.mono (by decide)

lemma closing_spells (next : Option Char → Prop) :
    Spells "\x7d".toList [Item.mark "\x7d"] next := Spells.solo (by decide) next

lemma Heads.closed {header : String} {is : List Item} (h : Heads header is) :
    Heads ("\x7d " ++ header) (Item.mark "\x7d" :: is) where
  spells := by
    rw [String.toList_append]
    exact (closing_spells fun _ => True).followedBy h.spells.space
  starts := ⟨'\x7d', ' ' :: header.toList, by rw [String.toList_append]; rfl, by decide⟩
  ne_brace heq := by
    have hlist := congrArg String.toList heq
    rw [String.toList_append] at hlist
    cases hlist

lemma spells_brace {level : Nat} {ks : List Item}
    (h : Spells (indentation level ++ "\x7d").toList ks (Ends ['\n'])) :
    ks = [Item.mark "\x7d"] := by
  have hbrace := indented_spells (closing_spells fun _ => True) level
  rw [indented_of_ne (by decide)] at hbrace
  exact h.eq_mark (by simp [Ends]) hbrace trivial

lemma joinClosing_spells {level : Nat} {ls : List String} {is hs : List Item} {header : String}
    (h : StmtSpell level ls is) (hh : Heads header hs) :
    ∃ is' hs', StmtSpell level (joinClosing level ls header).1 is' ∧
      Heads (joinClosing level ls header).2 hs' ∧ is' ++ hs' = is ++ hs := by
  rw [joinClosing]
  split
  · rename_i hlast
    cases h with
    | @mk x ls is js ne_empty ne_brace first rest =>
      rcases List.eq_nil_or_concat ls with rfl | ⟨ls, l, rfl⟩
      · -- The only line is no brace.
        have hx : indented level x = indented level "\x7d" :=
          (Option.some.inj hlast).trans (indented_of_ne (by decide) level).symm
        exact absurd (indented_inj ne_empty (by decide) hx) ne_brace
      · rw [List.concat_eq_append] at rest hlast ⊢
        rw [← List.cons_append, List.getLast?_concat] at hlast
        obtain rfl := Option.some.inj hlast
        obtain ⟨js, ks, rfl, hls, hl⟩ := rest.of_concat
        rw [spells_brace hl]
        refine ⟨is ++ js, _, ?_, hh.closed, by simp⟩
        rw [← List.cons_append, List.dropLast_concat]
        exact .mk ne_empty ne_brace first hls
  · exact ⟨is, hs, h, hh, rfl⟩

lemma openBrace_spells {header : String} {hs : List Item}
    (hh : Spells header.toList hs (Ends [' ']))
    (hstart : ∃ c cs, header.toList = c :: cs ∧ isBlank c = false) (level : Nat) :
    ∃ x, openBrace level header = indented level x ∧ x ≠ "" ∧ x ≠ "\x7d" ∧
      Spells x.toList (hs ++ [Item.mark "\x7b"]) fun _ => True := by
  have hopen : Spells "\x7b".toList [Item.mark "\x7b"] fun _ => True := Spells.solo (by decide) _
  obtain ⟨c, cs, hcs, hblank⟩ := hstart
  refine ⟨header ++ " \x7b", ?_, ?_, ?_, ?_⟩
  · rw [openBrace, String.toList_append, hcs, List.cons_append,
      List.dropWhile_cons_of_neg (by simp [hblank]), ← List.cons_append, ← hcs,
      ← String.toList_append, String.ofList_toList]
  · intro heq
    have hlist := congrArg String.toList heq
    rw [String.toList_append, hcs] at hlist
    cases hlist
  · intro heq
    have hlist := congrArg String.toList heq
    rw [String.toList_append] at hlist
    have hlast := congrArg List.getLast? hlist
    rw [List.getLast?_append] at hlast
    cases hlast
  · rw [String.toList_append]
    exact hh.append_cons hopen.space (by rintro c ⟨⟩; decide)

section

variable {level : Nat} {header : String} {hs is : List Item} {body : Node} {lines : List String}

structure BodySpell (level : Nat) (body : Node) (lines : List String) (is : List Item) : Prop where
  spell : StmtSpell level lines is
  opens : isBlock body = true → ∃ rest, lines = indented level "\x7b" :: rest

lemma withBlock_spells (hh : Spells header.toList hs (Ends [' ']))
    (hstart : ∃ c cs, header.toList = c :: cs ∧ isBlank c = false) (hblock : isBlock body = true)
    (hb : BodySpell level body lines is) :
    StmtSpell level (withBody level header body lines) (hs ++ is) := by
  obtain ⟨x, hx, ne_empty, ne_brace, hopen⟩ := openBrace_spells hh hstart level
  obtain ⟨rest, rfl⟩ := hb.opens hblock
  rw [withBody, if_pos hblock]
  generalize hl : indented level "\x7b" = l at hb
  obtain ⟨hspell, -⟩ := hb
  cases hspell with
  | @mk y ls is js ne _ first rest' =>
    obtain rfl := indented_inj (by decide) ne hl
    obtain rfl := first.eq_mark (by simp [Ends])
      (Spells.solo (m := "\x7b") (by decide) fun _ => True) trivial
    rw [List.tail_cons, hx, ← List.append_assoc]
    exact .mk ne_empty ne_brace (hopen.mono fun _ _ => trivial) rest'

lemma Heads.opens (h : Heads header hs) : Spells header.toList hs (Ends [' ']) :=
  h.spells.mono fun _ hnext => hnext.mono (by decide)

lemma withBody_spells (hh : Heads header hs)
    (hb : BodySpell (bodyLevel level body) body lines is) :
    StmtSpell level (withBody level header body lines) (hs ++ is) := by
  by_cases hblock : isBlock body = true
  · rw [bodyLevel, if_pos hblock] at hb
    exact withBlock_spells hh.opens hh.starts hblock hb
  · rw [withBody, if_neg hblock]
    exact .mk hh.ne_empty hh.ne_brace hh.line hb.spell.lines

lemma closingLine_spells (level : Nat) : LinesSpell [indented level "\x7d"] [Item.mark "\x7d"] :=
  .single (indented_spells (closing_spells _) level)

lemma braced_spells (hh : Heads header hs) (hl : LinesSpell lines is) :
    StmtSpell level (braced level header lines) (hs ++ Item.braced is) := by
  obtain ⟨x, hx, ne_empty, ne_brace, hopen⟩ := openBrace_spells hh.opens hh.starts level
  have h : StmtSpell level _ _ := .mk ne_empty ne_brace (hopen.mono fun _ _ => trivial)
    (hl.append (closingLine_spells level))
  rw [List.append_assoc] at h
  rw [braced, hx]
  exact h

lemma withBranch_spells {thenStmt : Node} {elseStmt : Option Node} (hh : Heads header hs)
    (hb : BodySpell (thenLevel level thenStmt elseStmt) thenStmt lines is) :
    StmtSpell level (withBranch level header thenStmt elseStmt lines)
      (hs ++ if needsBraces thenStmt elseStmt then Item.braced is else is) := by
  rw [withBranch]
  rw [thenLevel] at hb
  split
  · exact braced_spells hh hb.spell.lines
  · rename_i hneeds
    rw [if_neg hneeds] at hb
    exact withBody_spells hh hb

lemma labelLines_spells {label : String} (hlabel : IsName label) {ls : List String}
    (h : StmtSpell level ls is) : ∃ ls', labelLines level label ls = .ok ls' ∧
      StmtSpell level ls' (Item.name label :: Item.mark ":" :: is) := by
  cases h with
  | @mk x ls is js ne_empty ne_brace first rest =>
    have hdrop : String.ofList ((indented level x).toList.drop (4 * level)) = x := by
      rw [indented_of_ne ne_empty, String.toList_append, toList_indentation,
        List.drop_left' (List.length_replicate), String.ofList_toList]
    obtain ⟨c, cs, hcs, hc⟩ := isName_start hlabel
    have hne : ∀ (y : String) (d : Char), y.toList = [d] → isIdentStart d = false →
        label ++ ": " ++ x ≠ y := by
      intro y d hy hd heq
      have hlist := congrArg String.toList heq
      rw [String.toList_append, String.toList_append, hcs, hy] at hlist
      obtain ⟨rfl, -⟩ := List.cons.inj hlist
      rw [hc] at hd
      cases hd
    have hempty : label ++ ": " ++ x ≠ "" := by
      intro heq
      have hlist := congrArg String.toList heq
      rw [String.toList_append, String.toList_append, hcs] at hlist
      cases hlist
    have hcolon : Spells ":".toList [Item.mark ":"] fun _ => True := Spells.solo (by decide) _
    have hspells : Spells (label ++ ": " ++ x).toList
        ([Item.name label] ++ ([Item.mark ":"] ++ is)) (Ends ['\n']) := by
      rw [String.toList_append, String.toList_append, List.append_assoc]
      exact (Spells.name hlabel).append_cons (hcolon.followedBy first.space)
        (by rintro c ⟨⟩; decide)
    refine ⟨_, rfl, ?_⟩
    have h : StmtSpell level _ _ := .mk hempty (hne "\x7d" '\x7d' rfl (by decide)) hspells rest
    rw [indented_of_ne hempty] at h
    rw [hdrop]
    simpa [String.append_assoc] using h

end

lemma heads_word {w : String} (hw : w ∈ reservedWords) : Heads w [Item.word w] where
  spells := (Spells.word hw).mono fun _ => Ends.wordEnds (forall_mem_of_all (by decide))
  starts := by
    have key : ∀ w ∈ reservedWords, (w.toList.head?.any fun c => !isBlank c) = true := by decide
    have h := key w hw
    cases hcs : w.toList with
    | nil => rw [hcs] at h; cases h
    | cons c cs => exact ⟨c, cs, rfl, by simpa [hcs] using h⟩
  ne_brace := by
    rintro rfl
    revert hw
    decide

lemma Heads.behind {w header : String} {is : List Item} (h : Heads header is)
    (hw : w ∈ reservedWords) : Heads (w ++ " " ++ header) (Item.word w :: is) := by
  obtain ⟨c, cs, hcs, hblank⟩ := (heads_word hw).starts
  refine ⟨?_, ⟨c, cs ++ (" ".toList ++ header.toList), ?_, hblank⟩, fun heq => ?_⟩
  · rw [String.toList_append, String.toList_append, List.append_assoc]
    exact (Spells.word hw).append_cons h.spells.space (by rintro c ⟨⟩; decide)
  · rw [String.toList_append, String.toList_append, hcs, List.append_assoc]
    rfl
  · have hlist := congrArg (List.length ∘ String.toList) heq
    have hpos : 0 < header.toList.length := by
      obtain ⟨d, ds, hds, -⟩ := h.starts
      rw [hds]
      exact Nat.succ_pos _
    simp only [Function.comp_apply, String.toList_append, List.length_append, hcs,
      List.length_cons] at hlist
    simp at hlist
    omega

lemma parenthesized_spells {w : String} (hw : w ∈ reservedWords) {s : String} {is : List Item}
    {ends : List Char} (h : Spells s.toList is (Ends ends)) (hends : ')' ∈ ends)
    (next : Option Char → Prop) :
    Spells (w ++ " (" ++ s ++ ")").toList (Item.word w :: Item.parenthesized is) next := by
  have hparens : Spells ("(".toList ++ s.toList ++ ")".toList) (Item.parenthesized is) next :=
    Spells.enclosed next (by decide) (by decide) h (by simpa using hends)
  have hspells := (Spells.wordSpace hw).followedBy hparens
  have hlist : (w ++ " (" ++ s ++ ")").toList =
      w.toList ++ [' '] ++ ("(".toList ++ s.toList ++ ")".toList) := by
    simp only [String.toList_append, List.append_assoc]
    rfl
  rw [hlist]
  exact hspells

lemma heads_parenthesized {w : String} (hw : w ∈ reservedWords) {s : String} {is : List Item}
    {ends : List Char} (h : Spells s.toList is (Ends ends)) (hends : ')' ∈ ends) :
    Heads (w ++ " (" ++ s ++ ")") (Item.word w :: Item.parenthesized is) := by
  obtain ⟨c, cs, hcs, hblank⟩ := (heads_word hw).starts
  refine ⟨parenthesized_spells hw h hends _, ⟨c, cs ++ (" (".toList ++ (s.toList ++ ")".toList)),
    ?_, hblank⟩,
    fun heq => ?_⟩
  · simp only [String.toList_append, List.append_assoc, hcs, List.cons_append]
  · have hlast := congrArg (List.getLast? ∘ String.toList) heq
    rw [Function.comp_apply, String.toList_append, List.getLast?_append] at hlast
    cases hlast

lemma Heads.ended {header : String} {is : List Item} {ends : List Char}
    (h : Heads header is) (hs : Spells header.toList is (Ends ends)) (hends : ';' ∈ ends) :
    Heads (header ++ ";") (is ++ [Item.mark ";"]) := by
  obtain ⟨c, cs, hcs, hblank⟩ := h.starts
  refine ⟨?_, ⟨c, cs ++ [';'], by rw [String.toList_append, hcs]; rfl, hblank⟩, ?_⟩
  · rw [String.toList_append]
    exact hs.followed (Spells.solo (m := ";") (by decide) _) (by simpa using hends)
  · intro heq
    have hlast := congrArg (List.getLast? ∘ String.toList) heq
    rw [Function.comp_apply, String.toList_append, List.getLast?_append] at hlast
    cases hlast

lemma StmtSpell.ended {s : String} {is : List Item} {ends : List Char} (level : Nat)
    (h : Spells s.toList is (Ends ends)) (hends : ';' ∈ ends) :
    StmtSpell level [indented level (s ++ ";")] (is ++ [Item.mark ";"]) := by
  have hne : ∀ y : String, y.toList.getLast? ≠ some ';' → s ++ ";" ≠ y := by
    rintro y hy rfl
    rw [String.toList_append, List.getLast?_append] at hy
    exact hy rfl
  refine .single level (hne _ (by decide)) (hne _ (by decide)) ?_
  rw [String.toList_append]
  exact h.followed (Spells.solo (m := ";") (by decide) _) (by simpa using hends)

end Layout

end LoopLowering
