import LoopLowering.Proofs.Layout.Fitting
import LoopLowering.Proofs.Layout.Items
import LoopLowering.Proofs.Token.Quoted
import Mathlib.Data.List.Forall2
import Mathlib.Tactic.FinCases

/-! The pieces from which source text is put together, and the items that they spell: names,
brackets, operators, and lists with a separator. -/

namespace LoopLowering

open Layout Token Text

def Ends (cs : List Char) (next : Option Char) : Prop := ∀ c, next = some c → c ∈ cs

def exprEnds : List Char := [' ', ')', ']', ',', ';', '\x7d', '[', '+', '-']

def operandEnds : List Char := '.' :: exprEnds

def typeEnds : List Char := '>' :: '(' :: operandEnds

namespace Spells

variable {cs ds : List Char} {is js : List Item} {ends : List Char} {after : Option Char → Prop}

lemma followed (ha : Spells cs is (Ends ends)) (hb : Spells ds js after)
    (h : ds.head?.any ends.contains = true) : Spells (cs ++ ds) (is ++ js) after := by
  cases ds with
  | nil => cases h
  | cons d ds =>
    refine ha.append hb fun rest _ c hc => ?_
    cases hc
    simpa using h

lemma followedBy (ha : Spells cs is fun _ => True) (hb : Spells ds js after) :
    Spells (cs ++ ds) (is ++ js) after := ha.append hb fun _ _ => trivial

lemma space (h : Spells cs is after) : Spells (' ' :: cs) is after :=
  (blank (c := ' ') rfl fun _ => True).followedBy h

lemma spaced {m : String} (hm : m ∈ marks) :
    Spells (' ' :: m.toList ++ [' ']) [Item.mark m] fun _ => True :=
  (mark hm).space.append_cons (blank (c := ' ') rfl _) (markEnds_space m hm)

lemma wordSpace {w : String} (hw : w ∈ reservedWords) :
    Spells (w.toList ++ [' ']) [Item.word w] fun _ => True :=
  (word hw).append_cons (blank (c := ' ') rfl _) (by rintro c ⟨⟩; decide)

lemma enclosed {l r : String} (after : Option Char → Prop) (hl : l ∈ soloMarks) (hr : r ∈ soloMarks)
    (hs : Spells cs is (Ends ends)) (h : r.toList.head?.any ends.contains = true) :
    Spells (l.toList ++ cs ++ r.toList) (Item.mark l :: is ++ [Item.mark r]) after :=
  ((solo hl fun _ => True).followedBy hs).followed (solo hr _) h

lemma separated {s : List Char} {l : List Item} (hsep : Spells s l fun _ => True)
    (h : s.head?.any ends.contains = true) {css : List (List Char)} {iss : List (List Item)}
    (hs : List.Forall₂ (fun cs is => Spells cs is (Ends ends)) css iss) :
    Spells (s.intercalate css) (l.intercalate iss) (Ends ends) := by
  induction hs with
  | nil => exact nil _
  | @cons cs is css iss hc hs ih =>
    cases hs with
    | nil => simpa using hc
    | cons hd hs =>
      rw [List.intercalate_cons_cons, List.intercalate_cons_cons, List.append_assoc,
        List.append_assoc]
      refine hc.followed (hsep.followedBy ih) ?_
      cases s with
      | nil => cases h
      | cons => exact h

end Spells

lemma Ends.wordEnds {cs : List Char} (h : ∀ c ∈ cs, isIdentPart c = false) {next : Option Char}
    (hnext : Ends cs next) : WordEnds next := fun c hc => h c (hnext c hc)

lemma Ends.numberEnds {next : Option Char} (hnext : Ends exprEnds next) : NumberEnds next := by
  have key : ∀ c ∈ exprEnds, isDecimal c = false ∧ c ≠ '_' ∧ c ≠ '.' ∧ c ≠ 'e' ∧ c ≠ 'E' ∧
      c ∉ floatSuffix ∧ c ≠ 'l' ∧ c ≠ 'L' ∧ c ∉ ['x', 'X'] ∧ c ∉ ['b', 'B'] :=
    forall_mem_of_all (by decide)
  exact fun c hc => key c (hnext c hc)

structure Written (cs : List Char) (is : List Item) (ends : List Char) : Prop where
  spells : Spells cs is (Ends ends)
  starts : ∃ c cs', cs = c :: cs' ∧ c ∉ ['=', '<']

namespace Written

variable {cs ds : List Char} {is js : List Item} {ends ends' : List Char}

lemma mono {l : List Char} (h : Written cs is l) (hsub : ends' ⊆ l) : Written cs is ends' :=
  ⟨h.spells.mono fun _ hc c hd => hsub (hc c hd), h.starts⟩

lemma followed (ha : Written cs is ends) (hb : Spells ds js (Ends ends'))
    (h : ds.head?.any ends.contains = true) : Written (cs ++ ds) (is ++ js) ends' := by
  obtain ⟨c, cs', rfl, hc⟩ := ha.starts
  exact ⟨ha.spells.followed hb h, c, cs' ++ ds, rfl, hc⟩

end Written

lemma IsName.ofText {x : String} (hx : IsName x) : Item.ofText x = Item.name x :=
  if_neg (by simpa using hx.2)

lemma Item.ofText_word {w : String} (hw : w ∈ reservedWords) : Item.ofText w = Item.word w :=
  if_pos (by simpa using hw)

lemma Item.ofModifier_word {w : String} (hw : w ∈ reservedWords) :
    Item.ofModifier (.text w) = [Item.word w] := by
  obtain ⟨c, cs, hcs, hc, -⟩ := reservedWords_isWord w hw
  rw [Item.ofModifier]
  split
  · rename_i heq
    obtain ⟨rfl, -⟩ := List.cons.inj (hcs.symm.trans heq)
    exact absurd hc (by decide)
  · rw [Item.ofText_word hw]

lemma Item.ofModifier_annotation (x : String) :
    Item.ofModifier (.text ("@" ++ x)) = Item.mark "@" :: Item.ofName x := by
  have hlist : ("@" ++ x).toList = '@' :: x.toList := by rw [String.toList_append]; rfl
  simp only [Item.ofModifier, hlist, String.ofList_toList]

lemma isName_start {x : String} (hx : IsName x) :
    ∃ c cs, x.toList = c :: cs ∧ isIdentStart c = true := by
  obtain ⟨⟨c, cs, hcs, hc, -⟩, -⟩ := hx
  exact ⟨c, cs, hcs, hc⟩

lemma markEnds_dot {c : Char} (hc : isIdentStart c = true) : MarkEnds "." (some c) := by
  have key : ∀ d ∈ continuations ".", d = '.' := forall_mem_of_all (by decide)
  obtain ⟨hliteral, -, hdot⟩ := startsNoLiteral_of_identStart hc
  rintro _ ⟨⟩
  exact ⟨joins_eq_false fun h => hdot (key c h), fun h => absurd h (by decide),
    fun _ => hliteral.decimal⟩

lemma Spells.dotted {cs : List Char} {is : List Item} {x : String} {ends : List Char}
    (h : Spells cs is (Ends ends)) (hends : '.' ∈ ends) (hx : IsName x) :
    Spells (cs ++ '.' :: x.toList) (is ++ [Item.mark ".", Item.name x]) WordEnds := by
  obtain ⟨c, cs', hcs, hc⟩ := isName_start hx
  have hname := Spells.name hx
  rw [hcs] at hname ⊢
  have hdot : Spells ('.' :: c :: cs') ([Item.mark "."] ++ [Item.name x]) WordEnds :=
    (Spells.mark (m := ".") (by decide)).append_cons hname (markEnds_dot hc)
  exact h.append_cons hdot fun d hd => by cases hd; exact hends

lemma Spells.names {ps : List (List Char)} (hps : ∀ p ∈ ps, IsName (String.ofList p))
    (hne : ps ≠ []) : Spells (['.'].intercalate ps)
      ([Item.mark "."].intercalate (ps.map fun p => [Item.ofText (String.ofList p)])) WordEnds := by
  induction ps with
  | nil => exact absurd rfl hne
  | cons p ps ih =>
    have hp := hps p List.mem_cons_self
    have hname := Spells.name hp
    rw [String.toList_ofList] at hname
    rw [List.map_cons, IsName.ofText hp]
    cases ps with
    | nil => simpa using hname
    | cons q qs =>
      have hq := hps q (by simp)
      obtain ⟨c, cs, hcs, hc⟩ := isName_start hq
      rw [String.toList_ofList] at hcs
      have hrest := ih (fun r hr => hps r (List.mem_cons_of_mem p hr)) (by simp)
      have hdot : Spells (['.'] ++ ['.'].intercalate (q :: qs)) _ WordEnds :=
        (Spells.mark (m := ".") (by decide)).append hrest fun rest _ => by
          have : (['.'].intercalate (q :: qs) ++ rest).head? = some c := by
            cases qs with
            | nil => simp [hcs]
            | cons => simp [List.intercalate_cons_cons, hcs]
          rw [this]
          exact markEnds_dot hc
      rw [List.intercalate_cons_cons, List.map_cons, List.intercalate_cons_cons, List.append_assoc,
        List.append_assoc]
      exact hname.append hdot fun rest _ c hc => by cases hc; decide

lemma Spells.qualified {x : String} (hx : IsQualified x) :
    Spells x.toList (Item.ofName x) WordEnds := by
  have h := Spells.names hx (List.splitOn_ne_nil '.' x.toList)
  rwa [List.intercalate_splitOn] at h

lemma primitiveNames_reserved : ∀ x ∈ primitiveNames, x ∈ reservedWords ∧
    Item.ofName x = [Item.word x] := by
  have key : ∀ x ∈ primitiveNames, x ∈ reservedWords ∧ x.toList.splitOn '.' = [x.toList] := by
    decide
  intro x hx
  obtain ⟨hmem, hsplit⟩ := key x hx
  refine ⟨hmem, ?_⟩
  rw [Item.ofName, hsplit, List.map_singleton, String.ofList_toList, Item.ofText_word hmem]
  rfl

lemma Spells.brackets (d : Nat) (next : Option Char → Prop) :
    Spells (Layout.brackets d).toList (Item.brackets d) next := by
  rw [Layout.brackets, String.toList_join]
  induction d with
  | zero => exact Spells.nil next
  | succ d ih =>
    rw [List.replicate_succ, List.flatMap_cons, Item.brackets, List.replicate_succ,
      List.flatten_cons]
    have hopen : Spells ("[".toList ++ "]".toList) [Item.mark "[", Item.mark "]"] fun _ => True :=
      (Spells.solo (by decide) _).followedBy (Spells.solo (by decide) _)
    exact hopen.followedBy ih

lemma Written.brackets {cs : List Char} {is : List Item} {ends ends' : List Char}
    (h : Written cs is ends) (hopen : '[' ∈ ends) (hsub : ends' ⊆ ends) (d : Nat) :
    Written (cs ++ (Layout.brackets d).toList) (is ++ Item.brackets d) ends' := by
  obtain ⟨c, cs', rfl, hc⟩ := h.starts
  refine ⟨h.spells.append (Spells.brackets d _) fun rest hrest => ?_, c, _, rfl, hc⟩
  cases d with
  | zero => exact fun e he => hsub (hrest e he)
  | succ d =>
    rw [Layout.brackets, String.toList_join]
    rintro e ⟨⟩
    exact hopen

lemma binary_symbol_mem : ∀ op ∈ BinaryOp.known, op.symbol ∈ marks ∨ op = .shiftRight ∨
    op = .shiftRightUnsigned := by
  decide

lemma assign_symbol_mem : ∀ op ∈ assignable, (AssignOp.compound op).symbol ∈ marks ∨ op = .shiftRight ∨
    op = .shiftRightUnsigned := by
  decide

lemma markEnds_greater {next : Option Char} (h : next ≠ some '=') : MarkEnds ">" next := by
  have key : ∀ d ∈ continuations ">", d = '=' := forall_mem_of_all (by decide)
  refine markEnds_of_notMem (fun c hc hmem => h ?_) (by decide) (by decide)
  rw [Option.mem_def.mp hc, key c hmem]

lemma markEnds_less {c : Char} (h : c ∉ ['=', '<']) : MarkEnds "<" (some c) := by
  have key : ∀ d ∈ continuations "<", d ∈ ['=', '<'] := forall_mem_of_all (by decide)
  refine markEnds_of_notMem ?_ (by decide) (by decide)
  rintro d ⟨⟩ hmem
  exact h (key c hmem)

lemma lexemeAt_closer {rest : List Char} (h : rest.head? ≠ some '=') :
    lexemeAt '>' rest = .token (.mark ">") (.text ">") 1 :=
  lexemeAt_mark (m := ">") (by decide) (show _ = '>' :: [] from rfl) (markEnds_greater h)

lemma Spells.shift {m : String} (hm : m ∈ [">", ">="]) :
    Spells ('>' :: m.toList) [Item.mark ">", Item.gluedMark m] (Ends [' ']) ∧
    Spells ('>' :: '>' :: m.toList) [Item.mark ">", Item.gluedMark ">", Item.gluedMark m]
      (Ends [' ']) := by
  obtain ⟨hmem, cs, hcs⟩ : m ∈ marks ∧ ∃ cs, m.toList = '>' :: cs := by
    fin_cases hm
    · exact ⟨by decide, [], rfl⟩
    · exact ⟨by decide, ['='], rfl⟩
  rw [hcs]
  have hlast : SpellsAtOnce ('>' :: cs) [Item.gluedMark m] (Ends [' ']) :=
    .token true fun rest hrest => lexemeAt_mark hmem hcs fun c hc => by
      obtain rfl := List.mem_singleton.mp (hrest c hc)
      exact markEnds_space m hmem _ rfl
  have hnext : ∀ rest : List Char, Ends [' '] rest.head? →
      lexemeAt '>' ('>' :: cs ++ rest) = .token (.mark ">") (.text ">") 1 :=
    fun rest _ => lexemeAt_closer (by simp)
  have htwo : SpellsAtOnce ('>' :: '>' :: cs) [Item.gluedMark ">", Item.gluedMark m]
      (Ends [' ']) := .cons true hnext hlast
  constructor
  · exact (hlast.cons false hnext).spells (by rintro j ⟨⟩; rfl)
  · exact (htwo.cons false fun rest _ => lexemeAt_closer (by simp)).spells (by rintro j ⟨⟩; rfl)

lemma Spells.markSpace {m : String} (hm : m ∈ marks) :
    Spells m.toList [Item.mark m] (Ends [' ']) :=
  (Spells.mark hm).mono fun c hc d hd => by
    obtain rfl := List.mem_singleton.mp (hc d hd)
    exact markEnds_space m hm _ rfl

lemma Spells.binaryOp {op : BinaryOp} (hop : op ∈ BinaryOp.known) :
    Spells op.symbol.toList (Item.ofBinary op) (Ends [' ']) := by
  have hmarks := binary_symbol_mem op hop
  cases op with
  | shiftRight => exact (Spells.shift (m := ">") (by decide)).1
  | shiftRightUnsigned => exact (Spells.shift (m := ">") (by decide)).2
  | other x => simp [BinaryOp.known] at hop
  | _ => exact Spells.markSpace (by simpa using hmarks)

lemma Spells.assignOp {op : AssignOp} (hop : op.Known) :
    Spells op.symbol.toList (Item.ofAssign op) (Ends [' ']) := by
  cases op with
  | plain => exact Spells.markSpace (m := "=") (by decide)
  | other x => cases hop
  | compound op =>
    have hmarks := assign_symbol_mem op hop
    cases op with
    | shiftRight => exact (Spells.shift (m := ">=") (by decide)).1
    | shiftRightUnsigned => exact (Spells.shift (m := ">=") (by decide)).2
    | other x => simp [AssignOp.Known, assignable] at hop
    | _ => exact Spells.markSpace (by simpa using hmarks)

end LoopLowering
