import LoopLowering.Proofs.Grammar.Rereading
import LoopLowering.Proofs.Grammar.Totality
import LoopLowering.Proofs.Grammar.VariableReading

/-! Statements are read from their items, up to the numbers of their lines. An `else` goes to the
conditional that it stands behind, and clauses that catch exceptions to their `try`. -/

namespace LoopLowering.Grammar

open Layout

structure Remaining (ts : List Token) : Prop where
  genuine : Genuine ts
  ended : Ended ts

namespace Remaining

variable {t : Token} {ts us : List Token}

lemma tail (h : Remaining (t :: ts)) (ht : t.kind ≠ .finish) : Remaining ts :=
  ⟨(List.forall_mem_cons.mp h.genuine).2, h.ended.tail ht⟩

lemma right (h : Remaining (us ++ ts)) (hts : ts ≠ []) : Remaining ts := by
  induction us with
  | nil => exact h
  | cons u us ih =>
    refine ih (h.tail fun hu => hts ?_)
    exact (List.append_eq_nil_iff.mp (h.ended.eq_nil hu)).2

lemma suffix (h : Remaining ts) (hus : us <:+ ts) (hne : us ≠ []) : Remaining us := by
  obtain ⟨vs, rfl⟩ := hus
  exact h.right hne

lemma of_tokenize {source : String} (h : tokenize source = .ok ts) : Remaining (closed source ts) where
  genuine := List.forall_mem_append.mpr
    ⟨genuine_of_tokenize h, List.forall_mem_singleton.mpr trivial⟩
  ended := ended_closed h

end Remaining

lemma realizes_parenthesized {is : List Item} {us : List Token}
    (h : Realizes (Item.parenthesized is) us) : ∃ l vs r, us = l :: (vs ++ [r]) ∧
      l.kind = lparen ∧ Realizes is vs ∧ r.kind = rparen := by
  obtain ⟨l, us, rfl, hl, -, h⟩ := h.of_mark
  obtain ⟨vs, ur, rfl, hvs, h⟩ := h.of_append
  obtain ⟨r, ur, rfl, hr, -, h⟩ := h.of_mark
  cases h
  exact ⟨l, vs, r, rfl, hl, hvs, hr⟩

lemma realizes_braced {is : List Item} {us : List Token} (h : Realizes (Item.braced is) us) :
    ∃ l vs r, us = l :: (vs ++ [r]) ∧ l.kind = lbrace ∧ Realizes is vs ∧ r.kind = rbrace := by
  obtain ⟨l, us, rfl, hl, -, h⟩ := h.of_mark
  obtain ⟨vs, ur, rfl, hvs, h⟩ := h.of_append
  obtain ⟨r, ur, rfl, hr, -, h⟩ := h.of_mark
  cases h
  exact ⟨l, vs, r, rfl, hl, hvs, hr⟩

lemma realizes_semicolon {is : List Item} {us : List Token}
    (h : Realizes (is ++ [Item.mark ";"]) us) :
    ∃ vs c, us = vs ++ [c] ∧ Realizes is vs ∧ c.kind = semicolon := by
  obtain ⟨vs, uc, rfl, hvs, h⟩ := h.of_append
  obtain ⟨c, uc, rfl, hc, -, h⟩ := h.of_mark
  cases h
  exact ⟨vs, c, rfl, hvs, hc⟩

section

variable {n : Nat} {us : List Token}

lemma parenthesized_items {c : Node} (hc : ExprTree Legible false c) (rest : List Token)
    (h : Realizes (Item.parenthesized c.items) us) (hn : 16 * (us ++ rest).length ≤ n) :
    parenthesized n (us ++ rest) = .ok (c, rest) := by
  obtain ⟨l, uc, r, rfl, hl, huc, hr⟩ := realizes_parenthesized h
  simp only [List.cons_append, List.length_cons, List.length_append, List.length_nil] at hn
  obtain ⟨n, rfl⟩ : ∃ m, n = m + 1 := ⟨n - 1, by omega⟩
  have hexpr := (reads_of_tree hc).expr (n := n) (r :: rest) huc
    (by simp only [List.length_append, List.length_cons]; omega)
    (by rw [headKind_cons, hr]; decide)
  rw [parenthesized, List.cons_append, bind_of_ok (expect_yes hl (by decide)), List.append_assoc,
    List.singleton_append, bind_of_ok hexpr, bind_of_ok (expect_yes hr (by decide))]
  rfl

lemma exprList_items {es : List Node} (hes : ∀ e ∈ es, ExprTree Legible false e) (hne : es ≠ [])
    (rest : List Token) (h : Realizes (Item.listed (es.map Node.items)) us)
    (hn : 16 * (us ++ rest).length + 16 ≤ n) (hrest : headKind rest ∈ [semicolon, rparen]) :
    exprList n (us ++ rest) = .ok (es, rest) := by
  refine list_items (f := exprList) (g := expr) (m := ",") (c := 15) (q := (· ∈ [semicolon, rparen]))
    (fun n => by rw [exprList]; rfl) (by decide) (fun e he n us rest hus hn hrest => ?_) hne rest h
    hn hrest
  refine (reads_of_tree (hes e he)).expr rest hus hn ?_
  have key : ∀ k ∈ [semicolon, rparen], k ∈ closing := by decide
  rcases hrest with hrest | hrest
  · rw [hrest]
    decide
  · exact key _ hrest

lemma expr_start {e : Node} (he : ExprTree Legible false e) (h : Realizes e.items us)
    (rest : List Token) : StartsExpr (headKind (us ++ rest)) := by
  obtain ⟨i, is, hi, hstart⟩ := (reads_of_tree he).start
  rwa [headKind_items h (by rw [hi]; rfl)]

lemma ne_of_startsExpr {k l : TokenKind} (h : StartsExpr k) (hl : ¬ StartsExpr l) : k ≠ l :=
  fun heq => hl (heq ▸ h)

lemma optionalExpr_items {o : Option Node} (ho : ∀ e ∈ o, ExprTree Legible false e)
    (rest : List Token) (h : Realizes ((o.map Node.items).getD []) us)
    (hn : 16 * (us ++ rest).length + 15 ≤ n) (hrest : headKind rest = semicolon) :
    optionalExpr semicolon n (us ++ rest) = .ok (o, rest) := by
  rw [optionalExpr]
  cases o with
  | none =>
    cases h
    rw [List.nil_append, bind_of_ok (check_yes hrest), if_pos rfl]
    rfl
  | some e =>
    have he := ho e rfl
    have hno : headKind (us ++ rest) ≠ semicolon :=
      ne_of_startsExpr (expr_start he h rest) (by simp [StartsExpr, semicolon])
    have hexpr := (reads_of_tree he).expr (n := n) rest h hn (by rw [hrest]; decide)
    rw [bind_of_ok (check_no hno), if_neg (by simp)]
    exact map_of_ok hexpr

lemma jumpLabel_items {o : Option String} (rest : List Token)
    (h : Realizes (o.map Item.name).toList us) (hrest : headKind rest = semicolon) :
    jumpLabel (us ++ rest) = .ok (o, rest) := by
  rw [jumpLabel]
  cases o with
  | none =>
    cases h
    rw [List.nil_append, bind_of_ok (check_no (by rw [hrest]; decide)), if_neg (by simp)]
    rfl
  | some x =>
    obtain ⟨t, us, rfl, ht, hx, h⟩ := Realizes.of_name (x := x) (l := []) h
    cases h
    rw [List.singleton_append, bind_of_ok (check_yes (l := t :: rest) ht), if_pos rfl,
      bind_of_ok (advance_cons (by simp [ht])), hx]
    rfl

end

lemma not_declaration {v : Bool} {e : Node} (h : ExprTree Legible v e) :
    e.shape.isDeclaration = false := by
  cases h <;> rfl

lemma Apart.not_declares {is : List Item} (h : Apart is) {us : List Token} (hus : Realizes is us)
    (rest : List Token) : ¬ Declares ((us ++ rest).map Token.face) := by
  have hfaces : (us ++ rest).map Token.face =
      (is ++ rest.map fun t => (⟨t.kind, t.value, false⟩ : Item)).map Item.face := by
    rw [List.map_append, List.map_append, hus.shows, List.map_map]
    rfl
  rw [hfaces]
  exact h _

lemma startsExpr_no_modifier {k : TokenKind} (h : StartsExpr k) :
    k ∉ [.word "final", .mark "@"] := by
  intro hmem
  fin_cases hmem <;> simp [StartsExpr] at h

def localStarts : List TokenKind := .word "final" :: .mark "@" :: .ident :: primitiveTypes

lemma localVar_start {d : Node} (h : LocalVarTree Legible d) :
    ∃ i is, d.items = i :: is ∧ i.kind ∈ localStarts := by
  cases h with
  | @mk t mods ty ds modifiers type nonempty declarators here =>
    obtain ⟨i, hi, hkind⟩ := typeTree_start type
    obtain ⟨j, hj, hjkind⟩ := modifiers_start (by decide) modifiers
      (head?_append_of hi (Item.listed (ds.map Node.items)))
    obtain ⟨js, hjs⟩ := List.head?_eq_some_iff.mp hj
    refine ⟨j, js, by rw [Node.items_localVar, hjs], ?_⟩
    have htype : i.kind ∈ localStarts := by
      refine List.mem_cons_of_mem _ (List.mem_cons_of_mem _ ?_)
      simpa using hkind
    have key : ∀ k ∈ .mark "@" :: localModifierNames.map TokenKind.word, k ∈ localStarts := by
      decide
    exact hjkind.elim (fun heq => heq ▸ htype) (key _)

lemma forInit_items {init : List Node} (hinit : ForInit Legible init)
    (hsep : ∀ e ∈ init, e.shape.isDeclaration = false → isStatementExpr e = true) {n : Nat}
    {us : List Token} (rest : List Token) (h : Realizes (Item.listed (init.map Node.items)) us)
    (hn : 16 * (us ++ rest).length + 17 ≤ n) (hrest : headKind rest = semicolon)
    (hall : Remaining (us ++ rest)) :
    forEachHead n (us ++ rest) = .ok (none, us ++ rest) ∧ forInit n (us ++ rest) = .ok (init, rest) := by
  obtain ⟨n, rfl⟩ : ∃ m, n = m + 1 := ⟨n - 1, by omega⟩
  have hstop : semicolon ∉ .ident :: primitiveTypes ∧ semicolon ∉ [.word "final", .mark "@"] := by
    decide
  rw [forInit]
  rcases hinit with ⟨d, rfl, hd⟩ | hexprs
  · rw [List.map_singleton, listed_singleton] at h
    obtain ⟨i, is, hi, hkind⟩ := localVar_start hd
    have hno : headKind (us ++ rest) ≠ semicolon := by
      rw [headKind_items h (by rw [hi]; rfl)]
      exact fun heq => absurd (heq ▸ hkind) (by decide)
    have hvar := localVar?_items hd (n := n) rest h (by omega) hrest
    refine ⟨forEachHead_localVar hd rest h (by omega) hrest, ?_⟩
    rw [bind_of_ok (check_no hno), if_neg (by simp), bind_of_ok hvar]
    rfl
  cases init with
  | nil =>
    cases h
    refine ⟨forEachHead_none hall.genuine hall.ended (by omega) (fun h => hstop.1 ?_) ?_, ?_⟩
    · exact hrest ▸ headKind_of_declares h
    · exact hrest ▸ hstop.2
    · rw [List.nil_append, bind_of_ok (check_yes hrest), if_pos rfl]
      rfl
  | cons e es =>
    have he := hexprs e List.mem_cons_self
    have hapart := statementExpr_apart he (hsep e List.mem_cons_self (not_declaration he))
    have hno : ¬ Declares ((us ++ rest).map Token.face) := by
      have hapart : Apart (Item.listed ((e :: es).map Node.items)) := by
        rw [Item.listed, Item.separated, List.map_cons, intercalate_cons]
        exact hapart.append _
      exact Apart.not_declares hapart h rest
    have hstart : StartsExpr (headKind (us ++ rest)) := by
      obtain ⟨i, is, hi, hstart⟩ := (reads_of_tree he).start
      rwa [headKind_items h (head?_separated (i := i) (by rw [hi]; rfl) _)]
    have hmodifier := startsExpr_no_modifier hstart
    refine ⟨forEachHead_none hall.genuine hall.ended (by omega) hno hmodifier, ?_⟩
    have hnone := localVar?_none hall.genuine hall.ended (n := n) (by omega) hno hmodifier
    have hlist := exprList_items hexprs (by simp) (n := n) rest h (by omega) (by rw [hrest]; decide)
    rw [bind_of_ok (check_no (ne_of_startsExpr hstart (by simp [StartsExpr, semicolon]))), if_neg (by simp),
      bind_of_ok hnone]
    exact hlist

structure Follows (s : Node) (rest : List Token) : Prop where
  openIf : s.endsOpen = true → headKind rest ≠ .word "else"
  handler : headKind rest ∉ [.word "catch", .word "finally"]
  nonempty : rest ≠ []

def stmtStops : List TokenKind :=
  [rbrace, .finish, .word "else", .word "catch", .word "finally"]

/-- How a statement is read: alone, and as the body of something that has to have braces. -/
structure ReadsStmt (s : Node) : Prop where
  start : ∃ i is, s.stmtItems = i :: is ∧ i.kind ∉ stmtStops
  read : ∀ ⦃n : Nat⦄ ⦃us : List Token⦄ (rest : List Token), Realizes s.stmtItems us →
    Remaining (us ++ rest) → 16 * (us ++ rest).length + 17 ≤ n → Follows s rest →
      ∃ r, bareStatement n (us ++ rest) = .ok (r, rest) ∧ r.bare = s.bare
  block : isBlock s = true → ∀ ⦃n : Nat⦄ ⦃us : List Token⦄ (rest : List Token),
    Realizes s.stmtItems us → Remaining (us ++ rest) → 16 * (us ++ rest).length + 4 ≤ n →
      ∃ r, block n (us ++ rest) = .ok (r, rest) ∧ r.bare = s.bare

lemma bare_atLine (line : Nat) (s : Node) : (atLine line s).bare = s.bare := by
  obtain ⟨t, s⟩ := s
  rw [atLine, Node.bare_mk, Node.bare_mk]

section

variable {s : Node} {n : Nat} {us : List Token} {rest : List Token}

lemma ReadsStmt.head (h : ReadsStmt s) (hus : Realizes s.stmtItems us) (rest : List Token) :
    headKind (us ++ rest) ∉ stmtStops := by
  obtain ⟨i, is, hi, hkind⟩ := h.start
  rwa [headKind_items hus (by rw [hi]; rfl)]

lemma ReadsStmt.statement (h : ReadsStmt s) (hus : Realizes s.stmtItems us)
    (hall : Remaining (us ++ rest)) (hn : 16 * (us ++ rest).length + 18 ≤ n)
    (hrest : Follows s rest) : ∃ r, statement n (us ++ rest) = .ok (r, rest) ∧ r.bare = s.bare := by
  obtain ⟨n, rfl⟩ : ∃ m, n = m + 1 := ⟨n - 1, by omega⟩
  obtain ⟨r, hr, hbare⟩ := h.read rest hus hall (n := n) (by omega) hrest
  refine ⟨atLine (tokenAt (us ++ rest) 0).line r, ?_, (bare_atLine _ r).trans hbare⟩
  rw [Grammar.statement, bind_of_ok (current_run _), bind_of_ok hr]
  rfl

lemma bareStatement_block (hhead : headKind us = lbrace) :
    bareStatement (n + 1) us = block n us := by
  have hkind : (tokenAt us 0).kind = .mark "\x7b" := hhead
  rw [bareStatement, bind_of_ok (current_run _)]
  simp only [hkind]

lemma blockTail_items {ss : List Node} (hss : ∀ s ∈ ss, ReadsStmt s)
    (h : Realizes (Node.contentItems ss) us) {t : Token} (ht : t.kind = rbrace)
    (hall : Remaining (us ++ t :: rest)) (hn : 16 * (us ++ t :: rest).length + 19 ≤ n) :
    ∃ rs, blockTail n (us ++ t :: rest) = .ok (rs, rest) ∧ rs.map Node.bare = ss.map Node.bare := by
  induction ss generalizing n us with
  | nil =>
    cases h
    obtain ⟨n, rfl⟩ : ∃ m, n = m + 1 := ⟨n - 1, by omega⟩
    refine ⟨[], ?_, rfl⟩
    rw [blockTail, List.nil_append, bind_of_ok (accept_yes ht (by decide)), if_pos rfl]
    rfl
  | cons s ss ih =>
    obtain ⟨hs, hothers⟩ := List.forall_mem_cons.mp hss
    obtain ⟨n, rfl⟩ : ∃ m, n = m + 1 := ⟨n - 1, by omega⟩
    rw [Node.contentItems] at h
    obtain ⟨ua, vs, rfl, ha, hv⟩ := h.of_append
    rw [List.append_assoc] at hall hn ⊢
    have hhead := hs.head ha (vs ++ t :: rest)
    have hstops : headKind (vs ++ t :: rest) ∉ [.word "else", .word "catch", .word "finally"] := by
      cases ss with
      | nil =>
        cases hv
        rw [List.nil_append, headKind_cons, ht]
        decide
      | cons s' ss =>
        rw [Node.contentItems] at hv
        obtain ⟨ub, ws, rfl, hb, -⟩ := hv.of_append
        rw [List.append_assoc]
        have hnext := (hothers s' List.mem_cons_self).head hb (ws ++ t :: rest)
        exact fun hmem => hnext (List.mem_cons_of_mem _ (List.mem_cons_of_mem _ hmem))
    have hne : vs ++ t :: rest ≠ [] := by simp
    obtain ⟨r, hr, hbare⟩ := hs.statement ha hall (n := n) (by omega)
      ⟨fun _ h => hstops (by simp [h]), fun h => hstops (List.mem_cons_of_mem _ h), hne⟩
    have hpos : 0 < ua.length := by
      obtain ⟨i, is, hi, -⟩ := hs.start
      rw [ha.length, hi]
      exact Nat.succ_pos _
    rw [List.length_append] at hn
    obtain ⟨rs, hrs, hbares⟩ := ih hothers hv (hall.right hne) (n := n) (by omega)
    refine ⟨r :: rs, ?_, by rw [List.map_cons, List.map_cons, hbare, hbares]⟩
    rw [blockTail, bind_of_ok (accept_no fun h => hhead (by simp [stmtStops, h])), if_neg (by simp),
      bind_of_ok (check_no fun h => hhead (by simp [stmtStops, h])), if_neg (by simp)]
    dsimp only
    rw [bind_of_ok hr, bind_of_ok hrs]
    rfl

lemma ReadsStmt.of_read (hblock : isBlock s = false)
    (start : ∃ i is, s.stmtItems = i :: is ∧ i.kind ∉ stmtStops)
    (read : ∀ ⦃n : Nat⦄ ⦃us : List Token⦄ (rest : List Token), Realizes s.stmtItems us →
      Remaining (us ++ rest) → 16 * (us ++ rest).length + 17 ≤ n → Follows s rest →
        ∃ r, bareStatement n (us ++ rest) = .ok (r, rest) ∧ r.bare = s.bare) : ReadsStmt s :=
  ⟨start, read, fun h => absurd h (by simp [hblock])⟩

lemma readsStmt_block {t : Tag} {ss : List Node} (hss : ∀ s ∈ ss, ReadsStmt s) :
    ReadsStmt (.mk t (.block ss)) := by
  have hblock : ∀ ⦃n : Nat⦄ ⦃us : List Token⦄ (rest : List Token),
      Realizes (Item.braced (Node.contentItems ss)) us → Remaining (us ++ rest) →
        16 * (us ++ rest).length + 4 ≤ n →
          ∃ r, block n (us ++ rest) = .ok (r, rest) ∧ r.bare = (Node.mk t (.block ss)).bare := by
    intro n us rest h hall hn
    obtain ⟨l, ub, r, rfl, hl, hb, hr⟩ := realizes_braced h
    rw [List.cons_append, List.append_assoc, List.singleton_append] at hall hn ⊢
    rw [List.length_cons] at hn
    obtain ⟨n, rfl⟩ : ∃ m, n = m + 1 := ⟨n - 1, by omega⟩
    obtain ⟨rs, hrs, hbares⟩ := blockTail_items hss hb hr (hall.tail (by rw [hl]; nofun)) (n := n)
      (by omega)
    refine ⟨.plain (.block rs), ?_, ?_⟩
    · rw [block, bind_of_ok (expect_yes hl (by decide)), bind_of_ok hrs]
      rfl
    · rw [Node.plain, Node.bare_mk, Node.bare_mk]
      simp only [Shape.map, Shape.mapAt, mapIdx_const, hbares]
  refine ⟨⟨_, _, rfl, by decide⟩, fun n us rest h hall hn _ => ?_, fun _ n us rest h => hblock rest h⟩
  obtain ⟨n, rfl⟩ : ∃ m, n = m + 1 := ⟨n - 1, by omega⟩
  rw [bareStatement_block (headKind_items h rfl rest)]
  exact hblock rest h hall (by omega)

lemma ReadsStmt.of_word {w : String} {is : List Item} (hblock : isBlock s = false)
    (hitems : s.stmtItems = Item.word w :: is) (hw : .word w ∉ stmtStops)
    (h : ∀ ⦃n : Nat⦄ ⦃t : Token⦄ ⦃us : List Token⦄ (rest : List Token), t.kind = .word w →
      Realizes is us → Remaining (us ++ rest) → 16 * (us ++ rest).length + 32 ≤ n →
        Follows s rest →
          ∃ r, bareStatement (n + 1) (t :: (us ++ rest)) = .ok (r, rest) ∧ r.bare = s.bare) :
    ReadsStmt s := by
  refine .of_read hblock ⟨_, _, hitems, hw⟩ fun n us rest hus hall hn hrest => ?_
  rw [hitems] at hus
  obtain ⟨t, us, rfl, ht, -, hus⟩ := hus.of_word
  rw [List.cons_append, List.length_cons] at hn
  obtain ⟨n, rfl⟩ : ∃ m, n = m + 1 := ⟨n - 1, by omega⟩
  exact h rest ht hus (hall.tail (by rw [ht]; nofun)) (by omega) hrest

lemma bareStatement_simple (h : StartsExpr (headKind us) ∨ headKind us ∈ localStarts)
    (hcolon : headKind us = .ident → (tokenAt us 1).kind ≠ colon) :
    bareStatement (n + 1) us = simpleStatement n us := by
  have hkind : (tokenAt us 0).kind = headKind us := rfl
  rw [bareStatement, bind_of_ok (current_run _)]
  cases hk : headKind us with
  | ident =>
    simp only [hkind, hk]
    rw [bind_of_ok (checkNext_run _ _), decide_eq_false (hcolon hk), if_neg (by simp)]
  | literal k => simp only [hkind, hk]
  | finish =>
    rw [hk] at h
    rcases h with h | h
    · exact h.elim
    · exact absurd h (by decide)
  | word w =>
    rw [hk] at h
    have hw : w ∈ ["true", "false", "null", "this", "super", "new", "final", "boolean", "byte",
        "char", "short", "int", "long", "float", "double"] := by
      rcases h with h | h
      · simp only [StartsExpr, List.mem_cons, List.not_mem_nil, or_false] at h
        rcases h with h | h | h | h | h | h <;> simp [h]
      · simp [localStarts, primitiveTypes] at h
        rcases h with h | h | h | h | h | h | h | h | h <;> simp [h]
    fin_cases hw <;> simp [hkind, hk]
  | mark m =>
    rw [hk] at h
    have hm : m ∈ ["(", "++", "--", "+", "-", "!", "~", "@"] := by
      rcases h with h | h
      · simp only [StartsExpr, List.mem_cons, List.not_mem_nil, or_false] at h
        rcases h with h | h | h | h | h | h | h <;> simp [h]
      · simp [localStarts, primitiveTypes] at h
        simp [h]
    fin_cases hm <;> simp [hkind, hk]

/-- The first name of an expression is no label, as the expression would end behind it. -/
lemma expr_no_label {e : Node} (he : ExprTree Legible false e) (hus : Realizes e.items us)
    (hg : Genuine (us ++ rest)) (hrest : headKind rest = semicolon)
    (hident : headKind (us ++ rest) = .ident) : (tokenAt (us ++ rest) 1).kind ≠ colon := by
  intro hcolon
  have hne : rest ≠ [] := by
    rintro rfl
    cases hrest
  have hpos := (reads_of_tree he).pos hus
  cases us with
  | nil => cases hpos
  | cons t us =>
    have hcons : us ++ rest ≠ [] := by simp [hne]
    rw [List.cons_append, tokenAt_succ hcons] at hcolon
    have hvalue : t.value = .text t.text :=
      congrArg Prod.snd ((List.forall_mem_cons.mp hg).1.name hident).1
    have hone : Realizes (Node.plain (.ident t.text)).items [t] :=
      .cons (i := Item.name t.text) hident hvalue (by simp) .nil
    have hwhole := (reads_of_tree he).expr rest hus (Nat.le_refl _) (by rw [hrest]; decide)
    have hfirst := (reads_ident t.text).expr (n := 16 * (t :: us ++ rest).length + 15) (us ++ rest)
      hone (Nat.le_refl _) (by rw [headKind, hcolon]; decide)
    have heq := (Prod.mk.inj (Except.ok.inj (hwhole.symm.trans hfirst))).2
    rw [← heq, ← headKind, hrest] at hcolon
    exact absurd hcolon (by decide)

lemma readsStmt_exprStmt {t : Tag} {e : Node} (he : ExprTree Legible false e)
    (hsep : ¬ Declares (e.items.map Item.face)) : ReadsStmt (.mk t (.exprStmt e)) := by
  obtain ⟨i, is, hi, hstart⟩ := (reads_of_tree he).start
  have hitems : (Node.mk t (.exprStmt e)).stmtItems = e.items ++ [Item.mark ";"] := by
    rw [Node.stmtItems]
  refine .of_read rfl ⟨i, is ++ [Item.mark ";"], by rw [hitems, hi]; rfl, ?_⟩ ?_
  · intro hmem
    have key : i.kind = rbrace ∨ i.kind = .finish ∨ i.kind = .word "else" ∨
        i.kind = .word "catch" ∨ i.kind = .word "finally" := by simpa [stmtStops] using hmem
    rcases key with h | h | h | h | h <;> simp [h, StartsExpr, rbrace] at hstart
  · intro n us rest hus hall hn hrest
    rw [hitems] at hus
    obtain ⟨ue, c, rfl, hue, hc⟩ := realizes_semicolon hus
    obtain ⟨n, rfl⟩ : ∃ m, n = m + 2 := ⟨n - 2, by omega⟩
    rw [List.append_assoc, List.singleton_append] at hall hn ⊢
    have hhead := expr_start he hue (c :: rest)
    have hno : ¬ Declares ((ue ++ c :: rest).map Token.face) := by
      intro hdeclares
      rw [List.map_append, List.map_cons, hue.shows] at hdeclares
      refine hsep (hdeclares.of_stop ?_)
      show c.kind ∉ typeKinds
      rw [hc]
      decide
    have hnone := localVar?_none hall.genuine hall.ended (n := n) (by omega) hno
      (startsExpr_no_modifier hhead)
    have hexpr := (reads_of_tree he).expr (n := n) (c :: rest) hue (by omega)
      (by rw [headKind_cons, hc]; decide)
    refine ⟨.plain (.exprStmt e), ?_, by rw [Node.plain, Node.bare_mk, Node.bare_mk]⟩
    rw [bareStatement_simple (.inl hhead) (expr_no_label he hue hall.genuine hc), simpleStatement,
      bind_of_ok hnone]
    dsimp only
    rw [bind_of_ok hexpr, bind_of_ok (pure_run _ _),
      bind_of_ok (expect_yes (k := semicolon) hc (by decide))]
    rfl

lemma localVar_no_label {d : Node} (hd : LocalVarTree Legible d) (hus : Realizes d.items us)
    (hident : headKind (us ++ rest) = .ident) : (tokenAt (us ++ rest) 1).kind ≠ colon := by
  cases hd with
  | @mk t mods ty ds modifiers type nonempty declarators here =>
    rw [Node.items_localVar] at hus
    cases mods with
    | cons w mods =>
      rw [Item.ofModifiers, List.flatMap_cons] at hus
      rcases modifiers w List.mem_cons_self with ⟨m, hm, rfl⟩ | ⟨x, -, rfl⟩
      · obtain rfl := List.mem_singleton.mp hm
        rw [Item.ofModifier_word (by decide)] at hus
        rw [headKind_items hus rfl] at hident
        cases hident
      · rw [Item.ofModifier_annotation] at hus
        rw [headKind_items hus rfl] at hident
        cases hident
    | nil =>
      obtain ⟨ut, ud, rfl, hut, hud⟩ := Realizes.of_append (a := ty.items) hus
      obtain ⟨u, vs, rfl, hu, -⟩ := declarators_start declarators nonempty hud
      have hkind := type_second type hut (u :: vs ++ rest) hu
      rw [List.append_assoc]
      exact fun heq => absurd (heq ▸ hkind) (by decide)

lemma readsStmt_localVar {d : Node} (hd : LocalVarTree Legible d) : ReadsStmt d := by
  have hitems : d.stmtItems = d.items ++ [Item.mark ";"] := by
    cases hd
    rw [Node.stmtItems]
  obtain ⟨i, is, hi, hstart⟩ := localVar_start hd
  have hblock : isBlock d = false := by cases hd; rfl
  have key : ∀ k ∈ localStarts, k ∉ stmtStops := by decide
  refine .of_read hblock ⟨i, is ++ [Item.mark ";"], by rw [hitems, hi]; rfl, key _ hstart⟩ ?_
  intro n us rest hus hall hn hrest
  rw [hitems] at hus
  obtain ⟨ud, c, rfl, hud, hc⟩ := realizes_semicolon hus
  obtain ⟨n, rfl⟩ : ∃ m, n = m + 2 := ⟨n - 2, by omega⟩
  rw [List.append_assoc, List.singleton_append] at hall hn ⊢
  have hhead : headKind (ud ++ c :: rest) ∈ localStarts := by
    rwa [headKind_items hud (by rw [hi]; rfl)]
  have hvar := localVar?_items hd (n := n) (c :: rest) hud (by omega) hc
  refine ⟨d, ?_, rfl⟩
  rw [bareStatement_simple (.inr hhead) (localVar_no_label hd hud), simpleStatement,
    bind_of_ok hvar]
  dsimp only
  rw [bind_of_ok (pure_run _ _), bind_of_ok (expect_yes (k := semicolon) hc (by decide))]
  rfl

section

variable {t : Tag} {c a b e : Node}

lemma Follows.of_endsOpen (h : Follows s rest) (hopen : b.endsOpen = true → s.endsOpen = true) :
    Follows b rest := ⟨fun hb => h.openIf (hopen hb), h.handler, h.nonempty⟩

lemma readsStmt_ifElse {o : Option Node} (hc : ExprTree Legible false c) (ha : ReadsStmt a)
    (ho : ∀ b ∈ o, ReadsStmt b) (hsep : ∀ b ∈ o, a.endsOpen = false) :
    ReadsStmt (.mk t (.ifElse c a o)) := by
  refine .of_word (w := "if") rfl (by rw [Node.stmtItems]) (by decide) ?_
  intro n u us rest hu hus hall hn hrest
  obtain ⟨uc, us, rfl, huc, hus⟩ := hus.of_append
  obtain ⟨ua, uo, rfl, hua, huo⟩ := hus.of_append
  simp only [List.append_assoc] at hall hn ⊢
  have hcond := parenthesized_items hc (n := n) (ua ++ (uo ++ rest)) huc (by omega)
  have hcpos : uo ++ rest ≠ [] := by simp [hrest.nonempty]
  have hall' : Remaining (ua ++ (uo ++ rest)) := hall.right (by simp [hrest.nonempty])
  rw [List.length_append] at hn
  rw [bareStatement, bind_of_ok (current_run _)]
  simp only [tokenAt_zero, hu]
  rw [bind_of_ok (advance_cons (by simp [hu])), bind_of_ok hcond]
  cases o with
  | none =>
    rw [Node.branchItems] at huo
    cases huo
    have hfollows : Follows a rest :=
      ⟨fun _ => hrest.openIf rfl, hrest.handler, hrest.nonempty⟩
    rw [List.nil_append] at hall' hn ⊢
    obtain ⟨r, hr, hbare⟩ := ha.statement hua hall' (n := n) (by omega) hfollows
    refine ⟨.plain (.ifElse c r none), ?_, ?_⟩
    · rw [bind_of_ok hr, bind_of_ok (accept_no (hrest.openIf rfl)), if_neg (by simp)]
      rfl
    · rw [Node.plain, Node.bare_mk, Node.bare_mk]
      simp only [Shape.map, Shape.mapAt, hbare]
  | some b =>
    rw [Node.branchItems] at huo
    obtain ⟨v, ub, rfl, hv, -, hub⟩ := huo.of_word
    have hfollows : Follows a (v :: ub ++ rest) := by
      refine ⟨fun h => absurd (hsep b rfl) (by simp [h]), ?_, hcpos⟩
      rw [List.cons_append, headKind_cons, hv]
      decide
    obtain ⟨r, hr, hbare⟩ := ha.statement hua hall' (n := n) (by omega) hfollows
    have hall'' := (hall'.right hcpos).tail (by rw [hv]; rintro ⟨⟩)
    simp only [List.length_append, List.length_cons] at hn
    obtain ⟨q, hq, hbare'⟩ := (ho b rfl).statement hub hall'' (n := n)
      (by rw [List.length_append]; omega) (hrest.of_endsOpen
        (by simp [endsOpen_mk, Shape.map, Shape.mapAt]))
    refine ⟨.plain (.ifElse c r (some q)), ?_, ?_⟩
    · rw [bind_of_ok hr, List.cons_append, bind_of_ok (accept_yes hv (by decide)), if_pos rfl,
        bind_of_ok (map_of_ok hq)]
      rfl
    · rw [Node.plain, Node.bare_mk, Node.bare_mk]
      simp only [Shape.map, Shape.mapAt, hbare, hbare', Option.map_some]

lemma readsStmt_whileLoop (hc : ExprTree Legible false c) (hb : ReadsStmt b) :
    ReadsStmt (.mk t (.whileLoop c b)) := by
  refine .of_word (w := "while") rfl (by rw [Node.stmtItems]) (by decide) ?_
  intro n u us rest hu hus hall hn hrest
  obtain ⟨uc, ub, rfl, huc, hub⟩ := hus.of_append
  rw [List.append_assoc] at hall hn ⊢
  have hcond := parenthesized_items hc (n := n) (ub ++ rest) huc (by omega)
  rw [List.length_append] at hn
  obtain ⟨r, hr, hbare⟩ := hb.statement hub (hall.right (by simp [hrest.nonempty])) (n := n)
    (by omega) (hrest.of_endsOpen (by simp [endsOpen_mk, Shape.map, Shape.mapAt]))
  refine ⟨.plain (.whileLoop c r), ?_, ?_⟩
  · rw [bareStatement, bind_of_ok (current_run _)]
    simp only [tokenAt_zero, hu]
    rw [bind_of_ok (advance_cons (by simp [hu])), bind_of_ok hcond, bind_of_ok hr]
    rfl
  · rw [Node.plain, Node.bare_mk, Node.bare_mk]
    simp only [Shape.map, Shape.mapAt, hbare]

lemma readsStmt_doWhile (hb : ReadsStmt b) (hc : ExprTree Legible false c) :
    ReadsStmt (.mk t (.doWhile b c)) := by
  refine .of_word (w := "do") rfl (by rw [Node.stmtItems]) (by decide) ?_
  intro n u us rest hu hus hall hn hrest
  obtain ⟨ub, us, rfl, hub, hus⟩ := hus.of_append
  obtain ⟨w, us, rfl, hw, -, hus⟩ := hus.of_word
  obtain ⟨uc, us, rfl, huc, hus⟩ := hus.of_append
  obtain ⟨m, us, rfl, hm, -, hus⟩ := hus.of_mark
  cases hus
  simp only [List.append_assoc, List.cons_append, List.nil_append] at hall hn ⊢
  have hfollows : Follows b (w :: (uc ++ m :: rest)) :=
    ⟨fun _ => by rw [headKind_cons, hw]; decide, by rw [headKind_cons, hw]; decide, by simp⟩
  obtain ⟨r, hr, hbare⟩ := hb.statement hub hall (n := n) (by omega) hfollows
  simp only [List.length_append, List.length_cons] at hn
  have hcond := parenthesized_items hc (n := n) (m :: rest) huc
    (by simp only [List.length_append, List.length_cons]; omega)
  refine ⟨.plain (.doWhile r c), ?_, ?_⟩
  · rw [bareStatement, bind_of_ok (current_run _)]
    simp only [tokenAt_zero, hu]
    rw [bind_of_ok (advance_cons (by simp [hu])), bind_of_ok hr,
      bind_of_ok (expect_yes hw (by decide)), bind_of_ok hcond,
      bind_of_ok (expect_yes (k := semicolon) hm (by decide))]
    rfl
  · rw [Node.plain, Node.bare_mk, Node.bare_mk]
    simp only [Shape.map, Shape.mapAt, hbare]

lemma readsStmt_forEach {v : Node} (hv : ElementTree Legible v) (he : ExprTree Legible false e)
    (hb : ReadsStmt b) : ReadsStmt (.mk t (.forEach v e b)) := by
  refine .of_word (w := "for") rfl (by rw [Node.stmtItems]) (by decide) ?_
  intro n u us rest hu hus hall hn hrest
  obtain ⟨uh, ub, rfl, huh, hub⟩ := hus.of_append
  obtain ⟨l, us, r, rfl, hl, hin, hr⟩ := realizes_parenthesized huh
  obtain ⟨uv, us, rfl, huv, hin⟩ := hin.of_append
  obtain ⟨m, ue, rfl, hm, -, hue⟩ := hin.of_mark
  simp only [List.append_assoc, List.cons_append, List.nil_append] at hall hn ⊢
  simp only [List.length_append, List.length_cons] at hn
  obtain ⟨n, rfl⟩ : ∃ k, n = k + 1 := ⟨n - 1, by omega⟩
  have hhead := forEachHead_items hv hm (n := n) (ue ++ r :: (ub ++ rest)) huv
    (by simp only [List.length_append, List.length_cons]; omega)
  have hexpr := (reads_of_tree he).expr (n := n) (r :: (ub ++ rest)) hue
    (by simp only [List.length_append, List.length_cons]; omega)
    (by rw [headKind_cons, hr]; decide)
  have hall' : Remaining (ub ++ rest) :=
    hall.suffix ⟨l :: (uv ++ m :: (ue ++ [r])), by simp⟩ (by simp [hrest.nonempty])
  obtain ⟨q, hq, hbare⟩ := hb.statement hub hall' (n := n)
    (by simp only [List.length_append]; omega)
    (hrest.of_endsOpen (by simp [endsOpen_mk, Shape.map, Shape.mapAt]))
  refine ⟨.plain (.forEach v e q), ?_, ?_⟩
  · rw [bareStatement, bind_of_ok (current_run _)]
    simp only [tokenAt_zero, hu]
    rw [bind_of_ok (advance_cons (by simp [hu])), forStatement,
      bind_of_ok (expect_yes (k := lparen) hl (by decide)), bind_of_ok hhead]
    dsimp only
    rw [bind_of_ok hexpr, bind_of_ok (expect_yes (k := rparen) hr (by decide)), bind_of_ok hq]
    rfl
  · rw [Node.plain, Node.bare_mk, Node.bare_mk]
    simp only [Shape.map, Shape.mapAt, hbare]

lemma readsStmt_forLoop {init update : List Node} {o : Option Node} (hinit : ForInit Legible init)
    (hsep : ∀ e ∈ init, e.shape.isDeclaration = false → isStatementExpr e = true)
    (ho : ∀ e ∈ o, ExprTree Legible false e) (hu : ∀ e ∈ update, ExprTree Legible false e)
    (hb : ReadsStmt b) : ReadsStmt (.mk t (.forLoop init o update b)) := by
  refine .of_word (w := "for") rfl (by rw [Node.stmtItems]) (by decide) ?_
  intro n w us rest hw hus hall hn hrest
  obtain ⟨uh, ub, rfl, huh, hub⟩ := hus.of_append
  obtain ⟨l, us, r, rfl, hl, hin, hr⟩ := realizes_parenthesized huh
  obtain ⟨ui, us, rfl, hui, hin⟩ := hin.of_append
  obtain ⟨m, us, rfl, hm, -, hin⟩ := hin.of_mark
  obtain ⟨uo, us, rfl, huo, hin⟩ := hin.of_append
  obtain ⟨k, uu, rfl, hk, -, huu⟩ := hin.of_mark
  simp only [List.append_assoc, List.cons_append, List.nil_append] at hall hn ⊢
  have hall' := hall.tail (by rw [hl]; rintro ⟨⟩)
  have hall'' : Remaining (ub ++ rest) :=
    hall'.suffix ⟨ui ++ m :: (uo ++ k :: (uu ++ [r])), by simp⟩ (by simp [hrest.nonempty])
  simp only [List.length_append, List.length_cons] at hn
  obtain ⟨n, rfl⟩ : ∃ k, n = k + 1 := ⟨n - 1, by omega⟩
  obtain ⟨hnone, hfirst⟩ := forInit_items hinit hsep (n := n)
    (m :: (uo ++ k :: (uu ++ r :: (ub ++ rest)))) hui
    (by simp only [List.length_append, List.length_cons]; omega) hm hall'
  have hcond := optionalExpr_items ho (n := n) (k :: (uu ++ r :: (ub ++ rest))) huo
    (by simp only [List.length_append, List.length_cons]; omega) hk
  obtain ⟨q, hq, hbare⟩ := hb.statement hub hall'' (n := n)
    (by simp only [List.length_append]; omega)
    (hrest.of_endsOpen (by simp [endsOpen_mk, Shape.map, Shape.mapAt]))
  refine ⟨.plain (.forLoop init o update q), ?_, ?_⟩
  · rw [bareStatement, bind_of_ok (current_run _)]
    simp only [tokenAt_zero, hw]
    rw [bind_of_ok (advance_cons (by simp [hw])), forStatement,
      bind_of_ok (expect_yes (k := lparen) hl (by decide)), bind_of_ok hnone]
    dsimp only
    rw [bind_of_ok hfirst, bind_of_ok (expect_yes (k := semicolon) hm (by decide)),
      bind_of_ok hcond, bind_of_ok (expect_yes (k := semicolon) hk (by decide))]
    cases update with
    | nil =>
      cases huu
      rw [List.nil_append, bind_of_ok (check_yes (l := r :: (ub ++ rest)) hr), if_pos rfl,
        bind_of_ok (pure_run _ _), bind_of_ok (expect_yes (k := rparen) hr (by decide)),
        bind_of_ok hq]
      rfl
    | cons e es =>
      have hno : headKind (uu ++ r :: (ub ++ rest)) ≠ rparen := by
        obtain ⟨i, is, hi, hstart⟩ := (reads_of_tree (hu e List.mem_cons_self)).start
        rw [headKind_items huu (head?_separated (i := i) (by rw [hi]; rfl) _)]
        exact ne_of_startsExpr hstart (by simp [StartsExpr, rparen])
      have hlist := exprList_items hu (by simp) (n := n) (r :: (ub ++ rest)) huu
        (by simp only [List.length_append, List.length_cons]; omega)
        (by rw [headKind_cons, hr]; decide)
      rw [bind_of_ok (check_no hno), if_neg (by simp), bind_of_ok hlist,
        bind_of_ok (expect_yes (k := rparen) hr (by decide)), bind_of_ok hq]
      rfl
  · rw [Node.plain, Node.bare_mk, Node.bare_mk]
    simp only [Shape.map, Shape.mapAt, hbare]

lemma readsStmt_returnStmt {o : Option Node} (ho : ∀ e ∈ o, ExprTree Legible false e) :
    ReadsStmt (.mk t (.returnStmt o)) := by
  refine .of_word (w := "return") rfl (by rw [Node.stmtItems]) (by decide) ?_
  intro n u us rest hu hus hall hn hrest
  obtain ⟨ue, m, rfl, hue, hm⟩ := realizes_semicolon hus
  rw [List.append_assoc, List.singleton_append] at hn ⊢
  have hvalue := optionalExpr_items ho (n := n) (m :: rest) hue (by omega) hm
  refine ⟨.plain (.returnStmt o), ?_, by rw [Node.plain, Node.bare_mk, Node.bare_mk]⟩
  rw [bareStatement, bind_of_ok (current_run _)]
  simp only [tokenAt_zero, hu]
  rw [bind_of_ok (advance_cons (by simp [hu])), bind_of_ok hvalue,
    bind_of_ok (expect_yes (k := semicolon) hm (by decide))]
  rfl

lemma readsStmt_throwStmt (he : ExprTree Legible false e) : ReadsStmt (.mk t (.throwStmt e)) := by
  refine .of_word (w := "throw") rfl (by rw [Node.stmtItems]) (by decide) ?_
  intro n u us rest hu hus hall hn hrest
  obtain ⟨ue, m, rfl, hue, hm⟩ := realizes_semicolon hus
  rw [List.append_assoc, List.singleton_append] at hn ⊢
  have hvalue := (reads_of_tree he).expr (n := n) (m :: rest) hue (by omega)
    (by rw [headKind_cons, hm]; decide)
  refine ⟨.plain (.throwStmt e), ?_, by rw [Node.plain, Node.bare_mk, Node.bare_mk]⟩
  rw [bareStatement, bind_of_ok (current_run _)]
  simp only [tokenAt_zero, hu]
  rw [bind_of_ok (advance_cons (by simp [hu])), bind_of_ok hvalue,
    bind_of_ok (expect_yes (k := semicolon) hm (by decide))]
  rfl

lemma readsStmt_jump {w : String} {f : Option String → Shape Node} {o : Option String}
    (hblock : isBlock (.mk t (f o)) = false)
    (hitems : (Node.mk t (f o)).stmtItems = Item.ofJump w o) (hw : .word w ∉ stmtStops)
    (hrule : ∀ (n : Nat) (t : Token) (us : List Token), t.kind = .word w →
      bareStatement (n + 1) (t :: us) = (do
        let label ← jumpLabel
        let _ ← expect semicolon
        return Node.plain (f label)) us) : ReadsStmt (.mk t (f o)) := by
  refine .of_word hblock hitems hw fun n u us rest hu hus hall hn hrest =>
    ⟨.plain (f o), ?_, by rw [Node.plain, Node.bare_mk, Node.bare_mk]⟩
  obtain ⟨ul, m, rfl, hul, hm⟩ := realizes_semicolon hus
  rw [List.append_assoc, List.singleton_append, hrule n u _ hu,
    bind_of_ok (jumpLabel_items (m :: rest) hul hm), bind_of_ok (expect_yes hm (by decide))]
  rfl

lemma readsStmt_breakStmt {o : Option String} : ReadsStmt (.mk t (.breakStmt o)) := by
  refine readsStmt_jump (w := "break") (f := .breakStmt) rfl (by rw [Node.stmtItems]) (by decide)
    fun n u us hu => ?_
  rw [bareStatement, bind_of_ok (current_run _)]
  simp only [tokenAt_zero, hu]
  rw [bind_of_ok (advance_cons (by simp [hu]))]

lemma readsStmt_continueStmt {o : Option String} : ReadsStmt (.mk t (.continueStmt o)) := by
  refine readsStmt_jump (w := "continue") (f := .continueStmt) rfl (by rw [Node.stmtItems])
    (by decide) fun n u us hu => ?_
  rw [bareStatement, bind_of_ok (current_run _)]
  simp only [tokenAt_zero, hu]
  rw [bind_of_ok (advance_cons (by simp [hu]))]

lemma readsStmt_emptyStmt : ReadsStmt (.mk t .emptyStmt) := by
  refine .of_read rfl ⟨Item.mark ";", [], by rw [Node.stmtItems], by decide⟩ ?_
  intro n us rest hus hall hn hrest
  rw [Node.stmtItems] at hus
  obtain ⟨m, us, rfl, hm, -, hus⟩ := hus.of_mark
  cases hus
  obtain ⟨n, rfl⟩ : ∃ k, n = k + 1 := ⟨n - 1, by omega⟩
  have hkind : m.kind = .mark ";" := hm
  refine ⟨.plain .emptyStmt, ?_, by rw [Node.plain, Node.bare_mk, Node.bare_mk]⟩
  rw [bareStatement, bind_of_ok (current_run _)]
  simp only [List.singleton_append, tokenAt_zero, hkind]
  rw [bind_of_ok (advance_cons (by simp [hkind]))]
  rfl

lemma readsStmt_labeled {x : String} (hb : ReadsStmt b) :
    ReadsStmt (.mk t (.labeled x b)) := by
  have hitems : (Node.mk t (.labeled x b)).stmtItems =
      Item.name x :: Item.mark ":" :: b.stmtItems := by rw [Node.stmtItems]
  refine .of_read rfl ⟨_, _, hitems, by simp [Item.name, stmtStops, rbrace]⟩
    fun n us rest hus hall hn hrest => ?_
  rw [hitems] at hus
  obtain ⟨u, us, rfl, hu, hx, hus⟩ := hus.of_name
  obtain ⟨m, ub, rfl, hm, -, hub⟩ := hus.of_mark
  simp only [List.cons_append] at hall hn ⊢
  simp only [List.length_cons] at hn
  obtain ⟨n, rfl⟩ : ∃ k, n = k + 1 := ⟨n - 1, by omega⟩
  have hall' := (hall.tail (by rw [hu]; rintro ⟨⟩)).tail (by rw [hm]; rintro ⟨⟩)
  obtain ⟨r, hr, hbare⟩ := hb.statement hub hall' (n := n) (by omega)
    (hrest.of_endsOpen (by simp [endsOpen_mk, Shape.map, Shape.mapAt]))
  have hcolon : (tokenAt (u :: m :: (ub ++ rest)) 1).kind = colon := hm
  refine ⟨.plain (.labeled x r), ?_, ?_⟩
  · rw [bareStatement, bind_of_ok (current_run _)]
    simp only [tokenAt_zero, hu]
    rw [bind_of_ok (checkNext_run _ _), decide_eq_true hcolon, if_pos rfl,
      bind_of_ok (advance_cons (by simp [hu])), bind_of_ok (advance_cons (by simp [hm])),
      bind_of_ok hr, hx]
    rfl
  · rw [Node.plain, Node.bare_mk, Node.bare_mk]
    simp only [Shape.map, Shape.mapAt, hbare]

def ReadsHandler (c : Node) : Prop :=
  (∃ is, c.stmtItems = Item.word "catch" :: is) ∧
    ∀ ⦃n : Nat⦄ ⦃us : List Token⦄ ⦃rest left : List Token⦄ ⦃cs : List Node⦄,
      Realizes c.stmtItems us → Remaining (us ++ rest) → 16 * (us ++ rest).length ≤ n →
        catchClauses n rest = .ok (cs, left) →
          ∃ r, catchClauses (n + 1) (us ++ rest) = .ok (r :: cs, left) ∧ r.bare = c.bare

lemma typeList_items {tys : List Node} (htys : ∀ ty ∈ tys, TypeTree Legible false ty)
    (hne : tys ≠ []) {m : String} (hm : .mark m ∉ [dot, lbracket, .mark "<"])
    {q : TokenKind → Prop} (hq : ∀ k, q k → k ∉ [dot, lbracket, .mark "<", .mark m]) {n : Nat}
    {us : List Token} (rest : List Token)
    (h : Realizes (Item.separated m (tys.map Node.items)) us)
    (hn : 16 * (us ++ rest).length + 1 ≤ n) (hrest : q (headKind rest)) :
    typeList (.mark m) n (us ++ rest) = .ok (tys, rest) := by
  refine list_items (f := typeList (.mark m)) (g := type) (c := 0) (q := q)
    (fun n => by rw [typeList]) (fun h => hq _ h (by simp))
    (fun ty hty n us rest hus hn hrest => ?_) hne rest h hn hrest
  have hstop : headKind rest ∉ [dot, lbracket, .mark "<"] := by
    rcases hrest with hrest | hrest
    · exact hrest ▸ hm
    · exact fun hmem => hq _ hrest (List.mem_append_left [TokenKind.mark m] hmem)
  refine (readsType_of_tree (htys ty hty)).type rest hus hn (fun hmem => hstop ?_) fun _ h => hstop ?_
  · exact List.mem_append_left [TokenKind.mark "<"] hmem
  · simp [h]

lemma readsHandler_catchClause {mods : List Word} {x : String} {tys : List Node}
    (hmods : ∀ w ∈ mods, IsModifier localModifierNames w) (htys : ∀ ty ∈ tys, TypeTree Legible false ty)
    (hne : tys ≠ []) (hb : ReadsStmt b) (hblock : isBlock b = true) :
    ReadsHandler (.mk t (.catchClause mods x tys b)) := by
  refine ⟨⟨_, by rw [Node.stmtItems]⟩, ?_⟩
  intro n us rest left cs hus hall hn hcs
  rw [Node.stmtItems] at hus
  obtain ⟨w, us, rfl, hw, -, hus⟩ := hus.of_word
  obtain ⟨uh, ub, rfl, huh, hub⟩ := hus.of_append
  obtain ⟨l, us, r, rfl, hl, hin, hr⟩ := realizes_parenthesized huh
  obtain ⟨um, us, rfl, hum, hin⟩ := hin.of_append
  obtain ⟨ut, ux, rfl, hut, hux⟩ := hin.of_append
  obtain ⟨v, ux, rfl, hv, hx, hux⟩ := hux.of_name
  cases hux
  simp only [List.append_assoc, List.cons_append, List.nil_append] at hall hn ⊢
  simp only [List.length_cons, List.length_append] at hn
  have hstart : headKind (ut ++ v :: r :: (ub ++ rest)) ∈ .ident :: primitiveTypes := by
    obtain ⟨ty, tys, rfl⟩ := List.exists_cons_of_ne_nil hne
    obtain ⟨i, hi, hkind⟩ := typeTree_start (htys ty List.mem_cons_self)
    rw [headKind_items hut (head?_separated hi _)]
    simpa using hkind
  obtain ⟨ms, hms, rfl⟩ := localModifiers_items hmods (n := n) (ut ++ v :: r :: (ub ++ rest)) hum
    (by simp only [List.length_append, List.length_cons]; omega) hstart
  have htypes := typeList_items htys hne (m := "|") (by decide) (q := (· = .ident))
    (by rintro k rfl; decide) (n := n) (v :: r :: (ub ++ rest)) hut
    (by simp only [List.length_append, List.length_cons]; omega) hv
  have hall' : Remaining (ub ++ rest) := by
    refine hall.suffix ⟨w :: l :: (um ++ (ut ++ [v, r])), by simp⟩ ?_
    obtain ⟨i, is, hi, -⟩ := hb.start
    have hlen := hub.length
    rw [hi] at hlen
    intro hnil
    simp [(List.append_eq_nil_iff.mp hnil).1] at hlen
  obtain ⟨q, hq, hbare⟩ := hb.block hblock rest hub hall' (n := n)
    (by simp only [List.length_append]; omega)
  refine ⟨.plain (.catchClause (Word.ofTexts ms) x tys q), ?_, ?_⟩
  · rw [catchClauses, bind_of_ok (accept_yes hw (by decide)), if_pos rfl,
      bind_of_ok (expect_yes hl (by decide)), bind_of_ok hms, bind_of_ok htypes,
      bind_of_ok (expect_yes hv (by decide)), bind_of_ok (expect_yes hr (by decide)),
      bind_of_ok hq, bind_of_ok hcs, hx]
    rfl
  · rw [Node.plain, Node.bare_mk, Node.bare_mk]
    simp only [Shape.map, Shape.mapAt, hbare]

lemma catchClauses_items {cs : List Node} (hcs : ∀ c ∈ cs, ReadsHandler c)
    (h : Realizes (Node.contentItems cs) us) (hall : Remaining (us ++ rest))
    (hn : 16 * (us ++ rest).length + 1 ≤ n) (hrest : headKind rest ≠ .word "catch") (hne : rest ≠ []) :
    ∃ rs, catchClauses n (us ++ rest) = .ok (rs, rest) ∧ rs.map Node.bare = cs.map Node.bare := by
  induction cs generalizing n us with
  | nil =>
    cases h
    obtain ⟨n, rfl⟩ : ∃ m, n = m + 1 := ⟨n - 1, by omega⟩
    refine ⟨[], ?_, rfl⟩
    rw [catchClauses, List.nil_append, bind_of_ok (accept_no hrest), if_neg (by simp)]
    rfl
  | cons c cs ih =>
    obtain ⟨⟨⟨is, hitems⟩, hread⟩, hothers⟩ := List.forall_mem_cons.mp hcs
    rw [Node.contentItems] at h
    obtain ⟨uc, us, rfl, huc, hus⟩ := h.of_append
    obtain ⟨n, rfl⟩ : ∃ m, n = m + 1 := ⟨n - 1, by omega⟩
    have hpos : 0 < uc.length := by
      rw [huc.length, hitems]
      exact Nat.succ_pos _
    rw [List.append_assoc] at hall hn ⊢
    rw [List.length_append] at hn
    obtain ⟨rs, hrs, hbares⟩ := ih hothers hus (hall.right (by simp [hne])) (n := n) (by omega)
    obtain ⟨r, hr, hbare⟩ := hread huc hall (by rw [List.length_append]; omega) hrs
    exact ⟨r :: rs, hr, by rw [List.map_cons, List.map_cons, hbare, hbares]⟩

lemma block_start (h : isBlock b = true) : ∃ is, b.stmtItems = Item.mark "\x7b" :: is := by
  obtain ⟨u, s⟩ := b
  cases s with
  | block ss => exact ⟨_, by rw [Node.stmtItems]; rfl⟩
  | _ => cases h

lemma readsStmt_tryStmt {cs : List Node} {f : Option Node} (hb : ReadsStmt b)
    (hblock : isBlock b = true) (hcs : ∀ c ∈ cs, ReadsHandler c) (hf : ∀ b ∈ f, ReadsStmt b)
    (hblocks : ∀ b ∈ f, isBlock b = true) (hhandled : cs ≠ [] ∨ f ≠ none) :
    ReadsStmt (.mk t (.tryStmt b cs f)) := by
  refine .of_word (w := "try") rfl (by rw [Node.stmtItems]) (by decide) ?_
  intro n u us rest hu hus hall hn hrest
  obtain ⟨ub, us, rfl, hub, hus⟩ := hus.of_append
  obtain ⟨uc, uf, rfl, huc, huf⟩ := hus.of_append
  simp only [List.append_assoc] at hall hn ⊢
  have hno : headKind (ub ++ (uc ++ (uf ++ rest))) ≠ lparen := by
    obtain ⟨is, his⟩ := block_start hblock
    rw [headKind_items hub (by rw [his]; rfl)]
    decide
  have hne : uf ++ rest ≠ [] := by simp [hrest.nonempty]
  simp only [List.length_append] at hn
  obtain ⟨n, rfl⟩ : ∃ m, n = m + 1 := ⟨n - 1, by omega⟩
  obtain ⟨q, hq, hbare⟩ := hb.block hblock (uc ++ (uf ++ rest)) hub hall (n := n)
    (by simp only [List.length_append]; omega)
  have hcatch : headKind (uf ++ rest) ≠ .word "catch" := by
    cases f with
    | none =>
      rw [Node.branchItems] at huf
      cases huf
      exact fun h => hrest.handler (by simp_all)
    | some f =>
      rw [Node.branchItems] at huf
      rw [headKind_items huf rfl]
      decide
  obtain ⟨rs, hrs, hbares⟩ := catchClauses_items hcs huc (hall.right (by simp [hrest.nonempty]))
    (n := n) (by simp only [List.length_append]; omega) hcatch hne
  have hempty : rs.isEmpty = cs.isEmpty := by
    rw [← List.isEmpty_map (f := Node.bare), hbares, List.isEmpty_map]
  have hfinal : ∃ g, g.map Node.bare = f.map Node.bare ∧ ∀ k : Option Node → Parser Node, (do
      if ← accept (.word "finally") then (some <$> Grammar.block n) >>= k else pure none >>= k)
        (uf ++ rest) = k g rest := by
    cases f with
    | none =>
      rw [Node.branchItems] at huf
      cases huf
      have hstop : headKind rest ≠ .word "finally" := fun h => hrest.handler (by simp [h])
      refine ⟨none, rfl, fun k => ?_⟩
      rw [List.nil_append, bind_of_ok (accept_no hstop), if_neg (by simp), pure_bind]
    | some f =>
      rw [Node.branchItems] at huf
      obtain ⟨w, uf, rfl, hw, -, huf⟩ := huf.of_word
      have hall' : Remaining (uf ++ rest) :=
        hall.suffix ⟨ub ++ (uc ++ [w]), by simp⟩ (by simp [hrest.nonempty])
      rw [List.length_cons] at hn
      obtain ⟨g, hg, hbare⟩ := (hf f rfl).block (hblocks f rfl) rest huf hall' (n := n)
        (by rw [List.length_append]; omega)
      refine ⟨some g, by rw [Option.map_some, Option.map_some, hbare], fun k => ?_⟩
      rw [List.cons_append, bind_of_ok (accept_yes hw (by decide)), if_pos rfl,
        bind_of_ok (map_of_ok hg)]
  obtain ⟨g, hbares', hg⟩ := hfinal
  have hnone : g.isNone = f.isNone := by
    rw [← Option.isNone_map (f := Node.bare), hbares', Option.isNone_map]
  have hhandled : ¬ (rs.isEmpty && g.isNone) = true := by
    rw [hempty, hnone]
    simpa [imp_iff_not_or] using hhandled
  refine ⟨.plain (.tryStmt q rs g), ?_, ?_⟩
  · rw [bareStatement, bind_of_ok (current_run _)]
    simp only [tokenAt_zero, hu]
    rw [bind_of_ok (advance_cons (by simp [hu])), tryStatement, bind_of_ok (check_no hno),
      if_neg (by simp)]
    dsimp only
    rw [bind_of_ok hq, bind_of_ok hrs, hg, if_neg hhandled]
    rfl
  · rw [Node.plain, Node.bare_mk, Node.bare_mk]
    simp only [Shape.map, Shape.mapAt, mapIdx_const, hbare, hbares, hbares']

end

end

lemma reads_of_stmtTree {handler : Bool} {s : Node} (h : StmtTree Readable handler s) :
    if handler then ReadsHandler s else ReadsStmt s := by
  have hexpr : ∀ {e : Node}, ExprTree Readable false e → ExprTree Legible false e :=
    fun h => h.mono fun _ _ here => here.legible
  induction h with
  | block _ _ ih => exact readsStmt_block ih
  | localVar declaration => exact readsStmt_localVar (declaration.mono fun _ _ here => here.legible)
  | exprStmt expr here => exact readsStmt_exprStmt (hexpr expr) here.separate
  | @ifElse t c a o cond _ _ here iha iho =>
    refine readsStmt_ifElse (hexpr cond) iha iho fun b hb => ?_
    obtain rfl := Option.mem_def.mp hb
    exact here.separate
  | whileLoop cond _ _ ih => exact readsStmt_whileLoop (hexpr cond) ih
  | doWhile _ cond _ ih => exact readsStmt_doWhile ih (hexpr cond)
  | forLoop start cond updates _ here ih =>
    exact readsStmt_forLoop (start.mono fun _ _ _ _ here => here.legible) here.separate
      (fun e he => hexpr (cond e he)) (fun e he => hexpr (updates e he)) ih
  | forEach var iterable _ _ ih =>
    exact readsStmt_forEach (var.mono fun _ _ here => here.legible) (hexpr iterable) ih
  | returnStmt value _ => exact readsStmt_returnStmt fun e he => hexpr (value e he)
  | breakStmt _ _ => exact readsStmt_breakStmt
  | continueStmt _ _ => exact readsStmt_continueStmt
  | throwStmt expr _ => exact readsStmt_throwStmt (hexpr expr)
  | tryStmt _ block _ _ blocks handled _ ihb ihc ihf =>
    exact readsStmt_tryStmt ihb block ihc ihf blocks handled
  | catchClause modifiers _ nonempty types _ block _ ih =>
    exact readsHandler_catchClause modifiers
      (fun ty hty => (types ty hty).mono fun _ _ here => here.legible) nonempty ih block
  | labeled _ _ _ ih => exact readsStmt_labeled ih
  | emptyStmt _ => exact readsStmt_emptyStmt

theorem readsStmt_of_tree {s : Node} (h : StmtTree Readable false s) : ReadsStmt s :=
  reads_of_stmtTree h

end LoopLowering.Grammar
