import LoopLowering.Proofs.Token.Extent
import LoopLowering.Proofs.Token.Genuine
import Mathlib.Data.List.Induction
import Mathlib.Logic.Relation

/-! Tokens tile their text: between their lexemes stand only blanks, newlines and complete comments,
and their lines and columns are those of the offsets where they start. -/

namespace LoopLowering

namespace Token

/-- One blank, newline or complete comment stands in front of the rest of a text. A comment to the
end of its line leaves the newline; one between delimiters ends where its closing one first
occurs. -/
inductive Skips : List Char → List Char → Prop
  | blank {c : Char} {rest : List Char} (blank : isBlankOrNewline c = true) : Skips (c :: rest) rest
  | line {body rest : List Char} (inside : '\n' ∉ body) (ends : ∀ c ∈ rest.head?, c = '\n') :
      Skips ('/' :: '/' :: (body ++ rest)) rest
  | block {body rest : List Char} (first : ¬ ['*', '/'] <:+: body ++ ['*']) :
      Skips ('/' :: '*' :: (body ++ '*' :: '/' :: rest)) rest

/-- Blanks, newlines and complete comments stand in front of the rest of a text. -/
abbrev Gap : List Char → List Char → Prop := Relation.ReflTransGen Skips

/-- The lexeme of a token in a text ends at an offset. -/
structure EndsAt (text : List Char) (t : Token) (stop : Nat) : Prop where
  lexeme : ∃ c cs, text.drop t.start = c :: cs ∧
    lexemeAt c cs = .token t.kind t.value (stop - t.start)
  nonempty : t.start < stop
  inside : stop ≤ text.length
  oneLine : '\n' ∉ (text.drop t.start).take (stop - t.start)

/-- From an offset on, a text consists of tokens, whose lexemes end at the given offsets, and of gaps
between them. -/
inductive Tiles (text : List Char) : Nat → List Token → List Nat → Prop
  | nil {p : Nat} (gap : Gap (text.drop p) []) : Tiles text p [] []
  | cons {p stop : Nat} {t : Token} {ts : List Token} {stops : List Nat} (after : p ≤ t.start)
      (gap : Gap (text.drop p) (text.drop t.start)) (ends : EndsAt text t stop)
      (rest : Tiles text stop ts stops) : Tiles text p (t :: ts) (stop :: stops)

structure LineStart (text : List Char) (start p : Nat) : Prop where
  le : start ≤ p
  first : start = 0 ∨ text[start - 1]? = some '\n'
  inside : '\n' ∉ (text.take p).drop start

/-- The line and column of an offset, both counted from one. -/
structure Position (text : List Char) (p line column : Nat) : Prop where
  line_eq : line = 1 + (text.take p).count '\n'
  column_eq : ∃ start, LineStart text start p ∧ column = 1 + (p - start)

lemma reverse_takeWhile_line (cs : List Char) :
    ∃ front back, cs = front ++ back ∧ '\n' ∉ back ∧ (front = [] ∨ front.getLast? = some '\n') ∧
      (cs.reverse.takeWhile (· ≠ '\n')).length = back.length := by
  induction cs using List.reverseRecOn with
  | nil => exact ⟨[], [], rfl, by simp, .inl rfl, rfl⟩
  | append_singleton cs c ih =>
    obtain ⟨front, back, rfl, hback, hfront, hlength⟩ := ih
    by_cases hc : c = '\n'
    · exact ⟨front ++ back ++ [c], [], by simp, by simp, .inr (by simp [hc]), by simp [hc]⟩
    · refine ⟨front, back ++ [c], by simp, by simp [hback, Ne.symm hc], hfront, ?_⟩
      rw [List.reverse_append, List.reverse_singleton, List.singleton_append, List.takeWhile_cons,
        if_pos (by simpa using hc), List.length_cons, hlength, List.length_append,
        List.length_singleton]

lemma columnOf_lineStart {text : List Char} {p : Nat} (hp : p ≤ text.length) :
    ∃ start, LineStart text start p ∧ columnOf text p = 1 + (p - start) := by
  obtain ⟨front, back, hsplit, hback, hfront, hlength⟩ := reverse_takeWhile_line (text.take p)
  have htake : (text.take p).length = p := by rw [List.length_take, Nat.min_eq_left hp]
  have hsum : front.length + back.length = p := by rw [← List.length_append, ← hsplit, htake]
  refine ⟨front.length, ⟨by omega, ?_, by rwa [hsplit, List.drop_left]⟩, ?_⟩
  · refine hfront.imp (fun h => by rw [h]; rfl) fun h => ?_
    have hne : front ≠ [] := by rintro rfl; cases h
    have hpos := List.length_pos_of_ne_nil hne
    rw [List.getLast?_eq_getElem?] at h
    rw [← List.getElem?_take_of_lt (j := p) (by omega), hsplit,
      List.getElem?_append_left (by omega), h]
  · rw [columnOf, hlength, htake]
    omega

lemma position_columnOf {text : List Char} {p : Nat} (hp : p ≤ text.length) :
    Position text p (1 + (text.take p).count '\n') (columnOf text p) :=
  ⟨rfl, columnOf_lineStart hp⟩

lemma LineStart.of_no_newline {text : List Char} {start p q : Nat} (h : LineStart text start p)
    (hpq : p ≤ q) (hline : '\n' ∉ (text.take q).drop p) : LineStart text start q := by
  refine ⟨Nat.le_trans h.le hpq, h.first, fun hmem => ?_⟩
  have hsplit : (text.take q).drop start = (text.take p).drop start ++ (text.take q).drop p := by
    have hstart := h.le
    rw [← List.take_append_drop (p - start) ((text.take q).drop start), List.drop_drop,
      Nat.add_sub_of_le hstart, ← List.drop_take, List.take_take, Nat.min_eq_left hpq]
  rw [hsplit, List.mem_append] at hmem
  exact hmem.elim h.inside hline

lemma LineStart.unique {text : List Char} {a b p : Nat} (ha : LineStart text a p)
    (hb : LineStart text b p) (hp : p ≤ text.length) : a = b := by
  have key : ∀ {a b}, LineStart text a p → LineStart text b p → ¬ a < b := by
    intro a b ha hb hlt
    refine ha.inside ?_
    have hnewline := hb.first.resolve_left (by omega)
    have hle := hb.le
    obtain ⟨hlength, hget⟩ := List.getElem?_eq_some_iff.mp hnewline
    rw [List.mem_iff_getElem]
    refine ⟨b - 1 - a, by rw [List.length_drop, List.length_take]; omega, ?_⟩
    simp only [List.getElem_drop, List.getElem_take]
    have hindex : a + (b - 1 - a) = b - 1 := by omega
    simpa only [hindex] using hget
  have h1 := key ha hb
  have h2 := key hb ha
  omega

lemma Position.unique {text : List Char} {p q line column : Nat} (hp : Position text p line column)
    (hq : Position text q line column) (hpl : p ≤ text.length) (hql : q ≤ text.length) : p = q := by
  have key : ∀ {p q}, Position text p line column → Position text q line column →
      q ≤ text.length → ¬ p < q := by
    intro p q hp hq hql hlt
    -- No newline stands between the two, since there are as many before the one as the other.
    have hnone : '\n' ∉ (text.take q).drop p := by
      have hcount := hp.line_eq.symm.trans hq.line_eq
      rw [← List.take_append_drop p (text.take q), List.take_take, Nat.min_eq_left hlt.le,
        List.count_append] at hcount
      exact List.count_eq_zero.mp (by omega)
    obtain ⟨a, ha, hcolumn⟩ := hp.column_eq
    obtain ⟨b, hb, hcolumn'⟩ := hq.column_eq
    obtain rfl := (ha.of_no_newline hlt.le hnone).unique hb hql
    have := ha.le
    omega
  have h1 := key hp hq hql
  have h2 := key hq hp hpl
  omega

lemma commentTail?_spec {cs : List Char} {n : Nat} (h : commentTail? cs = some n) :
    ∃ body rest, cs = body ++ '*' :: '/' :: rest ∧ n = body.length + 2 ∧
      ¬ ['*', '/'] <:+: body ++ ['*'] := by
  fun_induction commentTail? cs generalizing n with
  | case1 => cases h
  | case2 rest =>
    obtain rfl := Option.some.inj h
    exact ⟨[], rest, rfl, rfl, fun hinfix => absurd hinfix.length_le (by decide)⟩
  | case3 c cs hno ih =>
    obtain ⟨m, hm, rfl⟩ := Option.map_eq_some_iff.mp h
    obtain ⟨body, rest, rfl, rfl, hfirst⟩ := ih hm
    refine ⟨c :: body, rest, rfl, rfl, fun hinfix => ?_⟩
    rcases List.infix_cons_iff.mp hinfix with hinitial | hinfix
    · obtain ⟨rfl, hslash⟩ := List.cons_prefix_cons.mp hinitial
      cases body with
      | nil => simp at hslash
      | cons d body =>
        obtain ⟨rfl, -⟩ := List.cons_prefix_cons.mp hslash
        exact hno _ rfl rfl
    · exact hfirst hinfix

lemma commentLength?_skips {cs : List Char} {n : Nat} (h : commentLength? cs = some n) :
    0 < n ∧ n ≤ cs.length ∧ Skips cs (cs.drop n) := by
  unfold commentLength? at h
  split at h
  · rename_i cs
    obtain rfl := Option.some.inj h
    have hsplit := List.takeWhile_append_dropWhile (p := (· ≠ '\n')) (l := cs)
    have hdrop : cs.drop (leading (· ≠ '\n') cs) = cs.dropWhile (· ≠ '\n') := by
      conv_lhs => arg 2; rw [← hsplit]
      exact List.drop_left
    refine ⟨by omega, Nat.succ_le_succ (Nat.succ_le_succ (List.takeWhile_sublist _).length_le), ?_⟩
    rw [List.drop_succ_cons, List.drop_succ_cons, hdrop]
    conv => arg 1; rw [← hsplit]
    refine .line (fun hmem => ?_) fun c hc => ?_
    · simpa using List.mem_takeWhile_imp hmem
    · have := List.head?_dropWhile_not (· ≠ '\n') cs
      rw [Option.mem_def.mp hc] at this
      simpa using this
  · rename_i cs
    obtain ⟨m, hm, rfl⟩ := Option.map_eq_some_iff.mp h
    obtain ⟨body, rest, rfl, rfl, hfirst⟩ := commentTail?_spec hm
    refine ⟨by omega, by simp, ?_⟩
    have hdrop : ('/' :: '*' :: (body ++ '*' :: '/' :: rest)).drop (body.length + 2 + 2) = rest := by
      rw [List.drop_succ_cons, List.drop_succ_cons, ← List.drop_drop, List.drop_left]
      rfl
    rw [hdrop]
    exact .block hfirst
  · cases h

lemma pieces_past {n : Nat} {cs : List Char} (h : n ≤ cs.length) (line start : Nat) :
    pieces line start n cs =
      pieces (line + (cs.take n).count '\n') (start + n) 0 (cs.drop n) := by
  induction n generalizing line start cs with
  | zero => simp
  | succ n ih =>
    cases cs with
    | nil => cases h
    | cons c cs =>
      rw [pieces, ih (Nat.le_of_succ_le_succ h), List.take_succ_cons, List.count_cons,
        List.drop_succ_cons]
      have hline : (if c = '\n' then line + 1 else line) + (cs.take n).count '\n' =
          line + ((cs.take n).count '\n' + if (c == '\n') = true then 1 else 0) := by
        by_cases hc : c = '\n'
        · rw [if_pos hc, if_pos (beq_iff_eq.mpr hc)]
          omega
        · rw [if_neg hc, if_neg (by simpa using hc)]
          omega
      rw [hline, Nat.add_assoc, Nat.add_comm 1]

lemma count_take_add (text : List Char) (p n : Nat) :
    (text.take (p + n)).count '\n' = (text.take p).count '\n' + ((text.drop p).take n).count '\n' := by
  rw [List.take_add, List.count_append]

lemma pieces_lexeme {line start n : Nat} {c : Char} {cs : List Char} (hpos : 0 < n)
    (hn : n ≤ (c :: cs).length) :
    pieces (if c = '\n' then line + 1 else line) (start + 1) (n - 1) cs =
      pieces (line + ((c :: cs).take n).count '\n') (start + n) 0 ((c :: cs).drop n) := by
  have hall := pieces_past hn line start
  obtain ⟨m, rfl⟩ := Nat.exists_eq_succ_of_ne_zero (Nat.ne_of_gt hpos)
  rw [pieces] at hall
  rw [Nat.succ_sub_one, hall]

lemma pieces_past_lexeme {text : List Char} {p n : Nat} {c : Char} {cs : List Char}
    (hcs : text.drop p = c :: cs) (hpos : 0 < n) (hn : n ≤ (c :: cs).length) :
    pieces (if c = '\n' then 1 + (text.take p).count '\n' + 1 else 1 + (text.take p).count '\n')
      (p + 1) (n - 1) cs = pieces (1 + (text.take (p + n)).count '\n') (p + n) 0
        (text.drop (p + n)) := by
  rw [pieces_lexeme hpos hn, count_take_add, hcs, Nat.add_assoc, ← List.drop_drop, hcs]

section

variable {text : List Char}

lemma tiles_of_pieces (m : Nat) {p q : Nat} (hm : text.length - p ≤ m) (hp : p ≤ text.length)
    (hqp : q ≤ p) (hgap : Gap (text.drop q) (text.drop p)) {ps : List Piece}
    (h : pieces (1 + (text.take p).count '\n') p 0 (text.drop p) = .ok ps)
    (hlegal : ps.filterMap (·.illegal?) = []) :
    ∃ stops, Tiles text q (ps.filterMap (·.token?)) stops ∧
      ∀ t ∈ ps.filterMap (·.token?), t.line = 1 + (text.take t.start).count '\n' := by
  induction m generalizing p q ps with
  | zero =>
    have hnil : text.drop p = [] := List.drop_eq_nil_iff.mpr (by omega)
    rw [hnil] at h hgap
    obtain rfl := Except.ok.inj h
    exact ⟨[], .nil hgap, by simp⟩
  | succ m ih =>
    cases hcs : text.drop p with
    | nil =>
      rw [hcs] at h hgap
      obtain rfl := Except.ok.inj h
      exact ⟨[], .nil hgap, by simp⟩
    | cons c cs =>
      have hlength : cs.length + 1 = text.length - p := by
        rw [← List.length_drop, hcs, List.length_cons]
      -- What stands in front of a shorter rest of the text lengthens the gap.
      have hskip : ∀ {n}, 0 < n → n ≤ (c :: cs).length → Skips (c :: cs) ((c :: cs).drop n) →
          pieces (1 + (text.take (p + n)).count '\n') (p + n) 0 (text.drop (p + n)) = .ok ps →
          ∃ stops, Tiles text q (ps.filterMap (·.token?)) stops ∧
            ∀ t ∈ ps.filterMap (·.token?), t.line = 1 + (text.take t.start).count '\n' := by
        intro n hpos hn hskips hps
        rw [List.length_cons] at hn
        refine ih (by omega) (by omega) (by omega) (hgap.tail ?_) hps hlegal
        rwa [← List.drop_drop, hcs]
      rw [hcs, pieces] at h
      have hstart := start_lexemeAt c cs
      generalize hlex : lexemeAt c cs = lexeme at h hstart
      cases hstart with
      | blank hblank =>
        have hpast := pieces_past_lexeme hcs Nat.one_pos (by simp)
        exact hskip Nat.one_pos (by simp) (.blank hblank) (hpast ▸ h)
      | comment hn =>
        obtain ⟨hpos, hlen, hskips⟩ := commentLength?_skips hn
        exact hskip hpos hlen hskips (pieces_past_lexeme hcs hpos hlen ▸ h)
      | malformed => cases h
      | @token n k v hpos hline =>
        simp only [pieces_past_lexeme hcs hpos hline.1, bind, Except.bind] at h
        split at h
        · cases h
        rename_i rest hrest
        obtain rfl := Except.ok.inj h
        have hlen := hline.1
        rw [List.length_cons] at hlen
        obtain ⟨stops, htiles, hlines⟩ := ih (q := p + n) (p := p + n) (by omega) (by omega)
          (Nat.le_refl _) .refl hrest hlegal
        refine ⟨(p + n) :: stops, .cons hqp hgap ⟨⟨c, cs, hcs, ?_⟩, ?_, ?_, ?_⟩ htiles,
          List.forall_mem_cons.mpr ⟨rfl, hlines⟩⟩
        · rw [hlex, Nat.add_sub_cancel_left]
        · exact Nat.lt_add_of_pos_right hpos
        · omega
        · rw [hcs, Nat.add_sub_cancel_left]
          exact hline.2
      | illegal =>
        simp only [bind, Except.bind] at h
        split at h
        · cases h
        · obtain rfl := Except.ok.inj h
          cases hlegal

lemma Tiles.le_start {p : Nat} {ts : List Token} {stops : List Nat} (h : Tiles text p ts stops) :
    ∀ a ∈ ts.zip stops, p ≤ a.1.start := by
  induction h with
  | nil => simp
  | cons after _ ends _ ih =>
    intro a ha
    rcases List.mem_cons.mp ha with rfl | ha
    · exact after
    · have := ih a ha
      have := ends.nonempty
      omega

lemma Tiles.pairwise {p : Nat} {ts : List Token} {stops : List Nat} (h : Tiles text p ts stops) :
    (ts.zip stops).Pairwise fun a b => a.2 ≤ b.1.start := by
  induction h with
  | nil => exact .nil
  | cons _ _ _ rest ih => exact .cons rest.le_start ih

lemma Tiles.endsAt {p : Nat} {ts : List Token} {stops : List Nat} (h : Tiles text p ts stops) :
    ∀ t ∈ ts, ∃ stop, EndsAt text t stop := by
  induction h with
  | nil => simp
  | cons _ _ ends _ ih => exact List.forall_mem_cons.mpr ⟨⟨_, ends⟩, ih⟩

lemma Tiles.start_lt {p : Nat} {ts : List Token} {stops : List Nat} (h : Tiles text p ts stops) :
    ∀ t ∈ ts, t.start < text.length := by
  intro t ht
  obtain ⟨stop, hends⟩ := h.endsAt t ht
  exact Nat.lt_of_lt_of_le hends.nonempty hends.inside

end

end Token

lemma pieces_of_tokenize {source : String} {ts : List Token} (h : tokenize source = .ok ts) :
    ∃ ps, Token.pieces 1 0 0 source.toList = .ok ps ∧ ps.filterMap (·.illegal?) = [] ∧
      ps.filterMap (·.token?) = ts := by
  unfold tokenize at h
  dsimp only at h
  split at h
  · cases h
  · rename_i ps hps
    split at h
    · exact ⟨ps, hps, ‹_›, Except.ok.inj h⟩
    · cases h

lemma tiles_of_tokenize {source : String} {ts : List Token} (h : tokenize source = .ok ts) :
    ∃ stops, Token.Tiles source.toList 0 ts stops ∧
      ∀ t ∈ ts, Token.Position source.toList t.start t.line (columnOf source.toList t.start) := by
  obtain ⟨ps, hps, hlegal, rfl⟩ := pieces_of_tokenize h
  obtain ⟨stops, htiles, hlines⟩ := Token.tiles_of_pieces _ (p := 0) (Nat.le_refl _) (Nat.zero_le _)
    (Nat.le_refl _) .refl hps hlegal
  refine ⟨stops, htiles, fun t ht => ?_⟩
  rw [hlines t ht]
  exact Token.position_columnOf (htiles.start_lt t ht).le

/-- Tokens tile their text, and their lines and columns are those of the offsets where they start,
which no other offset of the text has. -/
theorem tokens_tile {source : String} {ts : List Token} (h : tokenize source = .ok ts) :
    ∃ stops, Token.Tiles source.toList 0 ts stops ∧
      ((ts.zip stops).Pairwise fun a b => a.2 ≤ b.1.start) ∧
      ∀ t ∈ ts, Token.Position source.toList t.start t.line (columnOf source.toList t.start) ∧
        ∀ p ≤ source.toList.length,
          Token.Position source.toList p t.line (columnOf source.toList t.start) → p = t.start := by
  obtain ⟨stops, htiles, hplaces⟩ := tiles_of_tokenize h
  refine ⟨stops, htiles, htiles.pairwise, fun t ht => ⟨hplaces t ht, fun p hp hplace => ?_⟩⟩
  exact hplace.unique (hplaces t ht) hp (htiles.start_lt t ht).le

theorem tokens_tile_comments :
    let text := "a /*\n*/ = b // c\n"
    let ts : List Token :=
      [⟨.ident, .text "a", 1, 0⟩, ⟨.mark "=", .text "=", 2, 8⟩, ⟨.ident, .text "b", 2, 10⟩]
    tokenize text = .ok ts ∧ ∃ stops, Token.Tiles text.toList 0 ts stops ∧
      ((ts.zip stops).Pairwise fun a b => a.2 ≤ b.1.start) ∧
      ∀ t ∈ ts, Token.Position text.toList t.start t.line (columnOf text.toList t.start) ∧
        ∀ p ≤ text.toList.length,
          Token.Position text.toList p t.line (columnOf text.toList t.start) → p = t.start :=
  ⟨rfl, tokens_tile rfl⟩

end LoopLowering
