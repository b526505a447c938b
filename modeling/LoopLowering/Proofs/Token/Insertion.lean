import LoopLowering.Proofs.Token.Boundary
import LoopLowering.Proofs.Token.Tiling

/-! Blanks put in front of a token or behind a text leave its tokens as they are. -/

namespace LoopLowering

namespace Token

open Text

section

variable {n : Nat} {c d : Char} {x y z w cs : List Char}

inductive Scans : Nat → Nat → List Char → List Token → Prop
  | nil {line start : Nat} : Scans line start [] []
  | skip {line start n : Nat} {c : Char} {cs : List Char} {ts : List Token}
      (lexeme : lexemeAt c cs = .blank ∧ n = 1 ∨ lexemeAt c cs = .comment n)
      (rest : Scans (line + ((c :: cs).take n).count '\n') (start + n) ((c :: cs).drop n) ts) :
      Scans line start (c :: cs) ts
  | token {line start n : Nat} {c : Char} {cs : List Char} {k : TokenKind} {v : Constant}
      {ts : List Token} (lexeme : lexemeAt c cs = .token k v n)
      (rest : Scans (line + ((c :: cs).take n).count '\n') (start + n) ((c :: cs).drop n) ts) :
      Scans line start (c :: cs) (⟨k, v, line, start⟩ :: ts)

lemma width_skip {lexeme : Lexeme} (h : lexeme = .blank ∧ n = 1 ∨ lexeme = .comment n) :
    lexeme.width = some n := by
  rcases h with ⟨rfl, rfl⟩ | rfl <;> rfl

lemma scans_iff {line start : Nat} {ts : List Token} :
    Scans line start cs ts ↔ ∃ ps, pieces line start 0 cs = .ok ps ∧
      ps.filterMap (·.illegal?) = [] ∧ ps.filterMap (·.token?) = ts := by
  constructor
  · intro h
    induction h with
    | nil => exact ⟨[], rfl, rfl, rfl⟩
    | @skip line start n c cs ts hlex _ ih =>
      obtain ⟨ps, hps, hlegal, htokens⟩ := ih
      refine ⟨ps, ?_, hlegal, htokens⟩
      have hwidth := width_skip hlex
      rw [← pieces_lexeme (width_pos hwidth).1 (width_pos hwidth).2] at hps
      rw [pieces]
      rcases hlex with ⟨hlex, rfl⟩ | hlex <;> rw [hlex] <;> exact hps
    | @token line start n c cs k v ts hlex _ ih =>
      obtain ⟨ps, hps, hlegal, htokens⟩ := ih
      have hwidth : (lexemeAt c cs).width = some n := by rw [hlex, Lexeme.width]
      rw [← pieces_lexeme (width_pos hwidth).1 (width_pos hwidth).2] at hps
      refine ⟨.token ⟨k, v, line, start⟩ :: ps, ?_, by simpa [Piece.illegal?] using hlegal,
        by rw [← htokens]; rfl⟩
      rw [pieces, hlex]
      simp only [hps]
      rfl
  · rintro ⟨ps, hps, hlegal, rfl⟩
    induction hn : cs.length using Nat.strongRecOn generalizing cs line start ps with
    | ind n ih =>
      subst hn
      cases cs with
      | nil =>
        obtain rfl := Except.ok.inj hps
        exact .nil
      | cons c cs =>
        -- What a lexeme leaves of the text is shorter.
        have hrest : ∀ {n ps}, (lexemeAt c cs).width = some n →
            pieces (if c = '\n' then line + 1 else line) (start + 1) (n - 1) cs = .ok ps →
            ps.filterMap (·.illegal?) = [] → Scans (line + ((c :: cs).take n).count '\n') (start + n)
              ((c :: cs).drop n) (ps.filterMap (·.token?)) := by
          intro n ps hwidth hps hlegal
          obtain ⟨hpos, hle⟩ := width_pos hwidth
          rw [pieces_lexeme hpos hle] at hps
          refine ih _ ?_ ps hps hlegal rfl
          rw [List.length_drop, List.length_cons]
          omega
        rw [pieces] at hps
        cases hlex : lexemeAt c cs with
        | blank =>
          rw [hlex] at hps
          exact .skip (.inl ⟨hlex, rfl⟩) (hrest (by rw [hlex, Lexeme.width]) hps hlegal)
        | comment n =>
          rw [hlex] at hps
          exact .skip (.inr hlex) (hrest (by rw [hlex, Lexeme.width]) hps hlegal)
        | malformed =>
          rw [hlex] at hps
          cases hps
        | illegal =>
          simp only [hlex, bind, Except.bind] at hps
          split at hps
          · cases hps
          · obtain rfl := Except.ok.inj hps
            cases hlegal
        | token k v n =>
          simp only [hlex, bind, Except.bind] at hps
          split at hps
          · cases hps
          · rename_i ps hps'
            obtain rfl := Except.ok.inj hps
            exact .token hlex (hrest (by rw [hlex, Lexeme.width]) hps' hlegal)

def moved (lines characters : Nat) (t : Token) : Token :=
  { t with line := t.line + lines, start := t.start + characters }

def shifted (p lines characters : Nat) (t : Token) : Token :=
  if p ≤ t.start then t.moved lines characters else t

namespace Scans

variable {line start a b : Nat} {ts : List Token} {t : Token}

lemma moved (h : Scans line start cs ts) :
    Scans (line + a) (start + b) cs (ts.map (Token.moved a b)) := by
  induction h with
  | nil => exact .nil
  | skip hlex _ ih =>
    refine .skip hlex ?_
    rwa [Nat.add_right_comm _ a, Nat.add_right_comm _ b]
  | token hlex _ ih =>
    refine .token hlex ?_
    rwa [Nat.add_right_comm _ a, Nat.add_right_comm _ b]

lemma blanks (hw : ∀ d ∈ w, isBlankOrNewline d = true)
    (h : Scans (line + w.count '\n') (start + w.length) y ts) : Scans line start (w ++ y) ts := by
  induction w generalizing line start with
  | nil => exact h
  | cons d w ih =>
    obtain ⟨hd, hw⟩ := List.forall_mem_cons.mp hw
    have hlex : lexemeAt d (w ++ y) = .blank := by simp [lexemeAt, hd]
    refine .skip (.inl ⟨hlex, rfl⟩) (ih hw ?_)
    rw [List.count_cons, List.length_cons] at h
    rw [List.take_succ_cons, List.take_zero, List.count_cons, List.count_nil, Nat.zero_add,
      Nat.add_assoc, Nat.add_assoc, Nat.add_comm 1, Nat.add_comm (ite ..)]
    exact h

lemma le_start (h : Scans line start cs ts) : ∀ t ∈ ts, start ≤ t.start := by
  induction h with
  | nil => simp
  | skip _ _ ih => exact fun t ht => Nat.le_trans (Nat.le_add_right ..) (ih t ht)
  | token _ _ ih =>
    exact List.forall_mem_cons.mpr
      ⟨Nat.le_refl _, fun t ht => Nat.le_trans (Nat.le_add_right ..) (ih t ht)⟩

lemma shifted_of_le (h : Scans line start cs ts) (hp : b ≤ start) :
    ts.map (Token.shifted b a n) = ts.map (Token.moved a n) :=
  List.map_congr_left fun t ht => if_pos (Nat.le_trans hp (h.le_start t ht))

lemma no_blank (h : Scans line start (c :: cs) ts) (ht : t ∈ ts) (hstart : t.start = start) :
    isBlankOrNewline c = false := by
  cases h with
  | @skip _ _ n _ _ _ hlex rest =>
    have := rest.le_start t ht
    have := width_pos (width_skip hlex)
    omega
  | token hlex _ =>
    by_contra hblank
    rw [Bool.not_eq_false] at hblank
    simp [lexemeAt, hblank] at hlex

lemma within (hy : y = [] ∨ ∃ t ∈ ts, t.start = start + (c :: x).length)
    (hwidth : (lexemeAt c (x ++ y)).width = some n)
    (hrest : ∀ t ∈ ts, t.start = start ∨ start + n ≤ t.start) : n ≤ x.length + 1 := by
  rcases hy with rfl | ⟨t, ht, hstart⟩
  · rw [← List.length_cons (a := c), ← List.append_nil x]
    exact (width_pos hwidth).2
  · rw [List.length_cons] at hstart
    rcases hrest t ht with h | h <;> omega

lemma cut (hn : n ≤ x.length + 1) : (c :: (x ++ y)).take n = (c :: x).take n ∧
    (c :: (x ++ y)).drop n = (c :: x).drop n ++ y := by
  rw [← List.cons_append]
  exact ⟨List.take_append_of_le_length hn, List.drop_append_of_le_length hn⟩

lemma behind (hn : n ≤ x.length + 1) (h : Scans (line + ((c :: x).take n).count '\n') (start + n)
    ((c :: x).drop n ++ y) ts) : Scans (line + ((c :: (x ++ y)).take n).count '\n') (start + n)
      ((c :: (x ++ y)).drop n) ts := by
  obtain ⟨htake, hdrop⟩ := cut (c := c) (y := y) hn
  rwa [htake, hdrop]

lemma longer_comment {m : Nat} (hw : ∀ d ∈ w, isBlankOrNewline d = true)
    (h : commentLength? (c :: (x ++ w)) = some (x.length + 1 + m)) :
    Scans line start (c :: (x ++ w)) [] := by
  refine .skip (.inr (lexemeAt_comment h)) ?_
  have hblanks : (c :: (x ++ w)).drop (x.length + 1 + m) = w.drop m ++ [] := by
    rw [← List.drop_drop, ← List.cons_append, ← List.length_cons (a := c), List.drop_left,
      List.append_nil]
  rw [hblanks]
  exact .blanks (fun d hd => hw d (List.mem_of_mem_drop hd)) .nil

lemma insert (hw : ∀ d ∈ w, isBlankOrNewline d = true) (hne : w ≠ []) (h : Scans line start cs ts)
    (hcs : cs = x ++ y) (hy : y = [] ∨ ∃ t ∈ ts, t.start = start + x.length) :
    Scans line start (x ++ (w ++ y))
      (ts.map (Token.shifted (start + x.length) (w.count '\n') w.length)) := by
  have hfront : ∀ {line start ts}, Scans line start y ts →
      Scans line start (w ++ y) (ts.map (Token.shifted start (w.count '\n') w.length)) := by
    intro line start ts h
    rw [h.shifted_of_le (Nat.le_refl _)]
    exact .blanks hw h.moved
  -- The place of the blanks, seen from behind a lexeme of `n` characters.
  have hplace : ∀ {n : Nat} {c : Char} {x : List Char} (start : Nat), n ≤ x.length + 1 →
      start + n + ((c :: x).drop n).length = start + (c :: x).length := by
    intro n c x start hn
    rw [List.length_drop, List.length_cons]
    omega
  induction h generalizing x with
  | nil =>
    obtain ⟨rfl, rfl⟩ := List.append_eq_nil_iff.mp hcs.symm
    exact hfront .nil
  | @skip line start n c cs ts hlex rest ih =>
    cases x with
    | nil =>
      rw [List.nil_append] at hcs
      exact hfront (hcs ▸ Scans.skip hlex rest)
    | cons e x =>
      rw [List.cons_append] at hcs
      obtain ⟨rfl, rfl⟩ := List.cons.inj hcs
      have hwidth := width_skip hlex
      have hn := within hy hwidth fun t ht => .inr (rest.le_start t ht)
      obtain ⟨htake, hdrop⟩ := cut (c := c) (y := y) hn
      by_cases hcomment : commentLength? (c :: (x ++ y)) = some n →
          commentLength? (c :: (x ++ (w ++ y))) = some n
      · have hkept := lexemeAt_blank (c := c) (y := y) hw hne hn hcomment hwidth
          (by rcases hlex with ⟨hlex, rfl⟩ | hlex <;> rw [hlex] <;> nofun)
        have hrest := ih hdrop (hplace start hn ▸ hy)
        rw [hplace start hn, htake] at hrest
        exact .skip (hkept ▸ hlex) (behind hn hrest)
      · obtain ⟨hold, hnew⟩ := Classical.not_imp.mp hcomment
        obtain ⟨rfl, hnewline, m, -, hlonger⟩ :=
          (commentLength?_append hold hn (w ++ y)).resolve_left hnew
        have hnone : (c :: x).drop (x.length + 1) = [] := List.drop_length
        rw [hdrop, hnone, List.nil_append] at rest
        cases y with
        | cons d y =>
          obtain rfl := hnewline d rfl
          rcases hy with hy | ⟨t, ht, hstart⟩
          · cases hy
          · cases rest.no_blank ht hstart
        | nil =>
          cases rest
          rw [List.append_nil] at hlonger ⊢
          exact longer_comment hw hlonger
  | @token line start n c cs k v ts hlex rest ih =>
    cases x with
    | nil =>
      rw [List.nil_append] at hcs
      exact hfront (hcs ▸ Scans.token hlex rest)
    | cons e x =>
      rw [List.cons_append] at hcs
      obtain ⟨rfl, rfl⟩ := List.cons.inj hcs
      have hwidth : (lexemeAt c (x ++ y)).width = some n := by rw [hlex, Lexeme.width]
      have hn := within hy hwidth (List.forall_mem_cons.mpr
        ⟨.inl rfl, fun t ht => .inr (rest.le_start t ht)⟩)
      obtain ⟨htake, hdrop⟩ := cut (c := c) (y := y) hn
      have hkept := lexemeAt_blank (c := c) (y := y) hw hne hn (fun hcomment => by
        rw [lexemeAt_comment hcomment] at hlex
        cases hlex) hwidth (by rw [hlex]; nofun)
      have hbehind : y = [] ∨ ∃ t ∈ ts, t.start = start + (c :: x).length := by
        refine hy.imp_right fun ⟨t, ht, hstart⟩ => ⟨t, (List.mem_cons.mp ht).resolve_left ?_, hstart⟩
        rintro rfl
        simp at hstart
      have hrest := ih hdrop (hplace start hn ▸ hbehind)
      rw [hplace start hn, htake] at hrest
      rw [List.map_cons, Token.shifted, if_neg (by simp)]
      exact .token (hkept.trans hlex) (behind hn hrest)

end Scans

end

end Token

lemma tokenize_ok_iff {source : String} {ts : List Token} :
    tokenize source = .ok ts ↔ Token.Scans 1 0 source.toList ts := by
  rw [Token.scans_iff]
  constructor
  · exact pieces_of_tokenize
  · rintro ⟨ps, hps, hlegal, rfl⟩
    simp only [tokenize, hps, hlegal]

/-- A text with another one put in front of its character at an offset. -/
def insertAt (source : String) (p : Nat) (w : String) : String :=
  String.ofList (source.toList.take p ++ (w.toList ++ source.toList.drop p))

lemma tokenize_insertAt {source w : String} {ts : List Token} {p : Nat}
    (h : tokenize source = .ok ts) (hp : p = source.length ∨ ∃ t ∈ ts, t.start = p)
    (hw : ∀ d ∈ w.toList, Token.isBlankOrNewline d = true) :
    tokenize (insertAt source p w) =
      .ok (ts.map (Token.shifted p (w.toList.count '\n') w.length)) := by
  obtain ⟨stops, htiles, -⟩ := tiles_of_tokenize h
  rw [tokenize_ok_iff] at h ⊢
  rw [insertAt, String.toList_ofList]
  by_cases hne : w.toList = []
  · have hlength : w.length = 0 := by rw [← String.length_toList, hne, List.length_nil]
    have hmap : ts.map (Token.shifted p (w.toList.count '\n') w.length) = ts := by
      rw [hne, hlength]
      refine (List.map_congr_left fun t _ => ?_).trans (List.map_id ts)
      rw [Token.shifted]
      split <;> rfl
    rwa [hmap, hne, List.nil_append, List.take_append_drop]
  · have hle : p ≤ source.toList.length := by
      rcases hp with rfl | ⟨t, ht, rfl⟩
      · rw [String.length_toList]
      · exact (htiles.start_lt t ht).le
    have hlength : (source.toList.take p).length = p := by rw [List.length_take, Nat.min_eq_left hle]
    have hinsert := h.insert hw hne (List.take_append_drop p source.toList).symm (hp.imp ?_ ?_)
    · rwa [hlength, Nat.zero_add, String.length_toList] at hinsert
    · rintro rfl
      rw [← String.length_toList, List.drop_length]
    · rintro ⟨t, ht, rfl⟩
      exact ⟨t, ht, by rw [hlength, Nat.zero_add]⟩

end LoopLowering
