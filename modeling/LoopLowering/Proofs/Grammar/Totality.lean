import LoopLowering.Proofs.Grammar.DeclarationDeciding
import LoopLowering.Proofs.Token.Tiling

/-! Every text that is split into tokens is read up to its end or rejected at one of its tokens. -/

namespace LoopLowering

lemma Token.EndsAt.inner {text : List Char} {t : Token} {stop : Nat} (h : Token.EndsAt text t stop) :
    t.kind ≠ .finish := by
  obtain ⟨c, cs, -, hlex⟩ := h.lexeme
  have hstart := Token.start_lexemeAt c cs
  rw [hlex] at hstart
  cases hstart with
  | token _ _ inner => exact inner

lemma inner_of_tokenize {source : String} {ts : List Token} (h : tokenize source = .ok ts) :
    ∀ t ∈ ts, t.kind ≠ .finish := by
  obtain ⟨stops, htiles, -⟩ := tiles_of_tokenize h
  intro t ht
  obtain ⟨stop, hends⟩ := htiles.endsAt t ht
  exact hends.inner

namespace Grammar

/-- The token that ends a text. -/
def endOf (source : String) (ts : List Token) : Token :=
  ⟨.finish, .null, (ts.getLast?.map (·.line)).getD 1, source.length⟩

lemma ended_closed {source : String} {ts : List Token} (h : tokenize source = .ok ts) :
    Ended (closed source ts) :=
  have hend : Ended [endOf source ts] := by rw [Ended, if_pos]; rfl
  .append (inner_of_tokenize h) hend

/-- What comes of reading a text: all its tokens are read and only the end is left, or one of them is
rejected. This takes no larger bound than `parse` gives, and does not depend on what might stand
behind the end. -/
inductive Reading (k : TextKind) (source : String) (ts : List Token) : Prop
  | read (tree : Node) (result : parse k source = .ok tree)
      (run : ∀ n beyond, nesting (closed source ts) ≤ n →
        (whole k n).run (ts ++ endOf source ts :: beyond) = .ok (tree, endOf source ts :: beyond))
  | rejected (cause : Cause) (found : Token) (known : found ∈ closed source ts)
      (result : parse k source =
        .error (.rejected ((Failure.rejected cause found).diagnostic source.toList)))
      (run : ∀ n beyond, nesting (closed source ts) ≤ n →
        (whole k n).run (ts ++ endOf source ts :: beyond) = .error (.rejected cause found))

end Grammar

open Grammar

lemma reading_of_tokenize (k : TextKind) {source : String} {ts : List Token}
    (h : tokenize source = .ok ts) : Reading k source ts := by
  have hended := ended_closed h
  have hclosed (beyond : List Token) :
      ts ++ endOf source ts :: beyond = closed source ts ++ beyond := by
    rw [closed, List.append_assoc]
    rfl
  have hbound : 16 * (closed source ts).length + 13 ≤ nesting (closed source ts) :=
    Nat.add_le_add_left (by decide) _
  have hdecides (n : Nat) (hn : nesting (closed source ts) ≤ n) (beyond : List Token) :=
    @whole_decides beyond k _ n (closed source ts) hbound hn hended (List.suffix_refl _)
  rcases hdecides _ (Nat.le_refl _) [] with ⟨tree, rest, hrun, -⟩ | ⟨cause, found, hfound, hrun, -⟩
  · have hparse : parse k source = .ok tree := by
      simp only [parse, h, bind, Except.bind, StateT.run, hrun]
      rfl
    refine .read tree hparse fun n beyond hn => ?_
    rcases hdecides n hn beyond with ⟨tree', rest', hrun', hbeyond, -, hsuffix, hlen⟩ |
      ⟨_, _, _, hrun', -⟩
    · obtain ⟨rfl, rfl⟩ := Prod.mk.inj (Except.ok.inj (hrun.symm.trans hrun'))
      -- One token is left of those of the text, so it is the last.
      obtain rfl : rest = [endOf source ts] :=
        (List.suffix_of_suffix_length_le hsuffix (List.suffix_append _ _) (by simp [hlen])).eq_of_length
          (by simp [hlen])
      rw [hclosed]
      exact hbeyond
    · rw [hrun] at hrun'
      cases hrun'
  · have hparse : parse k source =
        .error (.rejected ((Failure.rejected cause found).diagnostic source.toList)) := by
      simp only [parse, h, bind, Except.bind, StateT.run, hrun]
      rfl
    refine .rejected cause found hfound hparse fun n beyond hn => ?_
    rcases hdecides n hn beyond with ⟨_, _, hrun', -⟩ | ⟨cause', found', -, hrun', hbeyond⟩
    · rw [hrun] at hrun'
      cases hrun'
    · obtain ⟨rfl, rfl⟩ := Failure.rejected.inj (Except.error.inj (hrun.symm.trans hrun'))
      rw [hclosed]
      exact hbeyond

/-- A text that is split into tokens is read to the end of its tokens, or one of these is rejected. -/
theorem parse_reads_or_rejects (k : TextKind) {source : String} {ts : List Token}
    (h : tokenize source = .ok ts) : (∀ t ∈ ts, t.kind ≠ .finish) ∧ Reading k source ts :=
  ⟨inner_of_tokenize h, reading_of_tokenize k h⟩

theorem parse_reads_or_rejects_sum :
    tokenize "x +" = .ok [⟨.ident, .text "x", 1, 0⟩, ⟨.mark "+", .text "+", 1, 2⟩] ∧
      Reading .expression "x +" [⟨.ident, .text "x", 1, 0⟩, ⟨.mark "+", .text "+", 1, 2⟩] :=
  ⟨rfl, (parse_reads_or_rejects .expression rfl).2⟩

end LoopLowering
