import LoopLowering.Grammar.Expression
import Mathlib.Data.List.Basic

/-! Texts and the tokens that they spell. What a text spells may depend on the character behind it;
where texts are put together, the tokens of the whole are those of the parts. -/

namespace LoopLowering

/-- What holds of the characters of a list, tested one by one: where the type of characters is known
to be finite, deciding the statement itself would go through all of them. -/
lemma forall_mem_of_all {cs : List Char} {p : Char → Prop} [DecidablePred p]
    (h : cs.all (fun c => decide (p c)) = true) : ∀ c ∈ cs, p c := by
  simpa using h

structure Item where
  kind : TokenKind
  value : Constant
  glued : Bool := false

namespace Item

def mark (m : String) : Item := ⟨.mark m, .text m, false⟩

def word (w : String) : Item := ⟨.word w, .text w, false⟩

def name (x : String) : Item := ⟨.ident, .text x, false⟩

end Item

inductive Realizes : List Item → List Token → Prop
  | nil : Realizes [] []
  | cons {i : Item} {t : Token} {is : List Item} {ts : List Token} (kind : t.kind = i.kind)
      (value : t.value = i.value)
      (glue : ∀ j ∈ is.head?, j.glued = true → ∀ u ∈ ts.head?, Grammar.touches t u = true)
      (rest : Realizes is ts) : Realizes (i :: is) (t :: ts)

namespace Realizes

lemma length {is : List Item} {ts : List Token} (h : Realizes is ts) : ts.length = is.length := by
  induction h with
  | nil => rfl
  | cons _ _ _ _ ih => rw [List.length_cons, List.length_cons, ih]

lemma of_append {a b : List Item} {ts : List Token} (h : Realizes (a ++ b) ts) :
    ∃ us vs, ts = us ++ vs ∧ Realizes a us ∧ Realizes b vs := by
  induction a generalizing ts with
  | nil => exact ⟨[], ts, rfl, .nil, h⟩
  | cons i a ih =>
    cases h with
    | cons kind value glue rest =>
      obtain ⟨us, vs, rfl, hu, hv⟩ := ih rest
      refine ⟨_ :: us, vs, rfl, .cons kind value ?_ hu, hv⟩
      intro j hj hglued u hut
      refine glue j ?_ hglued u ?_
      · cases a with
        | nil => cases hj
        | cons k a => exact hj
      · cases us with
        | nil => cases hut
        | cons w us => exact hut

lemma append {as bs : List Item} {us vs : List Token} (ha : Realizes as us) (hb : Realizes bs vs)
    (hfree : ∀ j ∈ bs.head?, j.glued = false) : Realizes (as ++ bs) (us ++ vs) := by
  induction ha with
  | nil => exact hb
  | @cons i t is ts kind value glue rest ih =>
    refine .cons kind value ?_ ih
    intro j hj hglued u hu
    cases rest with
    | nil =>
      rw [hfree j hj] at hglued
      cases hglued
    | cons => exact glue j hj hglued u hu

lemma of_cons {i : Item} {is : List Item} {ts : List Token} (h : Realizes (i :: is) ts) :
    ∃ t us, ts = t :: us ∧ t.kind = i.kind ∧ t.value = i.value ∧ Realizes is us := by
  cases h with
  | cons kind value glue rest => exact ⟨_, _, rfl, kind, value, rest⟩

end Realizes

/-- A text spells items if it is read as these items whenever what follows it is allowed. -/
structure Spells (cs : List Char) (is : List Item) (next : Option Char → Prop) : Prop where
  free : ∀ j ∈ is.head?, j.glued = false
  read : ∀ rest : List Char, next rest.head? → ∀ line start, ∃ ts line', Realizes is ts ∧
    Token.pieces line start 0 (cs ++ rest) =
      (ts.map Token.Piece.token ++ ·) <$> Token.pieces line' (start + cs.length) 0 rest

namespace Token

lemma pieces_skip (line start : Nat) (cs rest : List Char) :
    ∃ line', pieces line start cs.length (cs ++ rest) =
      pieces line' (start + cs.length) 0 rest := by
  induction cs generalizing line start with
  | nil => exact ⟨line, rfl⟩
  | cons c cs ih =>
    obtain ⟨line', h⟩ := ih (if c = '\n' then line + 1 else line) (start + 1)
    refine ⟨line', ?_⟩
    have hstart : start + (c :: cs).length = start + 1 + cs.length := by
      rw [List.length_cons]
      omega
    rw [hstart, ← h]
    rfl

lemma pieces_token {c : Char} {l r : List Char} {k : TokenKind} {v : Constant}
    (h : lexemeAt c (l ++ r) = .token k v (l.length + 1)) (line start : Nat) :
    ∃ line', pieces line start 0 (c :: l ++ r) =
      (.token ⟨k, v, line, start⟩ :: ·) <$>
        pieces line' (start + (c :: l).length) 0 r := by
  obtain ⟨line', hskip⟩ := pieces_skip (if c = '\n' then line + 1 else line) (start + 1) l r
  refine ⟨line', ?_⟩
  have hstart : start + (c :: l).length = start + 1 + l.length := by
    rw [List.length_cons]
    omega
  rw [hstart, ← hskip, List.cons_append, pieces]
  simp only [h, Nat.add_sub_cancel]
  rfl

end Token

namespace Spells

variable {cs ds : List Char} {is js : List Item} {next after : Option Char → Prop}

lemma mono (h : Spells cs is next) (hnext : ∀ c, after c → next c) : Spells cs is after :=
  ⟨h.free, fun rest hrest => h.read rest (hnext _ hrest)⟩

lemma nil (next : Option Char → Prop) : Spells [] [] next :=
  ⟨by simp, fun rest _ line start => ⟨[], line, .nil, by simp⟩⟩

lemma append (ha : Spells cs is next) (hb : Spells ds js after)
    (hnext : ∀ rest : List Char, after rest.head? → next (ds ++ rest).head?) :
    Spells (cs ++ ds) (is ++ js) after := by
  refine ⟨fun j hj => ?_, fun rest hrest line start => ?_⟩
  · cases is with
    | nil => exact hb.free j hj
    | cons i is => exact ha.free j hj
  · obtain ⟨us, l, hu, hus⟩ := ha.read (ds ++ rest) (hnext rest hrest) line start
    obtain ⟨vs, l', hv, hvs⟩ := hb.read rest hrest l (start + cs.length)
    refine ⟨us ++ vs, l', hu.append hv hb.free, ?_⟩
    rw [List.append_assoc, hus, hvs, List.length_append, ← Nat.add_assoc, ← comp_map,
      Function.comp_def]
    simp [List.append_assoc]

lemma append_cons {d : Char} (ha : Spells cs is next) (hb : Spells (d :: ds) js after)
    (hnext : next (some d)) : Spells (cs ++ d :: ds) (is ++ js) after :=
  ha.append hb fun _ _ => hnext

lemma blank {c : Char} (hc : Token.isBlankOrNewline c = true) (next : Option Char → Prop) :
    Spells [c] [] next := by
  refine ⟨by simp, fun rest _ line start => ⟨[], if c = '\n' then line + 1 else line, .nil, ?_⟩⟩
  rw [List.singleton_append, Token.pieces]
  simp [Token.lexemeAt, hc]

lemma blanks {n : Nat} (next : Option Char → Prop) : Spells (List.replicate n ' ') [] next := by
  induction n with
  | zero => exact nil next
  | succ n ih => exact (blank (c := ' ') rfl fun _ => True).append ih fun _ _ => trivial

lemma token {c : Char} {k : TokenKind} {v : Constant}
    (h : ∀ rest : List Char, next rest.head? →
      Token.lexemeAt c (cs ++ rest) = .token k v (cs.length + 1)) :
    Spells (c :: cs) [⟨k, v, false⟩] next := by
  refine ⟨by simp, fun rest hrest line start => ?_⟩
  obtain ⟨line', hread⟩ := Token.pieces_token (h rest hrest) line start
  exact ⟨[⟨k, v, line, start⟩], line', .cons rfl rfl (by simp) .nil, hread⟩

end Spells

def SpellsAtOnce (cs : List Char) (is : List Item) (next : Option Char → Prop) : Prop :=
  ∀ rest : List Char, next rest.head? → ∀ line start, ∃ t ts line', t.start = start ∧
    Realizes is (t :: ts) ∧ Token.pieces line start 0 (cs ++ rest) =
      ((t :: ts).map Token.Piece.token ++ ·) <$> Token.pieces line' (start + cs.length) 0 rest

namespace SpellsAtOnce

variable {c : Char} {cs : List Char} {is : List Item} {next : Option Char → Prop} {k : TokenKind}
  {v : Constant}

lemma token (glued : Bool) (h : ∀ rest : List Char, next rest.head? →
    Token.lexemeAt c (cs ++ rest) = .token k v (cs.length + 1)) :
    SpellsAtOnce (c :: cs) [⟨k, v, glued⟩] next := by
  intro rest hrest line start
  obtain ⟨line', hread⟩ := Token.pieces_token (h rest hrest) line start
  exact ⟨⟨k, v, line, start⟩, [], line', rfl, .cons rfl rfl (by simp) .nil, hread⟩

lemma cons (glued : Bool) (h : ∀ rest : List Char, next rest.head? →
    Token.lexemeAt c (cs ++ rest) = .token k v 1) (hs : SpellsAtOnce cs is next) :
    SpellsAtOnce (c :: cs) (⟨k, v, glued⟩ :: is) next := by
  intro rest hrest line start
  obtain ⟨line', hread⟩ := Token.pieces_token (c := c) (l := []) (r := cs ++ rest) (h rest hrest)
    line start
  obtain ⟨t, ts, line'', hstart, hreal, hrest⟩ := hs rest hrest line' (start + 1)
  refine ⟨⟨k, v, line, start⟩, t :: ts, line'', rfl, .cons rfl rfl ?_ hreal, ?_⟩
  · rintro j _ _ u ⟨⟩
    exact decide_eq_true hstart
  · rw [List.length_singleton, hrest, ← comp_map] at hread
    rw [List.length_cons, Nat.add_comm cs.length, ← Nat.add_assoc]
    exact hread

lemma spells (hs : SpellsAtOnce cs is next) (free : ∀ j ∈ is.head?, j.glued = false) :
    Spells cs is next := by
  refine ⟨free, fun rest hrest line start => ?_⟩
  obtain ⟨t, ts, line', -, hreal, hread⟩ := hs rest hrest line start
  exact ⟨t :: ts, line', hreal, hread⟩

end SpellsAtOnce

end LoopLowering
