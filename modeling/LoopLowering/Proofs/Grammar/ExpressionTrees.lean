import LoopLowering.Proofs.Grammar.ExpressionReading
import LoopLowering.Proofs.Grammar.Taking
import Mathlib.Tactic.IntervalCases

/-! What the rules for expressions read: trees in which each operand binds as tightly as its place
asks for. Their text begins with the tokens they were read from, at least as far as these could be
the tokens of a type. -/

namespace LoopLowering

open Grammar Layout

namespace Item

def front (is : List Item) : List Item := is.takeWhile fun i => typeKinds.contains i.kind

lemma front_append_of_eq {is : List Item} (h : front is = is) (js : List Item) :
    front (is ++ js) = is ++ front js :=
  List.takeWhile_append_of_pos fun _ hi => List.takeWhile_eq_self_iff.mp h _ hi

lemma front_append_of_ne {is : List Item} (h : front is ≠ is) (js : List Item) :
    front (is ++ js) = front is := by
  rw [front, List.takeWhile_append, if_neg]
  · rfl
  · exact fun hlen => h ((List.takeWhile_prefix _).eq_of_length hlen)

lemma front_of_notMem {i : Item} (h : i.kind ∉ typeKinds) (is : List Item) :
    front (i :: is) = [] := by
  rw [front, List.takeWhile_cons, List.contains_eq_mem, decide_eq_false h, if_neg (by simp)]

end Item

structure Covers (is : List Item) (ts : List Token) : Prop where
  front : (Item.front is).map Item.face <+: ts.map Token.face
  all : Item.front is = is → Shows is ts

lemma Shows.covers {is : List Item} {ts : List Token} (h : Shows is ts) : Covers is ts :=
  ⟨h ▸ (List.takeWhile_prefix _).map _, fun _ => h⟩

namespace Covers

variable {is js : List Item} {ts us : List Token}

lemma stop {i : Item} (h : i.kind ∉ typeKinds) (is : List Item) (ts : List Token) :
    Covers (i :: is) ts := by
  have hfront := Item.front_of_notMem h is
  exact ⟨by simp [hfront], fun heq => by simp [hfront] at heq⟩

lemma append (h : Covers is ts) (h' : Covers js us) : Covers (is ++ js) (ts ++ us) := by
  by_cases hall : Item.front is = is
  · have hshow := h.all hall
    rw [Shows] at hshow
    constructor
    · rw [Item.front_append_of_eq hall, List.map_append, List.map_append, hshow]
      exact (List.prefix_append_right_inj _).mpr h'.front
    · intro heq
      rw [Item.front_append_of_eq hall] at heq
      exact (h.all hall).append (h'.all (List.append_cancel_left heq))
  · have hfront := Item.front_append_of_ne hall js
    constructor
    · rw [hfront, List.map_append]
      exact h.front.trans (List.prefix_append _ _)
    · intro heq
      rw [hfront] at heq
      have hlen := (List.takeWhile_prefix (l := is) fun i => typeKinds.contains i.kind).length_le
      have hsum := congrArg List.length heq
      rw [List.length_append] at hsum
      refine absurd ((List.takeWhile_prefix _).eq_of_length ?_) hall
      rw [Item.front] at hsum
      omega

lemma cons {t : Token} {i : Item} (h : t.face = i.face) (h' : Covers is ts) :
    Covers (i :: is) (t :: ts) := by
  have hone : Covers [i] [t] := Shows.covers (.cons h .nil)
  exact hone.append h'

lemma append_stop (h : Covers is ts) {i : Item} (hi : i.kind ∉ typeKinds) (js : List Item)
    (us : List Token) : Covers (is ++ i :: js) (ts ++ us) :=
  h.append (stop hi js us)

lemma bracketed {e : Node} (least : Nat) (h : Covers e.items ts) :
    Covers (bracketed least e).items ts := by
  rw [Layout.bracketed]
  split
  · exact stop (by decide) _ _
  · exact h

end Covers

lemma Grammar.Declares.of_covers {is : List Item} {ts : List Token} (hc : Covers is ts)
    (h : Declares (is.map Item.face)) : Declares (ts.map Token.face) := by
  obtain ⟨ty, x, hty, l, hl⟩ := h
  refine ⟨ty, x, hty, List.IsPrefix.trans ?_ hc.front⟩
  obtain ⟨us, vs, rfl, hus, -⟩ := List.map_eq_append_iff.mp hl.symm
  -- All these items can stand in a type, so they come before the first that cannot.
  have hin : ∀ i ∈ us, typeKinds.contains i.kind = true := by
    intro i hi
    have hface : i.face ∈ (ty.items ++ [Item.name x]).map Item.face := hus ▸ List.mem_map_of_mem hi
    obtain ⟨j, hj, hji⟩ := List.mem_map.mp hface
    have hkind : j.kind ∈ typeKinds := by
      rcases List.mem_append.mp hj with hj | hj
      · exact (typeTree_ofType hty j hj).1
      · rw [List.mem_singleton.mp hj]
        exact List.mem_cons_self
    have hkinds : j.kind = i.kind := congrArg Prod.fst hji
    rw [List.contains_iff_mem, ← hkinds]
    exact hkind
  rw [Item.front, List.takeWhile_append_of_pos hin, ← hus]
  exact (List.prefix_append _ _).map _

lemma Grammar.Declares.mono {fs gs : List (TokenKind × Constant)} (h : Declares fs)
    (hfs : fs <+: gs) : Declares gs := by
  obtain ⟨ty, x, hty, hl⟩ := h
  exact ⟨ty, x, hty, hl.trans hfs⟩

namespace Layout

def Placed : Shape Node → Prop
  | .fieldAccess _ e => Precedence.counted ≤ precedence e
  | .arrayAccess e _ => Precedence.counted ≤ precedence e
  | .methodCall x (some e) as => Precedence.counted ≤ precedence e ∨ x = "iterator" ∧ as = []
  | .assign _ l r => Grammar.isTarget l = true ∧ Precedence.assign ≤ precedence r
  | .binary op l r =>
    ∃ p, Precedence.binary op = some p ∧ p ≤ precedence l ∧ p + 1 ≤ precedence r
  | .conditional c a b => Fits (.conditional c a b) ∧ Precedence.assign ≤ precedence a
  | s => Fits s

end Layout

namespace Node

/-- Whether a statement ends with a conditional that an `else` could follow. -/
def endsOpen : Node → Bool :=
  fold fun _ s =>
    match s with
    | .ifElse _ _ none => true
    | .ifElse _ _ (some b) | .whileLoop _ b | .forLoop _ _ _ b | .forEach _ _ b | .labeled _ b => b
    | _ => false

end Node

def Stated : Shape Node → Prop
  | .exprStmt e => ¬ Declares (e.reread.items.map Item.face)
  | .ifElse _ a (some _) => a.endsOpen = false
  | _ => True

structure Sound (s : Shape Node) : Prop where
  clear : Clear s
  placed : Placed s
  stated : Stated s

structure Parsed (t : Tag) (s : Shape Node) : Prop where
  id : t.id = 0
  genuine : t.synthetic = false
  sound : Sound s

lemma Parsed.withLine {t : Tag} {s : Shape Node} (h : Parsed t s) (line : Option Nat) :
    Parsed { t with line } s := ⟨h.id, h.genuine, h.sound⟩

lemma parsed_plain {s : Shape Node} (h : Sound s) : Parsed {} s := ⟨rfl, rfl, h⟩

lemma TypeTree.parsed {w : Bool} {ty : Node} (h : TypeTree TypeNode w ty) :
    TypeTree Parsed w ty := by
  refine h.mono fun m _ hm => ?_
  obtain ⟨htag, ⟨x, d, o, hs⟩ | ⟨k, o, hs⟩⟩ := hm
  · rw [htag, hs]
    exact parsed_plain ⟨trivial, trivial, trivial⟩
  · rw [htag, hs]
    exact parsed_plain ⟨trivial, trivial, trivial⟩

lemma ExprTree.widen {P : Tag → Shape Node → Prop} {v : Bool} {e : Node} (h : ExprTree P v e) :
    ExprTree P true e := by
  cases h with
  | literal holds here => exact .literal holds here
  | ident name here => exact .ident name here
  | this here => exact .this here
  | super here => exact .super here
  | parens expr here => exact .parens expr here
  | fieldAccess name target here => exact .fieldAccess name target here
  | arrayAccess target index here => exact .arrayAccess target index here
  | call name args here => exact .call name args here
  | methodCall name target args here => exact .methodCall name target args here
  | objectCreation type bare args here => exact .objectCreation type bare args here
  | arrayCreation type bare dims init parts here =>
    exact .arrayCreation type bare dims init parts here
  | arrayInit values here => exact .arrayInit values here
  | assign known target place expr here => exact .assign known target place expr here
  | binary known left right here => exact .binary known left right here
  | before known expr here => exact .before known expr here
  | after known expr here => exact .after known expr here
  | conditional cond thenExpr elseExpr here => exact .conditional cond thenExpr elseExpr here
  | cast type expr here => exact .cast type expr here
  | instanceOf expr type here => exact .instanceOf expr type here

namespace Grammar

lemma Takes.drop {β : Type} {f : Unit → Parser β} {ts : List Token} {k : Nat}
    {R : β → List Token → List Token → Prop}
    (hf : Takes (f ()) (ts.drop k) fun b used rest => R b (ts.take k ++ used) rest) :
    Takes (Grammar.drop k >>= f) ts R := by
  intro hts b rest h
  have hdrop : Grammar.drop k ts = .ok ((), ts.drop k) := rfl
  rw [bind_of_ok hdrop] at h
  have hright : Genuine (ts.drop k) := fun t ht => hts t (List.mem_of_mem_drop ht)
  obtain ⟨used, hused, hr⟩ := hf hright b rest h
  refine ⟨ts.take k ++ used, ?_, hr⟩
  rw [List.append_assoc, ← hused, List.take_append_drop]

lemma headKind_ne_finish {ts : List Token} {k : TokenKind} (h : headKind ts = k)
    (hk : k ≠ .finish) : ∃ t us, ts = t :: us ∧ t.kind = k := by
  cases ts with
  | nil => exact absurd h.symm hk
  | cons t us => exact ⟨t, us, rfl, h⟩

lemma tokenAt_past {ts : List Token} {k : Nat} (h : ts.length ≤ k + 1) :
    tokenAt ts (k + 1) = tokenAt ts k := by
  have hpast : ts[k + 1]? = none := List.getElem?_eq_none h
  rw [tokenAt, tokenAt, hpast, Option.getD_none]
  rcases Nat.lt_or_ge k ts.length with hk | hk
  · have hlast : k = ts.length - 1 := by omega
    rw [hlast, ← List.getLast?_eq_getElem?, List.getLastD_eq_getLast?]
    cases hts : ts.getLast? with
    | none =>
      rw [List.getLast?_eq_none_iff.mp hts] at hk
      cases hk
    | some t => rfl
  · rw [List.getElem?_eq_none hk]
    rfl

lemma lt_length_of_touches {ts : List Token} {k : Nat}
    (h : touches (tokenAt ts k) (tokenAt ts (k + 1)) = true) : k + 1 < ts.length := by
  by_contra hlen
  rw [tokenAt_past (by omega)] at h
  simp [touches] at h

lemma closers_tokens {ts : List Token} {k : Nat} (hk : k < closers ts) :
    ∃ t, ts[k]? = some t ∧ t.kind = .mark ">" := by
  have hfound : ∀ j, j < ts.length → (tokenAt ts j).kind = .mark ">" →
      ∃ t, ts[j]? = some t ∧ t.kind = .mark ">" := by
    intro j hj hkind
    rw [tokenAt, List.getElem?_eq_getElem hj] at hkind
    exact ⟨ts[j], List.getElem?_eq_getElem hj, hkind⟩
  have hjoined : ∀ j, ((tokenAt ts (j + 1)).kind = .mark ">" ∧
      touches (tokenAt ts j) (tokenAt ts (j + 1)) = true) →
        ∃ t, ts[j + 1]? = some t ∧ t.kind = .mark ">" :=
    fun j h => hfound (j + 1) (lt_length_of_touches h.2) h.1
  by_cases h0 : (tokenAt ts 0).kind = .mark ">"
  · have hfirst : ∃ t, ts[0]? = some t ∧ t.kind = .mark ">" := by
      refine hfound 0 ?_ h0
      cases ts with
      | nil => cases h0
      | cons t ts => exact Nat.succ_pos _
    by_cases h1 : (tokenAt ts 1).kind = .mark ">" ∧
        touches (tokenAt ts 0) (tokenAt ts 1) = true
    · by_cases h2 : (tokenAt ts 2).kind = .mark ">" ∧
          touches (tokenAt ts 1) (tokenAt ts 2) = true
      · have hthree : closers ts = 3 := by simp [closers, h0, h1, h2]
        rw [hthree] at hk
        interval_cases k
        · exact hfirst
        · exact hjoined 0 h1
        · exact hjoined 1 h2
      · have htwo : closers ts = 2 := by simpa [closers, h0, h1] using h2
        rw [htwo] at hk
        interval_cases k
        · exact hfirst
        · exact hjoined 0 h1
    · have hone : closers ts = 1 := by
        simp only [closers, h0, decide_true, Bool.not_true, Bool.false_eq_true, if_false]
        rw [if_pos]
        simpa [imp_iff_not_or] using h1
      rw [hone] at hk
      interval_cases k
      exact hfirst
  · rw [closers_of_ne h0] at hk
    cases hk

lemma take_closers {ts : List Token} (hg : Genuine ts) {k : Nat}
    (h : ∀ j < k, ∃ t, ts[j]? = some t ∧ t.kind = .mark ">") :
    (ts.take k).map Token.face = List.replicate k (Item.mark ">").face := by
  induction k generalizing ts with
  | zero => simp
  | succ k ih =>
    obtain ⟨t, ht, hkind⟩ := h 0 (Nat.succ_pos k)
    cases ts with
    | nil => cases ht
    | cons u us =>
      obtain rfl := Option.some.inj ht
      obtain ⟨hgt, hgus⟩ := List.forall_mem_cons.mp hg
      rw [List.take_succ_cons, List.map_cons, List.replicate_succ, hgt.mark hkind,
        ih hgus fun j hj => h (j + 1) (Nat.succ_lt_succ hj)]

lemma take_mark {ts : List Token} (hg : Genuine ts) {m : String} (h : headKind ts = .mark m) :
    (ts.take 1).map Token.face = [(Item.mark m).face] := by
  obtain ⟨t, us, rfl, ht⟩ := headKind_ne_finish h nofun
  rw [List.take_succ_cons, List.take_zero, List.map_singleton, (hg t List.mem_cons_self).mark ht]

lemma connectiveAt_takes {ts : List Token} (hg : Genuine ts) {op : BinaryOp} {k : Nat}
    (h : connectiveAt ts = some (.operator op, k)) :
    op ∈ BinaryOp.known ∧ Shows (Item.ofBinary op) (ts.take k) := by
  have key : ∀ m ∈ binaryMarks, BinaryOp.ofSymbol m ∈ BinaryOp.known ∧
      (Item.ofBinary (.ofSymbol m)).map Item.face = [(Item.mark m).face] := by
    intro m hm
    fin_cases hm <;> exact ⟨by decide, rfl⟩
  rw [connectiveAt] at h
  split at h
  · cases h
  · rename_i m hkind
    dsimp only at h
    split_ifs at h with hm hge h1 h2 hmem
    · obtain ⟨hop, rfl⟩ := Prod.mk.inj (Option.some.inj h)
      obtain rfl := Connective.operator.inj hop
      exact ⟨by decide, take_closers hg fun j hj => closers_tokens (h1 ▸ hj)⟩
    · obtain ⟨hop, rfl⟩ := Prod.mk.inj (Option.some.inj h)
      obtain rfl := Connective.operator.inj hop
      exact ⟨by decide, take_closers hg fun j hj => closers_tokens (h2 ▸ hj)⟩
    · obtain ⟨hop, rfl⟩ := Prod.mk.inj (Option.some.inj h)
      obtain rfl := Connective.operator.inj hop
      have hpos : closers ts ≠ 0 := by
        rw [hm] at hkind
        simp [closers, hkind]
        split_ifs <;> simp
      exact ⟨by decide, take_closers hg fun j hj => closers_tokens (by omega)⟩
    · obtain ⟨hop, rfl⟩ := Prod.mk.inj (Option.some.inj h)
      obtain rfl := Connective.operator.inj hop
      obtain ⟨hknown, hitems⟩ := key m (List.contains_iff_mem.mp hmem)
      refine ⟨hknown, ?_⟩
      rw [Shows, hitems]
      exact take_mark hg hkind
  · cases h

lemma headKind_of_lt {ts : List Token} {k : Nat}
    (h : connectiveAt ts = some (.operator .lt, k)) : headKind ts = .mark "<" := by
  have key : ∀ m ∈ binaryMarks, BinaryOp.ofSymbol m = .lt → m = "<" := by decide
  rw [connectiveAt] at h
  split at h
  · cases h
  · rename_i m hkind
    dsimp only at h
    split_ifs at h with hm hge h1 h2 hmem
    · cases h
    · cases h
    · cases h
    · obtain ⟨hop, -⟩ := Prod.mk.inj (Option.some.inj h)
      rw [← key m (List.contains_iff_mem.mp hmem) (Connective.operator.inj hop)]
      exact hkind
  · cases h

lemma assignOpAt_takes {ts : List Token} (hg : Genuine ts) {op : AssignOp} {k : Nat}
    (h : assignOpAt ts = some (op, k)) : op.Known ∧ Covers (Item.ofAssign op) (ts.take k) := by
  have key : ∀ m ∈ ["+=", "-=", "*=", "/=", "%=", "&=", "|=", "^=", "<<="], ∃ o ∈ assignable,
      AssignOp.ofSymbol m = .compound o ∧
        (Item.ofAssign (.compound o)).map (·.kind) = [.mark m] ∧ TokenKind.mark m ∉ typeKinds := by
    decide
  rw [assignOpAt] at h
  split at h
  · rename_i m hkind
    dsimp only at h
    -- The closing marks before a `>=` are the first items of the operator.
    have hshifts : closersThenGe ts (closers ts) = true →
        (closers ts = 1 ∨ closers ts = 2) ∧ List.replicate (closers ts) (Item.mark ">").face <+:
          (ts.take (closers ts + 1)).map Token.face := by
      intro hge
      simp only [closersThenGe, Bool.and_eq_true, decide_eq_true_eq] at hge
      have hclosers := take_closers hg fun j (hj : j < closers ts) => closers_tokens hj
      have hrange := hge.1.1
      refine ⟨by omega, hclosers ▸ ?_⟩
      exact (List.take_prefix_take_left (Nat.le_succ _)).map _
    split_ifs at h with hm hmem hge hone
    · obtain ⟨rfl, rfl⟩ := Prod.mk.inj (Option.some.inj h)
      exact ⟨trivial, .stop (by decide) _ _⟩
    · obtain ⟨rfl, rfl⟩ := Prod.mk.inj (Option.some.inj h)
      obtain ⟨o, ho, hsymbol, hitems, hstop⟩ := key m (List.contains_iff_mem.mp hmem)
      obtain ⟨i, is, his, hi, -⟩ := List.map_eq_cons_iff.mp hitems
      rw [hsymbol, his]
      exact ⟨ho, .stop (hi ▸ hstop) _ _⟩
    · obtain ⟨rfl, rfl⟩ := Prod.mk.inj (Option.some.inj h)
      have hinitial := (hshifts hge).2
      rw [hone] at hinitial ⊢
      exact ⟨by simp [AssignOp.Known, assignable], hinitial, by rintro ⟨⟩⟩
    · obtain ⟨rfl, rfl⟩ := Prod.mk.inj (Option.some.inj h)
      obtain ⟨hrange, hinitial⟩ := hshifts hge
      rw [hrange.resolve_left hone] at hinitial ⊢
      exact ⟨by simp [AssignOp.Known, assignable], hinitial, by rintro ⟨⟩⟩
  · cases h

lemma Takes.genuine {α : Type} {p : Parser α} {ts : List Token}
    {Q : α → List Token → List Token → Prop} (h : Genuine ts → Takes p ts Q) : Takes p ts Q :=
  fun hts => h hts hts

structure TakenExpr (least : Nat) (e : Node) (used : List Token) : Prop where
  tree : ExprTree Parsed false e
  covers : Covers e.reread.items used
  tight : least ≤ precedence e

lemma TakenExpr.mono {least more : Nat} {e : Node} {used : List Token} (h : TakenExpr more e used)
    (hle : least ≤ more) : TakenExpr least e used :=
  ⟨h.tree, h.covers, Nat.le_trans hle h.tight⟩

def signMarks : List TokenKind := [.mark "++", .mark "--", .mark "+", .mark "-"]

lemma isPrimitive_of_start {ty : Node} {used rest : List Token} (h : TakenType ty used rest)
    (hstart : headKind (used ++ rest) ∈ primitiveTypes) : isPrimitive ty = true := by
  have hname : ∀ {x d o}, IsQualified x →
      Shows (Node.mk {} (.typeRef x d o)).items used → False := by
    intro x d o hx hshows
    obtain ⟨y, is, hy⟩ := ofName_qualified hx
    rw [Node.items_typeRef, hy] at hshows
    obtain ⟨t, us, rfl, ht, -⟩ := List.map_eq_cons_iff.mp hshows
    have hkind : t.kind = .ident := congrArg Prod.fst ht
    rw [List.cons_append, headKind_cons, hkind] at hstart
    exact ident_notMem_primitiveTypes hstart
  have hshows := h.shows
  cases h.tree with
  | primitive name here => exact List.contains_iff_mem.mpr name
  | named name here =>
    rw [here.1] at hshows
    exact (hname name hshows).elim
  | generic name args here =>
    rw [here.1] at hshows
    exact (hname name hshows).elim

lemma literal_notMem_typeKinds (k : LiteralKind) : TokenKind.literal k ∉ typeKinds := by
  simp [typeKinds, primitiveTypes, dot, comma, lbracket, rbracket]

lemma covers_arrayCreation (m : Nat) (ty : Node) (ds : List Node) (o : Option Node)
    (ts : List Token) : Covers (Node.plain (.arrayCreation m ty ds o)).reread.items ts := by
  have hreread : (Node.plain (.arrayCreation m ty ds o)).reread =
      .plain (.arrayCreation m ty.reread (ds.map Node.reread) (o.map Node.reread)) := by
    rw [Node.plain, Node.reread_mk]
    simp [Shape.map, Shape.mapAt, mapIdx_const, fitted]
  rw [hreread, Node.plain, Node.items_arrayCreation]
  exact .stop (by decide) _ _

lemma covers_objectCreation (ty : Node) (as : List Node) (ts : List Token) :
    Covers (Node.plain (.objectCreation ty as)).reread.items ts := by
  have hreread : (Node.plain (.objectCreation ty as)).reread =
      .plain (.objectCreation ty.reread (as.map Node.reread)) := by
    rw [Node.plain, Node.reread_mk]
    simp [Shape.map, Shape.mapAt, mapIdx_const, fitted]
  rw [hreread, Node.plain, Node.items_objectCreation]
  exact .stop (by decide) _ _

structure ExprsTake (n : Nat) : Prop where
  expr (ts : List Token) : Takes (expr n) ts fun e used _ => TakenExpr Precedence.assign e used
  condition (ts : List Token) :
    Takes (condition n) ts fun e used _ => TakenExpr Precedence.conditional e used
  binary (least : Nat) (ts : List Token) : least ≤ 10 →
    Takes (binary n least) ts fun e used _ => TakenExpr (least + 3) e used
  binaryTail (least most : Nat) (left : Node) (front ts : List Token) :
    TakenExpr (most + 3) left front → least + 3 ≤ precedence left →
      (testsClassName left = true → headKind ts ≠ .mark "<") →
        Takes (binaryTail n least most left) ts fun e used _ =>
          TakenExpr (least + 3) e (front ++ used)
  unary (ts : List Token) : Takes (unary n) ts fun e used rest =>
    TakenExpr Precedence.unary e used ∧ (signed e = true → headKind (used ++ rest) ∈ signMarks)
  castType (ts : List Token) : headKind ts = lparen → Takes (castType n) ts fun o used rest =>
    (o = none ∧ used = []) ∨ ∃ t, o = some t ∧ TypeTree TypeNode false t ∧
      (isPrimitive t = false → headKind rest ∈ castFollow)
  operand (ts : List Token) :
    Takes (operand n) ts fun e used _ => TakenExpr Precedence.counted e used
  operandTail (e : Node) (front ts : List Token) : TakenExpr Precedence.counted e front →
    Takes (operandTail n e) ts fun e used _ => TakenExpr Precedence.counted e (front ++ used)
  args (ts : List Token) : Takes (args n) ts fun es _ _ => ∀ e ∈ es, ExprTree Parsed false e
  exprList (ts : List Token) :
    Takes (exprList n) ts fun es _ _ => ∀ e ∈ es, ExprTree Parsed false e
  parenthesized (ts : List Token) :
    Takes (parenthesized n) ts fun e _ _ => ExprTree Parsed false e
  primary (ts : List Token) :
    Takes (primary n) ts fun e used _ => TakenExpr Precedence.counted e used
  creation (ts : List Token) :
    Takes (creation n) ts fun e used _ => TakenExpr Precedence.counted e used
  creationDims (extra : Nat) (ts : List Token) : Takes (creationDims n extra) ts fun p _ _ =>
    (∀ d ∈ p.1, ExprTree Parsed false d) ∧ extra ≤ p.2 ∧
      (headKind ts = lbracket → p.1 ≠ [] ∨ extra < p.2)
  arrayInit (ts : List Token) : Takes (arrayInit n) ts fun e _ _ =>
    ExprTree Parsed true e ∧ ∃ t vs, e = .mk t (.arrayInit vs)
  elements (ts : List Token) : Takes (elements n) ts fun vs _ _ => ∀ v ∈ vs, ExprTree Parsed true v
  initialValue (ts : List Token) : Takes (initialValue n) ts fun v _ _ => ExprTree Parsed true v

section

variable {n : Nat} (ih : ExprsTake n) (ts : List Token)
include ih

lemma expr_takes : Takes (expr (n + 1)) ts fun e used _ => TakenExpr Precedence.assign e used := by
  rw [expr]
  refine .bind (ih.condition ts) fun l used rest _ hl => .look (get_run _) (.genuine fun hg => ?_)
  split
  · refine .pure ?_
    rw [List.append_nil]
    exact hl.mono (by decide)
  · rename_i op k hop
    obtain ⟨hknown, hcovers⟩ := assignOpAt_takes hg hop
    refine .ite (fun htarget => .drop ?_) fun _ => .reject _
    refine .bind (ih.expr _) fun r more _ _ hr => .pure ⟨?_, ?_, Nat.le_refl _⟩
    · exact .assign hknown hl.tree htarget hr.tree
        (parsed_plain ⟨trivial, ⟨htarget, hr.tight⟩, trivial⟩)
    · have hitems : (Node.plain (.assign op l r)).reread.items =
          (bracketed Precedence.primary l.reread).items ++
            (Item.ofAssign op ++ (bracketed Precedence.assign r.reread).items) :=
        Node.items_assign {} op _ _
      rw [hitems, List.append_nil]
      exact (hl.covers.bracketed _).append (hcovers.append (hr.covers.bracketed _))

lemma condition_takes :
    Takes (condition (n + 1)) ts fun e used _ => TakenExpr Precedence.conditional e used := by
  rw [condition]
  refine .bind (ih.binary 0 ts (by decide)) fun c used rest _ hc => .ifAccept (by decide)
    (fun q us _ hq hgq => ?_) fun _ => .pure ?_
  · refine .bind (ih.expr us) fun a more left _ ha => .expect (by decide) fun d vs _ hd hgd => ?_
    refine .bind (ih.condition vs) fun b last _ _ hb => .pure ⟨?_, ?_, Nat.le_refl _⟩
    · refine .conditional hc.tree ha.tree hb.tree
        (parsed_plain ⟨trivial, ⟨⟨?_, ?_⟩, ha.tight⟩, trivial⟩)
      · exact hc.tight
      · exact hb.tight
    · have hitems : (Node.plain (.conditional c a b)).reread.items =
          (bracketed (Precedence.conditional + 1) c.reread).items ++ (Item.mark "?" ::
            ((bracketed Precedence.assign a.reread).items ++ (Item.mark ":" ::
              (bracketed Precedence.conditional b.reread).items))) :=
        Node.items_conditional {} _ _ _
      rw [hitems, List.append_nil]
      refine (hc.covers.bracketed _).append (.cons (hgq.mark hq) ?_)
      exact (ha.covers.bracketed _).append_stop (by decide) _ _
  · rw [List.append_nil]
    exact hc.mono (by decide)

lemma binary_takes (least : Nat) (hleast : least ≤ 10) :
    Takes (binary (n + 1) least) ts fun e used _ => TakenExpr (least + 3) e used := by
  rw [binary]
  refine .bind (ih.unary ts) fun l used rest _ hl => ?_
  have hunary : (13 : Nat) ≤ precedence l := hl.1.tight
  refine ih.binaryTail least 9 l used rest (hl.1.mono (by decide)) (by omega) fun htests => ?_
  rw [precedence_of_testsClassName htests] at hunary
  exact absurd hunary (by decide)

lemma binaryTail_takes {least most : Nat} {left : Node} {front : List Token}
    (hleft : TakenExpr (most + 3) left front) (hleast : least + 3 ≤ precedence left)
    (hless : testsClassName left = true → headKind ts ≠ .mark "<") :
    Takes (binaryTail (n + 1) least most left) ts fun e used _ =>
      TakenExpr (least + 3) e (front ++ used) := by
  rw [binaryTail]
  refine .look (get_run _) (.genuine fun hg => ?_)
  have hdone : TakenExpr (least + 3) left (front ++ []) := by
    rw [List.append_nil]
    exact ⟨hleft.tree, hleft.covers, hleast⟩
  split
  · exact .pure hdone
  · rename_i c k hc
    refine .ite (fun _ => .pure hdone) fun hlevel => .drop ?_
    simp only [Bool.or_eq_true, decide_eq_true_eq, not_or, Nat.not_lt] at hlevel
    have htight := hleft.tight
    split
    · refine .bind ((typesTake n).type _) fun ty used rest _ hty => ?_
      have hcovers : Covers (Node.plain (.instanceOf left ty)).reread.items
          (front ++ (ts.take k ++ used)) :=
        (hleft.covers.bracketed Precedence.comparison).append_stop (i := Item.word "instanceof")
          (by decide) _ _
      have hplaced : Precedence.comparison ≤ precedence left := Nat.le_trans
        (show 6 + 3 ≤ most + 3 from Nat.add_le_add_right hlevel.2 3) htight
      refine (ih.binaryTail least _ _ (front ++ (ts.take k ++ used)) rest
        ⟨?_, hcovers, Nat.le_refl _⟩ ?_ hty.stop).mono fun e more _ _ he => ?_
      · exact .instanceOf hleft.tree hty.tree.parsed (parsed_plain ⟨trivial, hplaced, trivial⟩)
      · exact Nat.add_le_add_right hlevel.1 3
      · simpa only [List.append_assoc] using he
    · rename_i op
      obtain ⟨hknown, hshows⟩ := connectiveAt_takes hg hc
      obtain ⟨p, hp, -, hpu⟩ := exists_binary hknown
      have hlv := level_of_known hp
      have hpu : p < 13 := hpu
      refine .bind (ih.binary _ _ (by omega)) fun r used rest _ hr => ?_
      have hcovers : Covers (Node.plain (.binary op left r)).reread.items
          (front ++ (ts.take k ++ used)) := by
        have hitems : (Node.plain (.binary op left r)).reread.items =
            (bracketed ((Precedence.binary op).getD 0) left.reread).items ++ (Item.ofBinary op ++
              (bracketed ((Precedence.binary op).getD 0 + 1) r.reread).items) :=
          Node.items_binary {} op _ _
        rw [hitems]
        exact (hleft.covers.bracketed _).append (hshows.covers.append (hr.covers.bracketed _))
      have hprec : precedence (.plain (.binary op left r)) = p := by
        change (Precedence.binary op).getD 0 = p
        rw [hp]
        rfl
      refine (ih.binaryTail least _ _ (front ++ (ts.take k ++ used)) rest
        ⟨?_, hcovers, by rw [hprec, hlv]⟩ (by rw [hprec]; omega) (by rintro ⟨⟩)).mono
          fun e more _ _ he => ?_
      · have hfit : p ≤ precedence left ∧ p + 1 ≤ precedence r := by
          have := hr.tight
          omega
        refine .binary hknown hleft.tree hr.tree (parsed_plain ⟨?_, ⟨p, hp, hfit⟩, trivial⟩)
        cases op with
        | lt =>
          refine Bool.eq_false_iff.mpr fun htests => ?_
          exact hless htests (headKind_of_lt hc)
        | _ => trivial
      · simpa only [List.append_assoc] using he

lemma unary_takes : Takes (unary (n + 1)) ts fun e used rest =>
    TakenExpr Precedence.unary e used ∧ (signed e = true → headKind (used ++ rest) ∈ signMarks) := by
  have key : ∀ m ∈ ["++", "--", "+", "-", "!", "~"], UnaryOp.ofSymbol m ∈ UnaryOp.known ∧
      TokenKind.mark (UnaryOp.ofSymbol m).symbol ∉ typeKinds ∧
        ([UnaryOp.plus, .minus, .increment, .decrement].contains (UnaryOp.ofSymbol m) = true →
          TokenKind.mark m ∈ signMarks) := by
    decide
  have hoperand : Takes (operand n) ts fun e used rest => TakenExpr Precedence.unary e used ∧
      (signed e = true → headKind (used ++ rest) ∈ signMarks) := by
    refine (ih.operand ts).mono fun e used rest _ he => ⟨he.mono (by decide), fun hsigned => ?_⟩
    have hcounted := he.tight
    obtain ⟨t, s⟩ := e
    cases s with
    | unary op after e =>
      cases after with
      | true => cases hsigned
      | false => exact absurd hcounted (show ¬ 14 ≤ 13 by decide)
    | _ => cases hsigned
  rw [unary]
  refine .ifCheckAny (fun hmark => ?_) fun _ => .ifCheck (fun hparen => ?_) fun _ => hoperand
  · obtain ⟨m, hm, hkind⟩ := List.mem_map (f := TokenKind.mark)
      (l := ["++", "--", "+", "-", "!", "~"]).mp hmark
    obtain ⟨hknown, hstop, hsign⟩ := key m hm
    refine .advance (by rw [← hkind]; rintro ⟨⟩) fun t us hts ht => ?_
    have htext : t.text = m := ht.markText (by rw [hkind, hts]; rfl)
    refine .bind (ih.unary us) fun e used rest _ he => .pure ?_
    rw [htext]
    refine ⟨⟨?_, .stop hstop _ _, Nat.le_refl _⟩, fun hsigned => ?_⟩
    · exact .before hknown he.1.tree (parsed_plain ⟨trivial, he.1.tight, trivial⟩)
    · have hhead : t.kind = .mark m := by rw [hkind, hts]; rfl
      rw [List.cons_append, headKind_cons, hhead]
      exact hsign hsigned
  · refine .bind (ih.castType ts hparen) fun o used rest hts ho => ?_
    rcases ho with ⟨rfl, rfl⟩ | ⟨ty, rfl, hty, hfollow⟩
    · obtain rfl : ts = rest := hts
      exact hoperand
    · refine .bind (ih.unary rest) fun e more left hrest he => ?_
      refine .pure ⟨⟨?_, ?_, Nat.le_refl _⟩, by rintro ⟨⟩⟩
      · refine .cast hty.parsed he.1.tree (parsed_plain ⟨fun hprim => ?_, he.1.tight, trivial⟩)
        refine Bool.eq_false_iff.mpr fun hsigned => ?_
        have hsign := he.2 hsigned
        rw [← hrest] at hsign
        have hdisjoint : ∀ k ∈ castFollow, k ∉ signMarks := by decide
        exact hdisjoint _ (hfollow hprim) hsign
      · exact .stop (i := Item.mark "(") (by decide) _ _

omit ih in
lemma castType_takes (hparen : headKind ts = lparen) :
    Takes (castType (n + 1)) ts fun o used rest => (o = none ∧ used = []) ∨ ∃ t, o = some t ∧
      TypeTree TypeNode false t ∧ (isPrimitive t = false → headKind rest ∈ castFollow) := by
  rw [castType]
  refine .look (get_run _) (Tries.takes ?_)
  refine .bind (advance_takes (by rw [hparen]; rintro ⟨⟩)) fun l _ us _ _ => ?_
  refine .look (checkAny_run _ _) (.ite (fun hprim => ?_) fun _ => ?_)
  · refine .bind ((typesTake n).type us) fun ty used rest hus hty => ?_
    refine .bind (expect_takes (by decide) rest) fun _ _ left _ _ => .found ⟨hty.tree, fun h => ?_⟩
    rw [hus] at hprim
    rw [isPrimitive_of_start hty (List.contains_iff_mem.mp hprim)] at h
    cases h
  · refine .look (check_run _ _) (.ite (fun _ => ?_) fun _ => .giveUp)
    refine .bind (.attempt ((typesTake n).type us)) fun o used rest _ ho => ?_
    rcases ho with ⟨ty, rfl, hty⟩ | ⟨rfl, -⟩
    · refine .bind (accept_takes (by decide) rest) fun b _ left _ _ => ?_
      refine .ite (fun _ => ?_) fun _ => .giveUp
      refine .look (checkAny_run _ _) (.ite (fun hfollow => .found ⟨hty.tree, fun _ => ?_⟩)
        fun _ => .giveUp)
      exact List.contains_iff_mem.mp hfollow
    · exact .giveUp

lemma operandTail_takes {e : Node} {front : List Token}
    (he : TakenExpr Precedence.counted e front) : Takes (operandTail (n + 1) e) ts
      fun e used _ => TakenExpr Precedence.counted e (front ++ used) := by
  have hprimary : Precedence.counted ≤ Precedence.primary := by decide
  rw [operandTail]
  refine .ifAccept (by decide) (fun d us _ hd hgd => ?_) fun _ => ?_
  · refine .expect (by decide) fun x vs _ hx hgx => ?_
    obtain ⟨hface, hname⟩ := hgx.name hx
    have hselect : Covers ((bracketed Precedence.primary e.reread).items ++
        [Item.mark ".", Item.name x.text]) (front ++ [d, x]) :=
      (he.covers.bracketed _).append (Shows.covers (.cons (hgd.mark hd) (.cons hface .nil)))
    refine .ifCheck (fun _ => ?_) fun _ => ?_
    · refine .bind (ih.args vs) fun as used rest _ has => ?_
      have hcovers : Covers (Node.plain (.methodCall x.text (some e) as)).reread.items
          (front ++ [d, x] ++ used) := by
        have hitems := Node.items_methodCall {} x.text (bracketed Precedence.primary e.reread)
          (as.map Node.reread)
        have hreread : (Node.plain (.methodCall x.text (some e) as)).reread =
            .plain (.methodCall x.text (some (bracketed Precedence.primary e.reread))
              (as.map Node.reread)) := by
          rw [Node.plain, Node.reread_mk]
          simp [Shape.map, Shape.mapAt, mapIdx_const, fitted]
        rw [hreread, Node.plain, hitems]
        simpa [Item.parenthesized] using hselect.append (.stop (i := Item.mark "(") (by decide)
          (Item.listed ((as.map Node.reread).map Node.items) ++ [Item.mark ")"]) used)
      refine (ih.operandTail _ (front ++ [d, x] ++ used) rest ⟨?_, hcovers, hprimary⟩).mono
        fun e more _ _ h => by simpa using h
      exact .methodCall hname he.tree has (parsed_plain ⟨trivial, .inl he.tight, trivial⟩)
    · refine (ih.operandTail (.plain (.fieldAccess x.text e)) (front ++ [d, x]) vs
        ⟨?_, hselect, hprimary⟩).mono fun e more _ _ h => by simpa using h
      exact .fieldAccess hname he.tree (parsed_plain ⟨trivial, he.tight, trivial⟩)
  · refine .ifAccept (by decide) (fun l us _ hl hgl => ?_) fun _ => ?_
    · refine .bind (ih.expr us) fun i used rest _ hi => .expect (by decide) fun r vs _ hr hgr => ?_
      have hcovers : Covers (Node.plain (.arrayAccess e i)).reread.items
          (front ++ (l :: (used ++ [r]))) := by
        have hitems : (Node.plain (.arrayAccess e i)).reread.items =
            (bracketed Precedence.primary e.reread).items ++ (Item.mark "[" ::
              (i.reread.items ++ [Item.mark "]"])) := Node.items_arrayAccess {} _ _
        rw [hitems]
        refine (he.covers.bracketed _).append (.cons (hgl.mark hl) (hi.covers.append ?_))
        exact Shows.covers (.cons (hgr.mark hr) .nil)
      refine (ih.operandTail _ _ vs ⟨?_, hcovers, hprimary⟩).mono
        fun e more _ _ h => by simpa using h
      exact .arrayAccess he.tree hi.tree (parsed_plain ⟨trivial, he.tight, trivial⟩)
    · refine .ifCheckAny (fun hmark => ?_) fun _ => .pure (by rwa [List.append_nil])
      have key : ∀ m ∈ ["++", "--"], UnaryOp.ofSymbol m ∈ [UnaryOp.increment, .decrement] ∧
          TokenKind.mark (UnaryOp.ofSymbol m).symbol ∉ typeKinds := by decide
      obtain ⟨m, hm, hkind⟩ := List.mem_map (f := TokenKind.mark) (l := ["++", "--"]).mp hmark
      obtain ⟨hknown, hstop⟩ := key m hm
      refine .advance (by rw [← hkind]; rintro ⟨⟩) fun t us hts ht => ?_
      have htext : t.text = m := ht.markText (by rw [hkind, hts]; rfl)
      have hcovers : Covers (Node.plain (.unary (.ofSymbol m) true e)).reread.items (front ++ [t]) :=
        (he.covers.bracketed Precedence.counted).append_stop (i := Item.mark _) hstop _ _
      rw [htext]
      refine (ih.operandTail _ (front ++ [t]) us ⟨?_, hcovers, Nat.le_refl _⟩).mono
        fun e more _ _ h => by simpa using h
      exact .after hknown he.tree (parsed_plain ⟨trivial, he.tight, trivial⟩)

lemma call_takes {x : String} (hx : Token.IsName x ∨ x = "this" ∨ x = "super")
    {t : Token} (ht : t.face = (Item.ofText x).face) {e : Node}
    (he : TakenExpr Precedence.counted e [t]) :
    Takes (do if ← check lparen then return .plain (.methodCall x none (← args n)) else return e) ts
      fun e used _ => TakenExpr Precedence.counted e (t :: used) := by
  refine .ifCheck (fun _ => ?_) fun _ => .pure he
  refine .bind (ih.args ts) fun as used _ _ has => .pure ⟨?_, ?_, ?_⟩
  · exact .call hx has (parsed_plain ⟨trivial, trivial, trivial⟩)
  · have hreread : (Node.plain (.methodCall x none as)).reread =
        .plain (.methodCall x none (as.map Node.reread)) := by
      rw [Node.plain, Node.reread_mk]
      simp [Shape.map, Shape.mapAt, mapIdx_const, fitted]
    rw [hreread, Node.plain, Node.items_call]
    exact .cons ht (.stop (i := Item.mark "(") (by decide) _ _)
  · exact (by decide : Precedence.counted ≤ Precedence.primary)

lemma primary_takes :
    Takes (primary (n + 1)) ts fun e used _ => TakenExpr Precedence.counted e used := by
  have hprimary : Precedence.counted ≤ Precedence.primary := by decide
  rw [primary]
  refine .look (current_run _) ?_
  split
  · rename_i k hk
    refine .advance (by rw [headKind, hk]; rintro ⟨⟩) fun t us hts ht => .pure ?_
    obtain rfl : tokenAt ts 0 = t := by rw [hts]; rfl
    rw [Token.Genuine, hk] at ht
    refine ⟨.literal ht.2 (parsed_plain ⟨trivial, trivial, trivial⟩), ?_, hprimary⟩
    have hitem : ∃ i is, (Node.plain (.literal (tokenAt ts 0).value k)).reread.items = i :: is ∧
        i.kind ∉ typeKinds := by
      cases k with
      | boolean => exact absurd ht.1 (by decide)
      | null => exact absurd ht.1 (by decide)
      | other x => exact ht.2.elim
      | _ => exact ⟨_, _, rfl, literal_notMem_typeKinds _⟩
    obtain ⟨i, is, hi, hstop⟩ := hitem
    rw [hi]
    exact .stop hstop _ _
  · rename_i hk
    refine .advance (by rw [headKind, hk]; rintro ⟨⟩) fun t us hts ht => ?_
    obtain rfl : tokenAt ts 0 = t := by rw [hts]; rfl
    obtain ⟨hface, hname⟩ := ht.name hk
    refine call_takes ih us (.inl hname) ?_ ⟨?_, Shows.covers (.cons hface .nil), hprimary⟩
    · rw [IsName.ofText hname]
      exact hface
    · exact .ident hname (parsed_plain ⟨trivial, trivial, trivial⟩)
  · rename_i hk
    refine .advance (by rw [headKind, hk]; rintro ⟨⟩) fun t us hts ht => .pure ⟨?_, ?_, hprimary⟩
    · exact .literal ⟨true, rfl⟩ (parsed_plain ⟨trivial, trivial, trivial⟩)
    · exact .stop (i := Item.word "true") (by decide) _ _
  · rename_i hk
    refine .advance (by rw [headKind, hk]; rintro ⟨⟩) fun t us hts ht => .pure ⟨?_, ?_, hprimary⟩
    · exact .literal ⟨false, rfl⟩ (parsed_plain ⟨trivial, trivial, trivial⟩)
    · exact .stop (i := Item.word "false") (by decide) _ _
  · rename_i hk
    refine .advance (by rw [headKind, hk]; rintro ⟨⟩) fun t us hts ht => .pure ⟨?_, ?_, hprimary⟩
    · exact .literal rfl (parsed_plain ⟨trivial, trivial, trivial⟩)
    · exact .stop (i := Item.word "null") (by decide) _ _
  · rename_i hk
    refine .advance (by rw [headKind, hk]; rintro ⟨⟩) fun t us hts ht => ?_
    obtain rfl : tokenAt ts 0 = t := by rw [hts]; rfl
    obtain ⟨hface, htext, -⟩ := ht.word hk
    rw [htext]
    refine call_takes ih us (.inr (.inl rfl)) hface ⟨?_, ?_, hprimary⟩
    · exact .this (parsed_plain ⟨trivial, trivial, trivial⟩)
    · exact Shows.covers (.cons hface .nil)
  · rename_i hk
    refine .advance (by rw [headKind, hk]; rintro ⟨⟩) fun t us hts ht => ?_
    obtain rfl : tokenAt ts 0 = t := by rw [hts]; rfl
    obtain ⟨hface, htext, -⟩ := ht.word hk
    rw [htext]
    refine call_takes ih us (.inr (.inr rfl)) hface ⟨?_, ?_, hprimary⟩
    · exact .super (parsed_plain ⟨trivial, trivial, trivial⟩)
    · exact Shows.covers (.cons hface .nil)
  · exact ih.creation ts
  · refine .bind (ih.parenthesized ts) fun e used _ _ he => .pure ⟨?_, ?_, hprimary⟩
    · exact .parens he (parsed_plain ⟨trivial, trivial, trivial⟩)
    · exact .stop (i := Item.mark "(") (by decide) _ _
  · exact .reject _

lemma creation_takes :
    Takes (creation (n + 1)) ts fun e used _ => TakenExpr Precedence.counted e used := by
  rw [creation]
  refine .expect (by decide) fun w us _ _ _ => .bind ((typesTake n).bareType us) fun f used rest _ hf => ?_
  obtain ⟨x, o, hf⟩ := hf
  obtain rfl := hf.eq
  have htree := (hf.tree 0).parsed
  refine .ifCheck (fun hopen => ?_) fun _ => ?_
  · refine .bind (ih.creationDims 0 rest) fun p more left _ hp => ?_
    obtain ⟨ds, extra⟩ := p
    obtain ⟨hds, -, hextra⟩ := hp
    refine .ifCheck (fun _ => .ite (fun hempty => ?_) fun _ => .reject _) fun _ =>
      .ite (fun _ => .reject _) fun hne => .pure ⟨?_, ?_, Nat.le_refl _⟩
    · obtain rfl := List.isEmpty_iff.mp hempty
      refine .bind (ih.arrayInit left) fun i last _ _ hi => .pure ⟨?_, ?_, Nat.le_refl _⟩
      · refine .arrayCreation htree rfl hds (by simpa using hi.1) ?_
          (parsed_plain ⟨trivial, trivial, trivial⟩)
        exact ⟨rfl, (hextra hopen).resolve_left (by simp), hi.2⟩
      · exact covers_arrayCreation _ _ _ _ _
    · exact .arrayCreation htree rfl hds (by simp) (by simpa [ArrayParts] using hne)
        (parsed_plain ⟨trivial, trivial, trivial⟩)
    · exact covers_arrayCreation _ _ _ _ _
  · refine .bind (ih.args rest) fun as more left _ has => .ifCheck (fun _ => .reject _) fun _ =>
      .pure ⟨?_, ?_, (by decide : Precedence.counted ≤ Precedence.primary)⟩
    · exact .objectCreation htree rfl has (parsed_plain ⟨trivial, trivial, trivial⟩)
    · exact covers_objectCreation _ _ _

lemma creationDims_takes (extra : Nat) : Takes (creationDims (n + 1) extra) ts fun p _ _ =>
    (∀ d ∈ p.1, ExprTree Parsed false d) ∧ extra ≤ p.2 ∧
      (headKind ts = lbracket → p.1 ≠ [] ∨ extra < p.2) := by
  rw [creationDims]
  refine .ifAccept (by decide) (fun l us _ _ _ => .ifAccept (by decide) (fun r vs _ _ _ => ?_)
    fun _ => .ite (fun _ => .reject _) fun _ => ?_) fun hno => ?_
  · refine (ih.creationDims (extra + 1) vs).mono fun p _ _ _ hp => ⟨hp.1, ?_, fun _ => .inr ?_⟩
    · exact Nat.le_of_succ_le hp.2.1
    · exact hp.2.1
  · refine .bind (ih.expr us) fun e used rest _ he => .expect (by decide) fun r vs _ _ _ => ?_
    refine .bind (ih.creationDims extra vs) fun p _ _ _ hp => .pure ⟨?_, hp.2.1, fun _ => .inl ?_⟩
    · exact List.forall_mem_cons.mpr ⟨he.tree, hp.1⟩
    · simp
  · exact .pure ⟨by simp, Nat.le_refl _, fun hopen => absurd hopen hno⟩

end

lemma exprsTake (n : Nat) : ExprsTake n := by
  induction n with
  | zero => constructor <;> intros <;> exact .exhausted
  | succ n ih =>
    constructor
    case expr => exact expr_takes ih
    case condition => exact condition_takes ih
    case binary => exact fun least ts => binary_takes ih ts least
    case binaryTail => exact fun _ _ _ _ ts => binaryTail_takes ih ts
    case unary => exact unary_takes ih
    case castType => exact fun ts => castType_takes ts
    case operand =>
      intro ts
      rw [operand]
      exact .bind (ih.primary ts) fun e used rest _ he => ih.operandTail e used rest he
    case operandTail => exact fun _ _ ts => operandTail_takes ih ts
    case args =>
      intro ts
      rw [args]
      refine .expect (by decide) fun _ us _ _ _ => .ifAccept (by decide)
        (fun _ _ _ _ _ => .pure (by simp)) fun _ => ?_
      refine .bind (ih.exprList us) fun es _ rest _ hes => ?_
      exact .expect (by decide) fun _ _ _ _ _ => .pure hes
    case exprList =>
      intro ts
      rw [exprList]
      refine .bind (ih.expr ts) fun e _ rest _ he => .ifAccept (by decide)
        (fun _ us _ _ _ => ?_) fun _ => .pure (by simpa using he.tree)
      refine .bind (ih.exprList us) fun es _ _ _ hes => .pure ?_
      exact List.forall_mem_cons.mpr ⟨he.tree, hes⟩
    case parenthesized =>
      intro ts
      rw [parenthesized]
      refine .expect (by decide) fun _ us _ _ _ => .bind (ih.expr us) fun e _ _ _ he => ?_
      exact .expect (by decide) fun _ _ _ _ _ => .pure he.tree
    case primary => exact primary_takes ih
    case creation => exact creation_takes ih
    case creationDims => exact fun extra ts => creationDims_takes ih ts extra
    case arrayInit =>
      intro ts
      rw [arrayInit]
      refine .expect (by decide) fun _ us _ _ _ => .bind (ih.elements us) fun vs _ _ _ hvs => ?_
      refine .expect (by decide) fun _ _ _ _ _ => .pure ⟨?_, _, _, rfl⟩
      exact .arrayInit hvs (parsed_plain ⟨trivial, trivial, trivial⟩)
    case elements =>
      intro ts
      rw [elements]
      refine .ifCheck (fun _ => .pure (by simp)) fun _ => ?_
      refine .bind (ih.initialValue ts) fun v _ rest _ hv => .ifAccept (by decide)
        (fun _ us _ _ _ => ?_) fun _ => .pure (by simpa using hv)
      refine .bind (ih.elements us) fun vs _ _ _ hvs => .pure ?_
      exact List.forall_mem_cons.mpr ⟨hv, hvs⟩
    case initialValue =>
      intro ts
      rw [initialValue]
      refine .ifCheck (fun _ => ?_) fun _ => ?_
      · exact (ih.arrayInit ts).mono fun e _ _ _ he => he.1
      · exact (ih.expr ts).mono fun e _ _ _ he => he.tree.widen

end Grammar

end LoopLowering
