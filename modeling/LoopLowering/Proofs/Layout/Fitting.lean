import LoopLowering.Layout.Statement
import LoopLowering.Proofs.Syntax.Expression
import LoopLowering.Proofs.Tree.Path

/-! What a tree becomes when its text is read again: parentheses and braces are nodes wherever the
text has them, and nodes have no tags. -/

namespace LoopLowering

namespace Layout

def bracketed (least : Nat) (e : Node) : Node :=
  if precedence e < least then .plain (.parens e) else e

/-- A node with the parentheses and braces that its text has around its children. -/
def fitted : Shape Node → Shape Node
  | .fieldAccess x e => .fieldAccess x (bracketed Precedence.primary e)
  | .arrayAccess e i => .arrayAccess (bracketed Precedence.primary e) i
  | .methodCall x (some e) as => .methodCall x (some (bracketed Precedence.primary e)) as
  | .assign op l r => .assign op (bracketed Precedence.primary l) (bracketed Precedence.assign r)
  | .binary op l r =>
    let p := (Precedence.binary op).getD 0
    .binary op (bracketed p l) (bracketed (p + 1) r)
  | .unary op true e => .unary op true (bracketed Precedence.counted e)
  | .unary op false e => .unary op false (bracketed Precedence.unary e)
  | .conditional c a b =>
    .conditional (bracketed (Precedence.conditional + 1) c) (bracketed Precedence.assign a)
      (bracketed Precedence.conditional b)
  | .cast ty e => .cast ty (bracketed Precedence.unary e)
  | .instanceOf e ty => .instanceOf (bracketed Precedence.comparison e) ty
  | .ifElse c a b => .ifElse c (if needsBraces a b then .plain (.block [a]) else a) b
  | s => s

end Layout

namespace Node

open Layout

/-- The tree that the text of a tree stands for. -/
def reread : Node → Node := fold fun _ s => plain (fitted s)

lemma reread_mk (t : Tag) (s : Shape Node) : reread (mk t s) = plain (fitted (s.map reread)) :=
  fold_mk _ t s

/-- A tree without the parentheses in it. -/
def unbracketed : Node → Node :=
  fold fun t s =>
    match s with
    | .parens e => e
    | s => mk t s

lemma unbracketed_mk (t : Tag) (s : Shape Node) : unbracketed (mk t s) =
    match s.map unbracketed with
    | .parens e => e
    | s => mk t s :=
  fold_mk _ t s

end Node

namespace Layout

lemma bracketed_of_le {least : Nat} {e : Node} (h : least ≤ precedence e) :
    bracketed least e = e := if_neg (by omega)

lemma le_precedence_bracketed {least : Nat} (e : Node) (h : least ≤ Precedence.primary) :
    least ≤ precedence (bracketed least e) := by
  rw [bracketed]
  split
  · exact h
  · omega

lemma exists_binary {op : BinaryOp} (h : op ∈ BinaryOp.known) :
    ∃ p, Precedence.binary op = some p ∧ Precedence.conditional < p ∧ p < Precedence.unary := by
  have key : ∀ op ∈ BinaryOp.known, (Precedence.binary op).any (fun p =>
      decide (Precedence.conditional < p ∧ p < Precedence.unary)) = true := by
    decide
  obtain ⟨p, hp, hle⟩ := (Option.any_eq_true _ _).mp (key op h)
  exact ⟨p, hp, of_decide_eq_true hle⟩

lemma precedence_of_isTarget {e : Node} (h : Grammar.isTarget e = true) :
    precedence e = Precedence.primary := by
  obtain ⟨t, s⟩ := e
  cases s <;> first | rfl | cases h

/-- Whether an expression starts with a sign or a counting operator before its operand. -/
def signed (e : Node) : Bool :=
  match e.shape with
  | .unary op false _ => [UnaryOp.plus, .minus, .increment, .decrement].contains op
  | _ => false

def isPrimitive (type : Node) : Bool :=
  match type.shape with
  | .typeRef x _ _ => primitiveNames.contains x
  | _ => false

def isClassName (type : Node) : Bool :=
  match type.shape with
  | .typeRef x 0 none => !primitiveNames.contains x
  | _ => false

/-- Whether an expression is a test for a class that is only named. -/
def testsClassName (e : Node) : Bool :=
  match e.shape with
  | .instanceOf _ type => isClassName type
  | _ => false

def isIntLiteral (e : Node) : Bool :=
  match e.shape with
  | .literal _ .int => true
  | _ => false

/-- The operand of a cast to a class has no sign, and `<` does not follow the name of a class. -/
def Clear : Shape Node → Prop
  | .cast ty e => isPrimitive ty = false → signed e = false
  | .binary .lt l _ => testsClassName l = false
  | _ => True

def Fits : Shape Node → Prop
  | .fieldAccess _ e => Precedence.primary ≤ precedence e
  | .arrayAccess e _ => Precedence.primary ≤ precedence e
  | .methodCall _ (some e) _ => Precedence.primary ≤ precedence e
  | .binary op l r => ∀ p ∈ Precedence.binary op, p ≤ precedence l ∧ p + 1 ≤ precedence r
  | .unary _ true e => Precedence.counted ≤ precedence e
  | .unary _ false e => Precedence.unary ≤ precedence e
  | .conditional c _ b =>
    Precedence.conditional + 1 ≤ precedence c ∧ Precedence.conditional ≤ precedence b
  | .cast _ e => Precedence.unary ≤ precedence e
  | .instanceOf e _ => Precedence.comparison ≤ precedence e
  | _ => True

/-- A literal has a text that is read as the same literal, and no number stands before a dot. -/
def Writable : Shape Node → Prop
  | .literal c k =>
    k ≠ .float ∧ k ≠ .double ∧ (k = .char → ∃ x : Char, c = .text (String.singleton x))
  | .fieldAccess _ e => isIntLiteral e = false
  | .methodCall _ (some e) _ => isIntLiteral e = false
  | _ => True

lemma exists_singleton_iff {s : String} :
    (∃ x : Char, Constant.text s = .text (String.singleton x)) ↔ s.toList.length = 1 := by
  rw [List.length_eq_one_iff]
  refine exists_congr fun x => ?_
  rw [Constant.text.injEq, ← String.toList_inj, String.toList_singleton]

instance decidableOneChar (c : Constant) : Decidable (∃ x : Char, c = .text (String.singleton x)) :=
  match c with
  | .text _ => decidable_of_iff' _ exists_singleton_iff
  | .null | .bool _ | .int _ | .float _ => isFalse fun ⟨_, h⟩ => Constant.noConfusion h

instance : DecidablePred Writable := fun s => by
  unfold Writable
  split <;> infer_instance

def Legible (t : Tag) (s : Shape Node) : Prop := t = {} ∧ Clear s ∧ Fits s

structure SameHead (a b : Node) : Prop where
  precedence : precedence a = precedence b
  isTarget : Grammar.isTarget a = Grammar.isTarget b
  dims : a.dims = b.dims
  signed : signed a = signed b
  isPrimitive : isPrimitive a = isPrimitive b
  isClassName : isClassName a = isClassName b

lemma sameHead_reread (e : Node) : SameHead e.reread e := by
  obtain ⟨t, s⟩ := e
  rw [Node.reread_mk]
  cases s with
  | unary op after e => cases after <;> constructor <;> rfl
  | methodCall x e as => cases e <;> constructor <;> rfl
  | typeRef x d as => cases d <;> cases as <;> constructor <;> rfl
  | _ => constructor <;> rfl

lemma signed_bracketed {least : Nat} {e : Node} (h : signed e = false) :
    signed (bracketed least e.reread) = false := by
  rw [bracketed]
  split
  · rfl
  · exact (sameHead_reread e).signed.trans h

lemma testsClassName_reread (e : Node) : testsClassName e.reread = testsClassName e := by
  obtain ⟨t, s⟩ := e
  rw [Node.reread_mk]
  cases s with
  | unary op after e => cases after <;> rfl
  | methodCall x e as => cases e <;> rfl
  | instanceOf e ty => exact (sameHead_reread ty).isClassName
  | _ => rfl

lemma testsClassName_bracketed {least : Nat} {e : Node} (h : testsClassName e = false) :
    testsClassName (bracketed least e.reread) = false := by
  rw [bracketed]
  split
  · rfl
  · exact (testsClassName_reread e).trans h

end Layout

open Layout

variable {P : Tag → Shape Node → Prop}

lemma forall_map_reread {Q : Node → Prop} {ns : List Node} (h : ∀ n ∈ ns, Q n.reread) :
    ∀ n ∈ ns.map Node.reread, Q n := by
  intro n hn
  obtain ⟨m, hm, rfl⟩ := List.mem_map.mp hn
  exact h m hm

lemma TypeTree.reread {w : Bool} {n : Node} (h : TypeTree P w n) :
    TypeTree Legible w n.reread := by
  induction h with
  | primitive name _ => exact .primitive name ⟨rfl, trivial, trivial⟩
  | named name _ => exact .named name ⟨rfl, trivial, trivial⟩
  | generic name _ _ ih =>
    simp only [Node.reread_mk, Shape.map, Shape.mapAt, mapIdx_const, fitted, Option.map_some]
    exact .generic name (forall_map_reread ih) ⟨rfl, trivial, trivial⟩
  | anything _ => exact .anything ⟨rfl, trivial, trivial⟩
  | bounded word _ _ ih => exact .bounded word ih ⟨rfl, trivial, trivial⟩

lemma ExprTree.bracket {e : Node} (least : Nat) (h : ExprTree Legible false e) :
    ExprTree Legible false (bracketed least e) := by
  rw [Layout.bracketed]
  split
  · exact .parens h ⟨rfl, trivial, trivial⟩
  · exact h

lemma ExprTree.reread {v : Bool} {e : Node} (h : ExprTree (fun _ s => Clear s) v e) :
    ExprTree Legible v e.reread := by
  induction h with
  | literal holds _ => exact .literal holds ⟨rfl, trivial, trivial⟩
  | ident name _ => exact .ident name ⟨rfl, trivial, trivial⟩
  | this _ => exact .this ⟨rfl, trivial, trivial⟩
  | super _ => exact .super ⟨rfl, trivial, trivial⟩
  | parens _ _ ih => exact .parens ih ⟨rfl, trivial, trivial⟩
  | fieldAccess name _ _ ih =>
    exact .fieldAccess name (ih.bracket _) ⟨rfl, trivial, le_precedence_bracketed _ (Nat.le_refl _)⟩
  | arrayAccess _ _ _ iht ihi =>
    exact .arrayAccess (iht.bracket _) ihi ⟨rfl, trivial, le_precedence_bracketed _ (Nat.le_refl _)⟩
  | call name _ _ ih =>
    simp only [Node.reread_mk, Shape.map, Shape.mapAt, mapIdx_const, fitted, Option.map_none]
    exact .call name (forall_map_reread ih) ⟨rfl, trivial, trivial⟩
  | methodCall name _ _ _ iht iha =>
    simp only [Node.reread_mk, Shape.map, Shape.mapAt, mapIdx_const, fitted, Option.map_some]
    exact .methodCall name (iht.bracket _) (forall_map_reread iha)
      ⟨rfl, trivial, le_precedence_bracketed _ (Nat.le_refl _)⟩
  | objectCreation type bare _ _ ih =>
    simp only [Node.reread_mk, Shape.map, Shape.mapAt, mapIdx_const, fitted]
    exact .objectCreation type.reread ((sameHead_reread _).dims.trans bare) (forall_map_reread ih)
      ⟨rfl, trivial, trivial⟩
  | @arrayCreation v t n ty ds o type bare _ _ parts _ ihd ihi =>
    simp only [Node.reread_mk, Shape.map, Shape.mapAt, mapIdx_const, fitted]
    refine .arrayCreation type.reread ((sameHead_reread _).dims.trans bare) (forall_map_reread ihd)
      ?_ ?_ ⟨rfl, trivial, trivial⟩
    · intro i hi
      obtain ⟨j, hj, rfl⟩ := Option.map_eq_some_iff.mp hi
      exact ihi j hj
    · cases o with
      | none => simpa [ArrayParts] using parts
      | some i =>
        obtain ⟨rfl, hn, u, vs, rfl⟩ := parts
        exact ⟨rfl, hn, _, _, Node.reread_mk u (.arrayInit vs)⟩
  | arrayInit _ _ ih =>
    simp only [Node.reread_mk, Shape.map, Shape.mapAt, mapIdx_const, fitted]
    exact .arrayInit (forall_map_reread ih) ⟨rfl, trivial, trivial⟩
  | @assign v t op l r known _ place _ _ ihl ihr =>
    have hplace : Grammar.isTarget (bracketed Precedence.primary l.reread) = true := by
      have hl := (sameHead_reread l).isTarget.trans place
      rwa [bracketed_of_le (Nat.le_of_eq (precedence_of_isTarget hl).symm)]
    exact .assign known (ihl.bracket _) hplace (ihr.bracket _) ⟨rfl, trivial, trivial⟩
  | @binary v t op l r known _ _ clear ihl ihr =>
    refine .binary known (ihl.bracket _) (ihr.bracket _) ⟨rfl, ?_, ?_⟩
    · cases op with
      | lt => exact testsClassName_bracketed clear
      | _ => trivial
    · obtain ⟨p, hp, -, hle⟩ := exists_binary known
      rintro q hq
      obtain rfl := Option.some.inj (hp.symm.trans hq)
      have hprimary : p + 1 ≤ Precedence.primary := Nat.le_trans hle (by decide)
      simp only [hp, Option.getD_some]
      exact ⟨le_precedence_bracketed _ (by omega), le_precedence_bracketed _ hprimary⟩
  | before known _ _ ih =>
    exact .before known (ih.bracket _) ⟨rfl, trivial, le_precedence_bracketed _ (by decide)⟩
  | after known _ _ ih =>
    exact .after known (ih.bracket _) ⟨rfl, trivial, le_precedence_bracketed _ (by decide)⟩
  | conditional _ _ _ _ ihc iha ihb =>
    exact .conditional (ihc.bracket _) (iha.bracket _) (ihb.bracket _)
      ⟨rfl, trivial, le_precedence_bracketed _ (by decide), le_precedence_bracketed _ (by decide)⟩
  | cast type _ clear ih =>
    refine .cast type.reread (ih.bracket _) ⟨rfl, fun h => ?_, le_precedence_bracketed _ (by decide)⟩
    exact signed_bracketed (clear ((sameHead_reread _).isPrimitive.symm.trans h))
  | instanceOf _ type _ ih =>
    exact .instanceOf (ih.bracket _) type.reread ⟨rfl, trivial, le_precedence_bracketed _ (by decide)⟩

end LoopLowering
