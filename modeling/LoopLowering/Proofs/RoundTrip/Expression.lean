import LoopLowering.Proofs.Grammar.ExpressionReading
import LoopLowering.Proofs.Layout.Expression

/-! Expressions survive being written and read again. The text has parentheses where a tree needs
them, so that every operator finds its own operands. -/

namespace LoopLowering

open Layout Grammar

lemma unbracketed_bracketed (least : Nat) (e : Node) :
    (bracketed least e).unbracketed = e.unbracketed := by
  rw [bracketed]
  split
  · rw [Node.plain, Node.unbracketed_mk]
    rfl
  · rfl

lemma map_unbracketed_fitted {s : Shape Node} (h : ∀ c a b, s ≠ .ifElse c a b) :
    (fitted s).map Node.unbracketed = s.map Node.unbracketed := by
  cases s with
  | ifElse c a b => exact absurd rfl (h c a b)
  | methodCall x e as =>
    cases e <;> simp [fitted, Shape.map, Shape.mapAt, unbracketed_bracketed]
  | unary op after e =>
    cases after <;> simp [fitted, Shape.map, Shape.mapAt, unbracketed_bracketed]
  | _ => simp [fitted, Shape.map, Shape.mapAt, unbracketed_bracketed]

lemma map_ne_ifElse {s : Shape Node} (h : ∀ c a b, s ≠ .ifElse c a b) (f : Node → Node) :
    ∀ c a b, s.map f ≠ .ifElse c a b := by
  cases s with
  | ifElse c a b => exact absurd rfl (h c a b)
  | _ => rintro _ _ _ ⟨⟩

lemma unbracketed_reread_mk {t : Tag} {s : Shape Node} (hparens : ∀ e, s ≠ .parens e)
    (hif : ∀ c a b, s ≠ .ifElse c a b) (h : ∀ c ∈ s.children, c.reread.unbracketed = c.bare) :
    (Node.mk t s).reread.unbracketed = (Node.mk t s).bare := by
  have hmap : (s.map Node.reread).map Node.unbracketed = s.map Node.bare := by
    rw [Shape.map, Shape.map, Shape.mapAt_mapAt]
    exact Shape.map_congr h
  rw [Node.reread_mk, Node.plain, Node.unbracketed_mk,
    map_unbracketed_fitted (map_ne_ifElse hif Node.reread), hmap, Node.bare_mk]
  cases s with
  | parens e => exact absurd rfl (hparens e)
  | _ => rfl

variable {P : Tag → Shape Node → Prop}

lemma TypeTree.unbracketed_reread {w : Bool} {n : Node} (h : TypeTree P w n) :
    n.reread.unbracketed = n.bare := by
  induction h with
  | generic _ _ _ ih =>
    exact unbracketed_reread_mk (by rintro _ ⟨⟩) (by rintro _ _ _ ⟨⟩)
      (by simpa [Shape.children, Shape.parts, Part.toList] using ih)
  | bounded _ _ _ ih =>
    exact unbracketed_reread_mk (by rintro _ ⟨⟩) (by rintro _ _ _ ⟨⟩)
      (by simpa [Shape.children, Shape.parts, Part.toList] using ih)
  | _ =>
    exact unbracketed_reread_mk (by rintro _ ⟨⟩) (by rintro _ _ _ ⟨⟩) (List.forall_mem_nil _)

/-- A node whose text can be read as the node, and that is no pair of parentheses. -/
def Synthesized (_ : Tag) (s : Shape Node) : Prop := Writable s ∧ Clear s ∧ ∀ e, s ≠ .parens e

lemma ExprTree.unbracketed_reread {v : Bool} {e : Node} (h : ExprTree Synthesized v e) :
    e.reread.unbracketed = e.bare := by
  induction h with
  | parens _ here _ => exact absurd rfl (here.2.2 _)
  | objectCreation type _ _ _ ih =>
    refine unbracketed_reread_mk (by rintro _ ⟨⟩) (by rintro _ _ _ ⟨⟩) ?_
    simpa [Shape.children, Shape.parts, Part.toList] using ⟨type.unbracketed_reread, ih⟩
  | arrayCreation type _ _ _ _ _ ihd ihi =>
    refine unbracketed_reread_mk (by rintro _ ⟨⟩) (by rintro _ _ _ ⟨⟩) ?_
    simp only [Shape.children, Shape.parts, Part.toList, List.flatMap_cons, List.flatMap_nil,
      List.append_nil, List.forall_mem_append, List.forall_mem_singleton]
    exact ⟨type.unbracketed_reread, ihd, by simpa using ihi⟩
  | cast type _ _ ih =>
    refine unbracketed_reread_mk (by rintro _ ⟨⟩) (by rintro _ _ _ ⟨⟩) ?_
    simpa [Shape.children, Shape.parts, Part.toList] using ⟨type.unbracketed_reread, ih⟩
  | instanceOf _ type _ ih =>
    refine unbracketed_reread_mk (by rintro _ ⟨⟩) (by rintro _ _ _ ⟨⟩) ?_
    simpa [Shape.children, Shape.parts, Part.toList] using ⟨ih, type.unbracketed_reread⟩
  | _ =>
    refine unbracketed_reread_mk (by rintro _ ⟨⟩) (by rintro _ _ _ ⟨⟩) ?_
    simp_all [Shape.children, Shape.parts, Part.toList]

lemma ExprTree.javaText_eq {e : Node} (h : ExprTree P false e) : javaText e = exprText e := by
  cases h <;> rfl

theorem ExprTree.parse_exprText {e : Node} (hw : ExprTree (fun _ s => Writable s) false e)
    (hc : ExprTree (fun _ s => Clear s) false e) :
    ∃ s, exprText e = .ok s ∧ parse .expression s = .ok e.reread := by
  obtain ⟨s, hs, hwritten⟩ := exprText_written hw
  obtain ⟨r, hr, rfl⟩ : ∃ r, parse .expression s = .ok r ∧ r = e.reread := by
    refine hwritten.spells.parse (by simp [Ends]) fun n ts t _ _ hts ht hn => ⟨_, ?_, rfl⟩
    exact (reads_of_tree hc.reread).expr [t] hts (by omega) (by rw [headKind_cons, ht]; decide)
  exact ⟨s, hs, hr⟩

/-- An expression without parentheses of its own is read back from its text, with parentheses only
where they are needed. -/
theorem parse_javaText_expression {e : Node} (h : ExprTree Synthesized false e) :
    ∃ text r, javaText e = .ok text ∧ parse .expression text = .ok r ∧ r.unbracketed = e.bare := by
  obtain ⟨s, hs, hread⟩ := ExprTree.parse_exprText (h.mono fun _ _ here => here.1)
    (h.mono fun _ _ here => here.2.1)
  exact ⟨s, e.reread, h.javaText_eq.trans hs, hread, h.unbracketed_reread⟩

theorem parse_javaText_product :
    let e : Node := .plain (.binary .mul
      (.plain (.binary .add (.plain (.ident "a")) (.plain (.literal (.int 1) .int))))
      (.plain (.unary .minus false (.plain (.ident "b")))))
    ExprTree Synthesized false e ∧
      ∃ text r, javaText e = .ok text ∧ parse .expression text = .ok r ∧ r.unbracketed = e.bare := by
  have ha : Token.IsName "a" := ⟨⟨'a', [], rfl, by decide, by simp⟩, by decide⟩
  have hb : Token.IsName "b" := ⟨⟨'b', [], rfl, by decide, by simp⟩, by decide⟩
  intro e
  have htree : ExprTree Synthesized false e :=
    .binary (by decide)
      (.binary (by decide) (.ident ha ⟨trivial, trivial, nofun⟩)
        (.literal ⟨1, rfl⟩ ⟨⟨nofun, nofun, nofun⟩, trivial, nofun⟩) ⟨trivial, trivial, nofun⟩)
      (.before (by decide) (.ident hb ⟨trivial, trivial, nofun⟩) ⟨trivial, trivial, nofun⟩)
      ⟨trivial, trivial, nofun⟩
  exact ⟨htree, parse_javaText_expression htree⟩

end LoopLowering
