import LoopLowering.Proofs.Grammar.StatementExpression
import LoopLowering.Proofs.RoundTrip.Expression

/-! Casts and tests for a type in the text of an expression. They are read as what they are, unless a
cast to a class stands before a sign or a test for a class before `<`: the text has parentheses by
precedence alone, and a type in parentheses is then taken for an operand. -/

namespace LoopLowering

open Layout Grammar

section

variable {P : Tag → Shape Node → Prop}

lemma reread_unbracketed_mk {t : Tag} {s : Shape Node} (hif : ∀ c a b, s ≠ .ifElse c a b)
    (h : ∀ c ∈ s.children, c.reread.unbracketed = c.bare.unbracketed) :
    (Node.mk t s).reread.unbracketed = (Node.mk t s).bare.unbracketed := by
  have hmap : (s.map Node.reread).map Node.unbracketed = (s.map Node.bare).map Node.unbracketed := by
    rw [Shape.map, Shape.map, Shape.mapAt_mapAt, Shape.map, Shape.map, Shape.mapAt_mapAt]
    exact Shape.map_congr h
  rw [Node.reread_mk, Node.plain, Node.unbracketed_mk,
    map_unbracketed_fitted (map_ne_ifElse hif Node.reread), hmap, Node.bare_mk, Node.plain,
    Node.unbracketed_mk]

lemma TypeTree.reread_unbracketed {w : Bool} {n : Node} (h : TypeTree P w n) :
    n.reread.unbracketed = n.bare.unbracketed := by
  induction h <;> refine reread_unbracketed_mk (by rintro _ _ _ ⟨⟩) ?_ <;>
    simp_all [Shape.children, Shape.parts, Part.toList]

lemma ExprTree.reread_unbracketed {v : Bool} {e : Node} (h : ExprTree P v e) :
    e.reread.unbracketed = e.bare.unbracketed := by
  induction h <;> refine reread_unbracketed_mk (by rintro _ _ _ ⟨⟩) ?_ <;>
    simp_all [Shape.children, Shape.parts, Part.toList, or_imp]
  all_goals exact TypeTree.reread_unbracketed (by assumption)

lemma splitOn_of_isName {x : String} (hx : Token.IsName x) : x.toList.splitOn '.' = [x.toList] := by
  have hsplit : (['.'].intercalate [x.toList]).splitOn '.' = [x.toList] :=
    List.splitOn_intercalate '.' (by simpa using dot_notMem_of_isName hx) (by simp)
  rwa [List.intercalate_singleton] at hsplit

lemma isQualified_of_isName {x : String} (hx : Token.IsName x) : IsQualified x := by
  rw [IsQualified, splitOn_of_isName hx]
  simpa using hx

lemma ofName_of_isName {x : String} (hx : Token.IsName x) : Item.ofName x = [Item.name x] := by
  rw [Item.ofName, splitOn_of_isName hx, List.map_singleton, String.ofList_toList, IsName.ofText hx]
  exact List.intercalate_singleton

def signOperators : List (UnaryOp × BinaryOp) := [(.plus, .add), (.minus, .sub)]

def summed (op : BinaryOp) (x : String) (e : Node) : Node :=
  .plain (.binary op (.plain (.parens (.plain (.ident x)))) (bracketed Precedence.unary e.reread))

section

variable {t u v : Tag} {x : String} {e : Node} {sign : UnaryOp} {op : BinaryOp}
  (hsign : (sign, op) ∈ signOperators) (hx : Token.IsName x)

include hsign hx

lemma summed_legible (he : ExprTree (fun _ s => Clear s) false e) :
    ExprTree Legible false (summed op x e) := by
  have hknown : op ∈ BinaryOp.known := by fin_cases hsign <;> decide
  refine .binary hknown (.parens (.ident hx ⟨rfl, trivial, trivial⟩) ⟨rfl, trivial, trivial⟩)
    (he.reread.bracket _) ⟨rfl, ?_, fun p hp => ?_⟩
  · fin_cases hsign <;> trivial
  · have hlt : p + 1 < Precedence.unary := by fin_cases hsign <;> cases hp <;> decide
    have hname : p ≤ Precedence.primary := by
      have : Precedence.unary ≤ Precedence.primary := by decide
      omega
    exact ⟨hname, hlt.le.trans (le_precedence_bracketed _ (by decide))⟩

lemma cast_items :
    (Node.mk t (.cast (.mk u (.typeRef x 0 none)) (.mk v (.unary sign false e)))).reread.items =
      (summed op x e).items := by
  have hreread : (Node.mk t (.cast (.mk u (.typeRef x 0 none)) (.mk v (.unary sign false e)))).reread =
      .plain (.cast (.plain (.typeRef x 0 none))
        (.plain (.unary sign false (bracketed Precedence.unary e.reread)))) := rfl
  have hname : (Node.plain (.typeRef x 0 none)).items = [Item.name x] := by
    rw [Node.plain, Node.items_typeRef, ofName_of_isName hx]
    rfl
  have hop : Item.ofBinary op = [Item.mark sign.symbol] := by fin_cases hsign <;> rfl
  have hsum : (summed op x e).items = [Item.mark "(", Item.name x, Item.mark ")"] ++
      (Item.ofBinary op ++ (bracketed Precedence.unary e.reread).items) := Node.items_binary _ _ _ _
  rw [hreread, Node.plain, Node.items_cast, hname, hsum, hop]
  rfl

theorem cast_before_sign (he : ExprTree (fun _ s => Writable s ∧ Clear s) false e) :
    ∃ text r, javaText (.mk t (.cast (.mk u (.typeRef x 0 none)) (.mk v (.unary sign false e)))) =
        .ok text ∧ parse .expression text = .ok r ∧
      r.unbracketed = .plain (.binary op (.plain (.ident x)) e.bare.unbracketed) := by
  have hknown : sign ∈ UnaryOp.known := by fin_cases hsign <;> decide
  have hcast : ExprTree (fun _ s => Writable s) false
      (.mk t (.cast (.mk u (.typeRef x 0 none)) (.mk v (.unary sign false e)))) :=
    .cast (.named (isQualified_of_isName hx) trivial)
      (.before hknown (he.mono fun _ _ here => here.1) trivial) trivial
  obtain ⟨s, hs, hwritten⟩ := exprText_written hcast
  have hspells := hwritten.spells
  rw [cast_items hsign hx] at hspells
  have hread := summed_legible hsign hx (he.mono fun _ _ here => here.2)
  obtain ⟨r, hr, rfl⟩ : ∃ r, parse .expression s = .ok r ∧ r = summed op x e := by
    refine hspells.parse (by simp [Ends]) fun n ts t _ _ hts ht hn => ⟨_, ?_, rfl⟩
    exact (reads_of_tree hread).expr [t] hts (by omega) (by rw [headKind_cons, ht]; decide)
  refine ⟨s, _, hs, hr, ?_⟩
  have hoperand := unbracketed_bracketed Precedence.unary e.reread
  rw [he.reread_unbracketed] at hoperand
  rw [summed, Node.plain, Node.unbracketed_mk]
  simp only [Shape.map, Shape.mapAt, hoperand]
  rfl

end

/-- The text of an expression is read as the expression, but for parentheses, with all of its casts and
tests, if the operand of a cast to a class has no sign and no test for a class stands before `<`. -/
theorem parse_javaText_typeOperators {e : Node}
    (h : ExprTree (fun _ s => Writable s ∧ Clear s) false e) :
    ∃ text r, javaText e = .ok text ∧ parse .expression text = .ok r ∧
      r.unbracketed = e.bare.unbracketed := by
  obtain ⟨s, hs, hread⟩ := ExprTree.parse_exprText (h.mono fun _ _ here => here.1)
    (h.mono fun _ _ here => here.2)
  exact ⟨s, e.reread, h.javaText_eq.trans hs, hread, h.reread_unbracketed⟩

theorem parse_javaText_castTested :
    let cast : Node := .plain (.cast
      (.plain (.typeRef "List" 0 (some [.plain (.typeRef "T" 0 none)])))
      (.plain (.unary .not false (.plain (.ident "x")))))
    let e : Node := .plain (.binary .lt
      (.plain (.instanceOf cast (.plain (.typeRef "int" 1 none)))) (.plain (.ident "y")))
    ExprTree (fun _ s => Writable s ∧ Clear s) false e ∧
      ∃ text r, javaText e = .ok text ∧ parse .expression text = .ok r ∧
        r.unbracketed = e.bare.unbracketed := by
  intro cast e
  have hcast : ExprTree (fun _ s => Writable s ∧ Clear s) false cast :=
    .cast (.generic (isQualified_of_isName (by decide))
        (by simpa using .named (isQualified_of_isName (by decide)) ⟨trivial, trivial⟩) ⟨trivial, trivial⟩)
      (.before (by decide) (.ident (by decide) ⟨trivial, trivial⟩) ⟨trivial, trivial⟩)
      ⟨trivial, fun _ => rfl⟩
  have htree : ExprTree (fun _ s => Writable s ∧ Clear s) false e :=
    .binary (by decide)
      (.instanceOf hcast (.primitive (by decide) ⟨trivial, trivial⟩) ⟨trivial, trivial⟩)
      (.ident (by decide) ⟨trivial, trivial⟩) ⟨trivial, rfl⟩
  exact ⟨htree, parse_javaText_typeOperators htree⟩

/-- A cast of a negated name is read as a difference, and a test for a class before `<` is not read. -/
theorem typeOperators_misread :
    let negated : Node := .plain (.cast (.plain (.typeRef "T" 0 none))
      (.plain (.unary .minus false (.plain (.ident "x")))))
    let tested : Node := .plain (.binary .lt
      (.plain (.instanceOf (.plain (.ident "x")) (.plain (.typeRef "T" 0 none))))
      (.plain (.ident "y")))
    (∃ text r, javaText negated = .ok text ∧ parse .expression text = .ok r ∧
      ∀ ty e, r.shape ≠ .cast ty e) ∧
      ∃ text d, javaText tested = .ok text ∧ parse .expression text = .error (.rejected d) := by
  intro negated tested
  constructor
  · have hclear : ExprTree (fun _ s => Writable s ∧ Clear s) false (.plain (.ident "x")) :=
      .ident (by decide) ⟨trivial, trivial⟩
    obtain ⟨text, r, htext, hread, hr⟩ := cast_before_sign (t := {}) (u := {}) (v := {}) (x := "T")
      (show (UnaryOp.minus, BinaryOp.sub) ∈ signOperators by decide)
      (by decide) hclear
    refine ⟨text, r, htext, hread, fun ty e hcast => ?_⟩
    obtain ⟨t, s⟩ := r
    obtain rfl : s = .cast ty e := hcast
    rw [Node.unbracketed_mk] at hr
    cases hr
  · have htext : javaText tested = .ok "x instanceof T < y" :=
      eq_ok_of_toOption (by decide +kernel)
    have hread : (match parse .expression "x instanceof T < y" with
        | .error (.rejected _) => true
        | _ => false) = true := by
      decide +kernel
    split at hread
    · rename_i d hparse
      exact ⟨_, d, htext, hparse⟩
    · cases hread

end

end LoopLowering
