import LoopLowering.Proofs.Layout.Written

/-! The texts of types and expressions spell the items of the trees that they are read as. -/

namespace LoopLowering.Layout

open Token Text

section

variable {Q : Node → String → Prop}

lemma typeTexts_of_forall {ns : List Node} (h : ∀ n ∈ ns, ∃ s, typeText n = .ok s ∧ Q n s) :
    ∃ ss, typeTexts ns = .ok ss ∧ List.Forall₂ Q ns ss := by
  induction ns with
  | nil => exact ⟨[], rfl, .nil⟩
  | cons n ns ih =>
    obtain ⟨s, hs, hq⟩ := h n List.mem_cons_self
    obtain ⟨ss, hss, hqs⟩ := ih fun m hm => h m (List.mem_cons_of_mem n hm)
    exact ⟨s :: ss, by rw [typeTexts, hs, hss]; rfl, .cons hq hqs⟩

lemma exprTexts_of_forall {ns : List Node} (h : ∀ n ∈ ns, ∃ s, exprText n = .ok s ∧ Q n s) :
    ∃ ss, exprTexts ns = .ok ss ∧ List.Forall₂ Q ns ss := by
  induction ns with
  | nil => exact ⟨[], rfl, .nil⟩
  | cons n ns ih =>
    obtain ⟨s, hs, hq⟩ := h n List.mem_cons_self
    obtain ⟨ss, hss, hqs⟩ := ih fun m hm => h m (List.mem_cons_of_mem n hm)
    exact ⟨s :: ss, by rw [exprTexts, hs, hss]; rfl, .cons hq hqs⟩

end

lemma commaList_parts_spells {α : Type} {f : α → List Item} {l : List Char} (hends : ',' ∈ l)
    {ns : List α} {ss : List String}
    (h : List.Forall₂ (fun n s => Spells s.toList (f n) (Ends l)) ns ss) :
    Spells (commaList ss).toList (Item.listed (ns.map f)) (Ends l) := by
  rw [commaList, String.toList_intercalate]
  refine Spells.separated (s := ", ".toList) (l := [Item.mark ","]) ?_ (by simpa using hends) ?_
  · exact (Spells.solo (m := ",") (by decide) fun _ => True).followedBy (Spells.blank (c := ' ') rfl _)
  · rw [List.forall₂_map_left_iff, List.forall₂_map_right_iff]
    exact h.flip

lemma commaList_spells {α : Type} {f : α → List Item} {l : List Char} (hends : ',' ∈ l)
    {ns : List α} {ss : List String}
    (h : List.Forall₂ (fun n s => Written s.toList (f n) l) ns ss) :
    Spells (commaList ss).toList (Item.listed (ns.map f)) (Ends l) :=
  commaList_parts_spells hends (h.imp fun _ _ hw => hw.spells)

lemma commaList_starts {α : Type} {f : α → List Item} {ends : List Char} {ns : List α}
    {ss : List String} (h : List.Forall₂ (fun n s => Written s.toList (f n) ends) ns ss) {c : Char}
    (hc : c ∉ ['=', '<']) (rest : List Char) :
    ∃ d ds, (commaList ss).toList ++ c :: rest = d :: ds ∧ d ∉ ['=', '<'] := by
  rw [commaList, String.toList_intercalate]
  cases h with
  | nil => exact ⟨c, rest, rfl, hc⟩
  | @cons n s ns ss hw hs =>
    obtain ⟨d, ds, hds, hd⟩ := hw.starts
    cases hs with
    | nil => exact ⟨d, ds ++ c :: rest, by simp [hds], hd⟩
    | cons => exact ⟨d, _, by simp [List.intercalate_cons_cons, hds]; rfl, hd⟩

lemma identStart_notMem {c : Char} (hc : isIdentStart c = true) : c ∉ ['=', '<'] := by
  have key : ∀ d ∈ ['=', '<'], isIdentStart d = false := forall_mem_of_all (by decide)
  intro hmem
  rw [key c hmem] at hc
  cases hc

lemma typeName_start {x : String} (hx : x ∈ primitiveNames ∨ IsQualified x) :
    ∃ c cs, x.toList = c :: cs ∧ isIdentStart c = true := by
  rcases hx with hx | hx
  · obtain ⟨c, cs, hcs, hc, -⟩ := reservedWords_isWord x (primitiveNames_reserved x hx).1
    exact ⟨c, cs, hcs, hc⟩
  · have hsplit := (List.intercalate_splitOn '.' : _ = x.toList)
    obtain ⟨p, ps, hps⟩ := List.exists_cons_of_ne_nil (List.splitOn_ne_nil '.' x.toList)
    obtain ⟨c, cs, hcs, hc⟩ := isName_start (hx p (hps ▸ List.mem_cons_self))
    rw [String.toList_ofList] at hcs
    rw [← hsplit, hps]
    cases ps with
    | nil => exact ⟨c, cs, by simp [hcs], hc⟩
    | cons => exact ⟨c, _, by simp [List.intercalate_cons_cons, hcs]; rfl, hc⟩

lemma written_typeName {x : String} (hx : x ∈ primitiveNames ∨ IsQualified x) :
    Written x.toList (Item.ofName x) ('<' :: typeEnds) := by
  have hends : ∀ c ∈ '<' :: typeEnds, isIdentPart c = false :=
    forall_mem_of_all (by decide)
  have hspells : Spells x.toList (Item.ofName x) WordEnds := by
    rcases hx with hx | hx
    · obtain ⟨hmem, hitems⟩ := primitiveNames_reserved x hx
      rw [hitems]
      exact Spells.word hmem
    · exact Spells.qualified hx
  refine ⟨hspells.mono fun _ => Ends.wordEnds hends, ?_⟩
  obtain ⟨c, cs, hcs, hc⟩ := typeName_start hx
  exact ⟨c, cs, hcs, identStart_notMem hc⟩

variable {P : Tag → Shape Node → Prop}

lemma angled_spells {cs : List Char} {is : List Item} (hs : Spells cs is (Ends typeEnds))
    (hstart : ∀ rest, ∃ c ds, cs ++ '>' :: rest = c :: ds ∧ c ∉ ['=', '<']) :
    Spells ('<' :: (cs ++ ['>'])) (Item.mark "<" :: is ++ [Item.mark ">"]) (Ends typeEnds) := by
  have hclose : Spells ['>'] [Item.mark ">"] (Ends typeEnds) := by
    refine (Spells.mark (m := ">") (by decide)).mono fun next hnext => markEnds_greater ?_
    rintro rfl
    exact absurd (hnext _ rfl) (by decide)
  have hbody : Spells (cs ++ ['>']) (is ++ [Item.mark ">"]) (Ends typeEnds) :=
    hs.followed hclose (by decide)
  have hopen := (Spells.mark (m := "<") (by decide)).append hbody fun rest _ => by
    obtain ⟨c, ds, hcs, hc⟩ := hstart rest
    rw [List.append_assoc, List.singleton_append, hcs]
    exact markEnds_less hc
  exact hopen

lemma written_typeArgs {x : String} (hx : IsQualified x) {cs : List Char} {is : List Item}
    (hs : Spells cs is (Ends typeEnds))
    (hstart : ∀ rest, ∃ c ds, cs ++ '>' :: rest = c :: ds ∧ c ∉ ['=', '<']) :
    Written (x.toList ++ '<' :: (cs ++ ['>']))
      (Item.ofName x ++ (Item.mark "<" :: is ++ [Item.mark ">"])) typeEnds :=
  (written_typeName (.inr hx)).followed (angled_spells hs hstart) rfl

lemma typeText_written {w : Bool} {n : Node} (h : TypeTree P w n) :
    ∃ s, typeText n = .ok s ∧ Written s.toList n.reread.items typeEnds := by
  have hname : ∀ {x : String} (d : Nat), x ∈ primitiveNames ∨ IsQualified x →
      Written (x ++ brackets d).toList (Item.ofName x ++ [] ++ Item.brackets d) typeEnds := by
    intro x d hx
    rw [String.toList_append, List.append_nil]
    exact (written_typeName hx).brackets (by decide) (by simp) d
  induction h with
  | primitive name _ => exact ⟨_, rfl, hname _ (.inl name)⟩
  | named name _ => exact ⟨_, rfl, hname _ (.inr name)⟩
  | @generic w t x d as name _ _ ih =>
    obtain ⟨ss, hss, hs⟩ := typeTexts_of_forall ih
    have hargs := written_typeArgs name (commaList_spells (by decide) hs)
      (commaList_starts hs (by decide))
    refine ⟨_, by rw [typeText, hss]; rfl, ?_⟩
    have h := hargs.brackets (by decide) (List.Subset.refl _) d
    simpa [Node.reread_mk, Node.items_mk, Node.plain, Shape.map, Shape.mapAt, mapIdx_const, fitted,
      Item.ofShape, Function.comp_def] using h
  | @anything t _ =>
    refine ⟨_, rfl, ⟨Spells.solo (m := "?") (by decide) _, _, _, rfl, by decide⟩⟩
  | @bounded t k b word _ _ ih =>
    obtain ⟨s, hs, hw⟩ := ih
    have hreserved : ∀ k ∈ ["extends", "super"], k ∈ reservedWords := by decide
    refine ⟨_, by rw [typeText, hs]; rfl, ?_⟩
    have h : Spells ('?' :: ' ' :: (k.toList ++ [' '] ++ s.toList))
        ([Item.mark "?"] ++ ([Item.word k] ++ b.reread.items)) (Ends typeEnds) :=
      (Spells.solo (m := "?") (by decide) fun _ => True).followedBy
        ((Spells.wordSpace (hreserved k word)).followedBy hw.spells).space
    have hitems : (Node.mk t (.wildcard (some k) (some b))).reread.items =
        [Item.mark "?"] ++ ([Item.word k] ++ b.reread.items) := rfl
    rw [hitems]
    exact ⟨by simpa using h, '?', _, by simp; rfl, by decide⟩

def endsOf (e : Node) : List Char :=
  if isIntLiteral e || precedence e < Precedence.primary then exprEnds else operandEnds

lemma exprEnds_subset_endsOf (e : Node) : exprEnds ⊆ endsOf e := by
  rw [endsOf]
  split
  · exact List.Subset.refl _
  · exact List.subset_cons_self _ _

lemma endsOf_operand {e : Node} (hint : isIntLiteral e = false)
    (hp : Precedence.primary ≤ precedence e) : endsOf e = operandEnds := by
  rw [endsOf, if_neg]
  simpa [hint] using hp

lemma endsOf_loose {e : Node} (h : precedence e < Precedence.primary) : endsOf e = exprEnds :=
  if_pos (by simp [h])

lemma parens_written {s : String} {e : Node} (h : Spells s.toList e.items (Ends exprEnds))
    (ends : List Char) :
    Written ("(" ++ s ++ ")").toList (Node.plain (.parens e)).items ends := by
  rw [String.toList_append, String.toList_append]
  exact ⟨Spells.enclosed (l := "(") (r := ")") _ (by decide) (by decide) h rfl, _, _, rfl, by decide⟩

lemma wrap_written (least : Nat) {e : Node} {s : String}
    (h : Written s.toList e.reread.items (endsOf e)) :
    Written (wrap least e s).toList (bracketed least e.reread).items exprEnds := by
  rw [wrap, bracketed, (sameHead_reread e).precedence]
  split
  · exact parens_written (h.mono (exprEnds_subset_endsOf e)).spells exprEnds
  · exact h.mono (exprEnds_subset_endsOf e)

lemma wrap_operand_written {e : Node} {s : String} (hint : isIntLiteral e = false)
    (h : Written s.toList e.reread.items (endsOf e)) :
    Written (wrap Precedence.primary e s).toList (bracketed Precedence.primary e.reread).items
      operandEnds := by
  rw [wrap, bracketed, (sameHead_reread e).precedence]
  split
  · exact parens_written (h.mono (exprEnds_subset_endsOf e)).spells operandEnds
  · rw [endsOf_operand hint (by omega)] at h
    exact h

def nameEnds : List Char := '(' :: operandEnds

lemma nameEnds_word : ∀ c ∈ nameEnds, isIdentPart c = false :=
  forall_mem_of_all (by decide)

lemma operandEnds_subset : operandEnds ⊆ nameEnds := List.subset_cons_self _ _

lemma name_written {x : String} (hx : IsName x) : Written x.toList [Item.name x] nameEnds := by
  obtain ⟨c, cs, hcs, hc⟩ := isName_start hx
  exact ⟨(Spells.name hx).mono fun _ => Ends.wordEnds nameEnds_word, c, cs, hcs,
    identStart_notMem hc⟩

lemma word_written {w : String} (hw : w ∈ reservedWords) :
    Written w.toList [Item.word w] nameEnds := by
  obtain ⟨c, cs, hcs, hc, -⟩ := reservedWords_isWord w hw
  exact ⟨(Spells.word hw).mono fun _ => Ends.wordEnds nameEnds_word, c, cs, hcs,
    identStart_notMem hc⟩

lemma dotted_written {cs : List Char} {is : List Item} {x : String}
    (h : Written cs is operandEnds) (hx : IsName x) :
    Written (cs ++ '.' :: x.toList) (is ++ [Item.mark ".", Item.name x]) nameEnds := by
  have hspells := h.spells.dotted (by decide) hx
  obtain ⟨c, cs', rfl, hc⟩ := h.starts
  exact ⟨hspells.mono fun _ => Ends.wordEnds nameEnds_word, c, _, rfl, hc⟩

lemma toDigits_starts (n : Nat) (rest : List Char) :
    ∃ c cs, Nat.toDigits 10 n ++ rest = c :: cs ∧ c ∉ ['=', '<'] := by
  obtain ⟨c, cs, hcs⟩ := List.exists_cons_of_ne_nil (toDigits_ne_nil n)
  refine ⟨c, cs ++ rest, by rw [hcs]; rfl, ?_⟩
  obtain ⟨d, hd, rfl⟩ := mem_toDigits (hcs ▸ List.mem_cons_self : c ∈ Nat.toDigits 10 n)
  have key : ∀ d < 10, Nat.digitChar d ∉ ['=', '<'] := by decide
  exact key d hd

lemma plain_int (n : Nat) : (Constant.int n).plain.toList = Nat.toDigits 10 n := by
  change (Nat.repr n).toList = _
  rw [Nat.repr, String.toList_ofList]

lemma literalText_written {c : Constant} {k : LiteralKind} (holds : k.Holds c)
    (hw : Writable (.literal c k)) (t : Tag) :
    ∃ s, literalText c k = .ok s ∧
      Written s.toList (Item.ofLiteral c k) (endsOf (.mk t (.literal c k))) := by
  obtain ⟨hfloat, hdouble, hchar⟩ := hw
  cases k with
  | int =>
    obtain ⟨n, rfl⟩ := holds
    refine ⟨_, rfl, ?_⟩
    rw [plain_int]
    exact ⟨(Spells.int n).mono fun _ h => Ends.numberEnds h, by simpa using toDigits_starts n []⟩
  | long =>
    obtain ⟨n, rfl⟩ := holds
    refine ⟨_, rfl, ?_⟩
    rw [String.toList_append, plain_int]
    exact ⟨Spells.long n _, toDigits_starts n ['L']⟩
  | float => exact absurd rfl hfloat
  | double => exact absurd rfl hdouble
  | char =>
    obtain ⟨x, rfl⟩ := hchar rfl
    refine ⟨_, rfl, ⟨by simpa [escape, Item.ofLiteral] using Spells.char x _, ?_⟩⟩
    exact ⟨singleQuote, _, by rw [String.toList_append, String.toList_append]; rfl, by decide⟩
  | string =>
    obtain ⟨x, rfl⟩ := holds
    refine ⟨_, rfl, ⟨by simpa [escape, Item.ofLiteral] using Spells.string x _, ?_⟩⟩
    exact ⟨'"', _, by rw [String.toList_append, String.toList_append]; rfl, by decide⟩
  | boolean =>
    obtain ⟨b, rfl⟩ := holds
    cases b with
    | true => exact ⟨_, rfl, (word_written (w := "true") (by decide)).mono operandEnds_subset⟩
    | false => exact ⟨_, rfl, (word_written (w := "false") (by decide)).mono operandEnds_subset⟩
  | null =>
    obtain rfl := holds
    exact ⟨_, rfl, (word_written (w := "null") (by decide)).mono operandEnds_subset⟩
  | other x => cases holds

lemma unary_continuations : ∀ op ∈ UnaryOp.known, op.symbol ∈ marks ∧ op.symbol ≠ "/" ∧
    op.symbol ≠ "." ∧ ∀ c ∈ continuations op.symbol, c = '=' ∨
      [UnaryOp.plus, .minus, .increment, .decrement].contains op = true ∧ (c = '+' ∨ c = '-') := by
  have key : ∀ op ∈ UnaryOp.known, op.symbol ∈ marks ∧ op.symbol ≠ "/" ∧ op.symbol ≠ "." ∧
      (continuations op.symbol).all (fun c => c = '=' ∨
        [UnaryOp.plus, .minus, .increment, .decrement].contains op = true ∧
          (c = '+' ∨ c = '-')) = true := by
    decide
  intro op hop
  obtain ⟨hmem, hslash, hdot, hall⟩ := key op hop
  exact ⟨hmem, hslash, hdot, forall_mem_of_all hall⟩

lemma prefixed_written {op : UnaryOp} (hop : op ∈ UnaryOp.known) {s : String} {is : List Item}
    {ends : List Char} (h : Written s.toList is ends) :
    Written (prefixed op s).toList (Item.mark op.symbol :: is) ends := by
  obtain ⟨hmem, hslash, hdot, hcont⟩ := unary_continuations op hop
  obtain ⟨c, cs, hcs, hc⟩ := h.starts
  have hspells : Spells (prefixed op s).toList ([Item.mark op.symbol] ++ is) (Ends ends) := by
    rw [prefixed, String.toList_append]
    split
    · rw [String.toList_append]
      exact (Spells.mark hmem).append_cons h.spells.space (markEnds_space _ hmem)
    · rename_i hsign
      have hs := h.spells
      rw [hcs] at hs hsign ⊢
      refine (Spells.mark hmem).append_cons hs (markEnds_of_notMem ?_ hslash hdot)
      rintro d ⟨⟩ hd
      rcases hcont c hd with rfl | ⟨hop, hplus⟩
      · exact hc (by simp)
      · rw [hop, Bool.true_and] at hsign
        rcases hplus with rfl | rfl <;> exact hsign rfl
  obtain ⟨d, ds, hds, hd⟩ : ∃ d ds, op.symbol.toList = d :: ds ∧ d ∉ ['=', '<'] := by
    fin_cases hop <;> exact ⟨_, _, rfl, by decide⟩
  exact ⟨hspells, d, _, by rw [prefixed, String.toList_append, hds]; rfl, hd⟩

lemma args_spells {as : List Node} {ss : List String} (after : Option Char → Prop)
    (h : List.Forall₂ (fun a s => Written s.toList a.reread.items exprEnds) as ss) :
    Spells ("(".toList ++ (commaList ss).toList ++ ")".toList)
      (Item.parenthesized (Item.listed (as.map fun a => a.reread.items))) after :=
  Spells.enclosed (l := "(") (r := ")") after (by decide) (by decide)
    (commaList_spells (f := fun a : Node => a.reread.items) (by decide) h) rfl

lemma lengths_spells {ds : List Node} {ss : List String} {after : Option Char → Prop}
    (h : List.Forall₂ (fun d s => Written s.toList d.reread.items exprEnds) ds ss) :
    Spells (String.join (ss.map fun s => "[" ++ s ++ "]")).toList
      (ds.flatMap fun d => Item.mark "[" :: d.reread.items ++ [Item.mark "]"]) after := by
  rw [String.toList_join, List.flatMap_map]
  induction h with
  | nil => exact Spells.nil _
  | cons hw _ ih =>
    rw [List.flatMap_cons, List.flatMap_cons, String.toList_append, String.toList_append]
    have hone := Spells.enclosed (l := "[") (r := "]") (fun _ => True) (by decide)
      (by decide) hw.spells rfl
    exact hone.followedBy ih

lemma operator_written {ls os rs : List Char} {il io ir : List Item}
    (ho : Spells os io (Ends [' '])) (hl : Written ls il exprEnds) (hr : Written rs ir exprEnds) :
    Written (ls ++ (" ".toList ++ (os ++ (" ".toList ++ rs)))) (il ++ (io ++ ir)) exprEnds :=
  hl.followed (ho.followed hr.spells.space rfl).space rfl

lemma new_written {cs : List Char} {is : List Item} {ends : List Char}
    (h : Spells cs is (Ends ends)) : Written ("new ".toList ++ cs) (Item.word "new" :: is) ends :=
  ⟨(Spells.wordSpace (w := "new") (by decide)).followedBy h, 'n', _, rfl, by decide⟩

section

variable (t : Tag) (e i l r c a b ty : Node) (x : String) (as ds vs : List Node)

lemma exprText_parens : exprText (.mk t (.parens e)) =
    exprText e >>= fun s => pure ("(" ++ s ++ ")") := rfl

lemma exprText_fieldAccess : exprText (.mk t (.fieldAccess x e)) =
    exprText e >>= fun s => pure (wrap Precedence.primary e s ++ "." ++ x) := rfl

lemma exprText_arrayAccess : exprText (.mk t (.arrayAccess e i)) =
    exprText e >>= fun s => exprText i >>= fun u =>
      pure (wrap Precedence.primary e s ++ "[" ++ u ++ "]") := rfl

lemma exprText_call : exprText (.mk t (.methodCall x none as)) =
    exprTexts as >>= fun ss => pure (x ++ "(" ++ commaList ss ++ ")") := rfl

lemma exprText_methodCall : exprText (.mk t (.methodCall x (some e) as)) =
    exprTexts as >>= fun ss => exprText e >>= fun s =>
      pure (wrap Precedence.primary e s ++ "." ++ x ++ "(" ++ commaList ss ++ ")") := rfl

lemma exprText_objectCreation : exprText (.mk t (.objectCreation ty as)) =
    exprTexts as >>= fun ss => typeText ty >>= fun u =>
      pure ("new " ++ u ++ "(" ++ commaList ss ++ ")") := rfl

lemma exprText_arrayCreation (n : Nat) : exprText (.mk t (.arrayCreation n ty ds none)) =
    typeText ty >>= fun u => exprTexts ds >>= fun ss =>
      pure ("new " ++ u ++ String.join (ss.map fun d => "[" ++ d ++ "]") ++ brackets n) := rfl

lemma exprText_arrayLiteral (n : Nat) : exprText (.mk t (.arrayCreation n ty ds (some i))) =
    typeText ty >>= fun u => exprTexts ds >>= fun ss => exprText i >>= fun w =>
      pure ("new " ++ u ++ String.join (ss.map fun d => "[" ++ d ++ "]") ++ brackets n ++
        " " ++ w) := rfl

lemma exprText_arrayInit : exprText (.mk t (.arrayInit vs)) =
    exprTexts vs >>= fun ss => pure ("\x7b" ++ commaList ss ++ "\x7d") := rfl

lemma exprText_assign (op : AssignOp) : exprText (.mk t (.assign op l r)) =
    exprText l >>= fun s => exprText r >>= fun u =>
      pure (wrap Precedence.primary l s ++ " " ++ op.symbol ++ " " ++
        wrap Precedence.assign r u) := rfl

lemma exprText_binary {op : BinaryOp} {p : Nat} (hp : Precedence.binary op = some p) :
    exprText (.mk t (.binary op l r)) =
      exprText l >>= fun s => exprText r >>= fun u =>
        pure (wrap p l s ++ " " ++ op.symbol ++ " " ++ wrap (p + 1) r u) := by
  cases op <;> cases hp <;> rfl

lemma exprText_after (op : UnaryOp) : exprText (.mk t (.unary op true e)) =
    exprText e >>= fun s => pure (wrap Precedence.counted e s ++ op.symbol) := rfl

lemma exprText_before (op : UnaryOp) : exprText (.mk t (.unary op false e)) =
    exprText e >>= fun s => pure (prefixed op (wrap Precedence.unary e s)) := rfl

lemma exprText_conditional : exprText (.mk t (.conditional c a b)) =
    exprText c >>= fun s => exprText a >>= fun u => exprText b >>= fun w =>
      pure (wrap (Precedence.conditional + 1) c s ++ " ? " ++ wrap Precedence.assign a u ++
        " : " ++ wrap Precedence.conditional b w) := rfl

lemma exprText_cast : exprText (.mk t (.cast ty e)) =
    typeText ty >>= fun u => exprText e >>= fun s =>
      pure ("(" ++ u ++ ") " ++ wrap Precedence.unary e s) := rfl

lemma exprText_instanceOf : exprText (.mk t (.instanceOf e ty)) =
    exprText e >>= fun s => typeText ty >>= fun u =>
      pure (wrap Precedence.comparison e s ++ " instanceof " ++ u) := rfl

end

def ExprWritten (e : Node) : Prop :=
  ∃ s, exprText e = .ok s ∧ Written s.toList e.reread.items (endsOf e)

namespace ExprWritten

variable {t : Tag} {e i l r c a b ty : Node} {x : String} {as ds vs : List Node}

lemma exists_args (h : ∀ a ∈ as, ExprWritten a) : ∃ ss, exprTexts as = .ok ss ∧
    List.Forall₂ (fun a s => Written s.toList a.reread.items exprEnds) as ss := by
  obtain ⟨ss, hss, hs⟩ := exprTexts_of_forall h
  exact ⟨ss, hss, hs.imp fun a s hw => hw.mono (exprEnds_subset_endsOf a)⟩

lemma parens (h : ExprWritten e) : ExprWritten (.mk t (.parens e)) := by
  obtain ⟨s, hs, hw⟩ := h
  refine ⟨_, by rw [exprText_parens, hs]; rfl, ?_⟩
  exact parens_written (hw.mono (exprEnds_subset_endsOf e)).spells _

lemma fieldAccess (name : IsName x) (hint : isIntLiteral e = false) (h : ExprWritten e) :
    ExprWritten (.mk t (.fieldAccess x e)) := by
  obtain ⟨s, hs, hw⟩ := h
  refine ⟨_, by rw [exprText_fieldAccess, hs]; rfl, ?_⟩
  rw [String.toList_append, String.toList_append, List.append_assoc]
  exact (dotted_written (wrap_operand_written hint hw) name).mono operandEnds_subset

lemma arrayAccess (he : ExprWritten e) (hi : ExprWritten i) :
    ExprWritten (.mk t (.arrayAccess e i)) := by
  obtain ⟨s, hs, hw⟩ := he
  obtain ⟨u, hu, hi⟩ := hi
  refine ⟨_, by rw [exprText_arrayAccess, hs, hu]; rfl, ?_⟩
  have h := (wrap_written Precedence.primary hw).followed
    (Spells.enclosed (l := "[") (r := "]") (Ends operandEnds) (by decide) (by decide)
      (hi.mono (exprEnds_subset_endsOf i)).spells rfl) rfl
  have hitems : (Node.mk t (.arrayAccess e i)).reread.items =
      (bracketed Precedence.primary e.reread).items ++ (Item.mark "[" :: i.reread.items) ++
        [Item.mark "]"] := rfl
  change Written _ _ operandEnds
  rw [hitems]
  simpa only [String.toList_append, List.append_assoc] using h

section

attribute [local simp] Node.reread_mk Node.items_mk Node.plain Shape.map Shape.mapAt mapIdx_const
  fitted Item.ofShape

lemma call (name : IsName x ∨ x = "this" ∨ x = "super") (h : ∀ a ∈ as, ExprWritten a) :
    ExprWritten (.mk t (.methodCall x none as)) := by
  obtain ⟨ss, hss, hs⟩ := exists_args h
  refine ⟨_, by rw [exprText_call, hss]; rfl, ?_⟩
  have hname : Written x.toList [Item.ofText x] nameEnds := by
    rcases name with name | rfl | rfl
    · rw [IsName.ofText name]
      exact name_written name
    · exact word_written (w := "this") (by decide)
    · exact word_written (w := "super") (by decide)
  have h := hname.followed (args_spells (Ends operandEnds) hs) rfl
  change Written _ _ operandEnds
  simpa [Function.comp_def] using h

lemma methodCall (name : IsName x) (hint : isIntLiteral e = false) (he : ExprWritten e)
    (h : ∀ a ∈ as, ExprWritten a) : ExprWritten (.mk t (.methodCall x (some e) as)) := by
  obtain ⟨ss, hss, has⟩ := exists_args h
  obtain ⟨s, hs, hw⟩ := he
  refine ⟨_, by rw [exprText_methodCall, hss, hs]; rfl, ?_⟩
  have h := (dotted_written (wrap_operand_written hint hw) name).followed
    (args_spells (Ends operandEnds) has) rfl
  change Written _ _ operandEnds
  simpa [Function.comp_def] using h

lemma objectCreation (type : TypeTree P false ty) (h : ∀ a ∈ as, ExprWritten a) :
    ExprWritten (.mk t (.objectCreation ty as)) := by
  obtain ⟨ss, hss, hs⟩ := exists_args h
  obtain ⟨u, hu, hw⟩ := typeText_written type
  refine ⟨_, by rw [exprText_objectCreation, hss, hu]; rfl, ?_⟩
  have h := new_written (hw.spells.followed (args_spells (Ends operandEnds) hs) rfl)
  change Written _ _ operandEnds
  simpa [Function.comp_def] using h

lemma dims_open {n : Nat} {ss : List String} {o : Option Node} (parts : ArrayParts n ds o)
    (hs : List.Forall₂ (fun d s => Written s.toList d.reread.items exprEnds) ds ss) :
    (String.join (ss.map fun s => "[" ++ s ++ "]") ++ brackets n).toList.head?.any
      typeEnds.contains = true := by
  rw [String.toList_append, String.toList_join, brackets, String.toList_join]
  cases hs with
  | nil =>
    cases o with
    | none => exact absurd rfl parts
    | some i =>
      obtain ⟨n, rfl⟩ := Nat.exists_eq_succ_of_ne_zero parts.2.1.ne'
      rfl
  | cons => simp [typeEnds, operandEnds, exprEnds]

lemma arrayCreation {n : Nat} {o : Option Node} (type : TypeTree P false ty)
    (hd : ∀ d ∈ ds, ExprWritten d) (hi : ∀ i ∈ o, ExprWritten i) (parts : ArrayParts n ds o) :
    ExprWritten (.mk t (.arrayCreation n ty ds o)) := by
  obtain ⟨ss, hss, hs⟩ := exists_args hd
  obtain ⟨u, hu, hw⟩ := typeText_written type
  have hdims : Spells (String.join (ss.map fun s => "[" ++ s ++ "]") ++ brackets n).toList
      (ds.flatMap (fun d => Item.mark "[" :: d.reread.items ++ [Item.mark "]"]) ++ Item.brackets n)
      fun _ => True := by
    rw [String.toList_append]
    exact (lengths_spells hs).followedBy (Spells.brackets n _)
  have htype := hw.spells.followed hdims (dims_open parts hs)
  change ∃ s, _ ∧ Written _ _ exprEnds
  cases o with
  | none =>
    refine ⟨_, by rw [exprText_arrayCreation, hu, hss]; rfl, ?_⟩
    have h := new_written (htype.mono fun _ (_ : Ends exprEnds _) => trivial)
    simpa [List.flatMap_map] using h
  | some i =>
    obtain ⟨w, hw', hi⟩ := hi i rfl
    refine ⟨_, by rw [exprText_arrayLiteral, hu, hss, hw']; rfl, ?_⟩
    have h := new_written (htype.followedBy (hi.mono (exprEnds_subset_endsOf i)).spells.space)
    simpa [List.flatMap_map] using h

lemma arrayInit (h : ∀ a ∈ vs, ExprWritten a) : ExprWritten (.mk t (.arrayInit vs)) := by
  obtain ⟨ss, hss, hs⟩ := exists_args h
  refine ⟨_, by rw [exprText_arrayInit, hss]; rfl, ?_⟩
  have hlist := commaList_spells (f := fun a : Node => a.reread.items) (l := exprEnds) (by decide) hs
  have h := Spells.enclosed (l := "\x7b") (r := "\x7d") (Ends operandEnds) (by decide)
    (by decide) hlist rfl
  refine ⟨?_, '\x7b', _, by rw [String.toList_append, String.toList_append]; rfl, by decide⟩
  change Spells _ _ (Ends operandEnds)
  simpa [Item.braced, Function.comp_def] using h

end

lemma assign {op : AssignOp} (known : op.Known) (hl : ExprWritten l) (hr : ExprWritten r) :
    ExprWritten (.mk t (.assign op l r)) := by
  obtain ⟨s, hs, hl⟩ := hl
  obtain ⟨u, hu, hr⟩ := hr
  refine ⟨_, by rw [exprText_assign, hs, hu]; rfl, ?_⟩
  have h := operator_written (Spells.assignOp known) (wrap_written Precedence.primary hl)
    (wrap_written Precedence.assign hr)
  have hitems : (Node.mk t (.assign op l r)).reread.items =
      (bracketed Precedence.primary l.reread).items ++ Item.ofAssign op ++
        (bracketed Precedence.assign r.reread).items := rfl
  change Written _ _ exprEnds
  rw [hitems]
  simpa only [String.toList_append, List.append_assoc] using h

lemma binary {op : BinaryOp} (known : op ∈ BinaryOp.known) (hl : ExprWritten l)
    (hr : ExprWritten r) : ExprWritten (.mk t (.binary op l r)) := by
  obtain ⟨s, hs, hl⟩ := hl
  obtain ⟨u, hu, hr⟩ := hr
  obtain ⟨p, hp, -, hle⟩ := exists_binary known
  refine ⟨_, by rw [exprText_binary t l r hp, hs, hu]; rfl, ?_⟩
  have h := operator_written (Spells.binaryOp known) (wrap_written p hl)
    (wrap_written (p + 1) hr)
  have hitems : (Node.mk t (.binary op l r)).reread.items =
      (bracketed p l.reread).items ++ Item.ofBinary op ++ (bracketed (p + 1) r.reread).items := by
    rw [Node.reread_mk, fitted.eq_def]
    simp only [Shape.map, Shape.mapAt, hp]
    rfl
  have hloose : precedence (.mk t (.binary op l r)) < Precedence.primary := by
    simp only [precedence, Node.shape_mk, hp, Option.getD_some]
    exact Nat.lt_trans hle (by decide)
  rw [hitems, endsOf_loose hloose]
  simpa only [String.toList_append, List.append_assoc] using h

lemma before {op : UnaryOp} (known : op ∈ UnaryOp.known) (h : ExprWritten e) :
    ExprWritten (.mk t (.unary op false e)) := by
  obtain ⟨s, hs, hw⟩ := h
  refine ⟨_, by rw [exprText_before, hs]; rfl, ?_⟩
  exact prefixed_written known (wrap_written Precedence.unary hw)

lemma after {op : UnaryOp} (known : op ∈ [UnaryOp.increment, .decrement]) (h : ExprWritten e) :
    ExprWritten (.mk t (.unary op true e)) := by
  obtain ⟨s, hs, hw⟩ := h
  refine ⟨_, by rw [exprText_after, hs]; rfl, ?_⟩
  rw [String.toList_append]
  have hop : op.symbol ∈ soloMarks ∧ op.symbol.toList.head?.any exprEnds.contains = true := by
    fin_cases known <;> decide
  exact (wrap_written Precedence.counted hw).followed (Spells.solo hop.1 _) hop.2

lemma conditional (hc : ExprWritten c) (ha : ExprWritten a) (hb : ExprWritten b) :
    ExprWritten (.mk t (.conditional c a b)) := by
  obtain ⟨s, hs, hc⟩ := hc
  obtain ⟨u, hu, ha⟩ := ha
  obtain ⟨w, hw, hb⟩ := hb
  refine ⟨_, by rw [exprText_conditional, hs, hu, hw]; rfl, ?_⟩
  have hthen := operator_written (Spells.markSpace (m := ":") (by decide))
    (wrap_written Precedence.assign ha)
    (wrap_written Precedence.conditional hb)
  have h := operator_written (Spells.markSpace (m := "?") (by decide))
    (wrap_written (Precedence.conditional + 1) hc) hthen
  have hitems : (Node.mk t (.conditional c a b)).reread.items =
      (bracketed (Precedence.conditional + 1) c.reread).items ++
        (Item.mark "?" :: (bracketed Precedence.assign a.reread).items) ++
        (Item.mark ":" :: (bracketed Precedence.conditional b.reread).items) := rfl
  change Written _ _ exprEnds
  rw [hitems]
  simpa using h

lemma cast (type : TypeTree P false ty) (h : ExprWritten e) :
    ExprWritten (.mk t (.cast ty e)) := by
  obtain ⟨s, hs, hw⟩ := h
  obtain ⟨u, hu, ht⟩ := typeText_written type
  refine ⟨_, by rw [exprText_cast, hs, hu]; rfl, ?_⟩
  have htype := Spells.enclosed (l := "(") (r := ")") (fun _ => True) (by decide)
    (by decide) ht.spells rfl
  have h := htype.followedBy (wrap_written Precedence.unary hw).spells.space
  have hitems : (Node.mk t (.cast ty e)).reread.items =
      Item.parenthesized ty.reread.items ++ (bracketed Precedence.unary e.reread).items := rfl
  refine ⟨?_, '(', _, by simp only [String.toList_append]; rfl, by decide⟩
  change Spells _ _ (Ends exprEnds)
  rw [hitems]
  simpa [Item.parenthesized] using h

lemma instanceOf (type : TypeTree P false ty) (h : ExprWritten e) :
    ExprWritten (.mk t (.instanceOf e ty)) := by
  obtain ⟨s, hs, hw⟩ := h
  obtain ⟨u, hu, ht⟩ := typeText_written type
  refine ⟨_, by rw [exprText_instanceOf, hs, hu]; rfl, ?_⟩
  have htest := (Spells.wordSpace (w := "instanceof") (by decide)).followedBy ht.spells
  have h := (wrap_written Precedence.comparison hw).followed htest.space rfl
  have hitems : (Node.mk t (.instanceOf e ty)).reread.items =
      (bracketed Precedence.comparison e.reread).items ++
        (Item.word "instanceof" :: ty.reread.items) := rfl
  change Written _ _ exprEnds
  rw [hitems]
  refine Written.mono (l := typeEnds) ?_ (by decide)
  simpa using h

end ExprWritten

theorem exprText_written {v : Bool} {e : Node} (h : ExprTree (fun _ s => Writable s) v e) :
    ∃ s, exprText e = .ok s ∧ Written s.toList e.reread.items (endsOf e) := by
  induction h with
  | @literal v t c k holds hw => exact literalText_written holds hw t
  | ident name _ => exact ⟨_, rfl, (name_written name).mono operandEnds_subset⟩
  | this _ => exact ⟨_, rfl, (word_written (w := "this") (by decide)).mono operandEnds_subset⟩
  | super _ => exact ⟨_, rfl, (word_written (w := "super") (by decide)).mono operandEnds_subset⟩
  | parens _ _ ih => exact ExprWritten.parens ih
  | fieldAccess name _ hint ih => exact ExprWritten.fieldAccess name hint ih
  | arrayAccess _ _ _ ihe ihi => exact ExprWritten.arrayAccess ihe ihi
  | call name _ _ ih => exact ExprWritten.call name ih
  | methodCall name _ _ hint ihe ih => exact ExprWritten.methodCall name hint ihe ih
  | objectCreation type _ _ _ ih => exact ExprWritten.objectCreation type ih
  | arrayCreation type _ _ _ parts _ ihd ihi => exact ExprWritten.arrayCreation type ihd ihi parts
  | arrayInit _ _ ih => exact ExprWritten.arrayInit ih
  | assign known _ place _ _ ihl ihr => exact ExprWritten.assign known ihl ihr
  | binary known _ _ _ ihl ihr => exact ExprWritten.binary known ihl ihr
  | before known _ _ ih => exact ExprWritten.before known ih
  | after known _ _ ih => exact ExprWritten.after known ih
  | conditional _ _ _ _ ihc iha ihb => exact ExprWritten.conditional ihc iha ihb
  | cast type _ _ ih => exact ExprWritten.cast type ih
  | instanceOf _ type _ ih => exact ExprWritten.instanceOf type ih

end LoopLowering.Layout
