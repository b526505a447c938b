import LoopLowering.Proofs.Grammar.Running
import LoopLowering.Proofs.Layout.Fitting
import LoopLowering.Proofs.Layout.Written

/-! Names and types are read from their items. -/

namespace LoopLowering.Grammar

open Layout

lemma intercalate_cons {α : Type} (sep : α) (a : List α) (as : List (List α)) :
    [sep].intercalate (a :: as) = a ++ as.flatMap (sep :: ·) := by
  induction as generalizing a with
  | nil => simp
  | cons b bs ih => rw [List.intercalate_cons_cons, ih, List.flatMap_cons]; simp

lemma nameTail_of_ne {rest : List Token} (h : headKind rest ≠ dot) : nameTail rest = ("", rest) := by
  match rest with
  | [] => rfl
  | [d] => rfl
  | d :: i :: rest => simpa [nameTail] using fun hd => absurd hd h

lemma nameTail_items {ps : List (List Char)} (hps : ∀ p ∈ ps, Token.IsName (String.ofList p))
    {us rest : List Token}
    (h : Realizes (ps.flatMap fun p => [Item.mark ".", Item.ofText (String.ofList p)]) us)
    (hrest : nameTail rest = ("", rest)) :
    nameTail (us ++ rest) = (String.ofList (ps.flatMap ('.' :: ·)), rest) := by
  induction ps generalizing us with
  | nil =>
    cases h
    exact hrest
  | cons p ps ih =>
    rw [List.flatMap_cons, IsName.ofText (hps p List.mem_cons_self)] at h
    obtain ⟨d, us, rfl, hd, -, h⟩ := h.of_mark
    obtain ⟨i, us, rfl, hi, hx, h⟩ := h.of_name
    rw [List.cons_append, List.cons_append, nameTail,
      ih (fun q hq => hps q (List.mem_cons_of_mem p hq)) h]
    simp [hd, hi, hx, dot, String.ext_iff]

lemma qualifiedName_items_of {x : String} (hx : IsQualified x) {us : List Token}
    (h : Realizes (Item.ofName x) us) (rest : List Token) (hrest : nameTail rest = ("", rest)) :
    qualifiedName (us ++ rest) = .ok (x, rest) := by
  obtain ⟨p, ps, hps⟩ := List.exists_cons_of_ne_nil (List.splitOn_ne_nil '.' x.toList)
  have hp := hx p (hps ▸ List.mem_cons_self)
  have hx' : x.toList = p ++ ps.flatMap ('.' :: ·) := by
    rw [← intercalate_cons, ← hps, List.intercalate_splitOn]
  rw [Item.ofName, Item.separated, hps, List.map_cons, intercalate_cons, List.flatMap_map,
    IsName.ofText hp] at h
  obtain ⟨t, us, rfl, hk, ht, h⟩ := h.of_name
  have htail := nameTail_items (fun q hq => hx q (hps ▸ List.mem_cons_of_mem p hq)) h hrest
  rw [qualifiedName, List.cons_append, bind_of_ok (expect_yes hk (by decide)),
    bind_of_ok (splitting_of_eq htail), pure_run, ht, ← String.ofList_append, ← hx',
    String.ofList_toList]

lemma qualifiedName_items {x : String} (hx : IsQualified x) {us : List Token}
    (h : Realizes (Item.ofName x) us) (rest : List Token) (hrest : headKind rest ≠ dot) :
    qualifiedName (us ++ rest) = .ok (x, rest) :=
  qualifiedName_items_of hx h rest (nameTail_of_ne hrest)

lemma dimsTail_items {d : Nat} {us rest : List Token} (h : Realizes (Item.brackets d) us)
    (hrest : headKind rest ≠ lbracket) : dimsTail (us ++ rest) = (d, rest) := by
  induction d generalizing us with
  | zero =>
    cases h
    match rest with
    | [] => rfl
    | [l] => rfl
    | l :: r :: rest => simpa [dimsTail] using fun hl => absurd hl hrest
  | succ d ih =>
    rw [Item.brackets, List.replicate_succ, List.flatten_cons] at h
    obtain ⟨l, us, rfl, hl, -, h⟩ := h.of_mark
    obtain ⟨r, us, rfl, hr, -, h⟩ := h.of_mark
    rw [List.cons_append, List.cons_append, dimsTail, hl, hr, ih h]
    rfl

lemma ofName_qualified {x : String} (hx : IsQualified x) : ∃ y is, Item.ofName x = Item.name y :: is := by
  obtain ⟨p, ps, hps⟩ := List.exists_cons_of_ne_nil (List.splitOn_ne_nil '.' x.toList)
  rw [Item.ofName, Item.separated, hps, List.map_cons, intercalate_cons,
    IsName.ofText (hx p (hps ▸ List.mem_cons_self))]
  exact ⟨_, _, rfl⟩

lemma bareType_primitive {x : String} (hx : x ∈ primitiveNames) {n : Nat} {us : List Token}
    (rest : List Token) (h : Realizes (Item.ofName x) us) :
    bareType (n + 1) (us ++ rest) = .ok (fun d => .plain (.typeRef x d none), rest) := by
  rw [(primitiveNames_reserved x hx).2] at h
  obtain ⟨t, us, rfl, hk, ht, h⟩ := h.of_word
  cases h
  have hprimitive : t.kind ∈ primitiveTypes := hk ▸ List.mem_map_of_mem hx
  rw [bareType, List.singleton_append, bind_of_ok (checkAny_yes (l := t :: rest) hprimitive),
    if_pos rfl, bind_of_ok (advance_cons (by simp [hk])), ht]
  rfl

lemma ident_notMem_primitiveTypes : TokenKind.ident ∉ primitiveTypes := by decide

lemma bareType_named {x : String} (hx : IsQualified x) {n : Nat} {us rest : List Token}
    (h : Realizes (Item.ofName x) us) (hdot : headKind rest ≠ dot)
    (hless : headKind rest ≠ .mark "<") :
    bareType (n + 1) (us ++ rest) = .ok (fun d => .plain (.typeRef x d none), rest) := by
  have hname := qualifiedName_items hx h rest hdot
  obtain ⟨y, is, hy⟩ := ofName_qualified hx
  rw [hy] at h
  obtain ⟨t, us, rfl, hk, -, -⟩ := h.of_name
  have hident : headKind (t :: us ++ rest) ∉ primitiveTypes := by
    rw [List.cons_append, headKind_cons, hk]
    exact ident_notMem_primitiveTypes
  rw [bareType, bind_of_ok (checkAny_no hident), if_neg (by simp), bind_of_ok hname,
    bind_of_ok (check_no hless), if_neg (by simp)]
  rfl

lemma bareType_generic {x : String} (hx : IsQualified x) {n : Nat} {us vs rest : List Token}
    {args : List Node} (h : Realizes (Item.ofName x) us) (hless : headKind (vs ++ rest) = .mark "<")
    (hargs : typeArgs n (vs ++ rest) = .ok (args, rest)) :
    bareType (n + 1) (us ++ (vs ++ rest)) = .ok (fun d => .plain (.typeRef x d (some args)), rest) := by
  have hname := qualifiedName_items hx h (vs ++ rest) (by rw [hless]; decide)
  obtain ⟨y, is, hy⟩ := ofName_qualified hx
  rw [hy] at h
  obtain ⟨t, us, rfl, hk, -, -⟩ := h.of_name
  have hident : headKind (t :: us ++ (vs ++ rest)) ∉ primitiveTypes := by
    rw [List.cons_append, headKind_cons, hk]
    exact ident_notMem_primitiveTypes
  rw [bareType, bind_of_ok (checkAny_no hident), if_neg (by simp), bind_of_ok hname,
    bind_of_ok (check_yes hless), if_pos rfl, bind_of_ok hargs]
  rfl

section

variable {α β : Type} {items : α → List Item}

lemma list_items_map {out : α → β} {f : Nat → Parser (List β)} {g : Nat → Parser β} {m : String}
    (hrule : ∀ n, f (n + 1) = do
      let a ← g n
      if ← accept (.mark m) then return a :: (← f n) else return [a])
    {c : Nat} {q : TokenKind → Prop} (hsep : ¬ q (.mark m)) {as : List α}
    (has : ∀ a ∈ as, ∀ ⦃n : Nat⦄ ⦃us : List Token⦄ (rest : List Token), Realizes (items a) us →
      16 * (us ++ rest).length + c ≤ n → headKind rest = .mark m ∨ q (headKind rest) →
        g n (us ++ rest) = .ok (out a, rest))
    (hne : as ≠ []) {n : Nat} {us : List Token} (rest : List Token)
    (h : Realizes (Item.separated m (as.map items)) us)
    (hn : 16 * (us ++ rest).length + c + 1 ≤ n) (hrest : q (headKind rest)) :
    f n (us ++ rest) = .ok (as.map out, rest) := by
  induction as generalizing n us with
  | nil => exact absurd rfl hne
  | cons a as ih =>
    obtain ⟨n, rfl⟩ : ∃ k, n = k + 1 := ⟨n - 1, by omega⟩
    rw [Item.separated, List.map_cons] at h
    cases as with
    | nil =>
      rw [List.map_nil, intercalate_cons, List.flatMap_nil, List.append_nil] at h
      have ha := has a List.mem_cons_self (n := n) rest h (by omega) (.inr hrest)
      have hno : headKind rest ≠ .mark m := fun heq => hsep (heq ▸ hrest)
      rw [hrule, bind_of_ok ha, bind_of_ok (accept_no hno), if_neg (by simp)]
      rfl
    | cons b bs =>
      rw [List.map_cons, List.intercalate_cons_cons, List.append_assoc] at h
      obtain ⟨ua, vs, rfl, ha, h⟩ := h.of_append
      obtain ⟨t, ub, rfl, ht, -, hb⟩ := h.of_mark
      rw [List.append_assoc, List.cons_append] at hn
      have ha := has a List.mem_cons_self (n := n) (t :: (ub ++ rest)) ha (by omega)
        (.inl ht)
      rw [List.length_append, List.length_cons] at hn
      have hlist := ih (fun d hd => has d (List.mem_cons_of_mem a hd)) (by simp) hb (n := n)
        (by omega)
      rw [hrule, List.append_assoc, List.cons_append, bind_of_ok ha,
        bind_of_ok (accept_yes ht (by simp)), if_pos rfl, bind_of_ok hlist]
      rfl

lemma list_items {items : Node → List Item} {f : Nat → Parser (List Node)} {g : Nat → Parser Node}
    {m : String}
    (hrule : ∀ n, f (n + 1) = do
      let a ← g n
      if ← accept (.mark m) then return a :: (← f n) else return [a])
    {c : Nat} {q : TokenKind → Prop} (hsep : ¬ q (.mark m)) {as : List Node}
    (has : ∀ a ∈ as, ∀ ⦃n : Nat⦄ ⦃us : List Token⦄ (rest : List Token), Realizes (items a) us →
      16 * (us ++ rest).length + c ≤ n → headKind rest = .mark m ∨ q (headKind rest) →
        g n (us ++ rest) = .ok (a, rest))
    (hne : as ≠ []) {n : Nat} {us : List Token} (rest : List Token)
    (h : Realizes (Item.separated m (as.map items)) us)
    (hn : 16 * (us ++ rest).length + c + 1 ≤ n) (hrest : q (headKind rest)) :
    f n (us ++ rest) = .ok (as, rest) := by
  have hlist : f n (us ++ rest) = .ok (as.map id, rest) :=
    list_items_map hrule hsep has hne rest h hn hrest
  rwa [List.map_id] at hlist

end

def ReadsArg (a : Node) : Prop :=
  ∀ ⦃n : Nat⦄ ⦃us : List Token⦄ (rest : List Token), Realizes a.items us →
    16 * (us ++ rest).length + 4 ≤ n →
    headKind rest = comma ∨ headKind rest = .mark ">" → typeArg n (us ++ rest) = .ok (a, rest)

lemma head?_separated {sep : String} {is : List Item} {i : Item} (h : is.head? = some i)
    (iss : List (List Item)) : (Item.separated sep (is :: iss)).head? = some i := by
  rw [Item.separated, intercalate_cons, List.head?_append, h]
  rfl

lemma typeArgs_items {as : List Node} (has : ∀ a ∈ as, ReadsArg a)
    (hstart : ∀ a ∈ as, ∃ i, a.items.head? = some i ∧ i.kind ≠ .mark ">") {n : Nat}
    {us : List Token} (rest : List Token)
    (h : Realizes (Item.mark "<" :: Item.listed (as.map Node.items) ++ [Item.mark ">"]) us)
    (hn : 16 * (us ++ rest).length ≤ n) : typeArgs n (us ++ rest) = .ok (as, rest) := by
  obtain ⟨l, us, rfl, hl, -, h⟩ := h.of_mark
  obtain ⟨ua, vs, rfl, ha, h⟩ := h.of_append
  obtain ⟨r, vs, rfl, hr, -, h⟩ := h.of_mark
  cases h
  simp only [List.length_append, List.length_cons, List.length_nil] at hn
  obtain ⟨n, rfl⟩ : ∃ m, n = m + 1 := ⟨n - 1, by omega⟩
  rw [typeArgs, List.cons_append, bind_of_ok (expect_yes hl (by decide)), List.append_assoc]
  cases as with
  | nil =>
    cases ha
    rw [List.nil_append, List.singleton_append, bind_of_ok (accept_yes hr (by decide)), if_pos rfl]
    rfl
  | cons a as =>
    have hlist := list_items (f := typeArgList) (g := typeArg) (m := ",") (c := 4)
      (q := (· = .mark ">")) (fun n => by rw [typeArgList]; rfl) (by decide) has (by simp)
        (n := n) ([r] ++ rest) ha (by simp; omega) hr
    obtain ⟨i, hi, hne⟩ := hstart a List.mem_cons_self
    have hno : headKind (ua ++ ([r] ++ rest)) ≠ .mark ">" := by
      rwa [headKind_items ha (head?_separated hi _)]
    rw [bind_of_ok (accept_no hno), if_neg (by simp), bind_of_ok hlist, List.singleton_append,
      bind_of_ok (expect_yes hr (by decide))]
    rfl

variable {P : Tag → Shape Node → Prop}

lemma ofName_start {x : String} (hx : x ∈ primitiveNames ∨ IsQualified x) :
    ∃ i is, Item.ofName x = i :: is ∧ (i.kind = .ident ∨ i.kind ∈ primitiveTypes) := by
  rcases hx with hx | hx
  · exact ⟨_, _, (primitiveNames_reserved x hx).2, .inr (List.mem_map_of_mem hx)⟩
  · obtain ⟨y, is, hy⟩ := ofName_qualified hx
    exact ⟨_, _, hy, .inl rfl⟩

lemma typeRef_start {x : String} (hx : x ∈ primitiveNames ∨ IsQualified x) (t : Tag) (d : Nat)
    (args : Option (List Node)) : ∃ i, (Node.mk t (.typeRef x d args)).items.head? = some i ∧
      (i.kind = .ident ∨ i.kind ∈ primitiveTypes) := by
  obtain ⟨i, is, hi, hk⟩ := ofName_start hx
  exact ⟨i, by rw [Node.items_typeRef, hi]; rfl, hk⟩

lemma typeTree_start {w : Bool} {a : Node} (h : TypeTree P w a) :
    ∃ i, a.items.head? = some i ∧
      (i.kind = .ident ∨ i.kind ∈ primitiveTypes ∨ w = true ∧ i.kind = .mark "?") := by
  have hname : ∀ {x : String} (t : Tag) (d : Nat) (args : Option (List Node)),
      x ∈ primitiveNames ∨ IsQualified x → ∃ i, (Node.mk t (.typeRef x d args)).items.head? = some i ∧
        (i.kind = .ident ∨ i.kind ∈ primitiveTypes ∨ w = true ∧ i.kind = .mark "?") := by
    intro x t d args hx
    obtain ⟨i, hi, hk⟩ := typeRef_start hx t d args
    exact ⟨i, hi, hk.imp id .inl⟩
  cases h with
  | primitive name _ => exact hname _ _ _ (.inl name)
  | named name _ => exact hname _ _ _ (.inr name)
  | generic name _ _ => exact hname _ _ _ (.inr name)
  | anything here => exact ⟨Item.mark "?", rfl, .inr (.inr ⟨rfl, rfl⟩)⟩
  | bounded word bound here => exact ⟨Item.mark "?", rfl, .inr (.inr ⟨rfl, rfl⟩)⟩

structure ReadsType (a : Node) : Prop where
  bare : a.dims = 0 → ∀ ⦃n : Nat⦄ ⦃us : List Token⦄ (rest : List Token), Realizes a.items us →
    16 * (us ++ rest).length ≤ n + 1 → headKind rest ≠ dot →
      (isClassName a = true → headKind rest ≠ .mark "<") →
      ∃ f, bareType n (us ++ rest) = .ok (f, rest) ∧ f 0 = a
  type : ∀ ⦃n : Nat⦄ ⦃us : List Token⦄ (rest : List Token), Realizes a.items us →
    16 * (us ++ rest).length ≤ n →
    headKind rest ∉ [dot, lbracket] → (isClassName a = true → headKind rest ≠ .mark "<") →
      type n (us ++ rest) = .ok (a, rest)
  arg : ReadsArg a

def ReadsArgs (as : List Node) : Prop :=
  (∀ a ∈ as, ReadsArg a) ∧ ∀ a ∈ as, ∃ i, a.items.head? = some i ∧ i.kind ≠ .mark ">"

lemma bareType_items {x : String} {as : Option (List Node)} {n : Nat} {us vs : List Token}
    (rest : List Token) (hx : x ∈ primitiveNames ∧ as = none ∨ IsQualified x)
    (hargs : ∀ bs ∈ as, ReadsArgs bs)
    (h : Realizes (Item.ofName x) us) (hv : Realizes ((as.map fun as => Item.mark "<" ::
      Item.listed (as.map Node.items) ++ [Item.mark ">"]).getD []) vs)
    (hn : 16 * (us ++ (vs ++ rest)).length ≤ n + 1) (hdot : headKind rest ≠ dot)
    (hless : IsQualified x → as = none → headKind rest ≠ .mark "<") :
    bareType n (us ++ (vs ++ rest)) = .ok (fun d => .plain (.typeRef x d as), rest) := by
  have hpos : 0 < us.length := by
    obtain ⟨i, is, hi, -⟩ := ofName_start (hx.imp And.left id)
    rw [h.length, hi]
    exact Nat.succ_pos _
  rw [List.length_append] at hn
  obtain ⟨n, rfl⟩ : ∃ m, n = m + 1 := ⟨n - 1, by omega⟩
  cases as with
  | none =>
    cases hv
    rw [List.nil_append]
    rcases hx with ⟨hx, -⟩ | hx
    · exact bareType_primitive hx rest h
    · exact bareType_named hx h hdot (hless hx rfl)
  | some as =>
    have hx : IsQualified x := hx.resolve_left fun hp => by simp at hp
    have hopen : headKind (vs ++ rest) = .mark "<" := headKind_items hv rfl rest
    exact bareType_generic hx h hopen (typeArgs_items (hargs as rfl).1 (hargs as rfl).2 rest hv
      (by omega))

lemma isQualified_notMem_primitiveNames {x : String} (hx : IsQualified x) : x ∉ primitiveNames := by
  intro hmem
  have key : ∀ x ∈ primitiveNames, x.toList.splitOn '.' = [x.toList] := by decide
  have hname := hx x.toList (by rw [key x hmem]; exact List.mem_singleton_self _)
  rw [String.ofList_toList] at hname
  exact hname.2 (primitiveNames_reserved x hmem).1

lemma readsType_typeRef {x : String} {o : Option (List Node)}
    (hx : x ∈ primitiveNames ∧ o = none ∨ IsQualified x) (hargs : ∀ bs ∈ o, ReadsArgs bs)
    (d : Nat) : ReadsType (.plain (.typeRef x d o)) := by
  have hclass : IsQualified x → o = none → d = 0 →
      isClassName (.plain (.typeRef x d o)) = true := by
    rintro hx rfl rfl
    simpa [isClassName, Node.plain] using isQualified_notMem_primitiveNames ‹IsQualified x›
  have htype : ∀ ⦃n : Nat⦄ ⦃us : List Token⦄ (rest : List Token),
      Realizes (Node.plain (.typeRef x d o)).items us → 16 * (us ++ rest).length ≤ n →
        headKind rest ∉ [dot, lbracket] →
          (isClassName (.plain (.typeRef x d o)) = true → headKind rest ≠ .mark "<") →
            type n (us ++ rest) = .ok (.plain (.typeRef x d o), rest) := by
    intro n us rest h hn hrest hless
    rw [Node.plain, Node.items_typeRef] at h
    obtain ⟨ux, vs, rfl, hux, h⟩ := h.of_append
    obtain ⟨va, ud, rfl, hva, hud⟩ := h.of_append
    have hnext : headKind (ud ++ rest) ≠ dot ∧
        (IsQualified x → o = none → headKind (ud ++ rest) ≠ .mark "<") := by
      cases d with
      | zero =>
        cases hud
        exact ⟨fun h => hrest (by simp_all), fun hx has => hless (hclass hx has rfl)⟩
      | succ d =>
        have hopen : headKind (ud ++ rest) = .mark "[" := headKind_items hud rfl rest
        rw [hopen]
        exact ⟨by decide, fun _ _ => by decide⟩
    simp only [List.length_append] at hn
    have hbracket : headKind rest ≠ lbracket := fun h => hrest (by simp [h])
    obtain ⟨i, is, hi, -⟩ := ofName_start (hx.imp And.left id)
    have hpos : 0 < ux.length := by
      rw [hux.length, hi]
      exact Nat.succ_pos _
    obtain ⟨n, rfl⟩ : ∃ m, n = m + 1 := ⟨n - 1, by omega⟩
    have hbare := bareType_items (n := n) (ud ++ rest) hx hargs hux hva
      (by simp only [List.length_append]; omega) hnext.1 hnext.2
    rw [type, List.append_assoc, List.append_assoc, bind_of_ok hbare, dims,
      bind_of_ok (splitting_of_eq (dimsTail_items hud hbracket))]
    rfl
  refine ⟨?_, htype, ?_⟩
  · intro hd n us rest h hn hdot hless
    obtain rfl : d = 0 := hd
    rw [Node.plain, Node.items_typeRef] at h
    obtain ⟨ux, vs, rfl, hux, h⟩ := h.of_append
    obtain ⟨va, ud, rfl, hva, hud⟩ := h.of_append
    cases hud
    rw [List.append_nil, List.append_assoc] at hn ⊢
    exact ⟨_, bareType_items rest hx hargs hux hva hn hdot fun hx has => hless (hclass hx has rfl), rfl⟩
  · intro n us rest h hn hrest
    obtain ⟨n, rfl⟩ : ∃ m, n = m + 1 := ⟨n - 1, by omega⟩
    obtain ⟨i, hi, hk⟩ := typeRef_start (hx.imp And.left id) {} d o
    have hno : headKind (us ++ rest) ≠ .mark "?" := by
      rw [headKind_items h hi]
      rcases hk with hk | hk
      · rw [hk]
        decide
      · exact fun heq => absurd (heq ▸ hk) (by decide)
    have hstop : headKind rest ∉ [dot, lbracket] ∧ headKind rest ≠ .mark "<" := by
      rcases hrest with hrest | hrest <;> rw [hrest] <;> decide
    rw [typeArg, bind_of_ok (accept_no hno), if_neg (by simp)]
    exact htype rest h (by omega) hstop.1 fun _ => hstop.2

lemma readsArgs_of_trees {as : List Node} (h : ∀ a ∈ as, TypeTree P true a)
    (ih : ∀ a ∈ as, ReadsArg a) : ReadsArgs as := by
  refine ⟨ih, fun a ha => ?_⟩
  obtain ⟨i, hi, hk⟩ := typeTree_start (h a ha)
  refine ⟨i, hi, ?_⟩
  rcases hk with hk | hk | ⟨-, hk⟩
  · rw [hk]
    decide
  · exact fun heq => absurd (heq ▸ hk) (by decide)
  · rw [hk]
    decide

lemma reads_of_typeTree {w : Bool} {a : Node} (h : TypeTree Legible w a) :
    (w = false → ReadsType a) ∧ ReadsArg a := by
  induction h with
  | @primitive w t x d name here =>
    obtain rfl := here.1
    have h := readsType_typeRef (o := none) (.inl ⟨name, rfl⟩) (by simp) d
    exact ⟨fun _ => h, h.arg⟩
  | @named w t x d name here =>
    obtain rfl := here.1
    have h := readsType_typeRef (o := none) (.inr name) (by simp) d
    exact ⟨fun _ => h, h.arg⟩
  | @generic w t x d as name args here ih =>
    obtain rfl := here.1
    have h := readsType_typeRef (o := some as) (.inr name) (by
      rintro bs ⟨⟩
      exact readsArgs_of_trees args fun a ha => (ih a ha).2) d
    exact ⟨fun _ => h, h.arg⟩
  | @anything t here =>
    obtain rfl := here.1
    refine ⟨by simp, ?_⟩
    intro n us rest h hn hrest
    obtain ⟨n, rfl⟩ : ∃ m, n = m + 1 := ⟨n - 1, by omega⟩
    obtain ⟨q, us, rfl, hq, -, h⟩ := Realizes.of_mark (x := "?") (l := []) h
    cases h
    have hno : headKind rest ∉ [TokenKind.word "extends", .word "super"] := by
      rcases hrest with hrest | hrest <;> rw [hrest] <;> decide
    rw [typeArg, List.singleton_append, bind_of_ok (accept_yes hq (by decide)), if_pos rfl,
      bind_of_ok (checkAny_no hno), if_neg (by simp)]
    rfl
  | @bounded t k b word bound here ih =>
    obtain rfl := here.1
    refine ⟨by simp, ?_⟩
    intro n us rest h hn hrest
    obtain ⟨q, us, rfl, hq, -, h⟩ := Realizes.of_mark (x := "?") (l := Item.word k :: b.items) h
    obtain ⟨e, us, rfl, he, hk, h⟩ := h.of_word
    simp only [List.cons_append, List.length_cons] at hn
    obtain ⟨n, rfl⟩ : ∃ m, n = m + 1 := ⟨n - 1, by omega⟩
    have hyes : headKind (e :: us ++ rest) ∈ [TokenKind.word "extends", .word "super"] := by
      rw [List.cons_append, headKind_cons, he]
      simpa using word
    have hstop : headKind rest ∉ [dot, lbracket] ∧ headKind rest ≠ .mark "<" := by
      rcases hrest with hrest | hrest <;> rw [hrest] <;> decide
    have htype := (ih.1 rfl).type (n := n) rest h (by omega) hstop.1 fun _ => hstop.2
    rw [typeArg, List.cons_append, bind_of_ok (accept_yes hq (by decide)), if_pos rfl,
      bind_of_ok (checkAny_yes hyes), if_pos rfl, List.cons_append,
      bind_of_ok (advance_cons (by simp [he])), bind_of_ok htype, hk]
    rfl

lemma readsType_of_tree {a : Node} (h : TypeTree Legible false a) : ReadsType a :=
  (reads_of_typeTree h).1 rfl

end LoopLowering.Grammar
