import LoopLowering.Proofs.Grammar.DeclarationTrees
import LoopLowering.Proofs.Grammar.StatementExpression
import LoopLowering.Proofs.Loops.Placement
import LoopLowering.Proofs.Syntax.Nodes

/-! What the passes make of a tree that was read from a text is again a tree that a text can stand
for, and each of its nodes is read as what it is. The expressions in the head of a loop become
statements, so they must not begin like declarations. -/

namespace LoopLowering

open Layout Grammar Node

namespace Token

lemma IsName.append {x y : String} (hx : IsName x) (hparts : ∀ c ∈ y.toList, isIdentPart c = true)
    (hreserved : ∀ w ∈ reservedWords, ¬ y.toList <:+ w.toList) : IsName (x ++ y) := by
  obtain ⟨⟨c, cs, hcs, hc, hparts'⟩, -⟩ := hx
  refine ⟨⟨c, cs ++ y.toList, by rw [String.toList_append, hcs]; rfl, hc, ?_⟩, fun hmem => ?_⟩
  · exact fun d hd => (List.mem_append.mp hd).elim (hparts' d) (hparts d)
  · exact hreserved _ hmem (by rw [String.toList_append]; exact List.suffix_append _ _)

lemma isIdentPart_toDigits {n : Nat} {c : Char} (h : c ∈ Nat.toDigits 10 n) :
    isIdentPart c = true := by
  have key : ∀ d < 10, isIdentPart (Nat.digitChar d) = true := by decide
  obtain ⟨d, hd, rfl⟩ := mem_toDigits h
  exact key d hd

end Token

/-- The expressions among the initial and the update part of a loop are expressions that can stand
as statements. -/
def HeadStated : Shape Node → Prop
  | .forLoop init _ update _ =>
    ∀ e ∈ init ++ update, e.shape.isDeclaration = false → isStatementExpr e = true
  | _ => True

def headParts : Shape Node → List Node
  | .forLoop init _ update _ => init ++ update
  | _ => []

lemma headStated_iff (s : Shape Node) : HeadStated s ↔
    (headParts s).all (fun e => e.shape.isDeclaration || isStatementExpr e) = true := by
  cases s <;> simp only [HeadStated, headParts, List.all_eq_true, List.all_nil, Bool.or_eq_true,
    Decidable.or_iff_not_imp_left, Bool.not_eq_true]

instance : DecidablePred HeadStated := fun s => decidable_of_iff' _ (headStated_iff s)

structure Lasting (t : Tag) (s : Shape Node) : Prop where
  sound : Sound s
  head : HeadStated s

namespace Loops

lemma isName_iteratorName {x : String} (hx : Token.IsName x) : Token.IsName (iteratorName x) :=
  hx.append (forall_mem_of_all (by decide)) (by decide)

lemma isName_bodyLabel (k : Nat) : Token.IsName (bodyLabel k) := by
  have hlist : (bodyLabel k).toList = "forBody".toList ++ Nat.toDigits 10 k := by
    simp only [bodyLabel, String.toList_append, Nat.toString_eq_ofList_toDigits,
      String.toList_ofList]
  refine ⟨⟨'f', "orBody".toList ++ Nat.toDigits 10 k, hlist, by decide, ?_⟩, fun hmem => ?_⟩
  · refine List.forall_mem_append.mpr ⟨forall_mem_of_all (by decide), fun c hc => Token.isIdentPart_toDigits hc⟩
  · have key : ∀ w ∈ Token.reservedWords, ¬ "forBody".toList <+: w.toList := by decide
    exact key _ hmem (hlist ▸ List.prefix_append _ _)

variable {t : Tag} {n : Node}

lemma lasting_of_sound {s : Shape Node} (h : Sound s) (hfor : isForLoop s = false) (t : Tag) :
    Lasting t s := by
  refine ⟨h, ?_⟩
  cases s <;> trivial

lemma typeTree_copy {P : Tag → Shape Node → Prop} {w : Bool} (h : TypeTree P w n) :
    TypeTree Lasting w n.copy := by
  induction h with
  | primitive name _ => exact .primitive name ⟨⟨trivial, trivial, trivial⟩, trivial⟩
  | named name _ => exact .named name ⟨⟨trivial, trivial, trivial⟩, trivial⟩
  | @generic w t x d as name _ _ ih =>
    rw [copy, mapTags, fold_mk]
    simp only [Shape.map, Shape.mapAt, Option.map_some, mapIdx_const]
    refine .generic name (fun a ha => ?_) ⟨⟨trivial, trivial, trivial⟩, trivial⟩
    obtain ⟨b, hb, rfl⟩ := List.mem_map.mp ha
    exact ih b hb
  | anything _ => exact .anything ⟨⟨trivial, trivial, trivial⟩, trivial⟩
  | bounded word _ _ ih => exact .bounded word ih ⟨⟨trivial, trivial, trivial⟩, trivial⟩

lemma stmtTree_exprStmt {e : Node} (h : ExprTree Lasting false e)
    (hs : isStatementExpr e = true) : StmtTree Lasting false (.plain (.exprStmt e)) := by
  have hclear : ExprTree (fun _ s => Layout.Clear s) false e := h.mono fun _ _ here => here.sound.clear
  have hapart := statementExpr_apart hclear.reread ((isStatementExpr_reread e).trans hs)
  refine .exprStmt h ⟨⟨trivial, trivial, ?_⟩, trivial⟩
  simpa [Stated] using hapart []

lemma stmtTree_statementsOf {init : List Node} (h : ForInit Lasting init)
    (hs : ∀ e ∈ init, e.shape.isDeclaration = false → isStatementExpr e = true) :
    ∀ s ∈ init.flatMap statementsOf, StmtTree Lasting false s := by
  intro s hmem
  obtain ⟨e, he, hse⟩ := List.mem_flatMap.mp hmem
  rcases h with ⟨d, rfl, hd⟩ | h
  · obtain rfl := List.mem_singleton.mp he
    obtain ⟨modifiers, type, -, declarators, -⟩ := hd
    obtain ⟨i, hi, rfl⟩ := List.mem_mapIdx.mp hse
    refine .localVar (.mk modifiers ?_ (by simp) ?_ ⟨⟨trivial, trivial, trivial⟩, trivial⟩)
    · split
      · exact type
      · exact typeTree_copy type
    · simpa using declarators _ (List.getElem_mem hi)
  · have hdecl : e.shape.isDeclaration = false := by cases h e he <;> rfl
    rw [statementsOf_of_not_declaration hdecl, List.mem_singleton] at hse
    subst hse
    exact stmtTree_exprStmt (h e he) (hs e he hdecl)

lemma exprTree_iteratorCall {v : Bool} {x method : String} (hx : Token.IsName x)
    (hmethod : Token.IsName method) : ExprTree Lasting v (iteratorCall x method) := by
  refine .methodCall hmethod (.ident (isName_iteratorName hx) ?_) (by simp) ?_
  · exact ⟨⟨trivial, trivial, trivial⟩, trivial⟩
  · exact ⟨⟨trivial, .inl (by decide : Precedence.counted ≤ Precedence.primary), trivial⟩, trivial⟩

lemma isQualified_iterator : IsQualified "java.util.Iterator" := by
  have hsplit : "java.util.Iterator".toList.splitOn '.' =
      ["java".toList, "util".toList, "Iterator".toList] := by decide
  rw [IsQualified, hsplit]
  simp only [List.forall_mem_cons, String.ofList_toList]
  exact ⟨by decide, by decide, by decide, by simp⟩

lemma TypeTree.weaken {P : Tag → Shape Node → Prop} (h : TypeTree P false n) :
    TypeTree P true n := by
  cases h with
  | primitive name here => exact .primitive name here
  | named name here => exact .named name here
  | generic name args here => exact .generic name args here

lemma stmtTree_iteratorDecl {type iterable : Node} {x : String} (hx : Token.IsName x)
    (htype : TypeTree Lasting false type) (hiterable : ExprTree Lasting false iterable) :
    StmtTree Lasting false (iteratorDecl type iterable x) := by
  have hplain : ∀ {s : Shape Node}, Sound s → isForLoop s = false → Lasting {} s :=
    fun h hfor => lasting_of_sound h hfor _
  refine .localVar (.mk (by simp) (.generic isQualified_iterator ?_ ?_) (by simp) ?_ ?_)
  · simpa using TypeTree.weaken htype
  · exact hplain ⟨trivial, trivial, trivial⟩ rfl
  · refine List.forall_mem_singleton.mpr (.mk (isName_iteratorName hx) ?_ ?_)
    · rintro _ ⟨⟩
      refine .methodCall (by decide) hiterable (by simp)
        (hplain ⟨trivial, .inr ⟨rfl, rfl⟩, trivial⟩ rfl)
    · exact hplain ⟨trivial, trivial, trivial⟩ rfl
  · exact hplain ⟨trivial, trivial, trivial⟩ rfl

lemma stmtTree_nextElement {mods : List Word} {type : Node} {x : String} (hx : Token.IsName x)
    (hmods : ∀ w ∈ mods, IsModifier localModifierNames w) (htype : TypeTree Lasting false type) :
    StmtTree Lasting false (nextElement mods type x 0) := by
  refine .localVar (.mk hmods htype (by simp) ?_ ⟨⟨trivial, trivial, trivial⟩, trivial⟩)
  refine List.forall_mem_singleton.mpr (.mk hx ?_ ⟨⟨trivial, trivial, trivial⟩, trivial⟩)
  rintro _ ⟨⟩
  exact exprTree_iteratorCall hx (by decide)

lemma stmtTree_block {ss : List Node} (h : ∀ s ∈ ss, StmtTree Lasting false s) (t : Tag) :
    StmtTree Lasting false (.mk t (.block ss)) :=
  .block h ⟨⟨trivial, trivial, trivial⟩, trivial⟩

lemma stmtTree_underLabels {labels : List (Tag × String)}
    (hlabels : ∀ l ∈ labels, Token.IsName l.2) (h : StmtTree Lasting false n) :
    StmtTree Lasting false (underLabels labels n) := by
  induction labels with
  | nil => exact h
  | cons l labels ih =>
    obtain ⟨hl, hlabels⟩ := List.forall_mem_cons.mp hlabels
    exact .labeled hl (ih hlabels) ⟨⟨trivial, trivial, trivial⟩, trivial⟩

lemma endsOpen_underLabels (labels : List (Tag × String)) (n : Node) :
    (underLabels labels n).endsOpen = n.endsOpen := by
  induction labels with
  | nil => rfl
  | cons l labels ih => exact (endsOpen_mk _ _).trans ih

lemma stmtTree_whileBlock {labels : List String} (hlabels : ∀ l ∈ labels, Token.IsName l)
    {before : List Node} {cond body : Node} (hbefore : ∀ s ∈ before, StmtTree Lasting false s)
    (hcond : ExprTree Lasting false cond) (hbody : StmtTree Lasting false body)
    (line : Option Nat) :
    StmtTree Lasting false (whileBlock labels line before cond body) := by
  refine stmtTree_block (List.forall_mem_append.mpr ⟨hbefore, ?_⟩) _
  refine List.forall_mem_singleton.mpr ?_
  rw [relabel_eq_underLabels]
  refine stmtTree_underLabels (by simpa using hlabels) ?_
  exact .whileLoop hcond hbody ⟨⟨trivial, trivial, trivial⟩, trivial⟩

lemma endsOpen_block (t : Tag) (ss : List Node) : (Node.mk t (.block ss)).endsOpen = false :=
  endsOpen_mk _ _

lemma stmtTree_keptBlock (h : StmtTree Lasting false n) :
    ∀ s ∈ (keptBlock n).2, StmtTree Lasting false s := by
  have hsingle : ∀ s ∈ [n], StmtTree Lasting false s := by simpa using h
  unfold keptBlock
  split
  · rename_i t ss
    split
    · exact hsingle
    · cases h with
      | block statements _ => exact statements
      | localVar declaration => cases declaration
  · exact hsingle

structure Keeps (n m : Node) : Prop where
  tree : ∀ {handler : Bool}, StmtTree Lasting handler n → StmtTree Lasting handler m
  endsOpen : m.endsOpen = true → n.endsOpen = true
  isBlock : isBlock n = true → isBlock m = true

lemma mapIdx_eq_self {α : Type} {f : Nat → α → α} {as : List α}
    (h : ∀ i (hi : i < as.length), f i as[i] = as[i]) : as.mapIdx f = as :=
  List.ext_getElem (List.length_mapIdx) fun i _ hi => by rw [List.getElem_mapIdx, h i hi]

/-- A change of the children of a statement that leaves its phrases alone and keeps its bodies. -/
structure InBodies (f : Step → Node → Node) (s : Shape Node) : Prop where
  quiet : allQuiet s.phrases
  phrases : ∀ c ∈ s.steps, c.2.quiet = true → f c.1 c.2 = c.2
  bodies : ∀ c ∈ s.steps, c.2 ∈ s.bodies → Keeps c.2 (f c.1 c.2)

namespace InBodies

variable {handler : Bool} {s : Shape Node} {f : Step → Node → Node}

lemma one (hf : InBodies f s) {field : String} {c : Node} (hc : (⟨field, none⟩, c) ∈ s.steps)
    (hmem : c ∈ s.phrases) : f ⟨field, none⟩ c = c :=
  hf.phrases _ hc (hf.quiet c hmem)

lemma many (hf : InBodies f s) {field : String} {cs : List Node}
    (hc : ∀ c ∈ cs.mapIdx fun i c => ((⟨field, some i⟩ : Step), c), c ∈ s.steps)
    (hmem : ∀ c ∈ cs, c ∈ s.phrases) : (cs.mapIdx fun i => f ⟨field, some i⟩) = cs :=
  mapIdx_eq_self fun i hi => hf.phrases _ (hc _ (List.mem_mapIdx.mpr ⟨i, hi, rfl⟩))
    (hf.quiet _ (hmem _ (List.getElem_mem hi)))

lemma same (hf : InBodies f s) (hempty : s.bodies = []) : s.mapAt f = s := by
  rw [← Shape.mapAt_id s, Shape.mapAt_mapAt]
  refine Shape.mapAt_congr fun c hc => hf.phrases c hc (hf.quiet c.2 ?_)
  have hmem := Shape.mem_children_iff.mp (Shape.mem_children.mpr ⟨c.1, hc⟩)
  simpa [hempty] using hmem

lemma ifElse {c a : Node} {o : Option Node} (hf : InBodies f (.ifElse c a o))
    (h : StmtTree Lasting handler (.mk t (.ifElse c a o))) :
    StmtTree Lasting handler (.mk t ((Shape.ifElse c a o).mapAt f)) := by
  cases h with
  | localVar declaration => cases declaration
  | ifElse cond thenStmt elseStmt here =>
    have hc : f ⟨"cond", none⟩ c = c := hf.one List.mem_cons_self List.mem_cons_self
    have ha := hf.bodies (⟨"thenstmt", none⟩, a)
      (by simp [Shape.steps, Shape.parts, Part.steps]) List.mem_cons_self
    have ho : ∀ b ∈ o, Keeps b (f ⟨"elsestmt", none⟩ b) := fun b hb =>
      hf.bodies (⟨"elsestmt", none⟩, b)
        (by simp [Shape.steps, Shape.parts, Part.steps, Option.mem_def.mp hb])
        (by simp [Shape.bodies, Option.mem_def.mp hb])
    refine .ifElse (hc.symm ▸ cond) (ha.tree thenStmt) (fun b hb => ?_)
      ⟨⟨trivial, trivial, ?_⟩, trivial⟩
    · obtain ⟨d, hd, rfl⟩ := Option.map_eq_some_iff.mp hb
      exact (ho d hd).tree (elseStmt d hd)
    · cases o with
      | none => trivial
      | some b =>
        refine Bool.eq_false_iff.mpr fun hopen => ?_
        have hclosed : a.endsOpen = false := here.sound.stated
        rw [ha.endsOpen hopen] at hclosed
        cases hclosed

lemma forLoop {init update : List Node} {o : Option Node} {b : Node}
    (hf : InBodies f (.forLoop init o update b))
    (h : StmtTree Lasting handler (.mk t (.forLoop init o update b))) :
    StmtTree Lasting handler (.mk t ((Shape.forLoop init o update b).mapAt f)) := by
  cases h with
  | localVar declaration => cases declaration
  | forLoop start cond updates body here =>
    have hinit : (init.mapIdx fun i => f ⟨"init", some i⟩) = init :=
      hf.many (by simp +contextual [Shape.steps, Shape.parts, Part.steps])
        (by simp +contextual [Shape.phrases])
    have hupdate : (update.mapIdx fun i => f ⟨"update", some i⟩) = update :=
      hf.many (by simp +contextual [Shape.steps, Shape.parts, Part.steps])
        (by simp +contextual [Shape.phrases])
    have hc : o.map (f ⟨"cond", none⟩) = o := by
      cases o with
      | none => rfl
      | some c =>
        exact congrArg some (hf.one (by simp [Shape.steps, Shape.parts, Part.steps])
          (by simp [Shape.phrases]))
    have hb := hf.bodies (⟨"body", none⟩, b) (by simp [Shape.steps, Shape.parts, Part.steps])
      List.mem_cons_self
    have hmap : (Shape.forLoop init o update b).mapAt f =
        .forLoop init o update (f ⟨"body", none⟩ b) := by
      rw [Shape.mapAt, hinit, hupdate, hc]
    rw [hmap]
    exact .forLoop start cond updates (hb.tree body) ⟨⟨trivial, trivial, trivial⟩, here.head⟩

lemma tryStmt {b : Node} {cs : List Node} {o : Option Node} (hf : InBodies f (.tryStmt b cs o))
    (h : StmtTree Lasting handler (.mk t (.tryStmt b cs o))) :
    StmtTree Lasting handler (.mk t ((Shape.tryStmt b cs o).mapAt f)) := by
  cases h with
  | localVar declaration => cases declaration
  | tryStmt body block catches final blocks handled =>
    have hb := hf.bodies (⟨"block", none⟩, b) List.mem_cons_self List.mem_cons_self
    have ho : ∀ b ∈ o, Keeps b (f ⟨"finally_block", none⟩ b) := fun b hb =>
      hf.bodies (⟨"finally_block", none⟩, b)
        (by simp [Shape.steps, Shape.parts, Part.steps, Option.mem_def.mp hb])
        (by simp [Shape.bodies, Option.mem_def.mp hb])
    refine .tryStmt (hb.tree body) (hb.isBlock block) (fun c hc => ?_) (fun d hd => ?_)
      (fun d hd => ?_) ?_ ⟨⟨trivial, trivial, trivial⟩, trivial⟩
    · obtain ⟨i, hi, rfl⟩ := List.mem_mapIdx.mp hc
      have hmem : cs[i] ∈ cs := List.getElem_mem hi
      refine (hf.bodies (⟨"catches", some i⟩, cs[i]) ?_ (by simp [Shape.bodies, hmem])).tree
        (catches _ hmem)
      simp only [Shape.steps, Shape.parts, List.flatMap_cons, List.mem_append]
      exact .inr (.inl (List.mem_mapIdx.mpr ⟨i, hi, rfl⟩))
    · obtain ⟨d, hmem, rfl⟩ := Option.map_eq_some_iff.mp hd
      exact (ho d hmem).tree (final d hmem)
    · obtain ⟨d, hmem, rfl⟩ := Option.map_eq_some_iff.mp hd
      exact (ho d hmem).isBlock (blocks d hmem)
    · simpa [← List.length_pos_iff] using handled

lemma catchClause {mods : List Word} {x : String} {tys : List Node} {b : Node}
    (hf : InBodies f (.catchClause mods x tys b))
    (h : StmtTree Lasting handler (.mk t (.catchClause mods x tys b))) :
    StmtTree Lasting handler (.mk t ((Shape.catchClause mods x tys b).mapAt f)) := by
  cases h with
  | localVar declaration => cases declaration
  | catchClause modifiers name nonempty types body block =>
    have htypes : (tys.mapIdx fun i => f ⟨"types", some i⟩) = tys :=
      hf.many (by simp +contextual [Shape.steps, Shape.parts, Part.steps])
        (by simp [Shape.phrases])
    have hb := hf.bodies (⟨"body", none⟩, b) (by simp [Shape.steps, Shape.parts, Part.steps])
      List.mem_cons_self
    have hmap : (Shape.catchClause mods x tys b).mapAt f =
        .catchClause mods x tys (f ⟨"body", none⟩ b) := by
      rw [Shape.mapAt, htypes]
    rw [hmap]
    exact .catchClause modifiers name nonempty types (hb.tree body) (hb.isBlock block)
      ⟨⟨trivial, trivial, trivial⟩, trivial⟩

lemma tree (hf : InBodies f s) (h : StmtTree Lasting handler (.mk t s)) :
    StmtTree Lasting handler (.mk t (s.mapAt f)) := by
  have hself := h
  cases h with
  | localVar declaration =>
    rw [hf.same (by cases declaration; rfl)]
    exact .localVar declaration
  | exprStmt expr here => rw [hf.same rfl]; exact .exprStmt expr here
  | returnStmt value here => rw [hf.same rfl]; exact .returnStmt value here
  | breakStmt label here => exact .breakStmt label here
  | continueStmt label here => exact .continueStmt label here
  | throwStmt expr here => rw [hf.same rfl]; exact .throwStmt expr here
  | emptyStmt here => exact .emptyStmt here
  | @labeled _ l b label body here =>
    have hb := hf.bodies (⟨"body", none⟩, b) List.mem_cons_self List.mem_cons_self
    exact .labeled label (hb.tree body) ⟨⟨trivial, trivial, trivial⟩, trivial⟩
  | block statements here =>
    refine stmtTree_block (fun m hm => ?_) t
    obtain ⟨i, hi, rfl⟩ := List.mem_mapIdx.mp hm
    refine (hf.bodies (_, _) (List.mem_append_left _ (List.mem_mapIdx.mpr ⟨i, hi, rfl⟩)) ?_).tree ?_
    · exact List.getElem_mem hi
    · exact statements _ (List.getElem_mem hi)
  | ifElse => exact hf.ifElse hself
  | @whileLoop _ c b cond body here =>
    have hc : f ⟨"cond", none⟩ c = c := hf.one List.mem_cons_self List.mem_cons_self
    have hb := hf.bodies (⟨"body", none⟩, b) (by simp [Shape.steps, Shape.parts, Part.steps])
      List.mem_cons_self
    exact .whileLoop (hc.symm ▸ cond) (hb.tree body) ⟨⟨trivial, trivial, trivial⟩, trivial⟩
  | @doWhile _ b c body cond here =>
    have hc : f ⟨"cond", none⟩ c = c :=
      hf.one (by simp [Shape.steps, Shape.parts, Part.steps]) List.mem_cons_self
    have hb := hf.bodies (⟨"body", none⟩, b) List.mem_cons_self List.mem_cons_self
    exact .doWhile (hb.tree body) (hc.symm ▸ cond) ⟨⟨trivial, trivial, trivial⟩, trivial⟩
  | forLoop => exact hf.forLoop hself
  | @forEach _ v e b var iterable body here =>
    have hv : f ⟨"var", none⟩ v = v := hf.one List.mem_cons_self List.mem_cons_self
    have he : f ⟨"iterable", none⟩ e = e :=
      hf.one (by simp [Shape.steps, Shape.parts, Part.steps]) (by simp [Shape.phrases])
    have hb := hf.bodies (⟨"body", none⟩, b) (by simp [Shape.steps, Shape.parts, Part.steps])
      List.mem_cons_self
    exact .forEach (hv.symm ▸ var) (he.symm ▸ iterable) (hb.tree body)
      ⟨⟨trivial, trivial, trivial⟩, trivial⟩
  | tryStmt => exact hf.tryStmt hself
  | catchClause => exact hf.catchClause hself

lemma endsOpen (hf : InBodies f s) (h : (Node.mk t (s.mapAt f)).endsOpen = true) :
    (Node.mk t s).endsOpen = true := by
  rw [endsOpen_mk] at h ⊢
  cases s with
  | ifElse c a o =>
    cases o with
    | none => rfl
    | some b =>
      exact (hf.bodies (⟨"elsestmt", none⟩, b) (by simp [Shape.steps, Shape.parts, Part.steps])
        (by simp [Shape.bodies])).endsOpen h
  | whileLoop c b =>
    exact (hf.bodies (⟨"body", none⟩, b) (by simp [Shape.steps, Shape.parts, Part.steps])
      List.mem_cons_self).endsOpen h
  | forLoop init c update b =>
    exact (hf.bodies (⟨"body", none⟩, b) (by simp [Shape.steps, Shape.parts, Part.steps])
      List.mem_cons_self).endsOpen h
  | forEach v e b =>
    exact (hf.bodies (⟨"body", none⟩, b) (by simp [Shape.steps, Shape.parts, Part.steps])
      List.mem_cons_self).endsOpen h
  | labeled l b =>
    exact (hf.bodies (⟨"body", none⟩, b) List.mem_cons_self List.mem_cons_self).endsOpen h
  | _ => cases h

lemma keeps (hf : InBodies f s) : Keeps (.mk t s) (.mk t (s.mapAt f)) where
  tree := hf.tree
  endsOpen := hf.endsOpen
  isBlock h := by cases s <;> first | rfl | cases h

lemma methodDecl {mods tps : List Word} {x d : String} {ty : Node} {ps ths : List Node}
    {o : Option Node} (hf : InBodies f (.methodDecl mods tps x ty ps ths o))
    (h : MemberTree Lasting d (.mk t (.methodDecl mods tps x ty ps ths o))) :
    MemberTree Lasting d (.mk t ((Shape.methodDecl mods tps x ty ps ths o).mapAt f)) := by
  cases h with
  | methodDecl modifiers typeParams name type params throws body blocks =>
    have hty : f ⟨"type", none⟩ ty = ty := hf.one List.mem_cons_self List.mem_cons_self
    have hps : (ps.mapIdx fun i => f ⟨"params", some i⟩) = ps :=
      hf.many (by simp +contextual [Shape.steps, Shape.parts, Part.steps])
        (by simp +contextual [Shape.phrases])
    have hths : (ths.mapIdx fun i => f ⟨"throws", some i⟩) = ths :=
      hf.many (by simp +contextual [Shape.steps, Shape.parts, Part.steps])
        (by simp +contextual [Shape.phrases])
    have ho : ∀ b ∈ o, Keeps b (f ⟨"body", none⟩ b) := fun b hb =>
      hf.bodies (⟨"body", none⟩, b)
        (by simp [Shape.steps, Shape.parts, Part.steps, Option.mem_def.mp hb])
        (by simp [Shape.bodies, Option.mem_def.mp hb])
    have hmap : (Shape.methodDecl mods tps x ty ps ths o).mapAt f =
        .methodDecl mods tps x ty ps ths (o.map (f ⟨"body", none⟩)) := by
      rw [Shape.mapAt, hty, hps, hths]
    rw [hmap]
    refine .methodDecl modifiers typeParams name type params throws (fun b hb => ?_)
      (fun b hb => ?_) ⟨⟨trivial, trivial, trivial⟩, trivial⟩
    · obtain ⟨d, hmem, rfl⟩ := Option.map_eq_some_iff.mp hb
      exact (ho d hmem).tree (body d hmem)
    · obtain ⟨d, hmem, rfl⟩ := Option.map_eq_some_iff.mp hb
      exact (ho d hmem).isBlock (blocks d hmem)

lemma constructorDecl {mods : List Word} {x d : String} {ps ths : List Node} {b : Node}
    (hf : InBodies f (.constructorDecl mods x ps ths b))
    (h : MemberTree Lasting d (.mk t (.constructorDecl mods x ps ths b))) :
    MemberTree Lasting d (.mk t ((Shape.constructorDecl mods x ps ths b).mapAt f)) := by
  cases h with
  | constructorDecl modifiers name params throws body block =>
    have hps : (ps.mapIdx fun i => f ⟨"params", some i⟩) = ps :=
      hf.many (by simp +contextual [Shape.steps, Shape.parts, Part.steps])
        (by simp +contextual [Shape.phrases])
    have hths : (ths.mapIdx fun i => f ⟨"throws", some i⟩) = ths :=
      hf.many (by simp +contextual [Shape.steps, Shape.parts, Part.steps])
        (by simp +contextual [Shape.phrases])
    have hb := hf.bodies (⟨"body", none⟩, b) (by simp [Shape.steps, Shape.parts, Part.steps])
      List.mem_cons_self
    have hmap : (Shape.constructorDecl mods x ps ths b).mapAt f =
        .constructorDecl mods x ps ths (f ⟨"body", none⟩ b) := by
      rw [Shape.mapAt, hps, hths]
    rw [hmap]
    exact .constructorDecl modifiers name params throws (hb.tree body) (hb.isBlock block)
      ⟨⟨trivial, trivial, trivial⟩, trivial⟩

lemma classDecl {mods tps : List Word} {k x d : String} {exts imps ms : List Node}
    (hf : InBodies f (.classDecl mods k x tps exts imps ms))
    (h : MemberTree Lasting d (.mk t (.classDecl mods k x tps exts imps ms)))
    (hmembers : ∀ c ∈ (Shape.classDecl mods k x tps exts imps ms).steps, c.2 ∈ ms →
      MemberTree Lasting x (f c.1 c.2)) :
    MemberTree Lasting d (.mk t ((Shape.classDecl mods k x tps exts imps ms).mapAt f)) := by
  cases h with
  | classDecl modifiers keyword name typeParams extended implemented =>
    have hexts : (exts.mapIdx fun i => f ⟨"extends", some i⟩) = exts :=
      hf.many (by simp +contextual [Shape.steps, Shape.parts, Part.steps])
        (by simp +contextual [Shape.phrases])
    have himps : (imps.mapIdx fun i => f ⟨"implements", some i⟩) = imps :=
      hf.many (by simp +contextual [Shape.steps, Shape.parts, Part.steps])
        (by simp +contextual [Shape.phrases])
    have hmap : (Shape.classDecl mods k x tps exts imps ms).mapAt f =
        .classDecl mods k x tps exts imps (ms.mapIdx fun i => f ⟨"members", some i⟩) := by
      rw [Shape.mapAt, hexts, himps]
    rw [hmap]
    refine .classDecl modifiers keyword name typeParams extended implemented (fun d hd => ?_)
      ⟨⟨trivial, trivial, trivial⟩, trivial⟩
    obtain ⟨i, hi, rfl⟩ := List.mem_mapIdx.mp hd
    refine hmembers (⟨"members", some i⟩, ms[i]) ?_ (List.getElem_mem hi)
    simp only [Shape.steps, Shape.parts, List.flatMap_cons, List.mem_append]
    exact .inr (.inr (.inl (List.mem_mapIdx.mpr ⟨i, hi, rfl⟩)))

end InBodies

lemma keeps_retarget (ls : List String) {target : String} (htarget : Token.IsName target)
    (h : n.WellPlaced) (nested : Bool) : Keeps n (retarget ls target n nested) := by
  induction h generalizing nested with
  | @mk t s _ phrases _ ih =>
    by_cases hcontinue : ∃ l, s = .continueStmt l
    · obtain ⟨l, rfl⟩ := hcontinue
      rw [retarget_continue]
      split
      · refine ⟨fun h => ?_, fun h => ?_, nofun⟩
        · cases h with
          | localVar declaration => cases declaration
          | continueStmt => exact .breakStmt (by simpa using htarget) ⟨⟨trivial, trivial, trivial⟩, trivial⟩
        · rw [Node.plain, endsOpen_mk] at h
          cases h
      · exact ⟨id, id, id⟩
    · rw [retarget_mk ls target (fun l hl => hcontinue ⟨l, hl⟩)]
      refine InBodies.keeps ⟨phrases, fun c _ hc => retarget_of_quiet ls target hc _, ?_⟩
      exact fun c _ hc => ih c.2 hc _

lemma stmtTree_forAsWhile {labels : List String} (hlabels : ∀ l ∈ labels, Token.IsName l)
    {init update : List Node} {o : Option Node} {b : Node} (hplaced : b.WellPlaced)
    (h : StmtTree Lasting false (.mk t (.forLoop init o update b))) (next : Nat) :
    StmtTree Lasting false (forAsWhile labels (.mk t (.forLoop init o update b)) next).1 := by
  cases h with
  | localVar declaration => cases declaration
  | forLoop start cond updates body here =>
    have hbefore := stmtTree_statementsOf start fun e he => here.head e (List.mem_append_left _ he)
    have hupdates : ∀ s ∈ update.map fun e => Node.plain (.exprStmt e),
        StmtTree Lasting false s := by
      intro s hs
      obtain ⟨e, he, rfl⟩ := List.mem_map.mp hs
      refine stmtTree_exprStmt (updates e he) (here.head e (List.mem_append_right _ he) ?_)
      cases updates e he <;> rfl
    have hcond : ExprTree Lasting false (o.getD (.plain (.literal (.bool true) .boolean))) := by
      cases o with
      | none => exact .literal ⟨true, rfl⟩ ⟨⟨trivial, trivial, trivial⟩, trivial⟩
      | some c => exact cond c rfl
    have hkept := stmtTree_keptBlock body
    by_cases hlabel : NeedsLabel labels update b
    · rw [forAsWhile_needsLabel _ _ _ _ _ _ _ hlabel]
      refine stmtTree_whileBlock hlabels hbefore hcond (stmtTree_block ?_ _) _
      refine List.forall_mem_cons.mpr ⟨.labeled (isName_bodyLabel next) (stmtTree_block ?_ _)
        ⟨⟨trivial, trivial, trivial⟩, trivial⟩, hupdates⟩
      intro s hs
      obtain ⟨c, hc, rfl⟩ := List.mem_map.mp hs
      exact (keeps_retarget labels (isName_bodyLabel next) (allWellPlaced_keptBlock hplaced c hc)
        false).tree (hkept c hc)
    · rw [forAsWhile_plain _ _ _ _ _ _ _ hlabel]
      exact stmtTree_whileBlock hlabels hbefore hcond
        (stmtTree_block (List.forall_mem_append.mpr ⟨hkept, hupdates⟩) _) _

lemma stmtTree_forEachAsWhile {labels : List String} (hlabels : ∀ l ∈ labels, Token.IsName l)
    {var iterable body : Node} (h : StmtTree Lasting false (.mk t (.forEach var iterable body))) :
    StmtTree Lasting false (forEachAsWhile labels (.mk t (.forEach var iterable body))) := by
  cases h with
  | localVar declaration => cases declaration
  | forEach var iterable body here =>
    obtain ⟨modifiers, type, name, -, -⟩ := var
    rw [forEachAsWhile_mk]
    refine stmtTree_whileBlock hlabels ?_ (exprTree_iteratorCall name (by decide)) (stmtTree_block ?_ _) _
    · exact List.forall_mem_singleton.mpr (stmtTree_iteratorDecl name (typeTree_copy type) iterable)
    · exact List.forall_mem_cons.mpr
        ⟨stmtTree_nextElement name modifiers type, stmtTree_keptBlock body⟩

lemma endsOpen_forAsWhile (labels : List String) (init update : List Node) (cond : Option Node)
    (body : Node) (next : Nat) :
    (forAsWhile labels (.mk t (.forLoop init cond update body)) next).1.endsOpen = false := by
  by_cases hlabel : NeedsLabel labels update body
  · rw [forAsWhile_needsLabel _ _ _ _ _ _ _ hlabel]
    exact endsOpen_block _ _
  · rw [forAsWhile_plain _ _ _ _ _ _ _ hlabel]
    exact endsOpen_block _ _

structure KeepsUnder (labels : List (Tag × String)) (n m : Node) : Prop where
  tree : (∀ l ∈ labels, Token.IsName l.2) → StmtTree Lasting false n → StmtTree Lasting false m
  endsOpen : m.endsOpen = true → n.endsOpen = true
  keeps : labels = [] → Keeps n m

section

variable {labels : List (Tag × String)} {m : Node}

lemma Keeps.underLabels (h : Keeps n m) : KeepsUnder labels n (underLabels labels m) where
  tree hlabels hn := stmtTree_underLabels hlabels (h.tree hn)
  endsOpen hm := h.endsOpen (endsOpen_underLabels labels m ▸ hm)
  keeps := by rintro rfl; exact h

lemma KeepsUnder.labeled {l : String} (h : KeepsUnder (labels ++ [(t, l)]) n m) :
    KeepsUnder labels (.mk t (.labeled l n)) m where
  tree hlabels hn := by
    cases hn with
    | localVar declaration => cases declaration
    | labeled label body => exact h.tree (List.forall_mem_append.mpr ⟨hlabels, by simpa⟩) body
  endsOpen hm := (endsOpen_mk _ _).trans (h.endsOpen hm)
  keeps := by
    rintro rfl
    refine ⟨fun hn => ?_, fun hm => (endsOpen_mk _ _).trans (h.endsOpen hm), nofun⟩
    cases hn with
    | localVar declaration => cases declaration
    | labeled label body => exact h.tree (by simpa) body

lemma keepsUnder_loop {s : Shape Node} (hs : isForLoop s = true ∨ isForEach s = true)
    (htree : (∀ l ∈ labels, Token.IsName l.2) → StmtTree Lasting false (.mk t s) →
      StmtTree Lasting false m) (hclosed : m.endsOpen = false) :
    KeepsUnder labels (.mk t s) m where
  tree := htree
  endsOpen hm := absurd hm (by simp [hclosed])
  keeps := by
    rintro rfl
    refine ⟨fun {handler} hn => ?_, fun hm => absurd hm (by simp [hclosed]), fun hblock => ?_⟩
    · cases handler with
      | false => exact htree (by simp) hn
      | true => cases hn; simp [isForLoop, isForEach] at hs
    · cases s with
      | block => simp [isForLoop, isForEach] at hs
      | _ => cases hblock

end

lemma keepsUnder_forsOf (h : n.WellPlaced) (labels : List (Tag × String)) (next : Nat) :
    KeepsUnder labels n (forsOf n labels next).1 := by
  induction h generalizing labels next with
  | @mk t s head phrases bodies ih =>
    cases hs : labeledBody? s with
    | some p =>
      obtain rfl := labeledBody?_eq_some.mp hs
      rw [forsOf_labeled]
      exact (ih _ List.mem_cons_self _ _).labeled
    | none =>
      cases hfor : isForLoop s with
      | false =>
        rw [forsOf_mk hs hfor]
        have hlookup := fun c (hc : c ∈ s.steps) =>
          lookup_fromLast (forsOf · []) (Shape.nodup_steps s) next hc
        refine (InBodies.keeps ⟨phrases, ?_, ?_⟩).underLabels
        · intro c hc hquiet
          obtain ⟨k, hk⟩ := hlookup c hc
          rw [hk, forsOf_of_quiet hquiet]
          rfl
        · intro c hc hbody
          obtain ⟨k, hk⟩ := hlookup c hc
          rw [hk]
          exact (ih c.2 hbody [] k).keeps rfl
      | true =>
        cases s with
        | forLoop init cond update body =>
          have hbody := ih body List.mem_cons_self [] next
          have hplaced := wellPlaced_forsOf (bodies body List.mem_cons_self) [] next
          refine keepsUnder_loop (.inl hfor) (fun hlabels hn => ?_) ?_
          · rw [forsOf_forLoop phrases]
            refine stmtTree_forAsWhile (List.forall_mem_map.mpr hlabels) hplaced ?_ _
            cases hn with
            | localVar declaration => cases declaration
            | forLoop start cond updates body here =>
              exact .forLoop start cond updates (hbody.tree (by simp) body)
                ⟨⟨trivial, trivial, trivial⟩, here.head⟩
          · rw [forsOf_forLoop phrases]
            exact endsOpen_forAsWhile _ _ _ _ _ _
        | _ => cases hfor

lemma keepsUnder_eachOf (h : n.WellPlaced) (labels : List (Tag × String)) :
    KeepsUnder labels n (eachOf n labels) := by
  induction h generalizing labels with
  | @mk t s head phrases bodies ih =>
    cases hs : labeledBody? s with
    | some p =>
      obtain rfl := labeledBody?_eq_some.mp hs
      rw [eachOf_labeled]
      exact (ih _ List.mem_cons_self _).labeled
    | none =>
      cases heach : isForEach s with
      | false =>
        rw [eachOf_mk hs heach]
        refine (InBodies.keeps ⟨phrases, ?_, ?_⟩).underLabels
        · exact fun c _ hc => eachOf_of_quiet hc []
        · exact fun c _ hc => (ih c.2 hc []).keeps rfl
      | true =>
        cases s with
        | forEach var iterable body =>
          have hbody := ih body List.mem_cons_self []
          have hvar := phrases var List.mem_cons_self
          have hiterable := phrases iterable (List.mem_cons_of_mem _ List.mem_cons_self)
          refine keepsUnder_loop (.inr heach) (fun hlabels hn => ?_) ?_
          · rw [eachOf_forEach hvar hiterable]
            refine stmtTree_forEachAsWhile (List.forall_mem_map.mpr hlabels) ?_
            cases hn with
            | localVar declaration => cases declaration
            | forEach var iterable body here =>
              exact .forEach var iterable (hbody.tree (by simp) body)
                ⟨⟨trivial, trivial, trivial⟩, trivial⟩
          · obtain ⟨tv, mods, type, td, x, -, rfl⟩ := head
            rw [eachOf_forEach hvar hiterable, forEachAsWhile_mk]
            exact endsOpen_block _ _
        | _ => cases heach

structure Passing (R : Node → Node → Prop) : Prop where
  quiet : ∀ {n m : Node}, R n m → n.quiet = true → m = n
  keeps : ∀ {n m : Node}, R n m → n.WellPlaced → Keeps n m
  inside : ∀ {t : Tag} {s : Shape Node} {m : Node}, R (.mk t s) m → s.isStatement = false →
    ∃ f : Step → Node → Node, m = .mk t (s.mapAt f) ∧ ∀ c ∈ s.steps, R c.2 (f c.1 c.2)

lemma passing_forsOf : Passing fun n m => ∃ next, m = (forsOf n [] next).1 where
  quiet := by
    rintro n _ ⟨next, rfl⟩ h
    rw [forsOf_of_quiet h]
    rfl
  keeps := by
    rintro n _ ⟨next, rfl⟩ h
    exact (keepsUnder_forsOf h [] next).keeps rfl
  inside := by
    rintro t s _ ⟨next, rfl⟩ h
    have hs : labeledBody? s = none := by cases s <;> first | rfl | cases h
    refine ⟨_, congrArg Prod.fst (congrFun (forsOf_mk hs (isForLoop_of_not_statement s h) []) next),
      fun c hc => ?_⟩
    obtain ⟨k, hk⟩ := lookup_fromLast (forsOf · []) (Shape.nodup_steps s) next hc
    exact ⟨k, by rw [hk]; rfl⟩

lemma passing_eachOf : Passing fun n m => m = eachOf n [] where
  quiet := by rintro n _ rfl h; exact eachOf_of_quiet h []
  keeps := by rintro n _ rfl h; exact (keepsUnder_eachOf h []).keeps rfl
  inside := by
    rintro t s _ rfl h
    have hs : labeledBody? s = none := by cases s <;> first | rfl | cases h
    exact ⟨_, eachOf_mk hs (isForEach_of_not_statement s h) [], fun c _ => rfl⟩

section

variable {R : Node → Node → Prop} {m : Node} {c : String}

lemma Passing.inBodies {s : Shape Node} {f : Step → Node → Node} (hR : Passing R)
    (hplaced : (Node.mk t s).WellPlaced) (hf : ∀ c ∈ s.steps, R c.2 (f c.1 c.2)) :
    InBodies f s := by
  cases hplaced with
  | mk _ phrases bodies =>
    exact ⟨phrases, fun c hc hquiet => hR.quiet (hf c hc) hquiet,
      fun c hc hbody => hR.keeps (hf c hc) (bodies c.2 hbody)⟩

lemma memberTree_passing (hR : Passing R) (hplaced : n.WellPlaced) (h : MemberTree Lasting c n)
    (hm : R n m) : MemberTree Lasting c m := by
  induction h generalizing m with
  | fieldDecl modifiers type bare nonempty declarators here =>
    obtain ⟨f, rfl, hf⟩ := hR.inside hm rfl
    rw [(hR.inBodies hplaced hf).same rfl]
    exact .fieldDecl modifiers type bare nonempty declarators here
  | methodDecl modifiers typeParams name type params throws body blocks here =>
    obtain ⟨f, rfl, hf⟩ := hR.inside hm rfl
    exact (hR.inBodies hplaced hf).methodDecl
      (.methodDecl modifiers typeParams name type params throws body blocks here)
  | constructorDecl modifiers name params throws body block here =>
    obtain ⟨f, rfl, hf⟩ := hR.inside hm rfl
    exact (hR.inBodies hplaced hf).constructorDecl
      (.constructorDecl modifiers name params throws body block here)
  | @initBlock c t isStatic b body block here =>
    obtain ⟨f, rfl, hf⟩ := hR.inside hm rfl
    have hb := (hR.inBodies hplaced hf).bodies (⟨"body", none⟩, b) List.mem_cons_self
      List.mem_cons_self
    exact .initBlock (hb.tree body) (hb.isBlock block)
      ⟨⟨trivial, trivial, trivial⟩, trivial⟩
  | classDecl modifiers keyword name typeParams extended implemented members here ih =>
    obtain ⟨f, rfl, hf⟩ := hR.inside hm rfl
    refine (hR.inBodies hplaced hf).classDecl
      (.classDecl modifiers keyword name typeParams extended implemented members here) ?_
    cases hplaced with
    | mk _ _ bodies => exact fun d hd hmem => ih d.2 hmem (bodies d.2 hmem) (hf d hd)

theorem unitTree_passing (hR : Passing R) (hplaced : n.WellPlaced) (h : UnitTree Lasting n)
    (hm : R n m) : UnitTree Lasting m := by
  obtain ⟨package, imports, types, classes, here⟩ := h
  rename_i t p is ds
  obtain ⟨f, rfl, hf⟩ := hR.inside hm rfl
  have his : (is.mapIdx fun i => f ⟨"imports", some i⟩) = is :=
    (hR.inBodies hplaced hf).many
      (by simp +contextual [Shape.steps, Shape.parts, Part.steps]) (by simp [Shape.phrases])
  cases hplaced with
  | mk head phrases bodies =>
  have hmap : (Shape.unit p is ds).mapAt f =
      .unit p is (ds.mapIdx fun i => f ⟨"types", some i⟩) := by
    rw [Shape.mapAt, his]
  have hd : ∀ i (hi : i < ds.length), R ds[i] (f ⟨"types", some i⟩ ds[i]) := by
    refine fun i hi => hf (⟨"types", some i⟩, ds[i]) ?_
    simp only [Shape.steps, Shape.parts, List.flatMap_cons, List.mem_append]
    exact .inr (.inl (List.mem_mapIdx.mpr ⟨i, hi, rfl⟩))
  rw [hmap]
  refine .mk package imports (fun d hmem => ?_) (fun d hmem => ?_)
    ⟨⟨trivial, trivial, trivial⟩, trivial⟩
  · obtain ⟨i, hi, rfl⟩ := List.mem_mapIdx.mp hmem
    have hdi : ds[i] ∈ ds := List.getElem_mem hi
    exact memberTree_passing hR (bodies _ hdi) (types _ hdi) (hd i hi)
  · obtain ⟨i, hi, rfl⟩ := List.mem_mapIdx.mp hmem
    have hclass := classes _ (List.getElem_mem hi)
    have hdi := hd i hi
    generalize ds[i] = d at hclass hdi ⊢
    obtain ⟨u, s⟩ := d
    cases s with
    | classDecl =>
      obtain ⟨g, hg, -⟩ := hR.inside hdi rfl
      rw [hg]
      rfl
    | _ => cases hclass

end

end Loops

open Loops in
lemma Pass.exists_run {n : Node} (hplaced : n.WellPlaced) (h : UnitTree Lasting n) (p : Pass) :
    ∃ m, p.run n = .ok m ∧ m.WellPlaced ∧ UnitTree Lasting m := by
  have hfor : ∀ {n : Node}, n.WellPlaced → UnitTree Lasting n →
      (Lowering.forLoops n).WellPlaced ∧ UnitTree Lasting (Lowering.forLoops n) := by
    intro n hplaced h
    rw [Lowering.forLoops_eq_forsOf hplaced]
    exact ⟨wellPlaced_forsOf hplaced [] 0, unitTree_passing passing_forsOf hplaced h ⟨0, rfl⟩⟩
  have heach : ∀ {n : Node}, n.WellPlaced → UnitTree Lasting n →
      ∃ m, Lowering.forEachLoops n = .ok m ∧ m.WellPlaced ∧ UnitTree Lasting m := by
    intro n hplaced h
    exact ⟨eachOf n [], Lowering.forEachLoops_eq_eachOf hplaced, wellPlaced_eachOf hplaced [],
      unitTree_passing passing_eachOf hplaced h rfl⟩
  cases p with
  | none => exact ⟨n, rfl, hplaced, h⟩
  | forLoops => exact ⟨_, rfl, hfor hplaced h⟩
  | forEachLoops => exact heach hplaced h
  | all => exact heach (hfor hplaced h).1 (hfor hplaced h).2

/-- A sequence of passes, one after the other. -/
def Pass.runAll (ps : List Pass) (n : Node) : Except Fault Node := ps.foldlM (fun n p => p.run n) n

lemma Pass.exists_runAll {n : Node} (hplaced : n.WellPlaced) (h : UnitTree Lasting n)
    (ps : List Pass) : ∃ m, Pass.runAll ps n = .ok m ∧ UnitTree Lasting m := by
  induction ps generalizing n with
  | nil => exact ⟨n, rfl, h⟩
  | cons p ps ih =>
    obtain ⟨m, hm, hplaced, htree⟩ := p.exists_run hplaced h
    obtain ⟨u, hu, hunit⟩ := ih hplaced htree
    refine ⟨u, ?_, hunit⟩
    rw [Pass.runAll, List.foldlM_cons, hm]
    exact hu

end LoopLowering
