import LoopLowering.Proofs.RoundTrip.Expression
import LoopLowering.Proofs.RoundTrip.Unit

/-! Statements are read back from their text, in which an `else` belongs to the nearest conditional
that is open for it. Braces keep it where it was only if the branch before it is itself a
conditional. -/

namespace LoopLowering

open Layout Grammar

namespace Node

def withElse : Node → Node → Node
  | .mk t (.whileLoop c s), b => .mk t (.whileLoop c (s.withElse b))
  | .mk t (.forLoop init c update s), b => .mk t (.forLoop init c update (s.withElse b))
  | .mk t (.forEach v e s), b => .mk t (.forEach v e (s.withElse b))
  | .mk t (.labeled l s), b => .mk t (.labeled l (s.withElse b))
  | .mk t (.ifElse c a none), b =>
    .mk t (if a.endsOpen then .ifElse c (a.withElse b) none else .ifElse c a (some b))
  | .mk t (.ifElse c a (some d)), b => .mk t (.ifElse c a (some (d.withElse b)))
  | n, _ => n
termination_by structural n => n

end Node

/-- A conditional that loses its `else` if its branch is open. -/
def nearestElse : Shape Node → Shape Node
  | .ifElse c a (some b) => if a.endsOpen then .ifElse c (a.withElse b) none else .ifElse c a (some b)
  | s => s

/-- A tree in which each `else` belongs to the nearest conditional before it. -/
def Node.nearest : Node → Node := fold fun t s => mk t (nearestElse s)

def ElseClosed : Shape Node → Prop
  | .ifElse _ a (some _) => a.endsOpen = false
  | _ => True

/-- A branch before an `else` is open only if it is a conditional, which is put in braces. -/
def ElseKept : Shape Node → Prop
  | .ifElse _ a (some _) => isIf a = true ∨ a.endsOpen = false
  | _ => True

def beforeElse : Shape Node → Option Node
  | .ifElse _ a (some _) => some a
  | _ => none

lemma elseKept_iff (s : Shape Node) :
    ElseKept s ↔ (beforeElse s).all (fun a => isIf a || !a.endsOpen) = true := by
  cases s with
  | ifElse c a o => cases o <;> simp [ElseKept, beforeElse]
  | _ => simp [ElseKept, beforeElse]

instance : DecidablePred ElseKept := fun s => decidable_of_iff' _ (elseKept_iff s)

/-- An expression that stands as a statement, in the head of a loop too, is one that can. -/
def Acting : Shape Node → Prop
  | .exprStmt e => isStatementExpr e = true
  | s => HeadStated s

def standing : Shape Node → List Node
  | .exprStmt e => [e]
  | s => (headParts s).filter (!·.shape.isDeclaration)

lemma acting_iff (s : Shape Node) : Acting s ↔ (standing s).all isStatementExpr = true := by
  cases s with
  | exprStmt e => simp [Acting, standing]
  | _ => simp only [Acting, headStated_iff, standing, List.all_filter, Bool.not_not]

instance : DecidablePred Acting := fun s => decidable_of_iff' _ (acting_iff s)

/-- A node of a statement whose text can be read as the node, wherever an `else` belongs. -/
structure Performed (s : Shape Node) : Prop where
  writable : Writable s
  clear : Clear s
  acting : Acting s

section

variable {t : Tag} {s : Shape Node} {n : Node} {P : Tag → Shape Node → Prop}

lemma nearest_mk (t : Tag) (s : Shape Node) :
    (Node.mk t s).nearest = .mk t (nearestElse (s.map Node.nearest)) := Node.fold_mk _ t s

lemma nearest_eq_self (h : ∀ c ∈ s.children, c.nearest = c) (hs : nearestElse s = s) :
    (Node.mk t s).nearest = .mk t s := by
  rw [nearest_mk, Shape.map_eq_self h, hs]

lemma nearestElse_eq_self (h : ElseClosed s) : nearestElse s = s := by
  cases s with
  | ifElse c a o =>
    cases o with
    | none => rfl
    | some b =>
      have hclosed : a.endsOpen = false := h
      simp [nearestElse, hclosed]
  | _ => rfl

lemma nearest_eq_self_iff : n.nearest = n ↔ n.Everywhere fun _ s => ElseClosed s := by
  induction n using Node.children_induction with
  | h t s ih =>
    rw [Node.everywhere_mk]
    constructor
    · intro h
      rw [nearest_mk] at h
      have hshape : nearestElse (s.map Node.nearest) = s := congrArg Node.shape h
      have hclosed : ElseClosed (s.map Node.nearest) := by
        by_contra hopen
        cases s with
        | ifElse c a o =>
          cases o with
          | none => exact hopen trivial
          | some b =>
            have ha : a.nearest.endsOpen = true := by
              simpa [ElseClosed, Shape.map, Shape.mapAt] using hopen
            simp [nearestElse, Shape.map, Shape.mapAt, ha] at hshape
        | _ => exact hopen trivial
      have hmap : s.map Node.nearest = s := (nearestElse_eq_self hclosed).symm.trans hshape
      have hchildren : s.children.map Node.nearest = s.children := by
        rw [← Shape.children_map, hmap]
      refine ⟨hmap ▸ hclosed, fun c hc => (ih c hc).mp ?_⟩
      exact List.map_inj_left.mp (hchildren.trans (List.map_id _).symm) c hc
    · rintro ⟨hs, hchildren⟩
      exact nearest_eq_self (fun c hc => (ih c hc).mpr (hchildren c hc)) (nearestElse_eq_self hs)

structure Inert (s : Shape Node) : Prop where
  separate : Separate s
  voidBare : VoidBare s
  elseClosed : ElseClosed s

lemma inert_of (h : Separate s ∧ VoidBare s ∧ ElseClosed s) : Inert s := ⟨h.1, h.2.1, h.2.2⟩

lemma TypeTree.inert {w : Bool} (h : TypeTree P w n) : n.Everywhere fun _ s => Inert s := by
  induction h <;>
    refine Node.everywhere_mk.mpr ⟨inert_of ⟨trivial, trivial, trivial⟩, ?_⟩ <;>
    simp_all [Shape.children, Shape.parts, Part.toList]

lemma ExprTree.inert {v : Bool} (h : ExprTree P v n) : n.Everywhere fun _ s => Inert s := by
  induction h <;>
    refine Node.everywhere_mk.mpr ⟨inert_of ⟨trivial, trivial, trivial⟩, ?_⟩ <;>
    simp_all [Shape.children, Shape.parts, Part.toList, or_imp]
  all_goals exact TypeTree.inert (by assumption)

lemma DeclaratorTree.inert (h : DeclaratorTree P n) : n.Everywhere fun _ s => Inert s := by
  obtain ⟨-, init, -⟩ := h
  refine Node.everywhere_mk.mpr ⟨inert_of ⟨trivial, trivial, trivial⟩, ?_⟩
  simpa [Shape.children, Shape.parts, Part.toList] using fun e he => (init e he).inert

lemma LocalVarTree.inert (h : LocalVarTree P n) : n.Everywhere fun _ s => Inert s := by
  obtain ⟨-, type, -, declarators, -⟩ := h
  refine Node.everywhere_mk.mpr ⟨inert_of ⟨trivial, trivial, trivial⟩, ?_⟩
  simpa [Shape.children, Shape.parts, Part.toList, type.inert] using
    fun d hd => (declarators d hd).inert

lemma ForInit.inert {init : List Node} (h : ForInit P init) :
    ∀ e ∈ init, e.Everywhere fun _ s => Inert s := by
  obtain ⟨d, rfl, hd⟩ | h := h
  · simpa using hd.inert
  · exact fun e he => (h e he).inert

lemma nearest_of_inert (h : n.Everywhere fun _ s => Inert s) : n.nearest = n :=
  nearest_eq_self_iff.mpr fun m hm => (h m hm).elseClosed

lemma map_nearest_of_inert {ns : List Node} (h : ∀ n ∈ ns, n.Everywhere fun _ s => Inert s) :
    ns.map Node.nearest = ns :=
  (List.map_congr_left fun n hn => nearest_of_inert (h n hn)).trans (List.map_id _)

lemma option_nearest_of_inert {o : Option Node} (h : ∀ n ∈ o, n.Everywhere fun _ s => Inert s) :
    o.map Node.nearest = o := by
  cases o with
  | none => rfl
  | some n => rw [Option.map_some, nearest_of_inert (h n rfl)]

lemma isBlock_nearest (n : Node) : isBlock n.nearest = isBlock n := by
  obtain ⟨t, s⟩ := n
  rw [nearest_mk]
  cases s with
  | ifElse c a o =>
    cases o with
    | none => rfl
    | some b =>
      simp only [Shape.map, Shape.mapAt, nearestElse, Option.map_some]
      split <;> rfl
  | _ => rfl

lemma withElse_items {a b : Node} (h : a.endsOpen = true) :
    (a.withElse b).stmtItems = a.stmtItems ++ Item.word "else" :: b.stmtItems := by
  induction a using Node.children_induction with
  | h t s ih =>
    rw [endsOpen_mk] at h
    cases s with
    | whileLoop c s =>
      have hs := ih s (by simp [Shape.children, Shape.parts, Part.toList]) h
      simp [Node.withElse, Node.stmtItems, hs]
    | forLoop init c update s =>
      have hs := ih s (by simp [Shape.children, Shape.parts, Part.toList]) h
      simp [Node.withElse, Node.stmtItems, hs]
    | forEach v e s =>
      have hs := ih s (by simp [Shape.children, Shape.parts, Part.toList]) h
      simp [Node.withElse, Node.stmtItems, hs]
    | labeled l s =>
      have hs := ih s (by simp [Shape.children, Shape.parts, Part.toList]) h
      simp [Node.withElse, Node.stmtItems, hs]
    | ifElse c a o =>
      cases o with
      | none =>
        rw [Node.withElse]
        split
        · rename_i hopen
          have ha := ih a (by simp [Shape.children, Shape.parts, Part.toList]) hopen
          simp [Node.stmtItems, Node.branchItems, ha]
        · simp [Node.stmtItems, Node.branchItems]
      | some d =>
        have hd := ih d (by simp [Shape.children, Shape.parts, Part.toList]) h
        simp [Node.withElse, Node.stmtItems, Node.branchItems, hd]
    | _ => cases h

lemma readable_of (ht : t = {}) (hs : Clear s ∧ Fits s) (hsep : Separate s) (hvoid : VoidBare s) :
    Readable t s := ⟨⟨ht, hs⟩, hsep, hvoid⟩

lemma withElse_tree {a b : Node} {handler : Bool} (ha : StmtTree Readable handler a)
    (hb : StmtTree Readable false b) : StmtTree Readable handler (a.withElse b) := by
  induction ha with
  | @ifElse t c a o cond thenStmt elseStmt here iha iho =>
    have ht := here.legible.1
    cases o with
    | none =>
      rw [Node.withElse]
      split
      · exact .ifElse cond iha nofun (readable_of ht ⟨trivial, trivial⟩ trivial trivial)
      · rename_i hclosed
        exact .ifElse cond thenStmt (by simpa using hb)
          (readable_of ht ⟨trivial, trivial⟩ (Bool.eq_false_iff.mpr hclosed) trivial)
    | some d =>
      exact .ifElse cond thenStmt (by simpa using iho)
        (readable_of ht ⟨trivial, trivial⟩ here.separate trivial)
  | whileLoop cond _ here ih =>
    exact .whileLoop cond ih (readable_of here.legible.1 ⟨trivial, trivial⟩ trivial trivial)
  | forLoop start cond updates _ here ih =>
    exact .forLoop start cond updates ih
      (readable_of here.legible.1 ⟨trivial, trivial⟩ here.separate trivial)
  | forEach var iterable _ here ih =>
    exact .forEach var iterable ih (readable_of here.legible.1 ⟨trivial, trivial⟩ trivial trivial)
  | labeled label _ here ih =>
    exact .labeled label ih (readable_of here.legible.1 ⟨trivial, trivial⟩ trivial trivial)
  | localVar declaration =>
    obtain ⟨modifiers, type, nonempty, declarators, here⟩ := declaration
    exact .localVar (.mk modifiers type nonempty declarators here)
  | block statements here => exact .block statements here
  | exprStmt expr here => exact .exprStmt expr here
  | doWhile body cond here => exact .doWhile body cond here
  | returnStmt value here => exact .returnStmt value here
  | breakStmt label here => exact .breakStmt label here
  | continueStmt label here => exact .continueStmt label here
  | throwStmt expr here => exact .throwStmt expr here
  | tryStmt body block catches final blocks handled here =>
    exact .tryStmt body block catches final blocks handled here
  | catchClause modifiers name nonempty types body block here =>
    exact .catchClause modifiers name nonempty types body block here
  | emptyStmt here => exact .emptyStmt here

structure Regrouped (handler : Bool) (n m : Node) : Prop where
  tree : StmtTree Readable handler m
  items : m.stmtItems = n.stmtItems

lemma contentItems_regrouped {handler : Bool} {ns : List Node}
    (h : ∀ n ∈ ns, Regrouped handler n n.nearest) :
    Node.contentItems (ns.map Node.nearest) = Node.contentItems ns := by
  induction ns with
  | nil => rfl
  | cons n ns ih =>
    obtain ⟨hn, hns⟩ := List.forall_mem_cons.mp h
    rw [List.map_cons, Node.contentItems, Node.contentItems, hn.items, ih hns]

lemma branchItems_regrouped {o : Option Node} (h : ∀ n ∈ o, Regrouped false n n.nearest) (w : String) :
    Node.branchItems w (o.map Node.nearest) = Node.branchItems w o := by
  cases o with
  | none => rfl
  | some n => rw [Option.map_some, Node.branchItems, Node.branchItems, (h n rfl).items]

lemma forall_map_nearest {Q : Node → Prop} {ns : List Node} (h : ∀ n ∈ ns, Q n.nearest) :
    ∀ n ∈ ns.map Node.nearest, Q n := by
  simpa using h

lemma forall_option_nearest {Q : Node → Prop} {o : Option Node} (h : ∀ n ∈ o, Q n.nearest) :
    ∀ n ∈ o.map Node.nearest, Q n := by
  simpa using h

lemma regrouped_ifElse {c a : Node} {o : Option Node} (hc : ExprTree Readable false c)
    (ha : Regrouped false a a.nearest) (ho : ∀ b ∈ o, Regrouped false b b.nearest) (ht : t = {}) :
    Regrouped false (.mk t (.ifElse c a o))
      (.mk t (nearestElse (.ifElse c a.nearest (o.map Node.nearest)))) := by
  cases o with
  | none =>
    refine ⟨.ifElse hc ha.tree (by rintro _ ⟨⟩) (readable_of ht ⟨trivial, trivial⟩ trivial trivial), ?_⟩
    simp [nearestElse, Node.stmtItems, Node.branchItems, ha.items]
  | some b =>
    have hb := ho b rfl
    rw [Option.map_some, nearestElse]
    split
    · rename_i hopen
      refine ⟨.ifElse hc (withElse_tree ha.tree hb.tree) (by rintro _ ⟨⟩)
        (readable_of ht ⟨trivial, trivial⟩ trivial trivial), ?_⟩
      simp [Node.stmtItems, Node.branchItems, withElse_items hopen, ha.items, hb.items]
    · rename_i hclosed
      refine ⟨.ifElse hc ha.tree (by simpa using hb.tree)
        (readable_of ht ⟨trivial, trivial⟩ (Bool.eq_false_iff.mpr hclosed) trivial), ?_⟩
      simp [Node.stmtItems, Node.branchItems, ha.items, hb.items]

structure Performing (t : Tag) (s : Shape Node) : Prop where
  legible : Legible t s
  acting : Acting s

lemma Performing.readable (h : Performing t s) (hs : Inert s) : Readable t s :=
  ⟨h.legible, hs.separate, hs.voidBare⟩

lemma regrouped_nearest {handler : Bool} (h : StmtTree Performing handler n) :
    Regrouped handler n n.nearest := by
  have hexpr : ∀ {v : Bool} {e : Node}, ExprTree Performing v e → ExprTree Readable v e :=
    fun h => h.mono fun m hm here => here.readable (h.inert m hm)
  have hkept : ∀ {v : Bool} {e : Node}, ExprTree Performing v e → e.nearest = e :=
    fun h => nearest_of_inert h.inert
  induction h with
  | @ifElse t c a o cond _ _ here iha iho =>
    rw [nearest_mk]
    simp only [Shape.map, Shape.mapAt, hkept cond]
    exact regrouped_ifElse (hexpr cond) iha iho here.legible.1
  | @block t ss _ here ih =>
    rw [nearest_mk]
    simp only [Shape.map, Shape.mapAt, mapIdx_const, nearestElse]
    refine ⟨.block (forall_map_nearest fun s hs => (ih s hs).tree)
      (readable_of here.legible.1 ⟨trivial, trivial⟩ trivial trivial), ?_⟩
    rw [Node.stmtItems, contentItems_regrouped ih, Node.stmtItems]
  | localVar declaration =>
    rw [nearest_of_inert declaration.inert]
    exact ⟨.localVar (declaration.mono fun m hm here => here.readable (declaration.inert m hm)), rfl⟩
  | @exprStmt t e expr here =>
    rw [nearest_mk]
    simp only [Shape.map, Shape.mapAt, nearestElse, hkept expr]
    refine ⟨.exprStmt (hexpr expr) (readable_of here.legible.1 ⟨trivial, trivial⟩ ?_ trivial), rfl⟩
    have hapart := statementExpr_apart (expr.mono fun _ _ h => h.legible) here.acting []
    rwa [List.append_nil] at hapart
  | whileLoop cond _ here ih =>
    rw [nearest_mk]
    simp only [Shape.map, Shape.mapAt, nearestElse, hkept cond]
    refine ⟨.whileLoop (hexpr cond) ih.tree
      (readable_of here.legible.1 ⟨trivial, trivial⟩ trivial trivial), ?_⟩
    rw [Node.stmtItems, ih.items, Node.stmtItems]
  | doWhile _ cond here ih =>
    rw [nearest_mk]
    simp only [Shape.map, Shape.mapAt, nearestElse, hkept cond]
    refine ⟨.doWhile ih.tree (hexpr cond)
      (readable_of here.legible.1 ⟨trivial, trivial⟩ trivial trivial), ?_⟩
    rw [Node.stmtItems, ih.items, Node.stmtItems]
  | forLoop start cond updates _ here ih =>
    rw [nearest_mk]
    simp only [Shape.map, Shape.mapAt, mapIdx_const, nearestElse, map_nearest_of_inert start.inert,
      option_nearest_of_inert fun e he => (cond e he).inert,
      map_nearest_of_inert fun e he => (updates e he).inert]
    refine ⟨.forLoop (start.mono fun e he m hm h => h.readable (start.inert e he m hm))
      (fun e he => hexpr (cond e he)) (fun e he => hexpr (updates e he)) ih.tree
      (readable_of here.legible.1 ⟨trivial, trivial⟩
        (fun e he => here.acting e (List.mem_append_left _ he)) trivial), ?_⟩
    rw [Node.stmtItems, ih.items, Node.stmtItems]
  | forEach var iterable _ here ih =>
    rw [nearest_mk]
    simp only [Shape.map, Shape.mapAt, nearestElse, hkept iterable,
      nearest_of_inert (localVarTree_of_element var).inert]
    refine ⟨.forEach (var.mono fun m hm h => h.readable
      ((localVarTree_of_element var).inert m hm)) (hexpr iterable)
      ih.tree (readable_of here.legible.1 ⟨trivial, trivial⟩ trivial trivial), ?_⟩
    rw [Node.stmtItems, ih.items, Node.stmtItems]
  | returnStmt value here =>
    rw [nearest_mk]
    simp only [Shape.map, Shape.mapAt, nearestElse,
      option_nearest_of_inert fun e he => (value e he).inert]
    exact ⟨.returnStmt (fun e he => hexpr (value e he))
      (readable_of here.legible.1 ⟨trivial, trivial⟩ trivial trivial), rfl⟩
  | breakStmt label here =>
    exact ⟨.breakStmt label (readable_of here.legible.1 ⟨trivial, trivial⟩ trivial trivial), rfl⟩
  | continueStmt label here =>
    exact ⟨.continueStmt label (readable_of here.legible.1 ⟨trivial, trivial⟩ trivial trivial), rfl⟩
  | throwStmt expr here =>
    rw [nearest_mk]
    simp only [Shape.map, Shape.mapAt, nearestElse, hkept expr]
    exact ⟨.throwStmt (hexpr expr)
      (readable_of here.legible.1 ⟨trivial, trivial⟩ trivial trivial), rfl⟩
  | @tryStmt t b cs f _ block _ _ blocks handled here ihb ihc ihf =>
    rw [nearest_mk]
    simp only [Shape.map, Shape.mapAt, mapIdx_const, nearestElse]
    refine ⟨.tryStmt ihb.tree ((isBlock_nearest b).trans block)
      (forall_map_nearest fun c hc => (ihc c hc).tree)
      (forall_option_nearest fun b hb => (ihf b hb).tree)
      (forall_option_nearest fun b hb => (isBlock_nearest b).trans (blocks b hb))
      (by simpa using handled)
      (readable_of here.legible.1 ⟨trivial, trivial⟩ trivial trivial), ?_⟩
    rw [Node.stmtItems, ihb.items, contentItems_regrouped ihc, branchItems_regrouped ihf,
      Node.stmtItems]
  | @catchClause t mods x tys b modifiers name nonempty types _ block here ih =>
    rw [nearest_mk]
    simp only [Shape.map, Shape.mapAt, mapIdx_const, nearestElse,
      map_nearest_of_inert fun ty hty => (types ty hty).inert]
    refine ⟨.catchClause modifiers name nonempty
      (fun ty hty => (types ty hty).mono fun m hm h => h.readable ((types ty hty).inert m hm)) ih.tree
      ((isBlock_nearest b).trans block)
      (readable_of here.legible.1 ⟨trivial, trivial⟩ trivial trivial), ?_⟩
    rw [Node.stmtItems, ih.items, Node.stmtItems]
  | labeled label _ here ih =>
    rw [nearest_mk]
    simp only [Shape.map, Shape.mapAt, nearestElse]
    refine ⟨.labeled label ih.tree
      (readable_of here.legible.1 ⟨trivial, trivial⟩ trivial trivial), ?_⟩
    rw [Node.stmtItems, ih.items, Node.stmtItems]
  | emptyStmt here =>
    exact ⟨.emptyStmt (readable_of here.legible.1 ⟨trivial, trivial⟩ trivial trivial), rfl⟩

lemma acting_reread (h : Acting s) : Acting (fitted (s.map Node.reread)) := by
  cases s with
  | exprStmt e => exact (isStatementExpr_reread e).trans h
  | forLoop init cond update b =>
    simp only [Shape.map, Shape.mapAt, mapIdx_const, fitted]
    intro e he hdecl
    rw [← List.map_append] at he
    obtain ⟨d, hd, rfl⟩ := List.mem_map.mp he
    rw [isDeclaration_reread] at hdecl
    rw [isStatementExpr_reread]
    exact h d hd hdecl
  | unary op after e => cases after <;> trivial
  | methodCall x e as => cases e <;> trivial
  | _ => trivial

lemma elseClosed_reread (h : ElseKept s) : ElseClosed (fitted (s.map Node.reread)) := by
  cases s with
  | ifElse c a o =>
    cases o with
    | none => trivial
    | some b =>
      show Node.endsOpen (if _ then _ else _) = false
      split
      · rfl
      · rename_i hbraces
        have hif : isIf a ≠ true := by
          rwa [needsBraces, isIf_reread, Option.map_some, Option.isSome_some, Bool.true_and] at hbraces
        exact (endsOpen_reread a).trans (h.resolve_left hif)
  | unary op after e => cases after <;> trivial
  | methodCall x e as => cases e <;> trivial
  | _ => trivial

lemma elseKept_of_reread (h : ElseClosed (fitted (s.map Node.reread))) : ElseKept s := by
  cases s with
  | ifElse c a o =>
    cases o with
    | none => trivial
    | some b =>
      by_cases hif : isIf a = true
      · exact .inl hif
      · have hbraces : needsBraces a.reread (some b.reread) = false := by
          simpa [needsBraces, isIf_reread] using hif
        have hclosed : Node.endsOpen (if needsBraces a.reread (some b.reread) then
            .plain (.block [a.reread]) else a.reread) = false := h
        rw [hbraces, if_neg Bool.false_ne_true, endsOpen_reread] at hclosed
        exact .inr hclosed
  | _ => trivial

lemma exists_enclosed {d : Node} (h : d ∈ s.children) : ∃ c ∈ (fitted s).children, Enclosed c d := by
  have hput := enclosed_bracketed
  have hself : Enclosed d d := .inl rfl
  cases s with
  | fieldAccess | arrayAccess | assign | binary | conditional | cast | instanceOf =>
    simp only [fitted, Shape.children, Shape.parts, Part.toList, List.flatMap_cons,
      List.flatMap_nil, List.append_nil, List.singleton_append, List.mem_cons, List.not_mem_nil,
      or_false] at h ⊢
    grind
  | methodCall x o as =>
    cases o with
    | none => exact ⟨d, h, hself⟩
    | some e =>
      simp only [fitted, Shape.children, Shape.parts, Part.toList, List.flatMap_cons,
        List.flatMap_nil, List.append_nil, Option.toList_some, List.singleton_append,
        List.mem_cons] at h ⊢
      grind
  | unary op after e =>
    obtain rfl : d = e := by simpa [Shape.children, Shape.parts, Part.toList] using h
    refine ⟨bracketed (if after then Precedence.counted else Precedence.unary) d, ?_, hput _ d⟩
    cases after <;> simp [fitted, Shape.children, Shape.parts, Part.toList]
  | ifElse a b o =>
    have hblock : Enclosed (if needsBraces b o then .plain (.block [b]) else b) b := by
      split
      · exact .inr (.inr rfl)
      · exact .inl rfl
    simp only [fitted, Shape.children, Shape.parts, Part.toList, List.flatMap_cons,
      List.flatMap_nil, List.append_nil, List.singleton_append, List.mem_cons] at h ⊢
    grind
  | _ => exact ⟨d, h, hself⟩

lemma Enclosed.everywhere {c d : Node} {Q : Tag → Shape Node → Prop} (h : Enclosed c d)
    (hc : c.Everywhere Q) : d.Everywhere Q := by
  rcases h with rfl | rfl | rfl
  · exact hc
  · exact (Node.everywhere_mk.mp hc).2 d List.mem_cons_self
  · exact (Node.everywhere_mk.mp hc).2 d List.mem_cons_self

lemma elseClosed_reread_iff : (n.reread.Everywhere fun _ s => ElseClosed s) ↔
    n.Everywhere fun _ s => ElseKept s := by
  refine ⟨fun h => ?_, everywhere_reread (fun _ => elseClosed_reread) (fun _ => trivial) fun _ => trivial⟩
  induction n using Node.children_induction with
  | h t s ih =>
    rw [Node.reread_mk, Node.plain] at h
    obtain ⟨here, hchildren⟩ := Node.everywhere_mk.mp h
    refine Node.everywhere_mk.mpr ⟨elseKept_of_reread here, fun c hc => ih c hc ?_⟩
    have hmem : c.reread ∈ (s.map Node.reread).children := by
      rw [Shape.children_map]
      exact List.mem_map_of_mem hc
    obtain ⟨d, hd, henclosed⟩ := exists_enclosed hmem
    exact henclosed.everywhere (hchildren d hd)

lemma StmtTree.performing {handler : Bool} (h : StmtTree (fun _ s => Performed s) handler n) :
    StmtTree Performing handler n.reread := by
  have hclear : StmtTree (fun _ s => Clear s) handler n := h.mono fun _ _ here => here.clear
  have hacting : n.reread.Everywhere fun _ s => Acting s :=
    everywhere_reread (fun _ => acting_reread) (fun _ => trivial) (fun _ => trivial)
      fun m hm => (h.everywhere m hm).acting
  exact hclear.reread.mono fun m hm here => ⟨here, hacting m hm⟩

lemma Node.bare_eq_self (h : n.Everywhere fun t _ => t = {}) : n.bare = n := by
  induction n using Node.children_induction with
  | h t s ih =>
    obtain ⟨rfl, hchildren⟩ := Node.everywhere_mk.mp h
    rw [Node.bare_mk, Node.plain, Shape.map_eq_self fun c hc => ih c hc (hchildren c hc)]

lemma StmtTree.javaText_eq {handler : Bool} (h : StmtTree P handler n) (hplain : handler = false) :
    javaText n = (stmtLines n 0).map ("\n".intercalate ·) := by
  cases h with
  | localVar declaration => cases declaration; rfl
  | catchClause => cases hplain
  | _ => rfl

end

/-- A statement is read back from its text, in which each `else` belongs to the nearest conditional
that is open before it. It is the statement itself, with the parentheses and braces that the text
adds, exactly if no branch before an `else` is open other than a conditional, which has braces. -/
theorem parse_javaText_statement {s : Node} (h : StmtTree (fun _ s => Performed s) false s) :
    ∃ text r, javaText s = .ok text ∧ parse .statement text = .ok r ∧ r.bare = s.reread.nearest ∧
      (r.bare = s.reread ↔ s.Everywhere fun _ s => ElseKept s) := by
  obtain ⟨ls, hls, hspell⟩ := LaysOut.lines (laysOut_of_tree (h.mono fun _ _ here => here.writable)) 0
  obtain ⟨htree, hitems⟩ := regrouped_nearest h.performing
  have hspells := hspell.spell.lines.spells
  rw [← hitems] at hspells
  obtain ⟨r, hr, hbare⟩ : ∃ r, parse .statement ("\n".intercalate ls) = .ok r ∧
      r.bare = s.reread.nearest.bare := by
    refine hspells.parse (by simp [Ends]) fun k ts t htokens hclosed hts ht hk => ?_
    refine (readsStmt_of_tree htree).statement hts (hclosed ▸ Remaining.of_tokenize htokens)
      (by omega) ⟨fun _ => ?_, ?_, by simp⟩
    · rw [headKind_cons, ht]
      rintro ⟨⟩
    · rw [headKind_cons, ht]
      decide
  have hself : s.reread.nearest.bare = s.reread.nearest :=
    Node.bare_eq_self fun m hm => (htree.everywhere m hm).legible.1
  refine ⟨_, r, by rw [h.javaText_eq rfl, hls]; rfl, hr, hbare.trans hself, ?_⟩
  rw [hbare, hself, nearest_eq_self_iff, elseClosed_reread_iff]

def callStmt (x : String) : Node := .plain (.exprStmt (.plain (.methodCall x none [])))

theorem parse_javaText_dangling :
    let s : Node := .plain (.ifElse (.plain (.ident "a"))
      (.plain (.ifElse (.plain (.ident "b")) (callStmt "f") none)) (some (callStmt "g")))
    StmtTree (fun _ s => Performed s) false s ∧ (s.Everywhere fun _ s => ElseKept s) ∧
      ∃ text r, javaText s = .ok text ∧ parse .statement text = .ok r ∧
        r.bare = s.reread.nearest ∧
        (r.bare = s.reread ↔ s.Everywhere fun _ s => ElseKept s) := by
  have hcall : ∀ {x : String}, Token.IsName x →
      StmtTree (fun _ s => Performed s) false (callStmt x) := fun hx =>
    .exprStmt (.call (.inl hx) nofun ⟨trivial, trivial, trivial⟩) ⟨trivial, trivial, rfl⟩
  intro s
  have htree : StmtTree (fun _ s => Performed s) false s :=
    .ifElse (.ident (by decide) ⟨trivial, trivial, trivial⟩)
      (.ifElse (.ident (by decide) ⟨trivial, trivial, trivial⟩) (hcall (by decide)) nofun
        ⟨trivial, trivial, trivial⟩)
      (by simpa using hcall (by decide)) ⟨trivial, trivial, trivial⟩
  exact ⟨htree, by decide, parse_javaText_statement htree⟩

/-- The `else` of a conditional around a loop goes to the conditional in the loop. -/
theorem else_taken_in_loop :
    let s : Node := .plain (.ifElse (.plain (.ident "a"))
      (.plain (.whileLoop (.plain (.ident "b"))
        (.plain (.ifElse (.plain (.ident "c")) (callStmt "x") none)))) (some (callStmt "y")))
    ∃ text r c a, javaText s = .ok text ∧ parse .statement text = .ok r ∧
      r.shape = .ifElse c a none ∧ r.bare ≠ s.reread := by
  intro s
  have htext : javaText s =
      .ok "if (a)\n    while (b)\n        if (c)\n            x();\nelse\n    y();" :=
    eq_ok_of_toOption (by decide +kernel)
  have hread : ((parse .statement
      "if (a)\n    while (b)\n        if (c)\n            x();\nelse\n    y();").toOption.any fun r =>
        isIf r && r.shape.children.length == 2) = true := by
    decide +kernel
  obtain ⟨⟨t, shape⟩, hparse, hread⟩ := (Option.any_eq_true _ _).mp hread
  obtain ⟨hif, hlength⟩ := Bool.and_eq_true_iff.mp hread
  cases shape with
  | ifElse c a o =>
    cases o with
    | some b => cases hlength
    | none =>
      refine ⟨_, _, c, a, htext, eq_ok_of_toOption hparse, rfl, fun hbare => ?_⟩
      have hshape := congrArg Node.shape hbare
      rw [Node.bare_mk, show s = .mk _ _ from rfl, Node.reread_mk] at hshape
      simp [Node.plain, Shape.map, Shape.mapAt, fitted] at hshape
  | _ => cases hif

end LoopLowering
