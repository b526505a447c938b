import LoopLowering.Proofs.Syntax.Statement

/-! A condition on single nodes that the trees demand holds of every node, and a tree stays one
under a condition that its nodes satisfy. -/

namespace LoopLowering

variable {P Q : Tag → Shape Node → Prop}

/-- A condition on every node of a tree. -/
def Node.Everywhere (P : Tag → Shape Node → Prop) (n : Node) : Prop :=
  ∀ m ∈ n.nodes, P m.tag m.shape

instance Node.decidableEverywhere [∀ t s, Decidable (P t s)] (n : Node) :
    Decidable (n.Everywhere P) :=
  inferInstanceAs (Decidable (∀ m ∈ n.nodes, P m.tag m.shape))

lemma Node.everywhere_mk {t : Tag} {s : Shape Node} :
    (Node.mk t s).Everywhere P ↔ P t s ∧ ∀ c ∈ s.children, c.Everywhere P :=
  Node.forall_nodes_mk

section

variable {w v handler : Bool} {c : String} {n : Node}

lemma TypeTree.everywhere (h : TypeTree P w n) : n.Everywhere P := by
  induction h <;> refine Node.everywhere_mk.mpr ⟨by assumption, ?_⟩ <;>
    simp_all [Shape.children, Shape.parts, Part.toList]

lemma ExprTree.everywhere (h : ExprTree P v n) : n.Everywhere P := by
  induction h <;> refine Node.everywhere_mk.mpr ⟨by assumption, ?_⟩ <;>
    simp_all [Shape.children, Shape.parts, Part.toList, or_imp]
  all_goals exact TypeTree.everywhere (by assumption)

lemma DeclaratorTree.everywhere (h : DeclaratorTree P n) : n.Everywhere P := by
  obtain ⟨-, init, here⟩ := h
  refine Node.everywhere_mk.mpr ⟨here, ?_⟩
  simpa [Shape.children, Shape.parts, Part.toList] using fun e he => (init e he).everywhere

lemma LocalVarTree.everywhere (h : LocalVarTree P n) : n.Everywhere P := by
  obtain ⟨-, type, -, declarators, here⟩ := h
  refine Node.everywhere_mk.mpr ⟨here, ?_⟩
  simpa [Shape.children, Shape.parts, Part.toList, type.everywhere] using
    fun d hd => (declarators d hd).everywhere

lemma ElementTree.everywhere (h : ElementTree P n) : n.Everywhere P := by
  obtain ⟨-, type, -, inner, here⟩ := h
  refine Node.everywhere_mk.mpr ⟨here, ?_⟩
  have : (Node.mk _ _).Everywhere P := Node.everywhere_mk.mpr ⟨inner, by
    simp [Shape.children, Shape.parts, Part.toList]⟩
  simpa [Shape.children, Shape.parts, Part.toList, type.everywhere] using this

lemma ForInit.everywhere {init : List Node} (h : ForInit P init) : ∀ e ∈ init, e.Everywhere P := by
  obtain ⟨d, rfl, hd⟩ | h := h
  · simpa using hd.everywhere
  · exact fun e he => (h e he).everywhere

lemma StmtTree.everywhere (h : StmtTree P handler n) : n.Everywhere P := by
  have hexprs : ∀ {v : Bool} {ns : List Node}, (∀ e ∈ ns, ExprTree P v e) →
      ∀ e ∈ ns, e.Everywhere P := fun h e he => (h e he).everywhere
  have hexpr? : ∀ {v : Bool} {o : Option Node}, (∀ e ∈ o, ExprTree P v e) →
      ∀ e ∈ o, e.Everywhere P := fun h e he => (h e he).everywhere
  induction h with
  | localVar declaration => exact declaration.everywhere
  | block statements here ih =>
    exact Node.everywhere_mk.mpr ⟨here, by simpa [Shape.children, Shape.parts, Part.toList]⟩
  | exprStmt expr here =>
    refine Node.everywhere_mk.mpr ⟨here, ?_⟩
    simpa [Shape.children, Shape.parts, Part.toList] using expr.everywhere
  | ifElse cond _ _ here iha ihb =>
    refine Node.everywhere_mk.mpr ⟨here, ?_⟩
    simpa [Shape.children, Shape.parts, Part.toList, cond.everywhere, iha] using ihb
  | whileLoop cond _ here ih =>
    refine Node.everywhere_mk.mpr ⟨here, ?_⟩
    simpa [Shape.children, Shape.parts, Part.toList, cond.everywhere] using ih
  | doWhile _ cond here ih =>
    refine Node.everywhere_mk.mpr ⟨here, ?_⟩
    simpa [Shape.children, Shape.parts, Part.toList, ih] using cond.everywhere
  | forLoop start cond updates _ here ih =>
    refine Node.everywhere_mk.mpr ⟨here, ?_⟩
    have := start.everywhere
    have := hexpr? cond
    have := hexprs updates
    simp_all [Shape.children, Shape.parts, Part.toList, or_imp]
  | forEach var iterable _ here ih =>
    refine Node.everywhere_mk.mpr ⟨here, ?_⟩
    simpa [Shape.children, Shape.parts, Part.toList, var.everywhere, iterable.everywhere] using ih
  | returnStmt value here =>
    refine Node.everywhere_mk.mpr ⟨here, ?_⟩
    simpa [Shape.children, Shape.parts, Part.toList] using hexpr? value
  | breakStmt _ here | continueStmt _ here | emptyStmt here =>
    exact Node.everywhere_mk.mpr ⟨here, by simp [Shape.children, Shape.parts, Part.toList]⟩
  | throwStmt expr here =>
    refine Node.everywhere_mk.mpr ⟨here, ?_⟩
    simpa [Shape.children, Shape.parts, Part.toList] using expr.everywhere
  | tryStmt _ _ _ _ _ _ here ihb ihc ihf =>
    refine Node.everywhere_mk.mpr ⟨here, ?_⟩
    simp_all [Shape.children, Shape.parts, Part.toList, or_imp]
  | catchClause _ _ _ types _ _ here ih =>
    refine Node.everywhere_mk.mpr ⟨here, ?_⟩
    have := fun ty hty => (types ty hty).everywhere
    simp_all [Shape.children, Shape.parts, Part.toList, or_imp]
  | labeled _ _ here ih =>
    exact Node.everywhere_mk.mpr ⟨here, by simpa [Shape.children, Shape.parts, Part.toList]⟩

lemma ParamTree.everywhere (h : ParamTree P n) : n.Everywhere P := by
  obtain ⟨-, -, type, here⟩ := h
  refine Node.everywhere_mk.mpr ⟨here, ?_⟩
  simpa [Shape.children, Shape.parts, Part.toList] using type.everywhere

lemma ResultTree.everywhere (h : ResultTree P n) : n.Everywhere P := by
  cases h with
  | value type => exact type.everywhere
  | void here =>
    exact Node.everywhere_mk.mpr ⟨here, by simp [Shape.children, Shape.parts, Part.toList]⟩

lemma MemberTree.everywhere (h : MemberTree P c n) : n.Everywhere P := by
  induction h with
  | fieldDecl _ type _ _ declarators here =>
    refine Node.everywhere_mk.mpr ⟨here, ?_⟩
    simpa [Shape.children, Shape.parts, Part.toList, type.everywhere] using
      fun d hd => (declarators d hd).everywhere
  | methodDecl _ _ _ type params throws body _ here =>
    refine Node.everywhere_mk.mpr ⟨here, ?_⟩
    have := type.everywhere
    have := fun p hp => (params p hp).everywhere
    have := fun ty hty => (throws ty hty).everywhere
    have := fun b hb => (body b hb).everywhere
    simp_all [Shape.children, Shape.parts, Part.toList, or_imp]
  | constructorDecl _ _ params throws body _ here =>
    refine Node.everywhere_mk.mpr ⟨here, ?_⟩
    have := fun p hp => (params p hp).everywhere
    have := fun ty hty => (throws ty hty).everywhere
    have := body.everywhere
    simp_all [Shape.children, Shape.parts, Part.toList, or_imp]
  | initBlock body _ here =>
    refine Node.everywhere_mk.mpr ⟨here, ?_⟩
    simpa [Shape.children, Shape.parts, Part.toList] using body.everywhere
  | classDecl _ _ _ _ extended implemented _ here ih =>
    refine Node.everywhere_mk.mpr ⟨here, ?_⟩
    have := fun ty hty => (extended ty hty).everywhere
    have := fun ty hty => (implemented ty hty).everywhere
    simp_all [Shape.children, Shape.parts, Part.toList, or_imp]

lemma ImportTree.everywhere (h : ImportTree P n) : n.Everywhere P := by
  obtain ⟨-, here⟩ := h
  exact Node.everywhere_mk.mpr ⟨here, by simp [Shape.children, Shape.parts]⟩

lemma UnitTree.everywhere (h : UnitTree P n) : n.Everywhere P := by
  obtain ⟨-, imports, types, -, here⟩ := h
  refine Node.everywhere_mk.mpr ⟨here, ?_⟩
  have := fun i hi => (imports i hi).everywhere
  have := fun d hd => (types d hd).everywhere
  simp_all [Shape.children, Shape.parts, Part.toList, or_imp]

end

section

variable {handler : Bool} {c : String} {n : Node}

lemma DeclaratorTree.mono (h : DeclaratorTree P n)
    (hPQ : ∀ m ∈ n.nodes, P m.tag m.shape → Q m.tag m.shape) : DeclaratorTree Q n := by
  obtain ⟨name, init, here⟩ := h
  obtain ⟨hQ, hc⟩ := Node.forall_nodes_mk.mp hPQ
  exact .mk name (fun e he => (init e he).mono (hc e (by
    simpa [Shape.children, Shape.parts, Part.toList] using he))) (hQ here)

lemma LocalVarTree.mono (h : LocalVarTree P n)
    (hPQ : ∀ m ∈ n.nodes, P m.tag m.shape → Q m.tag m.shape) : LocalVarTree Q n := by
  obtain ⟨modifiers, type, nonempty, declarators, here⟩ := h
  obtain ⟨hQ, hc⟩ := Node.forall_nodes_mk.mp hPQ
  simp only [Shape.children, Shape.parts, Part.toList, List.flatMap_cons, List.flatMap_nil,
    List.append_nil, List.forall_mem_append, List.forall_mem_singleton] at hc
  exact .mk modifiers (type.mono hc.1) nonempty (fun d hd => (declarators d hd).mono (hc.2 d hd))
    (hQ here)

lemma ElementTree.mono (h : ElementTree P n)
    (hPQ : ∀ m ∈ n.nodes, P m.tag m.shape → Q m.tag m.shape) : ElementTree Q n := by
  obtain ⟨modifiers, type, name, inner, here⟩ := h
  obtain ⟨hQ, hc⟩ := Node.forall_nodes_mk.mp hPQ
  simp only [Shape.children, Shape.parts, Part.toList, List.flatMap_cons, List.flatMap_nil,
    List.append_nil, List.forall_mem_append, List.forall_mem_singleton] at hc
  exact .mk modifiers (type.mono hc.1) name ((Node.forall_nodes_mk.mp hc.2).1 inner) (hQ here)

lemma ForInit.mono {init : List Node} (h : ForInit P init)
    (hPQ : ∀ e ∈ init, ∀ m ∈ e.nodes, P m.tag m.shape → Q m.tag m.shape) : ForInit Q init := by
  obtain ⟨d, rfl, hd⟩ | h := h
  · exact .inl ⟨d, rfl, hd.mono (hPQ d List.mem_cons_self)⟩
  · exact .inr fun e he => (h e he).mono (hPQ e he)

lemma StmtTree.mono (h : StmtTree P handler n)
    (hPQ : ∀ m ∈ n.nodes, P m.tag m.shape → Q m.tag m.shape) : StmtTree Q handler n := by
  induction h with
  | localVar declaration => exact .localVar (declaration.mono hPQ)
  | block _ here ih =>
    obtain ⟨hQ, hc⟩ := Node.forall_nodes_mk.mp hPQ
    simp only [Shape.children, Shape.parts, Part.toList, List.flatMap_cons, List.flatMap_nil,
      List.append_nil] at hc
    exact .block (fun s hs => ih s hs (hc s hs)) (hQ here)
  | exprStmt expr here =>
    obtain ⟨hQ, hc⟩ := Node.forall_nodes_mk.mp hPQ
    exact .exprStmt (expr.mono (hc _ List.mem_cons_self)) (hQ here)
  | ifElse cond _ _ here iha ihb =>
    obtain ⟨hQ, hc⟩ := Node.forall_nodes_mk.mp hPQ
    simp only [Shape.children, Shape.parts, Part.toList, List.flatMap_cons, List.flatMap_nil,
      List.append_nil, List.forall_mem_append, List.forall_mem_singleton, Option.mem_toList] at hc
    exact .ifElse (cond.mono hc.1) (iha hc.2.1) (fun b hb => ihb b hb (hc.2.2 b hb)) (hQ here)
  | whileLoop cond _ here ih =>
    obtain ⟨hQ, hc⟩ := Node.forall_nodes_mk.mp hPQ
    simp only [Shape.children, Shape.parts, Part.toList, List.flatMap_cons, List.flatMap_nil,
      List.append_nil, List.forall_mem_append, List.forall_mem_singleton] at hc
    exact .whileLoop (cond.mono hc.1) (ih hc.2) (hQ here)
  | doWhile _ cond here ih =>
    obtain ⟨hQ, hc⟩ := Node.forall_nodes_mk.mp hPQ
    simp only [Shape.children, Shape.parts, Part.toList, List.flatMap_cons, List.flatMap_nil,
      List.append_nil, List.forall_mem_append, List.forall_mem_singleton] at hc
    exact .doWhile (ih hc.1) (cond.mono hc.2) (hQ here)
  | forLoop start cond updates _ here ih =>
    obtain ⟨hQ, hc⟩ := Node.forall_nodes_mk.mp hPQ
    simp only [Shape.children, Shape.parts, Part.toList, List.flatMap_cons, List.flatMap_nil,
      List.append_nil, List.forall_mem_append, List.forall_mem_singleton, Option.mem_toList] at hc
    obtain ⟨hinit, hcond, hupdate, hbody⟩ := hc
    exact .forLoop (start.mono hinit) (fun e he => (cond e he).mono (hcond e he))
      (fun e he => (updates e he).mono (hupdate e he)) (ih hbody) (hQ here)
  | forEach var iterable _ here ih =>
    obtain ⟨hQ, hc⟩ := Node.forall_nodes_mk.mp hPQ
    simp only [Shape.children, Shape.parts, Part.toList, List.flatMap_cons, List.flatMap_nil,
      List.append_nil, List.forall_mem_append, List.forall_mem_singleton] at hc
    exact .forEach (var.mono hc.1) (iterable.mono hc.2.1) (ih hc.2.2) (hQ here)
  | returnStmt value here =>
    obtain ⟨hQ, hc⟩ := Node.forall_nodes_mk.mp hPQ
    simp only [Shape.children, Shape.parts, Part.toList, List.flatMap_cons, List.flatMap_nil,
      List.append_nil, Option.mem_toList] at hc
    exact .returnStmt (fun e he => (value e he).mono (hc e he)) (hQ here)
  | breakStmt label here => exact .breakStmt label ((Node.forall_nodes_mk.mp hPQ).1 here)
  | continueStmt label here => exact .continueStmt label ((Node.forall_nodes_mk.mp hPQ).1 here)
  | emptyStmt here => exact .emptyStmt ((Node.forall_nodes_mk.mp hPQ).1 here)
  | throwStmt expr here =>
    obtain ⟨hQ, hc⟩ := Node.forall_nodes_mk.mp hPQ
    exact .throwStmt (expr.mono (hc _ List.mem_cons_self)) (hQ here)
  | tryStmt _ block _ _ blocks handled here ihb ihc ihf =>
    obtain ⟨hQ, hc⟩ := Node.forall_nodes_mk.mp hPQ
    simp only [Shape.children, Shape.parts, Part.toList, List.flatMap_cons, List.flatMap_nil,
      List.append_nil, List.forall_mem_append, List.forall_mem_singleton, Option.mem_toList] at hc
    exact .tryStmt (ihb hc.1) block (fun c hmem => ihc c hmem (hc.2.1 c hmem))
      (fun b hb => ihf b hb (hc.2.2 b hb)) blocks handled (hQ here)
  | catchClause modifiers name nonempty types _ block here ih =>
    obtain ⟨hQ, hc⟩ := Node.forall_nodes_mk.mp hPQ
    simp only [Shape.children, Shape.parts, Part.toList, List.flatMap_cons, List.flatMap_nil,
      List.append_nil, List.forall_mem_append, List.forall_mem_singleton] at hc
    exact .catchClause modifiers name nonempty (fun ty hty => (types ty hty).mono (hc.1 ty hty))
      (ih hc.2) block (hQ here)
  | labeled label _ here ih =>
    obtain ⟨hQ, hc⟩ := Node.forall_nodes_mk.mp hPQ
    exact .labeled label (ih (hc _ List.mem_cons_self)) (hQ here)

lemma ParamTree.mono (h : ParamTree P n)
    (hPQ : ∀ m ∈ n.nodes, P m.tag m.shape → Q m.tag m.shape) : ParamTree Q n := by
  obtain ⟨modifiers, name, type, here⟩ := h
  obtain ⟨hQ, hc⟩ := Node.forall_nodes_mk.mp hPQ
  exact .mk modifiers name (type.mono (hc _ List.mem_cons_self)) (hQ here)

lemma ResultTree.mono (h : ResultTree P n)
    (hPQ : ∀ m ∈ n.nodes, P m.tag m.shape → Q m.tag m.shape) : ResultTree Q n := by
  cases h with
  | value type => exact .value (type.mono hPQ)
  | void here => exact .void ((Node.forall_nodes_mk.mp hPQ).1 here)

lemma MemberTree.mono (h : MemberTree P c n)
    (hPQ : ∀ m ∈ n.nodes, P m.tag m.shape → Q m.tag m.shape) : MemberTree Q c n := by
  induction h with
  | fieldDecl modifiers type bare nonempty declarators here =>
    obtain ⟨hQ, hc⟩ := Node.forall_nodes_mk.mp hPQ
    simp only [Shape.children, Shape.parts, Part.toList, List.flatMap_cons, List.flatMap_nil,
      List.append_nil, List.forall_mem_append, List.forall_mem_singleton] at hc
    exact .fieldDecl modifiers (type.mono hc.1) bare nonempty
      (fun d hd => (declarators d hd).mono (hc.2 d hd)) (hQ here)
  | methodDecl modifiers typeParams name type params throws body blocks here =>
    obtain ⟨hQ, hc⟩ := Node.forall_nodes_mk.mp hPQ
    simp only [Shape.children, Shape.parts, Part.toList, List.flatMap_cons, List.flatMap_nil,
      List.append_nil, List.forall_mem_append, List.forall_mem_singleton, Option.mem_toList] at hc
    obtain ⟨htype, hparams, hthrows, hbody⟩ := hc
    exact .methodDecl modifiers typeParams name (type.mono htype)
      (fun p hp => (params p hp).mono (hparams p hp))
      (fun ty hty => (throws ty hty).mono (hthrows ty hty))
      (fun b hb => (body b hb).mono (hbody b hb)) blocks (hQ here)
  | constructorDecl modifiers name params throws body block here =>
    obtain ⟨hQ, hc⟩ := Node.forall_nodes_mk.mp hPQ
    simp only [Shape.children, Shape.parts, Part.toList, List.flatMap_cons, List.flatMap_nil,
      List.append_nil, List.forall_mem_append, List.forall_mem_singleton] at hc
    obtain ⟨hparams, hthrows, hbody⟩ := hc
    exact .constructorDecl modifiers name (fun p hp => (params p hp).mono (hparams p hp))
      (fun ty hty => (throws ty hty).mono (hthrows ty hty)) (body.mono hbody) block (hQ here)
  | initBlock body block here =>
    obtain ⟨hQ, hc⟩ := Node.forall_nodes_mk.mp hPQ
    exact .initBlock (body.mono (hc _ List.mem_cons_self)) block (hQ here)
  | classDecl modifiers keyword name typeParams extended implemented _ here ih =>
    obtain ⟨hQ, hc⟩ := Node.forall_nodes_mk.mp hPQ
    simp only [Shape.children, Shape.parts, Part.toList, List.flatMap_cons, List.flatMap_nil,
      List.append_nil, List.forall_mem_append] at hc
    obtain ⟨hextended, himplemented, hmembers⟩ := hc
    exact .classDecl modifiers keyword name typeParams
      (fun ty hty => (extended ty hty).mono (hextended ty hty))
      (fun ty hty => (implemented ty hty).mono (himplemented ty hty))
      (fun m hm => ih m hm (hmembers m hm)) (hQ here)

lemma ImportTree.mono (h : ImportTree P n)
    (hPQ : ∀ m ∈ n.nodes, P m.tag m.shape → Q m.tag m.shape) : ImportTree Q n := by
  obtain ⟨name, here⟩ := h
  exact .mk name ((Node.forall_nodes_mk.mp hPQ).1 here)

lemma UnitTree.mono (h : UnitTree P n)
    (hPQ : ∀ m ∈ n.nodes, P m.tag m.shape → Q m.tag m.shape) : UnitTree Q n := by
  obtain ⟨package, imports, types, classes, here⟩ := h
  obtain ⟨hQ, hc⟩ := Node.forall_nodes_mk.mp hPQ
  simp only [Shape.children, Shape.parts, Part.toList, List.flatMap_cons, List.flatMap_nil,
    List.append_nil, List.forall_mem_append] at hc
  exact .mk package (fun i hi => (imports i hi).mono (hc.1 i hi))
    (fun d hd => (types d hd).mono (hc.2 d hd)) classes (hQ here)

end

end LoopLowering
