import LoopLowering.Proofs.Layout.Statement
import LoopLowering.Proofs.Loops.Syntax

/-! The tree that the text of a unit stands for is again the tree of a unit. Each of its nodes is read
as what it is, with the parentheses and braces that the text has. -/

namespace LoopLowering

open Layout Grammar

/-- The word for no value has no brackets. -/
def VoidBare : Shape Node → Prop
  | .methodDecl _ _ _ ty _ _ _ => isVoid ty = true → ty.dims = 0
  | _ => True

def resultOf : Shape Node → Option Node
  | .methodDecl _ _ _ ty _ _ _ => some ty
  | _ => none

lemma voidBare_iff (s : Shape Node) :
    VoidBare s ↔ (resultOf s).all (fun ty => !isVoid ty || decide (ty.dims = 0)) = true := by
  cases s <;> simp [VoidBare, resultOf, Decidable.imp_iff_not_or]

instance : DecidablePred VoidBare := fun s => decidable_of_iff' _ (voidBare_iff s)

def Separate : Shape Node → Prop
  | .exprStmt e => ¬ Declares (e.items.map Item.face)
  | .ifElse _ a (some _) => a.endsOpen = false
  | .forLoop init _ _ _ => ∀ e ∈ init, e.shape.isDeclaration = false → isStatementExpr e = true
  | _ => True

structure Readable (t : Tag) (s : Shape Node) : Prop where
  legible : Legible t s
  separate : Separate s
  voidBare : VoidBare s

lemma endsOpen_reread (s : Node) : s.reread.endsOpen = s.endsOpen := by
  induction s using Node.children_induction with
  | h t s ih =>
    rw [Node.reread_mk, Node.plain, endsOpen_mk, endsOpen_mk]
    cases s with
    | whileLoop c b => exact ih b (by simp [Shape.children, Shape.parts, Part.toList])
    | forLoop init c update b => exact ih b (by simp [Shape.children, Shape.parts, Part.toList])
    | forEach v e b => exact ih b (by simp [Shape.children, Shape.parts, Part.toList])
    | labeled l b => exact ih b (by simp [Shape.children, Shape.parts, Part.toList])
    | ifElse c a o =>
      cases o with
      | none => rfl
      | some b => exact ih b (by simp [Shape.children, Shape.parts, Part.toList])
    | unary op after e => cases after <;> rfl
    | methodCall x e as => cases e <;> rfl
    | _ => rfl

lemma isDeclaration_reread (n : Node) : n.reread.shape.isDeclaration = n.shape.isDeclaration := by
  obtain ⟨t, s⟩ := n
  rw [Node.reread_mk]
  cases s with
  | unary op after e => cases after <;> rfl
  | methodCall x e as => cases e <;> rfl
  | _ => rfl

lemma isVoid_reread (n : Node) : isVoid n.reread = isVoid n := by
  obtain ⟨t, s⟩ := n
  rw [Node.reread_mk]
  cases s with
  | unary op after e => cases after <;> rfl
  | methodCall x e as => cases e <;> rfl
  | typeRef x d as => cases as <;> rfl
  | _ => rfl

lemma isClass_reread (n : Node) : isClass n.reread = isClass n := by
  obtain ⟨t, s⟩ := n
  rw [Node.reread_mk]
  cases s with
  | unary op after e => cases after <;> rfl
  | methodCall x e as => cases e <;> rfl
  | _ => rfl

def Enclosed (c d : Node) : Prop := c = d ∨ c = .plain (.parens d) ∨ c = .plain (.block [d])

lemma enclosed_bracketed (least : Nat) (d : Node) : Enclosed (bracketed least d) d := by
  rw [bracketed]
  split
  · exact .inr (.inl rfl)
  · exact .inl rfl

lemma mem_children_fitted {s : Shape Node} {c : Node} (h : c ∈ (fitted s).children) :
    ∃ d ∈ s.children, Enclosed c d := by
  have hput := enclosed_bracketed
  have hself : Enclosed c c := .inl rfl
  cases s with
  | fieldAccess | arrayAccess | assign | binary | conditional | cast | instanceOf =>
    simp only [fitted, Shape.children, Shape.parts, Part.toList, List.flatMap_cons,
      List.flatMap_nil, List.append_nil, List.singleton_append, List.mem_cons, List.not_mem_nil,
      or_false] at h ⊢
    grind
  | methodCall x o as =>
    cases o with
    | none => exact ⟨c, h, hself⟩
    | some e =>
      simp only [fitted, Shape.children, Shape.parts, Part.toList, List.flatMap_cons,
        List.flatMap_nil, List.append_nil, Option.toList_some, List.singleton_append,
        List.mem_cons] at h ⊢
      grind
  | unary op after e =>
    obtain rfl : c = bracketed (if after then Precedence.counted else Precedence.unary) e := by
      cases after <;> simpa [fitted, Shape.children, Shape.parts, Part.toList] using h
    exact ⟨e, by simp [Shape.children, Shape.parts, Part.toList], hput _ e⟩
  | ifElse a b o =>
    have hblock : Enclosed (if needsBraces b o then .plain (.block [b]) else b) b := by
      split
      · exact .inr (.inr rfl)
      · exact .inl rfl
    simp only [fitted, Shape.children, Shape.parts, Part.toList, List.flatMap_cons,
      List.flatMap_nil, List.append_nil, List.singleton_append, List.mem_cons] at h ⊢
    grind
  | _ => exact ⟨c, h, hself⟩

lemma everywhere_reread {P Q : Shape Node → Prop} (hPQ : ∀ s, P s → Q (fitted (s.map Node.reread)))
    (hparens : ∀ e, Q (.parens e)) (hblock : ∀ ss, Q (.block ss)) {n : Node}
    (h : n.Everywhere fun _ s => P s) : n.reread.Everywhere fun _ s => Q s := by
  induction n using Node.children_induction with
  | h t s ih =>
    obtain ⟨here, hchildren⟩ := Node.everywhere_mk.mp h
    rw [Node.reread_mk]
    refine Node.everywhere_mk.mpr ⟨hPQ s here, fun c hc => ?_⟩
    obtain ⟨d, hmem, heq⟩ := mem_children_fitted hc
    rw [Shape.children_map] at hmem
    obtain ⟨e, he, rfl⟩ := List.mem_map.mp hmem
    have hsep := ih e he (hchildren e he)
    rcases heq with rfl | rfl | rfl
    · exact hsep
    · refine Node.everywhere_mk.mpr ⟨hparens _, ?_⟩
      simpa [Shape.children, Shape.parts, Part.toList] using hsep
    · refine Node.everywhere_mk.mpr ⟨hblock _, ?_⟩
      simpa [Shape.children, Shape.parts, Part.toList] using hsep

lemma separate_reread {s : Shape Node} (hstated : Stated s) (hhead : HeadStated s) :
    Separate (fitted (s.map Node.reread)) := by
  cases s with
  | exprStmt e => exact hstated
  | forLoop init cond update b =>
    simp only [Shape.map, Shape.mapAt, mapIdx_const, fitted, Separate]
    intro e he hdecl
    obtain ⟨d, hd, rfl⟩ := List.mem_map.mp he
    rw [isDeclaration_reread] at hdecl
    rw [isStatementExpr_reread]
    exact hhead d (List.mem_append_left _ hd) hdecl
  | ifElse c a o =>
    cases o with
    | none => trivial
    | some b =>
      show Node.endsOpen (if _ then _ else _) = false
      split
      · rfl
      · exact (endsOpen_reread a).trans hstated
  | unary op after e => cases after <;> trivial
  | methodCall x e as => cases e <;> trivial
  | _ => trivial

lemma voidBare_reread {s : Shape Node} (h : VoidBare s) : VoidBare (fitted (s.map Node.reread)) := by
  cases s with
  | methodDecl mods tps x ty ps ths o =>
    intro hvoid
    exact (sameHead_reread ty).dims.trans (h (isVoid_reread ty ▸ hvoid))
  | unary op after e => cases after <;> trivial
  | methodCall x e as => cases e <;> trivial
  | _ => trivial

section

variable {n : Node}

lemma forall_option_reread {Q : Node → Prop} {o : Option Node} (h : ∀ n ∈ o, Q n.reread) :
    ∀ n ∈ o.map Node.reread, Q n := by
  intro n hn
  obtain ⟨m, hm, rfl⟩ := Option.map_eq_some_iff.mp hn
  exact h m hm

lemma DeclaratorTree.reread (h : DeclaratorTree (fun _ s => Clear s) n) :
    DeclaratorTree Legible n.reread := by
  obtain ⟨name, init, -⟩ := h
  simp only [Node.reread_mk, Shape.map, Shape.mapAt, fitted]
  exact .mk name (forall_option_reread fun e he => (init e he).reread) ⟨rfl, trivial, trivial⟩

lemma LocalVarTree.reread (h : LocalVarTree (fun _ s => Clear s) n) :
    LocalVarTree Legible n.reread := by
  obtain ⟨modifiers, type, nonempty, declarators, -⟩ := h
  simp only [Node.reread_mk, Shape.map, Shape.mapAt, mapIdx_const, fitted]
  exact .mk modifiers type.reread (by simpa using nonempty)
    (forall_map_reread fun d hd => (declarators d hd).reread) ⟨rfl, trivial, trivial⟩

lemma ElementTree.reread (h : ElementTree (fun _ s => Clear s) n) :
    ElementTree Legible n.reread := by
  obtain ⟨modifiers, type, name, -, -⟩ := h
  exact .mk modifiers type.reread name ⟨rfl, trivial, trivial⟩ ⟨rfl, trivial, trivial⟩

lemma ForInit.reread {init : List Node} (h : ForInit (fun _ s => Clear s) init) :
    ForInit Legible (init.map Node.reread) := by
  obtain ⟨d, rfl, hd⟩ | h := h
  · exact .inl ⟨d.reread, rfl, hd.reread⟩
  · exact .inr (forall_map_reread fun e he => (h e he).reread)

lemma StmtTree.reread {handler : Bool} (h : StmtTree (fun _ s => Clear s) handler n) :
    StmtTree Legible handler n.reread := by
  induction h with
  | block _ _ ih =>
    simp only [Node.reread_mk, Shape.map, Shape.mapAt, mapIdx_const, fitted]
    exact .block (forall_map_reread ih) ⟨rfl, trivial, trivial⟩
  | localVar declaration => exact .localVar declaration.reread
  | exprStmt expr _ => exact .exprStmt expr.reread ⟨rfl, trivial, trivial⟩
  | @ifElse t c a o cond _ _ _ iha iho =>
    have hreread : (Node.mk t (.ifElse c a o)).reread = .plain (.ifElse c.reread
        (if needsBraces a.reread (o.map Node.reread) then .plain (.block [a.reread]) else a.reread)
        (o.map Node.reread)) := Node.reread_mk t _
    rw [hreread]
    refine .ifElse cond.reread ?_ (forall_option_reread iho) ⟨rfl, trivial, trivial⟩
    split
    · exact .block (by simpa using iha) ⟨rfl, trivial, trivial⟩
    · exact iha
  | whileLoop cond _ _ ih => exact .whileLoop cond.reread ih ⟨rfl, trivial, trivial⟩
  | doWhile _ cond _ ih => exact .doWhile ih cond.reread ⟨rfl, trivial, trivial⟩
  | forLoop start cond updates _ _ ih =>
    simp only [Node.reread_mk, Shape.map, Shape.mapAt, mapIdx_const, fitted]
    exact .forLoop start.reread (forall_option_reread fun e he => (cond e he).reread)
      (forall_map_reread fun e he => (updates e he).reread) ih ⟨rfl, trivial, trivial⟩
  | forEach var iterable _ _ ih => exact .forEach var.reread iterable.reread ih ⟨rfl, trivial, trivial⟩
  | returnStmt value _ =>
    simp only [Node.reread_mk, Shape.map, Shape.mapAt, fitted]
    exact .returnStmt (forall_option_reread fun e he => (value e he).reread) ⟨rfl, trivial, trivial⟩
  | breakStmt label _ => exact .breakStmt label ⟨rfl, trivial, trivial⟩
  | continueStmt label _ => exact .continueStmt label ⟨rfl, trivial, trivial⟩
  | throwStmt expr _ => exact .throwStmt expr.reread ⟨rfl, trivial, trivial⟩
  | @tryStmt t b cs f _ block _ _ blocks handled _ ihb ihc ihf =>
    simp only [Node.reread_mk, Shape.map, Shape.mapAt, mapIdx_const, fitted]
    exact .tryStmt ihb ((isBlock_reread b).trans block) (forall_map_reread ihc)
      (forall_option_reread ihf)
      (forall_option_reread fun b hb => (isBlock_reread b).trans (blocks b hb)) (by simpa using handled)
      ⟨rfl, trivial, trivial⟩
  | @catchClause t mods x tys b modifiers name nonempty types _ block _ ih =>
    simp only [Node.reread_mk, Shape.map, Shape.mapAt, mapIdx_const, fitted]
    exact .catchClause modifiers name (by simpa using nonempty)
      (forall_map_reread fun ty hty => (types ty hty).reread) ih ((isBlock_reread b).trans block)
      ⟨rfl, trivial, trivial⟩
  | labeled label _ _ ih => exact .labeled label ih ⟨rfl, trivial, trivial⟩
  | emptyStmt _ => exact .emptyStmt ⟨rfl, trivial, trivial⟩

lemma ParamTree.reread (h : ParamTree (fun _ s => Clear s) n) : ParamTree Legible n.reread := by
  obtain ⟨modifiers, name, type, -⟩ := h
  exact .mk modifiers name type.reread ⟨rfl, trivial, trivial⟩

lemma ResultTree.reread (h : ResultTree (fun _ s => Clear s) n) : ResultTree Legible n.reread := by
  cases h with
  | value type => exact .value type.reread
  | void _ => exact .void ⟨rfl, trivial, trivial⟩

lemma MemberTree.reread {c : String} (h : MemberTree (fun _ s => Clear s) c n) :
    MemberTree Legible c n.reread := by
  induction h with
  | @fieldDecl c t mods ty ds modifiers type bare nonempty declarators _ =>
    simp only [Node.reread_mk, Shape.map, Shape.mapAt, mapIdx_const, fitted]
    refine .fieldDecl modifiers type.reread (fun h => ?_) (by simpa using nonempty)
      (forall_map_reread fun d hd => (declarators d hd).reread) ⟨rfl, trivial, trivial⟩
    exact (sameHead_reread ty).dims.trans (bare (isVoid_reread ty ▸ h))
  | methodDecl modifiers typeParams name type params throws body blocks _ =>
    simp only [Node.reread_mk, Shape.map, Shape.mapAt, mapIdx_const, fitted]
    exact .methodDecl modifiers typeParams name type.reread
      (forall_map_reread fun p hp => (params p hp).reread)
      (forall_map_reread fun ty hty => (throws ty hty).reread)
      (forall_option_reread fun b hb => (body b hb).reread)
      (forall_option_reread fun b hb => (isBlock_reread b).trans (blocks b hb)) ⟨rfl, trivial, trivial⟩
  | @constructorDecl t mods x ps ths b modifiers name params throws body block _ =>
    simp only [Node.reread_mk, Shape.map, Shape.mapAt, mapIdx_const, fitted]
    exact .constructorDecl modifiers name (forall_map_reread fun p hp => (params p hp).reread)
      (forall_map_reread fun ty hty => (throws ty hty).reread) body.reread
      ((isBlock_reread b).trans block) ⟨rfl, trivial, trivial⟩
  | @initBlock c t isStatic b body block _ =>
    exact .initBlock body.reread ((isBlock_reread b).trans block) ⟨rfl, trivial, trivial⟩
  | classDecl modifiers keyword name typeParams extended implemented _ _ ih =>
    simp only [Node.reread_mk, Shape.map, Shape.mapAt, mapIdx_const, fitted]
    exact .classDecl modifiers keyword name typeParams
      (forall_map_reread fun ty hty => (extended ty hty).reread)
      (forall_map_reread fun ty hty => (implemented ty hty).reread) (forall_map_reread ih)
      ⟨rfl, trivial, trivial⟩

lemma UnitTree.reread (h : UnitTree (fun _ s => Clear s) n) : UnitTree Legible n.reread := by
  obtain ⟨package, imports, types, classes, -⟩ := h
  simp only [Node.reread_mk, Shape.map, Shape.mapAt, mapIdx_const, fitted]
  refine .mk package (forall_map_reread fun i hi => ?_)
    (forall_map_reread fun d hd => (types d hd).reread)
    (forall_map_reread fun d hd => (isClass_reread d).trans (classes d hd)) ⟨rfl, trivial, trivial⟩
  obtain ⟨name, -⟩ := imports i hi
  exact .mk name ⟨rfl, trivial, trivial⟩

theorem UnitTree.readable (h : UnitTree Lasting n) (hvoid : n.Everywhere fun _ s => VoidBare s) :
    UnitTree Readable n.reread := by
  have hreread := (h.mono fun _ _ here => here.sound.clear : UnitTree (fun _ s => Clear s) n).reread
  have hseparate : n.reread.Everywhere fun _ s => Separate s :=
    everywhere_reread (P := fun s => Stated s ∧ HeadStated s)
      (fun _ here => separate_reread here.1 here.2) (fun _ => trivial) (fun _ => trivial)
      fun m hm => ⟨(h.everywhere m hm).sound.stated, (h.everywhere m hm).head⟩
  have hbare : n.reread.Everywhere fun _ s => VoidBare s :=
    everywhere_reread (fun _ => voidBare_reread) (fun _ => trivial) (fun _ => trivial) hvoid
  exact hreread.mono fun m hm here => ⟨here, hseparate m hm, hbare m hm⟩

end

end LoopLowering
