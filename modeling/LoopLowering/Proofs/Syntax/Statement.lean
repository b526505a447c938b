import LoopLowering.Grammar.Declaration
import LoopLowering.Layout.Statement
import LoopLowering.Proofs.Syntax.Expression

/-! The trees of statements, declarations and compilation units that a text can stand for. -/

namespace LoopLowering

/-- One of the given words, or the name of an annotation. -/
def IsModifier (words : List String) (w : Word) : Prop :=
  (∃ m ∈ words, w = .text m) ∨ ∃ x, IsQualified x ∧ w = .text ("@" ++ x)

def localModifierNames : List String := ["final"]

def modifierNames : List String :=
  ["public", "private", "protected", "static", "final", "abstract", "native", "synchronized",
    "transient", "volatile", "strictfp", "default"]

def typeParamSource (x : String) (bounds : List Node) : String :=
  if bounds.isEmpty then x
  else x ++ " extends " ++ " & ".intercalate (bounds.map Grammar.boundText)

def IsTypeParam (w : Word) : Prop :=
  ∃ x bounds, Token.IsName x ∧ (∀ b ∈ bounds, TypeTree (fun _ _ => True) false b) ∧
    w = .text (typeParamSource x bounds)

def isClass (n : Node) : Bool :=
  match n.shape with
  | .classDecl .. => true
  | _ => false

/-- Whether a type is that of a method without a value. -/
def isVoid (type : Node) : Bool :=
  match type.shape with
  | .typeRef x _ none => x = "void"
  | _ => false

variable (P : Tag → Shape Node → Prop)

section

variable {P}

lemma not_isVoid {ty : Node} (h : TypeTree P false ty) : ¬ isVoid ty = true := by
  have hname : ¬ IsQualified "void" := by
    intro h
    have key : "void".toList.splitOn '.' = ["void".toList] := by decide
    have hmem := h "void".toList (by rw [key]; exact List.mem_singleton_self _)
    rw [String.ofList_toList] at hmem
    exact hmem.2 (by decide)
  intro hvoid
  cases h with
  | primitive name here =>
    obtain rfl := of_decide_eq_true hvoid
    exact absurd name (by decide)
  | named name here =>
    obtain rfl := of_decide_eq_true hvoid
    exact hname name
  | generic name args here => cases hvoid

end

inductive DeclaratorTree : Node → Prop
  | mk {t : Tag} {x : String} {d : Nat} {o : Option Node} (name : Token.IsName x)
      (init : ∀ e ∈ o, ExprTree P true e) (here : P t (.declarator x d o)) :
      DeclaratorTree (.mk t (.declarator x d o))

inductive LocalVarTree : Node → Prop
  | mk {t : Tag} {mods : List Word} {ty : Node} {ds : List Node}
      (modifiers : ∀ w ∈ mods, IsModifier localModifierNames w) (type : TypeTree P false ty)
      (nonempty : ds ≠ []) (declarators : ∀ d ∈ ds, DeclaratorTree P d)
      (here : P t (.localVar mods ty ds)) : LocalVarTree (.mk t (.localVar mods ty ds))

inductive ElementTree : Node → Prop
  | mk {t u : Tag} {mods : List Word} {ty : Node} {x : String}
      (modifiers : ∀ w ∈ mods, IsModifier localModifierNames w) (type : TypeTree P false ty)
      (name : Token.IsName x) (inner : P u (.declarator x 0 none))
      (here : P t (.localVar mods ty [.mk u (.declarator x 0 none)])) :
      ElementTree (.mk t (.localVar mods ty [.mk u (.declarator x 0 none)]))

/-- The first part of the head of a loop: one declaration, or expressions. -/
def ForInit (init : List Node) : Prop :=
  (∃ d, init = [d] ∧ LocalVarTree P d) ∨ ∀ e ∈ init, ExprTree P false e

/-- A statement; `handler` says that it is a clause that catches exceptions. -/
inductive StmtTree : (handler : Bool) → Node → Prop
  | block {t : Tag} {ss : List Node} (statements : ∀ s ∈ ss, StmtTree false s)
      (here : P t (.block ss)) : StmtTree false (.mk t (.block ss))
  | localVar {n : Node} (declaration : LocalVarTree P n) : StmtTree false n
  | exprStmt {t : Tag} {e : Node} (expr : ExprTree P false e) (here : P t (.exprStmt e)) :
      StmtTree false (.mk t (.exprStmt e))
  | ifElse {t : Tag} {c a : Node} {o : Option Node} (cond : ExprTree P false c)
      (thenStmt : StmtTree false a) (elseStmt : ∀ b ∈ o, StmtTree false b)
      (here : P t (.ifElse c a o)) : StmtTree false (.mk t (.ifElse c a o))
  | whileLoop {t : Tag} {c b : Node} (cond : ExprTree P false c) (body : StmtTree false b)
      (here : P t (.whileLoop c b)) : StmtTree false (.mk t (.whileLoop c b))
  | doWhile {t : Tag} {b c : Node} (body : StmtTree false b) (cond : ExprTree P false c)
      (here : P t (.doWhile b c)) : StmtTree false (.mk t (.doWhile b c))
  | forLoop {t : Tag} {init update : List Node} {c : Option Node} {b : Node}
      (start : ForInit P init) (cond : ∀ e ∈ c, ExprTree P false e)
      (updates : ∀ e ∈ update, ExprTree P false e) (body : StmtTree false b)
      (here : P t (.forLoop init c update b)) : StmtTree false (.mk t (.forLoop init c update b))
  | forEach {t : Tag} {v e b : Node} (var : ElementTree P v) (iterable : ExprTree P false e)
      (body : StmtTree false b) (here : P t (.forEach v e b)) :
      StmtTree false (.mk t (.forEach v e b))
  | returnStmt {t : Tag} {o : Option Node} (value : ∀ e ∈ o, ExprTree P false e)
      (here : P t (.returnStmt o)) : StmtTree false (.mk t (.returnStmt o))
  | breakStmt {t : Tag} {l : Option String} (label : ∀ x ∈ l, Token.IsName x)
      (here : P t (.breakStmt l)) : StmtTree false (.mk t (.breakStmt l))
  | continueStmt {t : Tag} {l : Option String} (label : ∀ x ∈ l, Token.IsName x)
      (here : P t (.continueStmt l)) : StmtTree false (.mk t (.continueStmt l))
  | throwStmt {t : Tag} {e : Node} (expr : ExprTree P false e) (here : P t (.throwStmt e)) :
      StmtTree false (.mk t (.throwStmt e))
  | tryStmt {t : Tag} {b : Node} {cs : List Node} {f : Option Node} (body : StmtTree false b)
      (block : Layout.isBlock b = true) (catches : ∀ c ∈ cs, StmtTree true c)
      (final : ∀ b ∈ f, StmtTree false b) (blocks : ∀ b ∈ f, Layout.isBlock b = true)
      (handled : cs ≠ [] ∨ f ≠ none) (here : P t (.tryStmt b cs f)) :
      StmtTree false (.mk t (.tryStmt b cs f))
  | catchClause {t : Tag} {mods : List Word} {x : String} {tys : List Node} {b : Node}
      (modifiers : ∀ w ∈ mods, IsModifier localModifierNames w) (name : Token.IsName x)
      (nonempty : tys ≠ []) (types : ∀ ty ∈ tys, TypeTree P false ty) (body : StmtTree false b)
      (block : Layout.isBlock b = true) (here : P t (.catchClause mods x tys b)) :
      StmtTree true (.mk t (.catchClause mods x tys b))
  | labeled {t : Tag} {l : String} {b : Node} (label : Token.IsName l) (body : StmtTree false b)
      (here : P t (.labeled l b)) : StmtTree false (.mk t (.labeled l b))
  | emptyStmt {t : Tag} (here : P t .emptyStmt) : StmtTree false (.mk t .emptyStmt)

inductive ParamTree : Node → Prop
  | mk {t : Tag} {mods : List Word} {x : String} {varargs : Bool} {ty : Node}
      (modifiers : ∀ w ∈ mods, IsModifier modifierNames w) (name : Token.IsName x)
      (type : TypeTree P false ty) (here : P t (.parameter mods x varargs ty)) :
      ParamTree (.mk t (.parameter mods x varargs ty))

inductive ResultTree : Node → Prop
  | value {ty : Node} (type : TypeTree P false ty) : ResultTree ty
  | void {t : Tag} {d : Nat} (here : P t (.typeRef "void" d none)) :
      ResultTree (.mk t (.typeRef "void" d none))

inductive MemberTree : (className : String) → Node → Prop
  | fieldDecl {c : String} {t : Tag} {mods : List Word} {ty : Node} {ds : List Node}
      (modifiers : ∀ w ∈ mods, IsModifier modifierNames w) (type : ResultTree P ty)
      (bare : isVoid ty = true → ty.dims = 0) (nonempty : ds ≠ [])
      (declarators : ∀ d ∈ ds, DeclaratorTree P d) (here : P t (.fieldDecl mods ty ds)) :
      MemberTree c (.mk t (.fieldDecl mods ty ds))
  | methodDecl {c : String} {t : Tag} {mods tps : List Word} {x : String} {ty : Node}
      {ps ths : List Node} {o : Option Node} (modifiers : ∀ w ∈ mods, IsModifier modifierNames w)
      (typeParams : ∀ w ∈ tps, IsTypeParam w) (name : Token.IsName x) (type : ResultTree P ty)
      (params : ∀ p ∈ ps, ParamTree P p) (throws : ∀ ty ∈ ths, TypeTree P false ty)
      (body : ∀ b ∈ o, StmtTree P false b) (blocks : ∀ b ∈ o, Layout.isBlock b = true)
      (here : P t (.methodDecl mods tps x ty ps ths o)) :
      MemberTree c (.mk t (.methodDecl mods tps x ty ps ths o))
  | constructorDecl {t : Tag} {mods : List Word} {x : String} {ps ths : List Node} {b : Node}
      (modifiers : ∀ w ∈ mods, IsModifier modifierNames w) (name : Token.IsName x)
      (params : ∀ p ∈ ps, ParamTree P p) (throws : ∀ ty ∈ ths, TypeTree P false ty)
      (body : StmtTree P false b) (block : Layout.isBlock b = true)
      (here : P t (.constructorDecl mods x ps ths b)) :
      MemberTree x (.mk t (.constructorDecl mods x ps ths b))
  | initBlock {c : String} {t : Tag} {isStatic : Bool} {b : Node} (body : StmtTree P false b)
      (block : Layout.isBlock b = true) (here : P t (.initBlock isStatic b)) :
      MemberTree c (.mk t (.initBlock isStatic b))
  | classDecl {c : String} {t : Tag} {mods tps : List Word} {k x : String}
      {exts imps ms : List Node} (modifiers : ∀ w ∈ mods, IsModifier modifierNames w)
      (keyword : k ∈ ["class", "interface"]) (name : Token.IsName x)
      (typeParams : ∀ w ∈ tps, IsTypeParam w) (extended : ∀ ty ∈ exts, TypeTree P false ty)
      (implemented : ∀ ty ∈ imps, TypeTree P false ty) (members : ∀ m ∈ ms, MemberTree x m)
      (here : P t (.classDecl mods k x tps exts imps ms)) :
      MemberTree c (.mk t (.classDecl mods k x tps exts imps ms))

inductive ImportTree : Node → Prop
  | mk {t : Tag} {x : String} {isStatic asterisk : Bool} (name : IsQualified x)
      (here : P t (.importDecl x isStatic asterisk)) :
      ImportTree (.mk t (.importDecl x isStatic asterisk))

inductive UnitTree : Node → Prop
  | mk {t : Tag} {p : Option String} {is ds : List Node} (package : ∀ x ∈ p, IsQualified x)
      (imports : ∀ i ∈ is, ImportTree P i) (types : ∀ n ∈ ds, MemberTree P "" n)
      (classes : ∀ n ∈ ds, isClass n = true) (here : P t (.unit p is ds)) :
      UnitTree (.mk t (.unit p is ds))

end LoopLowering
