import LoopLowering.Grammar.Expression
import LoopLowering.Proofs.Token.Lexeme
import LoopLowering.Proofs.Tree.Nodes

/-! The trees of types and expressions that a text can stand for. A condition on single nodes is
demanded of every node, so that one description serves trees before they are written, trees with
all their parentheses, and trees that were read. -/

namespace LoopLowering

def primitiveNames : List String :=
  ["boolean", "byte", "char", "short", "int", "long", "float", "double"]

def IsQualified (x : String) : Prop := ∀ p ∈ x.toList.splitOn '.', Token.IsName (String.ofList p)

def Node.dims (n : Node) : Nat :=
  match n.shape with
  | .typeRef _ d _ => d
  | _ => 0

variable (P : Tag → Shape Node → Prop)

/-- A type; `wild` says that it may be a wildcard. -/
inductive TypeTree : (wild : Bool) → Node → Prop
  | primitive {w : Bool} {t : Tag} {x : String} {d : Nat} (name : x ∈ primitiveNames)
      (here : P t (.typeRef x d none)) : TypeTree w (.mk t (.typeRef x d none))
  | named {w : Bool} {t : Tag} {x : String} {d : Nat} (name : IsQualified x)
      (here : P t (.typeRef x d none)) : TypeTree w (.mk t (.typeRef x d none))
  | generic {w : Bool} {t : Tag} {x : String} {d : Nat} {as : List Node} (name : IsQualified x)
      (args : ∀ a ∈ as, TypeTree true a) (here : P t (.typeRef x d (some as))) :
      TypeTree w (.mk t (.typeRef x d (some as)))
  | anything {t : Tag} (here : P t (.wildcard none none)) :
      TypeTree true (.mk t (.wildcard none none))
  | bounded {t : Tag} {k : String} {b : Node} (word : k ∈ ["extends", "super"])
      (bound : TypeTree false b) (here : P t (.wildcard (some k) (some b))) :
      TypeTree true (.mk t (.wildcard (some k) (some b)))

def LiteralKind.Holds : LiteralKind → Constant → Prop
  | int, v | long, v => ∃ n : Nat, v = .int n
  | float, v | double, v => ∃ x : Float, v = .float x
  | char, v | string, v => ∃ s : String, v = .text s
  | boolean, v => ∃ b : Bool, v = .bool b
  | null, v => v = .null
  | other _, _ => False

def assignable : List BinaryOp :=
  [.add, .sub, .mul, .div, .rem, .bitAnd, .bitOr, .bitXor, .shiftLeft, .shiftRight,
    .shiftRightUnsigned]

def AssignOp.Known : AssignOp → Prop
  | plain => True
  | compound op => op ∈ assignable
  | other _ => False

/-- A new array has lengths or elements, but not both. -/
def ArrayParts (extra : Nat) (dims : List Node) : Option Node → Prop
  | none => dims ≠ []
  | some i => dims = [] ∧ 0 < extra ∧ ∃ t vs, i = .mk t (.arrayInit vs)

/-- An expression; `value` says that it may be a list of elements between braces. -/
inductive ExprTree : (value : Bool) → Node → Prop
  | literal {v : Bool} {t : Tag} {c : Constant} {k : LiteralKind} (holds : k.Holds c)
      (here : P t (.literal c k)) : ExprTree v (.mk t (.literal c k))
  | ident {v : Bool} {t : Tag} {x : String} (name : Token.IsName x) (here : P t (.ident x)) :
      ExprTree v (.mk t (.ident x))
  | this {v : Bool} {t : Tag} (here : P t .thisExpr) : ExprTree v (.mk t .thisExpr)
  | super {v : Bool} {t : Tag} (here : P t .superExpr) : ExprTree v (.mk t .superExpr)
  | parens {v : Bool} {t : Tag} {e : Node} (expr : ExprTree false e) (here : P t (.parens e)) :
      ExprTree v (.mk t (.parens e))
  | fieldAccess {v : Bool} {t : Tag} {x : String} {e : Node} (name : Token.IsName x)
      (target : ExprTree false e) (here : P t (.fieldAccess x e)) :
      ExprTree v (.mk t (.fieldAccess x e))
  | arrayAccess {v : Bool} {t : Tag} {e i : Node} (target : ExprTree false e)
      (index : ExprTree false i) (here : P t (.arrayAccess e i)) :
      ExprTree v (.mk t (.arrayAccess e i))
  | call {v : Bool} {t : Tag} {x : String} {as : List Node}
      (name : Token.IsName x ∨ x = "this" ∨ x = "super") (args : ∀ a ∈ as, ExprTree false a)
      (here : P t (.methodCall x none as)) : ExprTree v (.mk t (.methodCall x none as))
  | methodCall {v : Bool} {t : Tag} {x : String} {e : Node} {as : List Node}
      (name : Token.IsName x) (target : ExprTree false e) (args : ∀ a ∈ as, ExprTree false a)
      (here : P t (.methodCall x (some e) as)) : ExprTree v (.mk t (.methodCall x (some e) as))
  | objectCreation {v : Bool} {t : Tag} {ty : Node} {as : List Node} (type : TypeTree P false ty)
      (bare : ty.dims = 0) (args : ∀ a ∈ as, ExprTree false a)
      (here : P t (.objectCreation ty as)) : ExprTree v (.mk t (.objectCreation ty as))
  | arrayCreation {v : Bool} {t : Tag} {n : Nat} {ty : Node} {ds : List Node} {o : Option Node}
      (type : TypeTree P false ty) (bare : ty.dims = 0) (dims : ∀ d ∈ ds, ExprTree false d)
      (init : ∀ i ∈ o, ExprTree true i) (parts : ArrayParts n ds o)
      (here : P t (.arrayCreation n ty ds o)) : ExprTree v (.mk t (.arrayCreation n ty ds o))
  | arrayInit {t : Tag} {vs : List Node} (values : ∀ a ∈ vs, ExprTree true a)
      (here : P t (.arrayInit vs)) : ExprTree true (.mk t (.arrayInit vs))
  | assign {v : Bool} {t : Tag} {op : AssignOp} {l r : Node} (known : op.Known)
      (target : ExprTree false l) (place : Grammar.isTarget l = true) (expr : ExprTree false r)
      (here : P t (.assign op l r)) : ExprTree v (.mk t (.assign op l r))
  | binary {v : Bool} {t : Tag} {op : BinaryOp} {l r : Node} (known : op ∈ BinaryOp.known)
      (left : ExprTree false l) (right : ExprTree false r) (here : P t (.binary op l r)) :
      ExprTree v (.mk t (.binary op l r))
  | before {v : Bool} {t : Tag} {op : UnaryOp} {e : Node} (known : op ∈ UnaryOp.known)
      (expr : ExprTree false e) (here : P t (.unary op false e)) :
      ExprTree v (.mk t (.unary op false e))
  | after {v : Bool} {t : Tag} {op : UnaryOp} {e : Node}
      (known : op ∈ [UnaryOp.increment, .decrement]) (expr : ExprTree false e)
      (here : P t (.unary op true e)) : ExprTree v (.mk t (.unary op true e))
  | conditional {v : Bool} {t : Tag} {c a b : Node} (cond : ExprTree false c)
      (thenExpr : ExprTree false a) (elseExpr : ExprTree false b)
      (here : P t (.conditional c a b)) : ExprTree v (.mk t (.conditional c a b))
  | cast {v : Bool} {t : Tag} {ty e : Node} (type : TypeTree P false ty)
      (expr : ExprTree false e) (here : P t (.cast ty e)) : ExprTree v (.mk t (.cast ty e))
  | instanceOf {v : Bool} {t : Tag} {e ty : Node} (expr : ExprTree false e)
      (type : TypeTree P false ty) (here : P t (.instanceOf e ty)) :
      ExprTree v (.mk t (.instanceOf e ty))

section

variable {P} {Q : Tag → Shape Node → Prop}

lemma TypeTree.mono {w : Bool} {n : Node} (h : TypeTree P w n)
    (hPQ : ∀ m ∈ n.nodes, P m.tag m.shape → Q m.tag m.shape) : TypeTree Q w n := by
  induction h with
  | primitive name here => exact .primitive name ((Node.forall_nodes_mk.mp hPQ).1 here)
  | named name here => exact .named name ((Node.forall_nodes_mk.mp hPQ).1 here)
  | generic name _ here ih =>
    obtain ⟨hQ, hc⟩ := Node.forall_nodes_mk.mp hPQ
    exact .generic name (fun a ha => ih a ha (hc a (by
      simpa [Shape.children, Shape.parts, Part.toList] using ha))) (hQ here)
  | anything here => exact .anything ((Node.forall_nodes_mk.mp hPQ).1 here)
  | bounded word _ here ih =>
    obtain ⟨hQ, hc⟩ := Node.forall_nodes_mk.mp hPQ
    exact .bounded word (ih (hc _ List.mem_cons_self)) (hQ here)

lemma ExprTree.mono {v : Bool} {e : Node} (h : ExprTree P v e)
    (hPQ : ∀ m ∈ e.nodes, P m.tag m.shape → Q m.tag m.shape) : ExprTree Q v e := by
  induction h with
  | literal holds here => exact .literal holds ((Node.forall_nodes_mk.mp hPQ).1 here)
  | ident name here => exact .ident name ((Node.forall_nodes_mk.mp hPQ).1 here)
  | this here => exact .this ((Node.forall_nodes_mk.mp hPQ).1 here)
  | super here => exact .super ((Node.forall_nodes_mk.mp hPQ).1 here)
  | parens _ here ih =>
    obtain ⟨hQ, hc⟩ := Node.forall_nodes_mk.mp hPQ
    exact .parens (ih (hc _ List.mem_cons_self)) (hQ here)
  | fieldAccess name _ here ih =>
    obtain ⟨hQ, hc⟩ := Node.forall_nodes_mk.mp hPQ
    exact .fieldAccess name (ih (hc _ List.mem_cons_self)) (hQ here)
  | arrayAccess _ _ here ihe ihi =>
    obtain ⟨hQ, hc⟩ := Node.forall_nodes_mk.mp hPQ
    exact .arrayAccess (ihe (hc _ (by simp [Shape.children, Shape.parts, Part.toList])))
      (ihi (hc _ (by simp [Shape.children, Shape.parts, Part.toList]))) (hQ here)
  | call name _ here ih =>
    obtain ⟨hQ, hc⟩ := Node.forall_nodes_mk.mp hPQ
    exact .call name (fun a ha => ih a ha (hc a (by
      simpa [Shape.children, Shape.parts, Part.toList] using ha))) (hQ here)
  | methodCall name _ _ here ihe iha =>
    obtain ⟨hQ, hc⟩ := Node.forall_nodes_mk.mp hPQ
    exact .methodCall name (ihe (hc _ (by simp [Shape.children, Shape.parts, Part.toList])))
      (fun a ha => iha a ha (hc a (by simp [Shape.children, Shape.parts, Part.toList, ha])))
      (hQ here)
  | objectCreation type bare _ here ih =>
    obtain ⟨hQ, hc⟩ := Node.forall_nodes_mk.mp hPQ
    exact .objectCreation (type.mono (hc _ (by simp [Shape.children, Shape.parts, Part.toList])))
      bare (fun a ha => ih a ha (hc a (by simp [Shape.children, Shape.parts, Part.toList, ha])))
      (hQ here)
  | @arrayCreation v t n ty ds o type bare _ _ parts here ihd ihi =>
    obtain ⟨hQ, hc⟩ := Node.forall_nodes_mk.mp hPQ
    refine .arrayCreation (type.mono (hc _ (by simp [Shape.children, Shape.parts, Part.toList])))
      bare (fun a ha => ihd a ha (hc a ?_)) (fun i hi => ihi i hi (hc i ?_)) parts (hQ here)
    · simp [Shape.children, Shape.parts, Part.toList, ha]
    · simp [Shape.children, Shape.parts, Part.toList, Option.mem_def.mp hi]
  | arrayInit _ here ih =>
    obtain ⟨hQ, hc⟩ := Node.forall_nodes_mk.mp hPQ
    exact .arrayInit (fun a ha => ih a ha (hc a (by
      simpa [Shape.children, Shape.parts, Part.toList] using ha))) (hQ here)
  | assign known _ place _ here ihl ihr =>
    obtain ⟨hQ, hc⟩ := Node.forall_nodes_mk.mp hPQ
    exact .assign known (ihl (hc _ (by simp [Shape.children, Shape.parts, Part.toList]))) place
      (ihr (hc _ (by simp [Shape.children, Shape.parts, Part.toList]))) (hQ here)
  | binary known _ _ here ihl ihr =>
    obtain ⟨hQ, hc⟩ := Node.forall_nodes_mk.mp hPQ
    exact .binary known (ihl (hc _ (by simp [Shape.children, Shape.parts, Part.toList])))
      (ihr (hc _ (by simp [Shape.children, Shape.parts, Part.toList]))) (hQ here)
  | before known _ here ih =>
    obtain ⟨hQ, hc⟩ := Node.forall_nodes_mk.mp hPQ
    exact .before known (ih (hc _ List.mem_cons_self)) (hQ here)
  | after known _ here ih =>
    obtain ⟨hQ, hc⟩ := Node.forall_nodes_mk.mp hPQ
    exact .after known (ih (hc _ List.mem_cons_self)) (hQ here)
  | conditional _ _ _ here ihc iha ihb =>
    obtain ⟨hQ, hc⟩ := Node.forall_nodes_mk.mp hPQ
    exact .conditional (ihc (hc _ (by simp [Shape.children, Shape.parts, Part.toList])))
      (iha (hc _ (by simp [Shape.children, Shape.parts, Part.toList])))
      (ihb (hc _ (by simp [Shape.children, Shape.parts, Part.toList]))) (hQ here)
  | cast type _ here ih =>
    obtain ⟨hQ, hc⟩ := Node.forall_nodes_mk.mp hPQ
    exact .cast (type.mono (hc _ (by simp [Shape.children, Shape.parts, Part.toList])))
      (ih (hc _ (by simp [Shape.children, Shape.parts, Part.toList]))) (hQ here)
  | instanceOf _ type here ih =>
    obtain ⟨hQ, hc⟩ := Node.forall_nodes_mk.mp hPQ
    exact .instanceOf (ih (hc _ (by simp [Shape.children, Shape.parts, Part.toList])))
      (type.mono (hc _ (by simp [Shape.children, Shape.parts, Part.toList]))) (hQ here)

end

end LoopLowering
