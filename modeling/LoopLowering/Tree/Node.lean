import LoopLowering.Number.Natural
import LoopLowering.Tree.Shape

/-!
Syntax trees. A node is a shape whose children are nodes, with a tag that says where it comes
from. What is computed bottom-up over a tree is a fold.
-/

namespace LoopLowering

/-- What a node carries besides its shape: an identity (zero for a node that nobody has told apart
yet), the source line of a statement, and whether a pass made it. -/
structure Tag where
  id : Nat := 0
  line : Option Nat := none
  synthetic : Bool := false
  deriving DecidableEq, Repr

inductive Node where
  | mk (tag : Tag) (shape : Shape Node)

namespace Node

instance : Inhabited Node := ⟨mk {} .emptyStmt⟩

def tag : Node → Tag
  | mk t _ => t

def shape : Node → Shape Node
  | mk _ s => s

def plain (s : Shape Node) : Node := mk {} s

def kind (n : Node) : String := n.shape.kind

def children (n : Node) : List Node := n.shape.children

section

variable {β : Type} (alg : Tag → Shape β → β)

mutual

def fold : Node → β
  | mk t s => alg t (foldShape s)
termination_by structural n => n

def foldShape : Shape Node → Shape β
  | .unit package imports types => .unit package (foldList imports) (foldList types)
  | .importDecl name isStatic asterisk => .importDecl name isStatic asterisk
  | .classDecl modifiers keyword name typeParams extended implemented members =>
    .classDecl modifiers keyword name typeParams (foldList extended) (foldList implemented)
      (foldList members)
  | .fieldDecl modifiers type declarators =>
    .fieldDecl modifiers (fold type) (foldList declarators)
  | .methodDecl modifiers typeParams name type params throws body =>
    .methodDecl modifiers typeParams name (fold type) (foldList params) (foldList throws)
      (foldOption body)
  | .constructorDecl modifiers name params throws body =>
    .constructorDecl modifiers name (foldList params) (foldList throws) (fold body)
  | .initBlock isStatic body => .initBlock isStatic (fold body)
  | .parameter modifiers name varargs type => .parameter modifiers name varargs (fold type)
  | .declarator name dims init => .declarator name dims (foldOption init)
  | .typeRef name dims args => .typeRef name dims (foldOptionList args)
  | .wildcard boundKind bound => .wildcard boundKind (foldOption bound)
  | .block statements => .block (foldList statements)
  | .localVar modifiers type declarators => .localVar modifiers (fold type) (foldList declarators)
  | .exprStmt expr => .exprStmt (fold expr)
  | .ifElse cond thenStmt elseStmt => .ifElse (fold cond) (fold thenStmt) (foldOption elseStmt)
  | .whileLoop cond body => .whileLoop (fold cond) (fold body)
  | .doWhile body cond => .doWhile (fold body) (fold cond)
  | .forLoop init cond update body =>
    .forLoop (foldList init) (foldOption cond) (foldList update) (fold body)
  | .forEach var iterable body => .forEach (fold var) (fold iterable) (fold body)
  | .returnStmt expr => .returnStmt (foldOption expr)
  | .breakStmt label => .breakStmt label
  | .continueStmt label => .continueStmt label
  | .throwStmt expr => .throwStmt (fold expr)
  | .tryStmt body catches finallyBlock =>
    .tryStmt (fold body) (foldList catches) (foldOption finallyBlock)
  | .catchClause modifiers name types body =>
    .catchClause modifiers name (foldList types) (fold body)
  | .labeled label body => .labeled label (fold body)
  | .emptyStmt => .emptyStmt
  | .literal value kind => .literal value kind
  | .ident name => .ident name
  | .thisExpr => .thisExpr
  | .superExpr => .superExpr
  | .parens expr => .parens (fold expr)
  | .fieldAccess name target => .fieldAccess name (fold target)
  | .arrayAccess target index => .arrayAccess (fold target) (fold index)
  | .methodCall name target args => .methodCall name (foldOption target) (foldList args)
  | .objectCreation type args => .objectCreation (fold type) (foldList args)
  | .arrayCreation extraDims type dimExprs init =>
    .arrayCreation extraDims (fold type) (foldList dimExprs) (foldOption init)
  | .arrayInit values => .arrayInit (foldList values)
  | .assign op target expr => .assign op (fold target) (fold expr)
  | .binary op left right => .binary op (fold left) (fold right)
  | .unary op after expr => .unary op after (fold expr)
  | .conditional cond thenExpr elseExpr =>
    .conditional (fold cond) (fold thenExpr) (fold elseExpr)
  | .cast type expr => .cast (fold type) (fold expr)
  | .instanceOf expr type => .instanceOf (fold expr) (fold type)
termination_by structural s => s

def foldList : List Node → List β
  | [] => []
  | n :: ns => fold n :: foldList ns
termination_by structural ns => ns

def foldOption : Option Node → Option β
  | none => none
  | some n => some (fold n)
termination_by structural n => n

def foldOptionList : Option (List Node) → Option (List β)
  | none => none
  | some ns => some (foldList ns)
termination_by structural ns => ns

end

end

def size : Node → Nat := fold fun _ s => 1 + Number.total s.children

def mapTags (f : Tag → Tag) : Node → Node := fold fun t s => mk (f t) s

def copy : Node → Node := mapTags fun t => { t with id := 0 }

end Node

end LoopLowering
