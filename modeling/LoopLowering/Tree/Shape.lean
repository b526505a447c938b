import LoopLowering.Constant
import LoopLowering.Tree.Operator
import LoopLowering.Tree.Word

/-!
One level of a syntax tree: what a node is, with its attributes, and where its children stand. The
children are of any type, so that one description serves trees, paths into them and what is
computed from them. No slot restricts the kind of its child.
-/

namespace LoopLowering

inductive Shape (α : Type) where
  | unit (package : Option String) (imports types : List α)
  | importDecl (name : String) (isStatic asterisk : Bool)
  | classDecl (modifiers : List Word) (keyword name : String) (typeParams : List Word)
      (extended implemented members : List α)
  | fieldDecl (modifiers : List Word) (type : α) (declarators : List α)
  | methodDecl (modifiers typeParams : List Word) (name : String) (type : α)
      (params throws : List α) (body : Option α)
  | constructorDecl (modifiers : List Word) (name : String) (params throws : List α) (body : α)
  | initBlock (isStatic : Bool) (body : α)
  | parameter (modifiers : List Word) (name : String) (varargs : Bool) (type : α)
  | declarator (name : String) (dims : Nat) (init : Option α)
  | typeRef (name : String) (dims : Nat) (args : Option (List α))
  | wildcard (boundKind : Option String) (bound : Option α)
  | block (statements : List α)
  | localVar (modifiers : List Word) (type : α) (declarators : List α)
  | exprStmt (expr : α)
  | ifElse (cond thenStmt : α) (elseStmt : Option α)
  | whileLoop (cond body : α)
  | doWhile (body cond : α)
  | forLoop (init : List α) (cond : Option α) (update : List α) (body : α)
  | forEach (var iterable body : α)
  | returnStmt (expr : Option α)
  | breakStmt (label : Option String)
  | continueStmt (label : Option String)
  | throwStmt (expr : α)
  | tryStmt (body : α) (catches : List α) (finallyBlock : Option α)
  | catchClause (modifiers : List Word) (name : String) (types : List α) (body : α)
  | labeled (label : String) (body : α)
  | emptyStmt
  | literal (value : Constant) (kind : LiteralKind)
  | ident (name : String)
  | thisExpr
  | superExpr
  | parens (expr : α)
  | fieldAccess (name : String) (target : α)
  | arrayAccess (target index : α)
  | methodCall (name : String) (target : Option α) (args : List α)
  | objectCreation (type : α) (args : List α)
  | arrayCreation (extraDims : Nat) (type : α) (dimExprs : List α) (init : Option α)
  | arrayInit (values : List α)
  | assign (op : AssignOp) (target expr : α)
  | binary (op : BinaryOp) (left right : α)
  | unary (op : UnaryOp) (after : Bool) (expr : α)
  | conditional (cond thenExpr elseExpr : α)
  | cast (type expr : α)
  | instanceOf (expr type : α)

inductive Attribute where
  | text (s : String)
  | optText (s : Option String)
  | flag (b : Bool)
  | number (n : Nat)
  | words (ws : List Word)
  | constant (c : Constant)

inductive Part (α : Type) where
  | one (a : α)
  | optional (a : Option α)
  | many (as : List α)

structure Step where
  field : String
  index : Option Nat := none
  deriving DecidableEq, Repr

namespace Part

variable {α : Type}

def toList : Part α → List α
  | one a => [a]
  | optional a => a.toList
  | many as => as

def steps (field : String) : Part α → List (Step × α)
  | one a => [(⟨field, none⟩, a)]
  | optional a => a.toList.map fun a => (⟨field, none⟩, a)
  | many as => as.mapIdx fun i a => (⟨field, some i⟩, a)

end Part

namespace Shape

variable {α β : Type}

def kind : Shape α → String
  | .unit .. => "CompilationUnit"
  | .importDecl .. => "ImportDecl"
  | .classDecl .. => "ClassDecl"
  | .fieldDecl .. => "FieldDecl"
  | .methodDecl .. => "MethodDecl"
  | .constructorDecl .. => "ConstructorDecl"
  | .initBlock .. => "Initializer"
  | .parameter .. => "Parameter"
  | .declarator .. => "VarDeclarator"
  | .typeRef .. => "Type"
  | .wildcard .. => "WildcardType"
  | .block .. => "Block"
  | .localVar .. => "LocalVarDecl"
  | .exprStmt .. => "ExprStmt"
  | .ifElse .. => "If"
  | .whileLoop .. => "While"
  | .doWhile .. => "DoWhile"
  | .forLoop .. => "For"
  | .forEach .. => "ForEach"
  | .returnStmt .. => "Return"
  | .breakStmt .. => "Break"
  | .continueStmt .. => "Continue"
  | .throwStmt .. => "Throw"
  | .tryStmt .. => "Try"
  | .catchClause .. => "CatchClause"
  | .labeled .. => "Labeled"
  | .emptyStmt => "EmptyStmt"
  | .literal .. => "Literal"
  | .ident .. => "Name"
  | .thisExpr => "This"
  | .superExpr => "Super"
  | .parens .. => "Parens"
  | .fieldAccess .. => "FieldAccess"
  | .arrayAccess .. => "ArrayAccess"
  | .methodCall .. => "MethodCall"
  | .objectCreation .. => "ObjectCreation"
  | .arrayCreation .. => "ArrayCreation"
  | .arrayInit .. => "ArrayInit"
  | .assign .. => "Assign"
  | .binary .. => "BinOp"
  | .unary .. => "UnOp"
  | .conditional .. => "Conditional"
  | .cast .. => "Cast"
  | .instanceOf .. => "InstanceOf"

def attributes : Shape α → List (String × Attribute)
  | .unit package .. => [("package", .optText package)]
  | .importDecl name isStatic asterisk =>
    [("name", .text name), ("static", .flag isStatic), ("asterisk", .flag asterisk)]
  | .classDecl modifiers keyword name typeParams .. =>
    [("modifiers", .words modifiers), ("kind", .text keyword),
      ("name", .text name), ("type_params", .words typeParams)]
  | .fieldDecl modifiers .. => [("modifiers", .words modifiers)]
  | .methodDecl modifiers typeParams name .. =>
    [("modifiers", .words modifiers), ("type_params", .words typeParams), ("name", .text name)]
  | .constructorDecl modifiers name .. => [("modifiers", .words modifiers), ("name", .text name)]
  | .initBlock isStatic _ => [("static", .flag isStatic)]
  | .parameter modifiers name varargs _ =>
    [("modifiers", .words modifiers), ("name", .text name), ("varargs", .flag varargs)]
  | .declarator name dims _ => [("name", .text name), ("dims", .number dims)]
  | .typeRef name dims _ => [("name", .text name), ("dims", .number dims)]
  | .wildcard boundKind _ => [("bound_kind", .optText boundKind)]
  | .localVar modifiers .. => [("modifiers", .words modifiers)]
  | .breakStmt label => [("label", .optText label)]
  | .continueStmt label => [("label", .optText label)]
  | .catchClause modifiers name .. => [("modifiers", .words modifiers), ("name", .text name)]
  | .labeled label _ => [("label", .text label)]
  | .literal value kind => [("value", .constant value), ("kind", .text kind.name)]
  | .ident name => [("name", .text name)]
  | .fieldAccess name _ => [("name", .text name)]
  | .methodCall name .. => [("name", .text name)]
  | .arrayCreation extraDims .. => [("extra_dims", .number extraDims)]
  | .assign op .. => [("op", .text op.symbol)]
  | .binary op .. => [("op", .text op.symbol)]
  | .unary op after _ => [("op", .text op.symbol), ("postfix", .flag after)]
  | _ => []

def parts : Shape α → List (String × Part α)
  | .unit _ imports types => [("imports", .many imports), ("types", .many types)]
  | .classDecl _ _ _ _ extended implemented members =>
    [("extends", .many extended), ("implements", .many implemented), ("members", .many members)]
  | .fieldDecl _ type declarators => [("type", .one type), ("declarators", .many declarators)]
  | .methodDecl _ _ _ type params throws body =>
    [("type", .one type), ("params", .many params),
      ("throws", .many throws), ("body", .optional body)]
  | .constructorDecl _ _ params throws body =>
    [("params", .many params), ("throws", .many throws), ("body", .one body)]
  | .initBlock _ body => [("body", .one body)]
  | .parameter _ _ _ type => [("type", .one type)]
  | .declarator _ _ init => [("init", .optional init)]
  | .typeRef _ _ none => [("args", .optional none)]
  | .typeRef _ _ (some args) => [("args", .many args)]
  | .wildcard _ bound => [("bound", .optional bound)]
  | .block statements => [("statements", .many statements)]
  | .localVar _ type declarators => [("type", .one type), ("declarators", .many declarators)]
  | .exprStmt expr => [("expr", .one expr)]
  | .ifElse cond thenStmt elseStmt =>
    [("cond", .one cond), ("thenstmt", .one thenStmt), ("elsestmt", .optional elseStmt)]
  | .whileLoop cond body => [("cond", .one cond), ("body", .one body)]
  | .doWhile body cond => [("body", .one body), ("cond", .one cond)]
  | .forLoop init cond update body =>
    [("init", .many init), ("cond", .optional cond),
      ("update", .many update), ("body", .one body)]
  | .forEach var iterable body =>
    [("var", .one var), ("iterable", .one iterable), ("body", .one body)]
  | .returnStmt expr => [("expr", .optional expr)]
  | .throwStmt expr => [("expr", .one expr)]
  | .tryStmt body catches finallyBlock =>
    [("block", .one body), ("catches", .many catches), ("finally_block", .optional finallyBlock)]
  | .catchClause _ _ types body => [("types", .many types), ("body", .one body)]
  | .labeled _ body => [("body", .one body)]
  | .parens expr => [("expr", .one expr)]
  | .fieldAccess _ target => [("target", .one target)]
  | .arrayAccess target index => [("target", .one target), ("index", .one index)]
  | .methodCall _ target args => [("target", .optional target), ("args", .many args)]
  | .objectCreation type args => [("type", .one type), ("args", .many args)]
  | .arrayCreation _ type dimExprs init =>
    [("type", .one type), ("dim_exprs", .many dimExprs), ("init", .optional init)]
  | .arrayInit values => [("values", .many values)]
  | .assign _ target expr => [("target", .one target), ("expr", .one expr)]
  | .binary _ left right => [("left", .one left), ("right", .one right)]
  | .unary _ _ expr => [("expr", .one expr)]
  | .conditional cond thenExpr elseExpr =>
    [("cond", .one cond), ("thenexpr", .one thenExpr), ("elseexpr", .one elseExpr)]
  | .cast type expr => [("type", .one type), ("expr", .one expr)]
  | .instanceOf expr type => [("expr", .one expr), ("type", .one type)]
  | _ => []

def children (s : Shape α) : List α := s.parts.flatMap fun p => p.2.toList

def steps (s : Shape α) : List (Step × α) := s.parts.flatMap fun p => p.2.steps p.1

def mapAt (f : Step → α → β) : Shape α → Shape β
  | .unit package imports types =>
    .unit package (imports.mapIdx fun i => f ⟨"imports", some i⟩)
      (types.mapIdx fun i => f ⟨"types", some i⟩)
  | .importDecl name isStatic asterisk => .importDecl name isStatic asterisk
  | .classDecl modifiers keyword name typeParams extended implemented members =>
    .classDecl modifiers keyword name typeParams (extended.mapIdx fun i => f ⟨"extends", some i⟩)
      (implemented.mapIdx fun i => f ⟨"implements", some i⟩)
      (members.mapIdx fun i => f ⟨"members", some i⟩)
  | .fieldDecl modifiers type declarators =>
    .fieldDecl modifiers (f ⟨"type", none⟩ type)
      (declarators.mapIdx fun i => f ⟨"declarators", some i⟩)
  | .methodDecl modifiers typeParams name type params throws body =>
    .methodDecl modifiers typeParams name (f ⟨"type", none⟩ type)
      (params.mapIdx fun i => f ⟨"params", some i⟩) (throws.mapIdx fun i => f ⟨"throws", some i⟩)
      (body.map (f ⟨"body", none⟩))
  | .constructorDecl modifiers name params throws body =>
    .constructorDecl modifiers name (params.mapIdx fun i => f ⟨"params", some i⟩)
      (throws.mapIdx fun i => f ⟨"throws", some i⟩) (f ⟨"body", none⟩ body)
  | .initBlock isStatic body => .initBlock isStatic (f ⟨"body", none⟩ body)
  | .parameter modifiers name varargs type =>
    .parameter modifiers name varargs (f ⟨"type", none⟩ type)
  | .declarator name dims init => .declarator name dims (init.map (f ⟨"init", none⟩))
  | .typeRef name dims args =>
    .typeRef name dims (args.map fun as => as.mapIdx fun i => f ⟨"args", some i⟩)
  | .wildcard boundKind bound => .wildcard boundKind (bound.map (f ⟨"bound", none⟩))
  | .block statements => .block (statements.mapIdx fun i => f ⟨"statements", some i⟩)
  | .localVar modifiers type declarators =>
    .localVar modifiers (f ⟨"type", none⟩ type)
      (declarators.mapIdx fun i => f ⟨"declarators", some i⟩)
  | .exprStmt expr => .exprStmt (f ⟨"expr", none⟩ expr)
  | .ifElse cond thenStmt elseStmt =>
    .ifElse (f ⟨"cond", none⟩ cond) (f ⟨"thenstmt", none⟩ thenStmt)
      (elseStmt.map (f ⟨"elsestmt", none⟩))
  | .whileLoop cond body => .whileLoop (f ⟨"cond", none⟩ cond) (f ⟨"body", none⟩ body)
  | .doWhile body cond => .doWhile (f ⟨"body", none⟩ body) (f ⟨"cond", none⟩ cond)
  | .forLoop init cond update body =>
    .forLoop (init.mapIdx fun i => f ⟨"init", some i⟩) (cond.map (f ⟨"cond", none⟩))
      (update.mapIdx fun i => f ⟨"update", some i⟩) (f ⟨"body", none⟩ body)
  | .forEach var iterable body =>
    .forEach (f ⟨"var", none⟩ var) (f ⟨"iterable", none⟩ iterable) (f ⟨"body", none⟩ body)
  | .returnStmt expr => .returnStmt (expr.map (f ⟨"expr", none⟩))
  | .breakStmt label => .breakStmt label
  | .continueStmt label => .continueStmt label
  | .throwStmt expr => .throwStmt (f ⟨"expr", none⟩ expr)
  | .tryStmt body catches finallyBlock =>
    .tryStmt (f ⟨"block", none⟩ body) (catches.mapIdx fun i => f ⟨"catches", some i⟩)
      (finallyBlock.map (f ⟨"finally_block", none⟩))
  | .catchClause modifiers name types body =>
    .catchClause modifiers name (types.mapIdx fun i => f ⟨"types", some i⟩)
      (f ⟨"body", none⟩ body)
  | .labeled label body => .labeled label (f ⟨"body", none⟩ body)
  | .emptyStmt => .emptyStmt
  | .literal value kind => .literal value kind
  | .ident name => .ident name
  | .thisExpr => .thisExpr
  | .superExpr => .superExpr
  | .parens expr => .parens (f ⟨"expr", none⟩ expr)
  | .fieldAccess name target => .fieldAccess name (f ⟨"target", none⟩ target)
  | .arrayAccess target index =>
    .arrayAccess (f ⟨"target", none⟩ target) (f ⟨"index", none⟩ index)
  | .methodCall name target args =>
    .methodCall name (target.map (f ⟨"target", none⟩)) (args.mapIdx fun i => f ⟨"args", some i⟩)
  | .objectCreation type args =>
    .objectCreation (f ⟨"type", none⟩ type) (args.mapIdx fun i => f ⟨"args", some i⟩)
  | .arrayCreation extraDims type dimExprs init =>
    .arrayCreation extraDims (f ⟨"type", none⟩ type)
      (dimExprs.mapIdx fun i => f ⟨"dim_exprs", some i⟩) (init.map (f ⟨"init", none⟩))
  | .arrayInit values => .arrayInit (values.mapIdx fun i => f ⟨"values", some i⟩)
  | .assign op target expr => .assign op (f ⟨"target", none⟩ target) (f ⟨"expr", none⟩ expr)
  | .binary op left right => .binary op (f ⟨"left", none⟩ left) (f ⟨"right", none⟩ right)
  | .unary op after expr => .unary op after (f ⟨"expr", none⟩ expr)
  | .conditional cond thenExpr elseExpr =>
    .conditional (f ⟨"cond", none⟩ cond) (f ⟨"thenexpr", none⟩ thenExpr)
      (f ⟨"elseexpr", none⟩ elseExpr)
  | .cast type expr => .cast (f ⟨"type", none⟩ type) (f ⟨"expr", none⟩ expr)
  | .instanceOf expr type => .instanceOf (f ⟨"expr", none⟩ expr) (f ⟨"type", none⟩ type)

def map (f : α → β) (s : Shape α) : Shape β := s.mapAt fun _ => f

def mapLists (f : String → List α → List α) : Shape α → Shape α
  | .unit package imports types => .unit package (f "imports" imports) (f "types" types)
  | .classDecl modifiers keyword name typeParams extended implemented members =>
    .classDecl modifiers keyword name typeParams (f "extends" extended)
      (f "implements" implemented) (f "members" members)
  | .fieldDecl modifiers type declarators =>
    .fieldDecl modifiers type (f "declarators" declarators)
  | .methodDecl modifiers typeParams name type params throws body =>
    .methodDecl modifiers typeParams name type (f "params" params) (f "throws" throws) body
  | .constructorDecl modifiers name params throws body =>
    .constructorDecl modifiers name (f "params" params) (f "throws" throws) body
  | .typeRef name dims args => .typeRef name dims (args.map (f "args"))
  | .block statements => .block (f "statements" statements)
  | .localVar modifiers type declarators => .localVar modifiers type (f "declarators" declarators)
  | .forLoop init cond update body => .forLoop (f "init" init) cond (f "update" update) body
  | .tryStmt body catches finallyBlock => .tryStmt body (f "catches" catches) finallyBlock
  | .catchClause modifiers name types body => .catchClause modifiers name (f "types" types) body
  | .methodCall name target args => .methodCall name target (f "args" args)
  | .objectCreation type args => .objectCreation type (f "args" args)
  | .arrayCreation extraDims type dimExprs init =>
    .arrayCreation extraDims type (f "dim_exprs" dimExprs) init
  | .arrayInit values => .arrayInit (f "values" values)
  | s => s

def mapWords (f : String → List Word → List Word) : Shape α → Shape α
  | .classDecl modifiers keyword name typeParams extended implemented members =>
    .classDecl (f "modifiers" modifiers) keyword name (f "type_params" typeParams) extended
      implemented members
  | .fieldDecl modifiers type declarators => .fieldDecl (f "modifiers" modifiers) type declarators
  | .methodDecl modifiers typeParams name type params throws body =>
    .methodDecl (f "modifiers" modifiers) (f "type_params" typeParams) name type params throws body
  | .constructorDecl modifiers name params throws body =>
    .constructorDecl (f "modifiers" modifiers) name params throws body
  | .parameter modifiers name varargs type =>
    .parameter (f "modifiers" modifiers) name varargs type
  | .localVar modifiers type declarators => .localVar (f "modifiers" modifiers) type declarators
  | .catchClause modifiers name types body =>
    .catchClause (f "modifiers" modifiers) name types body
  | s => s

end Shape

end LoopLowering
