import LoopLowering.Layout.Unit
import LoopLowering.Proofs.Token.Spelling
import LoopLowering.Proofs.Tree.Path

/-! The items of a tree in the order of its text, with nothing added to them: parentheses and braces
stand where the tree has them. -/

namespace LoopLowering

namespace Item

def separated (m : String) (parts : List (List Item)) : List Item := [mark m].intercalate parts

def listed (parts : List (List Item)) : List Item := separated "," parts

def ofText (x : String) : Item := if Token.reservedWords.contains x then word x else name x

def ofName (x : String) : List Item :=
  separated "." ((x.toList.splitOn '.').map fun p => [ofText (String.ofList p)])

def brackets (d : Nat) : List Item := (List.replicate d [mark "[", mark "]"]).flatten

def ofLiteral (value : Constant) : LiteralKind → List Item
  | .boolean => [word (if Layout.holds value then "true" else "false")]
  | .null => [word "null"]
  | kind => [⟨.literal kind, value, false⟩]

def gluedMark (m : String) : Item := ⟨.mark m, .text m, true⟩

def ofBinary : BinaryOp → List Item
  | .shiftRight => [mark ">", gluedMark ">"]
  | .shiftRightUnsigned => [mark ">", gluedMark ">", gluedMark ">"]
  | op => [mark op.symbol]

def ofAssign : AssignOp → List Item
  | .compound .shiftRight => [mark ">", gluedMark ">="]
  | .compound .shiftRightUnsigned => [mark ">", gluedMark ">", gluedMark ">="]
  | op => [mark op.symbol]

def ofModifier : Word → List Item
  | .text s =>
    match s.toList with
    | '@' :: cs => mark "@" :: ofName (String.ofList cs)
    | _ => [ofText s]
  | .node _ => []

def ofModifiers (ws : List Word) : List Item := ws.flatMap ofModifier

def behind (w : String) (parts : List (List Item)) : List Item :=
  if parts.isEmpty then [] else word w :: listed parts

def parenthesized (is : List Item) : List Item := mark "(" :: is ++ [mark ")"]

def braced (is : List Item) : List Item := mark "\x7b" :: is ++ [mark "\x7d"]

def ofJump (w : String) (label : Option String) : List Item :=
  word w :: (label.map name).toList ++ [mark ";"]

def ofSource (s : String) : List Item :=
  match tokenize s with
  | .ok ts => ts.map fun t => ⟨t.kind, t.value, false⟩
  | .error _ => []

def ofTypeParams (ws : List Word) : List Item :=
  if ws.isEmpty then [] else mark "<" :: listed (ws.map fun w => ofSource w.listed) ++ [mark ">"]

def ofShape : Shape (List Item) → List Item
  | .parameter mods x varargs type =>
    ofModifiers mods ++ (type ++ ((if varargs then [mark "..."] else []) ++ [name x]))
  | .declarator x d init =>
    name x :: brackets d ++ (init.map (mark "=" :: ·)).getD []
  | .typeRef x d args =>
    ofName x ++ (args.map fun as => mark "<" :: listed as ++ [mark ">"]).getD [] ++ brackets d
  | .wildcard kind bound =>
    mark "?" :: (kind.map fun k => [word k]).getD [] ++ bound.getD []
  | .localVar mods type ds => ofModifiers mods ++ (type ++ listed ds)
  | .literal value kind => ofLiteral value kind
  | .ident x => [name x]
  | .thisExpr => [word "this"]
  | .superExpr => [word "super"]
  | .parens e => parenthesized e
  | .fieldAccess x t => t ++ [mark ".", name x]
  | .arrayAccess t i => t ++ mark "[" :: i ++ [mark "]"]
  | .methodCall x t args =>
    (t.map fun t => t ++ [mark ".", name x]).getD [ofText x] ++ parenthesized (listed args)
  | .objectCreation t args => word "new" :: t ++ parenthesized (listed args)
  | .arrayCreation extra t dims init =>
    word "new" :: t ++ dims.flatMap (fun d => mark "[" :: d ++ [mark "]"]) ++ brackets extra ++
      init.getD []
  | .arrayInit vs => braced (listed vs)
  | .assign op t e => t ++ ofAssign op ++ e
  | .binary op l r => l ++ ofBinary op ++ r
  | .unary op after e => if after then e ++ [mark op.symbol] else mark op.symbol :: e
  | .conditional c t e => c ++ mark "?" :: t ++ mark ":" :: e
  | .cast t e => parenthesized t ++ e
  | .instanceOf e t => e ++ word "instanceof" :: t
  | _ => []

end Item

namespace Node

def items : Node → List Item := fold fun _ s => Item.ofShape s

lemma items_mk (t : Tag) (s : Shape Node) : items (mk t s) = Item.ofShape (s.map items) :=
  fold_mk _ t s

section

variable (t : Tag)

lemma items_typeRef (x : String) (d : Nat) (args : Option (List Node)) :
    (mk t (.typeRef x d args)).items = Item.ofName x ++
      ((args.map fun as => Item.mark "<" :: Item.listed (as.map items) ++
        [Item.mark ">"]).getD [] ++ Item.brackets d) := by
  rw [items_mk]
  cases args with
  | none => exact List.append_assoc _ _ _
  | some as =>
    show Item.ofName x ++ (Item.mark "<" :: Item.listed (as.mapIdx fun _ => items) ++
      [Item.mark ">"]) ++ Item.brackets d = _
    rw [mapIdx_const]
    exact List.append_assoc _ _ _

lemma items_call (x : String) (as : List Node) : (mk t (.methodCall x none as)).items =
    Item.ofText x :: Item.parenthesized (Item.listed (as.map items)) := by
  rw [items_mk, ← mapIdx_const items as]
  rfl

lemma items_methodCall (x : String) (e : Node) (as : List Node) :
    (mk t (.methodCall x (some e) as)).items = e.items ++
      (Item.mark "." :: Item.name x :: Item.parenthesized (Item.listed (as.map items))) := by
  rw [items_mk, ← mapIdx_const items as]
  exact List.append_assoc _ _ _

lemma items_objectCreation (ty : Node) (as : List Node) : (mk t (.objectCreation ty as)).items =
    Item.word "new" :: (ty.items ++ Item.parenthesized (Item.listed (as.map items))) := by
  rw [items_mk, ← mapIdx_const items as]
  rfl

lemma items_arrayCreation (n : Nat) (ty : Node) (ds : List Node) (o : Option Node) :
    (mk t (.arrayCreation n ty ds o)).items = Item.word "new" :: (ty.items ++
      (ds.flatMap (fun d => Item.mark "[" :: d.items ++ [Item.mark "]"]) ++
        (Item.brackets n ++ (o.map items).getD []))) := by
  have hdims : (ds.mapIdx fun _ => items).flatMap (fun d => Item.mark "[" :: d ++ [Item.mark "]"]) =
      ds.flatMap fun d => Item.mark "[" :: d.items ++ [Item.mark "]"] := by
    rw [mapIdx_const, List.flatMap_map]
  rw [items_mk, ← hdims, ← List.append_assoc, ← List.append_assoc]
  rfl

lemma items_arrayAccess (e i : Node) : (mk t (.arrayAccess e i)).items =
    e.items ++ (Item.mark "[" :: (i.items ++ [Item.mark "]"])) :=
  List.append_assoc _ _ _

lemma items_assign (op : AssignOp) (l r : Node) :
    (mk t (.assign op l r)).items = l.items ++ (Item.ofAssign op ++ r.items) :=
  List.append_assoc _ _ _

lemma items_binary (op : BinaryOp) (l r : Node) :
    (mk t (.binary op l r)).items = l.items ++ (Item.ofBinary op ++ r.items) :=
  List.append_assoc _ _ _

lemma items_conditional (c a b : Node) : (mk t (.conditional c a b)).items =
    c.items ++ (Item.mark "?" :: (a.items ++ (Item.mark ":" :: b.items))) :=
  List.append_assoc _ _ _

lemma items_cast (ty e : Node) : (mk t (.cast ty e)).items =
    Item.mark "(" :: (ty.items ++ (Item.mark ")" :: e.items)) :=
  List.append_assoc _ _ _

lemma items_arrayInit (vs : List Node) : (mk t (.arrayInit vs)).items =
    Item.braced (Item.listed (vs.map items)) := by
  rw [items_mk, ← mapIdx_const items vs]
  rfl

end

section

open Item (mark word name)

mutual

def stmtItems : Node → List Item
  | .mk t (.localVar mods type ds) => items (.mk t (.localVar mods type ds)) ++ [mark ";"]
  | .mk _ (.block ss) => Item.braced (contentItems ss)
  | .mk _ (.exprStmt e) => e.items ++ [mark ";"]
  | .mk _ (.ifElse c a o) =>
    word "if" :: (Item.parenthesized c.items ++ (stmtItems a ++ branchItems "else" o))
  | .mk _ (.whileLoop c b) => word "while" :: (Item.parenthesized c.items ++ stmtItems b)
  | .mk _ (.doWhile b c) => word "do" ::
    (stmtItems b ++ word "while" :: (Item.parenthesized c.items ++ [mark ";"]))
  | .mk _ (.forLoop init c update b) => word "for" ::
    (Item.parenthesized (Item.listed (init.map items) ++ mark ";" :: ((c.map items).getD [] ++
      mark ";" :: Item.listed (update.map items))) ++ stmtItems b)
  | .mk _ (.forEach v e b) =>
    word "for" :: (Item.parenthesized (v.items ++ mark ":" :: e.items) ++ stmtItems b)
  | .mk _ (.returnStmt o) => word "return" :: ((o.map items).getD [] ++ [mark ";"])
  | .mk _ (.breakStmt l) => Item.ofJump "break" l
  | .mk _ (.continueStmt l) => Item.ofJump "continue" l
  | .mk _ (.throwStmt e) => word "throw" :: (e.items ++ [mark ";"])
  | .mk _ (.tryStmt b cs f) =>
    word "try" :: (stmtItems b ++ (contentItems cs ++ branchItems "finally" f))
  | .mk _ (.catchClause mods x types b) => word "catch" ::
    (Item.parenthesized (Item.ofModifiers mods ++
      (Item.separated "|" (types.map items) ++ [name x])) ++ stmtItems b)
  | .mk _ (.labeled l b) => name l :: mark ":" :: stmtItems b
  | .mk _ .emptyStmt => [mark ";"]
  | _ => []
termination_by structural n => n

def contentItems : List Node → List Item
  | [] => []
  | s :: ss => stmtItems s ++ contentItems ss
termination_by structural ss => ss

def branchItems (w : String) : Option Node → List Item
  | none => []
  | some n => word w :: stmtItems n
termination_by structural n => n

end

def signatureItems (params throws : List Node) : List Item :=
  Item.parenthesized (Item.listed (params.map items)) ++
    Item.behind "throws" (throws.map items)

mutual

def memberItems : Node → List Item
  | .mk _ (.classDecl mods keyword x tps extended implemented members) =>
    Item.ofModifiers mods ++ (word keyword :: name x :: (Item.ofTypeParams tps ++
      (Item.behind "extends" (extended.map items) ++
        (Item.behind "implements" (implemented.map items) ++ Item.braced (membersItems members)))))
  | .mk _ (.fieldDecl mods type ds) =>
    Item.ofModifiers mods ++ (type.items ++ (Item.listed (ds.map items) ++ [mark ";"]))
  | .mk _ (.methodDecl mods tps x type ps throws body) =>
    Item.ofModifiers mods ++ (Item.ofTypeParams tps ++ (type.items ++
      name x :: (signatureItems ps throws ++ (body.map stmtItems).getD [mark ";"])))
  | .mk _ (.constructorDecl mods x ps throws body) =>
    Item.ofModifiers mods ++ name x :: (signatureItems ps throws ++ body.stmtItems)
  | .mk _ (.initBlock isStatic body) =>
    (if isStatic then [word "static"] else []) ++ body.stmtItems
  | _ => []
termination_by structural n => n

def membersItems : List Node → List Item
  | [] => []
  | n :: ns => memberItems n ++ membersItems ns
termination_by structural ns => ns

end

def importItems (n : Node) : List Item :=
  match n.shape with
  | .importDecl x isStatic asterisk =>
    word "import" :: ((if isStatic then [word "static"] else []) ++ (Item.ofName x ++
      ((if asterisk then [mark ".", mark "*"] else []) ++ [mark ";"])))
  | _ => []

def unitItems (n : Node) : List Item :=
  match n.shape with
  | .unit package imports types =>
    (package.map fun p => word "package" :: (Item.ofName p ++ [mark ";"])).getD [] ++
      (imports.flatMap importItems ++ membersItems types)
  | _ => []

end

/-- A tree without the tags of its nodes. -/
def bare : Node → Node := mapTags fun _ => {}

lemma bare_mk (t : Tag) (s : Shape Node) : bare (mk t s) = plain (s.map bare) := fold_mk _ t s

end Node

end LoopLowering
