import LoopLowering.Fault
import LoopLowering.Loops.Body

/-!
A loop `for (T x : xs) body` becomes a block that declares an iterator of `xs` and a `while` loop
that asks it for the next element at the start of the body.
-/

namespace LoopLowering.Loops

def isForEach {α : Type} : Shape α → Bool
  | .forEach .. => true
  | _ => false

def declaration? (n : Node) : Option (List Word × Node × List Node) :=
  match n.shape with
  | .localVar mods type ds | .fieldDecl mods type ds => some (mods, type, ds)
  | _ => none

def nameAndDims? (n : Node) : Option (String × Nat) :=
  match n.shape with
  | .declarator name d _ | .typeRef name d _ => some (name, d)
  | _ => none

def addDims? (d : Nat) : Node → Option Node
  | .mk t (.typeRef name e args) => some (.mk t (.typeRef name (e + d) args))
  | .mk t (.declarator name e init) => some (.mk t (.declarator name (e + d) init))
  | _ => none

def iteratorName (x : String) : String := x ++ "Iter"

def iteratorType (element : Node) : Node :=
  .plain (.typeRef "java.util.Iterator" 0 (some [element]))

def iteratorCall (x method : String) : Node :=
  .plain (.methodCall method (some (.plain (.ident (iteratorName x)))) [])

def nextElement (mods : List Word) (type : Node) (x : String) (d : Nat) : Node :=
  .plain (.localVar mods type [.plain (.declarator x d (some (iteratorCall x "next")))])

def iteratorDecl (element iterable : Node) (x : String) : Node :=
  let init := Node.plain (.methodCall "iterator" (some iterable) [])
  .plain (.localVar [] (iteratorType element)
    [.plain (.declarator (iteratorName x) 0 (some init))])

inductive Outcome where
  | done (new : Node)
  | failed (f : Fault) (left : Node)

def isExtensible (n : Node) : Bool :=
  match n.shape with
  | .block _ => !n.tag.synthetic
  | _ => false

/-- A loop over elements whose variable has no type that can be an element type keeps its form,
but its body, if it is a block that can be extended, has got its first statement. -/
def lowerForEach (labels : List String) (loop : Node) : Outcome :=
  match loop with
  | .mk t (.forEach var iterable body) =>
    match declaration? var with
    | none => .failed .noSuchPart loop
    | some (_, _, []) => .failed .badIndex loop
    | some (mods, type, d :: _) =>
      match nameAndDims? d with
      | none => .failed .noSuchPart loop
      | some (x, dims) =>
        let block := editBlock (nextElement mods type x dims :: ·) (bodyBlock body)
        match addDims? dims type.copy with
        | none =>
          let left := if isExtensible body then block else body
          .failed .noSuchPart (.mk t (.forEach var iterable left))
        | some element =>
          let loop := relabel labels (.plain (.whileLoop (iteratorCall x "hasNext") block))
          .done (loopBlock t.line [iteratorDecl element iterable x, loop])
  | loop => .done loop

end LoopLowering.Loops
