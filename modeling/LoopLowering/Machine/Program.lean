import LoopLowering.Machine.Convert

/-!
What a program declares: its classes, also those inside other classes, and their methods and
constructors. A class declared twice counts as its last declaration.
-/

namespace LoopLowering.Machine

structure Routine where
  name : String
  isStatic : Bool
  params : List Node
  body : Option Node

structure ClassInfo where
  name : String
  members : List Node

structure Program where
  classes : List ClassInfo

def isStatic (modifiers : List Word) : Bool := modifiers.contains (.text "static")

def method? (n : Node) : Option Routine :=
  match n.shape with
  | .methodDecl modifiers _ name _ params _ body =>
    some ⟨name, isStatic modifiers, params, body⟩
  | _ => none

def constructor? (n : Node) : Option Routine :=
  match n.shape with
  | .constructorDecl _ name params _ body => some ⟨name, false, params, some body⟩
  | _ => none

namespace ClassInfo

def methods (c : ClassInfo) : List Routine := c.members.filterMap method?

def firstMethod? (c : ClassInfo) (name : String) : Option Routine :=
  c.methods.find? (·.name = name)

def findMethod? (c : ClassInfo) (name : String) (count : Nat) : Option Routine :=
  c.methods.find? fun r => r.name = name && r.params.length = count

def findConstructor? (c : ClassInfo) (count : Nat) : Option Routine :=
  (c.members.filterMap constructor?).find? (·.params.length = count)

end ClassInfo

mutual

def classesOf : Node → List ClassInfo
  | .mk _ s => classesOfShape s
termination_by structural n => n

def classesOfShape : Shape Node → List ClassInfo
  | .classDecl _ _ name _ _ _ members => ⟨name, members⟩ :: classesIn members
  | _ => []
termination_by structural s => s

def classesIn : List Node → List ClassInfo
  | [] => []
  | d :: ds => classesOf d ++ classesIn ds
termination_by structural ds => ds

end

def putClass (c : ClassInfo) : List ClassInfo → List ClassInfo
  | [] => [c]
  | d :: ds => if d.name = c.name then c :: ds else d :: putClass c ds

namespace Program

def ofDeclarations (ds : List Node) : Program where
  classes := (classesIn ds).foldl (fun cs c => putClass c cs) []

def ofTree (n : Node) : Except Fault Program :=
  match n.shape with
  | .unit _ _ types | .catchClause _ _ types _ => .ok (ofDeclarations types)
  | _ => .error .noSuchPart

def class? (p : Program) (name : String) : Option ClassInfo :=
  p.classes.find? (·.name = name)

def declares (p : Program) (name : String) : Bool := (p.class? name).isSome

def size (p : Program) : Nat :=
  Number.total (p.classes.map fun c => Number.total (c.members.map Node.size))

end Program

end LoopLowering.Machine
