import LoopLowering.Number.Planar

/-!
Values of running programs and the objects that they refer to. Objects, iterators and complex
numbers are kept apart, so that the address of an object does not depend on how many of the others
there are. Texts and hashes that show an address show its number here; which number a real run shows
is left open by the language.
-/

namespace LoopLowering.Machine

inductive Address where
  | object (index : Nat)
  | iterator (index : Nat)
  | complex (index : Nat)
  deriving DecidableEq, Repr, Inhabited

namespace Address

def shown : Address → String
  | object i => toString i
  | iterator _ => "iterator"
  | complex _ => "complex"

def code : Address → Nat
  | object i => i
  | iterator _ | complex _ => 0

end Address

inductive Value where
  | null
  | bool (b : Bool)
  | int (n : Int)
  | float (x : Float)
  | text (s : String)
  /-- A character; odd literals hold none or two. -/
  | char (s : String)
  | ref (address : Address)
  deriving Inhabited

structure TypeInfo where
  name : String
  dims : Nat
  deriving DecidableEq, Repr

/-- A variable or field. Its declared type and where its value comes from are kept beside the value;
no rule of the language looks at them. -/
structure Variable where
  name : String
  value : Value
  type : Option TypeInfo := none
  loose : Bool := false

/-- How a value comes to a variable: with its declaration, or by an assignment that stores a given
value or one made of the value that its target had. -/
inductive Origin where
  | declaration (type : Option TypeInfo)
  | plain
  | operator (old : Value)

def Value.alike (v w : Value) : Bool :=
  match v with
  | bool _ => false
  | int _ => (w matches int _)
  | float _ => (w matches float _)
  | char _ => (w matches char _)
  | null | text _ | ref _ => (w matches null | text _ | ref _)

namespace Variable

def create (name : String) (v : Value) : Origin → Variable
  | .declaration t => ⟨name, v, t, false⟩
  | _ => ⟨name, v, none, true⟩

def give (x : Variable) (v : Value) : Origin → Variable
  | .declaration t => ⟨x.name, v, t, false⟩
  | .plain => { x with value := v, loose := true }
  | .operator old => { x with value := v, loose := x.loose || !old.alike x.value }

@[simp] theorem give_name (x : Variable) (v : Value) (origin : Origin) :
    (x.give v origin).name = x.name := by
  cases origin <;> rfl

@[simp] theorem give_value (x : Variable) (v : Value) (origin : Origin) :
    (x.give v origin).value = v := by
  cases origin <;> rfl

@[simp] theorem create_name (name : String) (v : Value) (origin : Origin) :
    (create name v origin).name = name := by
  cases origin <;> rfl

@[simp] theorem create_value (name : String) (v : Value) (origin : Origin) :
    (create name v origin).value = v := by
  cases origin <;> rfl

end Variable

abbrev Bindings := List Variable

namespace Bindings

def lookup (bs : Bindings) (name : String) : Option Value :=
  match bs with
  | [] => none
  | b :: bs => if b.name = name then some b.value else lookup bs name

def put (bs : Bindings) (name : String) (v : Value) (origin : Origin) : Bindings :=
  match bs with
  | [] => [.create name v origin]
  | b :: bs => if b.name = name then b.give v origin :: bs else b :: put bs name v origin

end Bindings

inductive Object where
  | array (items : Array Value)
  | list (items : Array Value) (immutable : Bool)
  | iterator (list position : Nat)
  | builder (text : String)
  | exception (name : String) (message : Option String)
  | record (className : String) (fields : Bindings)
  | classRef (name : String)
  | stream (toErrors : Bool)

structure Cursor where
  list : Nat
  position : Nat
  deriving DecidableEq, Repr

structure Heap where
  objects : Array Object := #[]
  iterators : Array Cursor := #[]
  complexes : Array Number.Planar := #[]

namespace Heap

def get? (h : Heap) : Address → Option Object
  | .object i => h.objects[i]?
  | .iterator i => h.iterators[i]?.map fun c => .iterator c.list c.position
  | .complex _ => none

instance : GetElem? Heap Address Object fun h a => (h.get? a).isSome where
  getElem h a valid := (h.get? a).get valid
  getElem? h a := h.get? a

end Heap

namespace Value

def object? (h : Heap) : Value → Option Object
  | ref a => h[a]?
  | _ => none

def array? (h : Heap) (v : Value) : Option (Array Value) :=
  match v.object? h with
  | some (.array items) => some items
  | _ => none

theorem objects_of_array? {h : Heap} {i : Nat} {items : Array Value}
    (hitems : (ref (.object i)).array? h = some items) :
    h.objects[i]? = some (.array items) := by
  have hitems : (match h.objects[i]? with
    | some (.array items) => some items
    | _ => none) = some items := hitems
  split at hitems
  · cases hitems
    assumption
  · cases hitems

def list? (h : Heap) (v : Value) : Option (Array Value) :=
  match v.object? h with
  | some (.list items _) => some items
  | _ => none

def planar? (h : Heap) : Value → Option Number.Planar
  | ref (.complex i) => h.complexes[i]?
  | _ => none

def text? : Value → Option String
  | text s | char s => some s
  | _ => none

def isNumeric : Value → Bool
  | int _ | float _ | char _ => true
  | _ => false

def isChar : Value → Bool
  | char _ => true
  | _ => false

def isPlain : Value → Bool
  | bool _ | text _ | char _ => true
  | _ => false

def holds (h : Heap) (v : Value) : Bool :=
  match v with
  | null => false
  | bool b => b
  | int n => n ≠ 0
  | float x => x != 0
  | text s | char s => s ≠ ""
  | ref _ =>
    match v.array? h with
    | some items => !items.isEmpty
    | none => (v.planar? h).all (!·.isZero)

def plain : Value → String
  | null => "None"
  | bool b => if b then "True" else "False"
  | int n => toString n
  | float x => Number.FloatStyle.source.format x
  | text s | char s => s
  | ref a => a.shown

end Value

def displayObject (h : Heap) (a : Address) : String :=
  match h[a]? with
  | some (.builder s) => s
  | some (.exception name none) => name
  | some (.exception name (some m)) => name ++ ": " ++ m
  | some (.record name _) => name ++ "@" ++ a.shown
  | some (.array _) => "[@" ++ a.shown
  | _ => (((Value.ref a).planar? h).map Number.Planar.text).getD ("@" ++ a.shown)

def displayAt (h : Heap) : (depth : Nat) → Value → Option String
  | _, .null => some "null"
  | _, .bool b => some (if b then "true" else "false")
  | _, .int n => some (toString n)
  | _, .float x => some (Number.FloatStyle.display.format x)
  | _, .text s | _, .char s => some s
  | 0, .ref _ => none
  | d + 1, .ref a =>
    match h[a]? with
    | some (.list items _) => do
      return "[" ++ ", ".intercalate (← items.toList.mapM (displayAt h d)) ++ "]"
    | _ => some (displayObject h a)

/-- The text of a value; a list that contains itself has none. -/
def display? (h : Heap) (v : Value) : Option String := displayAt h (h.objects.size + 1) v

def display (h : Heap) (v : Value) : String := (display? h v).getD ""

end LoopLowering.Machine
