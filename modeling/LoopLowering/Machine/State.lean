import LoopLowering.Machine.Store

/-!
The state of a running program: the store, the variables of the method in execution and the number
of steps. What happened on the way and no answer shows is kept as incidents; nothing reads them
while a program runs.
-/

namespace LoopLowering.Machine

/-- The variables of a method in execution, the innermost scope first. -/
structure Frame where
  className : String
  this : Option Nat := none
  scopes : List Bindings := [[]]

inductive Incident where
  /-- A failure or jump left the initialization of an object, whose frame stays. -/
  | brokenCreation
  /-- The arguments of a call could not be bound, and the new frame stays. -/
  | brokenBinding
  /-- A loop over elements met something that is neither a list nor null. -/
  | foreignIteration
  deriving DecidableEq, Repr

structure State extends Store where
  frame : Frame := { className := "" }
  steps : Nat := 0
  incidents : List Incident := []

abbrev Exec := EStateM Signal State

instance : MonadLift StoreM Exec where
  -- The state gives its store away, so that the heap is changed in place.
  monadLift c := fun st =>
    let s := st.toStore
    let rest := { st with toStore := {} }
    match c s with
    | .ok a s => .ok a { rest with toStore := s }
    | .error e s => .error e { rest with toStore := s }

variable {α β : Type}

def tick (limit : Int) : Exec Unit := do
  modify fun st => { st with steps := st.steps + 1 }
  if ((← get).steps : Int) > limit then fail (.stepLimit limit)

def note (i : Incident) : Exec Unit :=
  modify fun st => { st with incidents := i :: st.incidents }

@[inline] def noting (i : Incident) (body : Exec α) : Exec α := fun st =>
  match body st with
  | .ok a st => .ok a st
  | .error e st => .error e { st with incidents := i :: st.incidents }

def getFrame : Exec Frame := return (← get).frame

def setFrame (f : Frame) : Exec Unit := modify fun st => { st with frame := f }

/-- Runs `last` after `body`, however `body` ends; a failure of `last` wins. -/
@[inline] def ensuring (body : Exec α) (last : Exec Unit) : Exec α := fun st =>
  match body st with
  | .ok a st =>
    match last st with
    | .ok _ st => .ok a st
    | .error e st => .error e st
  | .error .exhausted st => .error .exhausted st
  | .error e st =>
    match last st with
    | .ok _ st => .error e st
    | .error e st => .error e st

def pushScope (bs : Bindings) : Exec Unit :=
  modify fun st => { st with frame := { st.frame with scopes := bs :: st.frame.scopes } }

def popScope : Exec Unit := fun st =>
  match st.frame.scopes with
  | [] => .error (.fault .badIndex) st
  | _ :: scopes => .ok () { st with frame := { st.frame with scopes } }

@[inline] def inScope (bs : Bindings) (body : Exec α) : Exec α := do
  pushScope bs
  ensuring body popScope

def declare (name : String) (v : Value) (type : Option TypeInfo := none) : Exec Unit := fun st =>
  match st.frame.scopes with
  | [] => .error (.fault .badIndex) st
  | bs :: scopes =>
    .ok () { st with frame :=
      { st.frame with scopes := bs.put name v (.declaration type) :: scopes } }

inductive Binding where
  | scope (depth : Nat)
  | field (object : Nat)
  | static (className : String)
  deriving DecidableEq, Repr

/-- The binding of a name: the innermost scope that has it, a field of this object, or a static
field of the class. -/
def State.resolve (st : State) (name : String) : Option Binding :=
  match st.frame.scopes.findIdx? fun bs => (bs.lookup name).isSome with
  | some d => some (.scope d)
  | none =>
    match st.frame.this.filter fun a => ((st.fields a).lookup name).isSome with
    | some a => some (.field a)
    | none =>
      if ((st.statics? st.frame.className).lookup name).isSome then
        some (.static st.frame.className)
      else none

def State.valueOf (st : State) (name : String) : Binding → Option Value
  | .scope d => (st.frame.scopes[d]?).bind (·.lookup name)
  | .field a => (st.fields a).lookup name
  | .static c => (st.statics? c).lookup name

def assignName (name : String) (v : Value) (origin : Origin) : Exec Unit := do
  match (← get).resolve name with
  | some (.scope d) =>
    modify fun st =>
      { st with frame :=
        { st.frame with scopes := st.frame.scopes.modify d (·.put name v origin) } }
  | some (.field a) => setField a name v origin
  | some (.static c) => setStatic c name v origin
  | none => fail (.undeclared name)

end LoopLowering.Machine
