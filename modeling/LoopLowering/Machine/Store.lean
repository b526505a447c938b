import LoopLowering.Machine.Signal

/-!
What running code shares between its methods: the objects, the static fields and what was printed.
Operations on the store know nothing of variables and count no steps. One that fails keeps the
changes made before.
-/

namespace LoopLowering.Machine

structure Store where
  heap : Heap := {}
  statics : List (String × Bindings) := []
  out : String := ""
  err : String := ""

abbrev StoreM := EStateM Signal Store

variable {α : Type}

def raise (f : Fault) : StoreM α := throw (.fault f)

def fail (e : RunError) : StoreM α := throw (.failed e)

def faultless (r : Except Fault α) : StoreM α :=
  match r with
  | .ok a => pure a
  | .error f => raise f

def orRaise (f : Fault) : Option α → StoreM α
  | some a => pure a
  | none => raise f

/-- What a computation along the objects gives; one without end is exhausted. -/
def finite : Option α → StoreM α
  | some a => pure a
  | none => throw .exhausted

def allocIndex (o : Object) : StoreM Nat := fun st =>
  .ok st.heap.objects.size
    { st with heap := { st.heap with objects := st.heap.objects.push o } }

def alloc (o : Object) : StoreM Value := return .ref (.object (← allocIndex o))

def store (index : Nat) (o : Object) : StoreM Unit :=
  modify fun st =>
    { st with heap := { st.heap with objects := st.heap.objects.setIfInBounds index o } }

def allocIterator (list : Nat) : StoreM Value := fun st =>
  .ok (.ref (.iterator st.heap.iterators.size))
    { st with heap := { st.heap with iterators := st.heap.iterators.push ⟨list, 0⟩ } }

def storeIterator (index : Nat) (c : Cursor) : StoreM Unit :=
  modify fun st =>
    { st with heap := { st.heap with iterators := st.heap.iterators.setIfInBounds index c } }

def allocPlanar (z : Number.Planar) : StoreM Value := fun st =>
  .ok (.ref (.complex st.heap.complexes.size))
    { st with heap := { st.heap with complexes := st.heap.complexes.push z } }

def heap : StoreM Heap := return (← get).heap

def shown (v : Value) : StoreM String := do finite (display? (← heap) v)

def throwException (name : String) (message : Option String) : StoreM α := do
  throw (.thrown (← alloc (.exception name message)))

def print (toErrors : Bool) (text : String) : StoreM Unit :=
  modify fun st =>
    if toErrors then { st with err := st.err ++ text } else { st with out := st.out ++ text }

def Store.statics? (st : Store) (className : String) : Bindings :=
  (st.statics.lookup className).getD []

def putStatics (all : List (String × Bindings)) (className name : String) (v : Value)
    (origin : Origin) : List (String × Bindings) :=
  match all with
  | [] => [(className, [.create name v origin])]
  | c :: cs =>
    if c.1 = className then (c.1, c.2.put name v origin) :: cs
    else c :: putStatics cs className name v origin

def setStatic (className name : String) (v : Value) (origin : Origin) : StoreM Unit :=
  modify fun st => { st with statics := putStatics st.statics className name v origin }

def Store.fields (st : Store) (index : Nat) : Bindings :=
  match st.heap.objects[index]? with
  | some (.record _ fields) => fields
  | _ => []

def setField (index : Nat) (name : String) (v : Value) (origin : Origin) : StoreM Unit := do
  match (← heap).objects[index]? with
  | some (.record c fields) => store index (.record c (fields.put name v origin))
  | _ => pure ()

end LoopLowering.Machine
