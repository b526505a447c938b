import LoopLowering.Machine.Evaluation

/-!
Running programs: static fields first, then a method. The state at the end is kept also when a run
fails, and a session goes on with it.
-/

namespace LoopLowering.Machine

structure Outcome where
  state : State
  signal : Option Signal

def Outcome.of {α : Type} (run : Exec α) (st : State) : Outcome :=
  match run st with
  | .ok _ st => ⟨st, none⟩
  | .error e st => ⟨st, some e⟩

structure Setup where
  program : Program
  limit : Int

def defaultLimit : Int := 1000000

namespace Evaluator

variable (ev : Evaluator)

def initClasses : List ClassInfo → Exec Unit
  | [] => return
  | c :: cs => do
    ev.initStatics c
    initClasses cs

def entryClass (method : String) : Option String → Option ClassInfo
  | some c => ev.program.class? c
  | none => ev.program.classes.find? fun c => (c.firstMethod? method).isSome

def entry (method : String) (className : Option String) : Exec (ClassInfo × Routine) := do
  match ev.entryClass method className with
  | some c =>
    match c.firstMethod? method with
    | some r => return (c, r)
    | none => fail (.methodNotFound method)
  | none => fail (.methodNotFound method)

def entryArguments (r : Routine) : Option (List Value) → StoreM (List Value)
  | some args => return args
  | none => times (alloc (.array #[])) r.params.length

/-- Turns an exception that nothing caught into an error of the program. -/
def reportUncaught (body : Exec Value) : Exec Unit := fun st =>
  match body st with
  | .ok _ st => .ok () st
  | .error (.thrown v) st =>
    match display? st.heap v with
    | some text => .error (.failed (.uncaught text)) st
    | none => .error .exhausted st
  | .error e st => .error e st

def run (method : String) (className : Option String) (args : Option (List Value)) :
    Exec Unit := do
  let (c, r) ← ev.entry method className
  let args ← entryArguments r args
  let this ← if r.isStatic then pure none else do pure (some (← ev.instantiate c []))
  reportUncaught (ev.invoke c.name r this args)

def enter (className : String) (new : Option (List Value)) : Exec Unit := do
  let c := (ev.program.class? className).getD ⟨className, []⟩
  let this ← match new with
    | some args => do pure (some (← ev.instantiate c args))
    | none => pure none
  setFrame { className, this }

end Evaluator

namespace Setup

variable (s : Setup)

def evaluatorFor (phrase : Nat) : Evaluator := evaluator s.program s.limit phrase

def boot : Exec Unit := (s.evaluatorFor 0).initClasses s.program.classes

def enterFirst : Exec Unit :=
  match s.program.classes with
  | [] => return
  | c :: _ => setFrame { className := c.name }

def eval (e : Node) : Exec Value := (s.evaluatorFor e.size).eval e

def exec (stmt : Node) : Exec Unit := (s.evaluatorFor stmt.size).exec [] stmt

def run (method : String) (className : Option String) (args : Option (List Value)) : Exec Unit :=
  (s.evaluatorFor 0).run method className args

def enter (className : String) (new : Option (List Value)) : Exec Unit :=
  (s.evaluatorFor 0).enter className new

def execute (method : String) (className : Option String) : Outcome :=
  Outcome.of (do s.boot; s.run method className none) {}

end Setup

def runTree (n : Node) (limit : Int) (method : String) (className : Option String) : Outcome :=
  match Program.ofTree n with
  | .ok program => Setup.execute ⟨program, limit⟩ method className
  | .error f => ⟨{}, some (.fault f)⟩

end LoopLowering.Machine
