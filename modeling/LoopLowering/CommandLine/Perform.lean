import LoopLowering.CommandLine.Invocation
import LoopLowering.CommandLine.Source
import LoopLowering.Grammar.Entry
import LoopLowering.Layout.Unit

/-!
What the commands print. Errors of the sources and of a running program end a command with a
message; what was printed before stays.
-/

namespace LoopLowering.CommandLine

/-- A failure that a command has no message for. -/
inductive Escape where
  | fault (f : Fault)
  | layout (e : LayoutError)
  | signal (s : Machine.Signal) (heap : Machine.Heap)

inductive Trouble where
  | reported (message : String)
  | escaped (e : Escape)

structure Printed where
  out : String := ""
  err : String := ""
  deriving DecidableEq, Repr

abbrev Work := EStateM Trouble Printed

def say (text : String) : Work Unit := modify fun p => { p with out := p.out ++ text }

def warn (text : String) : Work Unit := modify fun p => { p with err := p.err ++ text }

def sayLine (text : String) : Work Unit := say (text ++ "\n")

def report {α : Type} (d : Diagnostic) : Work α := throw (.reported d.render)

def separator : String := "".pushn '-' 40

def parseSource (verbose : Bool) (name text : String) : Work Node := do
  match parse .unit text with
  | .ok n =>
    if verbose then warn (name ++ ": análise sintática concluída com sucesso.\n")
    return n
  | .error (.rejected d) => report { d with file := some name }
  | .error (.fault f) => throw (.escaped (.fault f))

def readFile (src : Sources) (path : String) : Work String :=
  match src.file path with
  | .ok text => pure text
  | .error e => throw (.reported e.message)

def forSources (src : Sources) (act : String → String → Work Unit) : List String → Work Unit
  | [] => act "<stdin>" src.input
  | files => files.forM fun path => do act path (← readFile src path)

def runPass (p : Pass) (n : Node) : Work Node :=
  match p.run n with
  | .ok n => pure n
  | .error f => throw (.escaped (.fault f))

def sayCode (n : Node) : Work Unit :=
  match javaText n with
  | .ok text => sayLine text
  | .error e => throw (.escaped (.layout e))

def sayLowered (verbose : Bool) (tab : Int) (listing : Bool) (pass : Pass) (name text : String) :
    Work Unit := do
  let n ← parseSource verbose name text
  if listing then
    sayLine (n.outline tab 0)
    sayLine separator
  sayCode (← runPass pass n)
  if listing then sayLine separator

/-- Prints what a finished run printed; the output of a failed run is lost. -/
def sayOutcome (o : Machine.Outcome) : Work Unit :=
  match o.signal with
  | none => say o.state.out
  | some (.failed e) => report e.diagnostic
  | some s => throw (.escaped (.signal s o.state.heap))

def sayRun (verbose : Bool) (method : String) (className : Option String) (pass : Pass)
    (limit : Int) (name text : String) : Work Unit := do
  let n ← runPass pass (← parseSource verbose name text)
  sayOutcome (Machine.runTree n limit method className)

def namedFile : Option String → List String
  | none | some "" => []
  | some path => [path]

def perform (src : Sources) (inv : Invocation) : Work Unit :=
  match inv.command with
  | .dump files tab =>
    forSources src (fun name text => do
      sayLine ((← parseSource inv.verbose name text).outline tab 0)) files
  | .lower files tab listing pass =>
    forSources src (sayLowered inv.verbose tab listing pass) files
  | .run file method className pass limit =>
    forSources src (sayRun inv.verbose method className pass limit) (namedFile file)

inductive Ending where
  | exit (status : Nat)
  | escaped (e : Escape)

def execute (src : Sources) (args : List String) : Printed × Ending :=
  match readInvocation false args with
  | .error e => ({ err := e.message ++ "\n" }, .exit e.status)
  | .ok inv =>
    match perform src inv {} with
    | .ok _ p => (p, .exit 0)
    | .error (.reported m) p => ({ p with err := p.err ++ "erro: " ++ m ++ "\n" }, .exit 1)
    | .error (.escaped e) p => (p, .escaped e)

def filesOf (args : List String) : List String :=
  match readInvocation false args with
  | .error _ => []
  | .ok inv =>
    match inv.command with
    | .dump files _ | .lower files .. => files
    | .run file .. => namedFile file

end LoopLowering.CommandLine
