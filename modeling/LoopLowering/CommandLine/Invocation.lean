import LoopLowering.CommandLine.Switch
import LoopLowering.Loops.Lowering
import LoopLowering.Machine.Run
import LoopLowering.Number.Numeral
import LoopLowering.Tree.Outline

/-!
The commands of the program and how arguments ask for them.
-/

namespace LoopLowering.CommandLine

inductive Command where
  | dump (files : List String) (tab : Int)
  | lower (files : List String) (tab : Int) (listing : Bool) (pass : Pass)
  | run (file : Option String) (method : String) (className : Option String) (pass : Pass)
      (limit : Int)
  deriving DecidableEq, Repr

structure Invocation where
  verbose : Bool
  command : Command
  deriving DecidableEq, Repr

def Switch.valued (name : String) : Switch := { name, takesValue := true }

def Switch.flag (name : String) : Switch := { name }

def mainSwitches : List Switch := [.help, { name := "--verbose", short := some 'v' }]

def dumpSwitches : List Switch := [.help, .valued "--tab-size"]

def lowerSwitches : List Switch :=
  [.help, .valued "--tab-size", .flag "--no-dump", .valued "--only"]

def runSwitches : List Switch :=
  [.help, .valued "--method", .valued "--class", .flag "--desugar", .valued "--max-steps"]

def Given.number (g : Given) (name : String) (absent : Int) : Except UsageError Int := do
  let ns ← (g.values name).mapM fun s =>
    match Number.readInt? s with
    | some n => Except.ok n
    | none => .error (.badValue name s)
  return ns.getLast?.getD absent

def passNamed (name : String) : String → Except UsageError Pass
  | "for" => .ok .forLoops
  | "foreach" => .ok .forEachLoops
  | s => .error (.badValue name s)

def Given.pass (g : Given) (name : String) : Except UsageError Pass := do
  return ((← (g.values name).mapM (passNamed name)).getLast?).getD .all

def readDump (args : List String) : Except UsageError Command := do
  let g ← readArguments dumpSwitches .before args
  return .dump g.operands (← g.number "--tab-size" Node.defaultTab)

def lowerTab : Int := 4

def readLower (args : List String) : Except UsageError Command := do
  let g ← readArguments lowerSwitches .before args
  return .lower g.operands (← g.number "--tab-size" lowerTab) (!g.has "--no-dump")
    (← g.pass "--only")

def Given.single (g : Given) : Except UsageError (Option String) :=
  match g.operands with
  | [] => .ok none
  | [a] => .ok (some a)
  | _ :: a :: _ => .error (.unexpectedOperand a)

def readRun (args : List String) : Except UsageError Command := do
  let g ← readArguments runSwitches .before args
  return .run (← g.single) ((g.last? "--method").getD "main") (g.last? "--class")
    (if g.has "--desugar" then .all else .none) (← g.number "--max-steps" Machine.defaultLimit)

def readCommand (name : String) (args : List String) : Except UsageError Command :=
  match name with
  | "dump" => readDump args
  | "desugar" => readLower args
  | "run" => readRun args
  | name => .error (.unknownCommand name)

def readInvocation (verbose : Bool) : List String → Except UsageError Invocation
  | [] => .error .missingCommand
  | a :: rest => do
    if a = "--" then throw (.unknownCommand a)
    match ← classify mainSwitches a with
    | .operand name => return ⟨verbose, ← readCommand name rest⟩
    | .switch s none =>
      let _ ← flagGiven s
      readInvocation true rest
    | .switch s (some _) => throw (.unexpectedValue s.name)
    | .cluster ss =>
      let _ ← ss.mapM flagGiven
      readInvocation true rest

end LoopLowering.CommandLine
