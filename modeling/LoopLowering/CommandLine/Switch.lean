import LoopLowering.Text.Digit

/-!
Arguments of a command: switches and operands. A switch may be cut to any beginning that no other
switch shares, its value stands after `=` or in the next argument, and short switches can be
joined. All operands stand together; after `--` there are operands only.
-/

namespace LoopLowering.CommandLine

inductive UsageError where
  | help
  | unknownSwitch (text : String)
  | ambiguousSwitch (text : String)
  | missingValue (name : String)
  | unexpectedValue (name : String)
  | badValue (name text : String)
  | unexpectedOperand (text : String)
  | missingCommand
  | unknownCommand (name : String)
  deriving DecidableEq, Repr

namespace UsageError

def message : UsageError → String
  | help => "usage: [-v] dump|desugar|run [options] [files]"
  | unknownSwitch s | unexpectedOperand s => "unrecognized arguments: " ++ s
  | ambiguousSwitch s => "ambiguous option: " ++ s
  | missingValue n => "argument " ++ n ++ ": expected one argument"
  | unexpectedValue n => "argument " ++ n ++ ": ignored explicit argument"
  | badValue n s => "argument " ++ n ++ ": invalid value: " ++ s
  | missingCommand => "a command is required"
  | unknownCommand n => "invalid command: " ++ n

def status : UsageError → Nat
  | help => 0
  | _ => 2

end UsageError

structure Switch where
  name : String
  short : Option Char := none
  takesValue : Bool := false
  deriving DecidableEq, Repr

def Switch.help : Switch := { name := "--help", short := some 'h' }

inductive Argument where
  | operand (text : String)
  | switch (s : Switch) (value : Option String)
  | cluster (ss : List Switch)

def splitValue (cs : List Char) : List Char × Option (List Char) :=
  match cs.dropWhile (· ≠ '=') with
  | [] => (cs, none)
  | _ :: value => (cs.takeWhile (· ≠ '='), some value)

def isNegativeNumber : List Char → Bool
  | '-' :: cs =>
    let cs := if cs.getLast? = some '\n' then cs.dropLast else cs
    match cs.dropWhile Text.isDecimal with
    | [] => !cs.isEmpty
    | '.' :: fraction => !fraction.isEmpty && fraction.all Text.isDecimal
    | _ => false
  | _ => false

def candidates (switches : List Switch) (start : List Char) : List Switch :=
  switches.filter fun s => start.isPrefixOf s.name.toList

def shortSwitch (switches : List Switch) (text : String) (c : Char) : Except UsageError Switch :=
  match switches.find? (·.short = some c) with
  | some s => .ok s
  | none => .error (.unknownSwitch text)

def classifyOther (switches : List Switch) (text : String) : Except UsageError Argument :=
  let otherwise : Except UsageError Argument :=
    if isNegativeNumber text.toList || text.toList.contains ' ' then .ok (.operand text)
    else .error (.unknownSwitch text)
  let (start, value) := splitValue text.toList
  match text.toList with
  | '-' :: '-' :: _ =>
    match candidates switches start with
    | [s] => .ok (.switch s (value.map String.ofList))
    | [] => otherwise
    | _ => .error (.ambiguousSwitch text)
  | '-' :: c :: cs =>
    if switches.any (·.short = some c) then do
      return .cluster (← (c :: cs).mapM (shortSwitch switches text))
    else otherwise
  | _ => .ok (.operand text)

def Switch.isNamed (s : Switch) (cs : List Char) : Bool :=
  s.name.toList = cs || (s.short.map fun c => ['-', c]) = some cs

def classify (switches : List Switch) (text : String) : Except UsageError Argument :=
  let (start, value) := splitValue text.toList
  match switches.find? (·.isNamed start) with
  | some s => .ok (.switch s (value.map String.ofList))
  | none => classifyOther switches text

structure Given where
  switches : List (String × String) := []
  operands : List String := []
  deriving DecidableEq, Repr

namespace Given

def values (g : Given) (name : String) : List String :=
  (g.switches.filter (·.1 = name)).map (·.2)

def last? (g : Given) (name : String) : Option String := (g.values name).getLast?

def has (g : Given) (name : String) : Bool := (g.last? name).isSome

def withSwitch (g : Given) (name value : String) : Given :=
  { g with switches := (name, value) :: g.switches }

end Given

inductive Phase where
  | before | within | after
  deriving DecidableEq, Repr

def Phase.afterSwitch : Phase → Phase
  | before => before
  | _ => after

def flagGiven (s : Switch) : Except UsageError String :=
  if s = Switch.help then .error .help
  else if s.takesValue then .error (.missingValue s.name)
  else .ok s.name

def isOperand (switches : List Switch) (text : String) : Bool :=
  text ≠ "--" && (classify switches text matches .ok (.operand _))

def readArguments (switches : List Switch) : Phase → List String → Except UsageError Given
  | _, [] => .ok {}
  | phase, a :: rest => do
    if a = "--" then
      if phase = .after then throw (.unexpectedOperand a) else return { operands := rest }
    match ← classify switches a with
    | .operand text =>
      if phase = .after then throw (.unexpectedOperand text)
      let g ← readArguments switches .within rest
      return { g with operands := text :: g.operands }
    | .switch s (some value) =>
      if !s.takesValue then throw (.unexpectedValue s.name)
      return (← readArguments switches phase.afterSwitch rest).withSwitch s.name value
    | .switch s none =>
      if s.takesValue then
        match rest with
        | [] => throw (.missingValue s.name)
        | value :: rest =>
          if !isOperand switches value then throw (.missingValue s.name)
          return (← readArguments switches phase.afterSwitch rest).withSwitch s.name value
      else
        let name ← flagGiven s
        return (← readArguments switches phase.afterSwitch rest).withSwitch name ""
    | .cluster ss =>
      let names ← ss.mapM flagGiven
      let g ← readArguments switches phase.afterSwitch rest
      return names.foldr (fun n g => g.withSwitch n "") g

end LoopLowering.CommandLine
