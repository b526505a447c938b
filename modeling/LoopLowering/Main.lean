import LoopLowering.CommandLine.Perform

/-!
The program: reads its files, prints what the command prints, and gives the exit status.
-/

open LoopLowering.CommandLine

def readSource (path : String) : IO (String × Except FileError String) := do
  try
    let text ← IO.FS.readFile path
    return (path, .ok (String.ofList (unifyLineEnds text.toList)))
  catch
    | .inappropriateType _ 21 _ => return (path, .error (.directory path))
    | .inappropriateType .. => return (path, .error (.notDirectory path))
    | _ => return (path, .error (.missing path))

def readInput : IO String := do
  let bytes ← (← IO.getStdin).readBinToEnd
  return (String.fromUTF8? bytes).getD ""

def main (args : List String) : IO UInt32 := do
  let files := filesOf args
  let texts ← files.mapM readSource
  let input ← if files.isEmpty then readInput else pure ""
  let file (path : String) : Except FileError String :=
    (texts.lookup path).getD (.error (.missing path))
  let (printed, ending) := execute ⟨file, input⟩ args
  IO.print printed.out
  IO.eprint printed.err
  match ending with
  | .exit status => return status.toUInt32
  | .escaped _ =>
    IO.eprintln "erro interno"
    return 1
