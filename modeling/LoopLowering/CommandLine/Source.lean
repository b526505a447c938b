import LoopLowering.Text.Quoted

/-!
Where the commands read from: named files and the standard input.
-/

namespace LoopLowering.CommandLine

inductive FileError where
  | missing (path : String)
  | notDirectory (path : String)
  | directory (path : String)
  deriving DecidableEq, Repr

def FileError.message : FileError → String
  | missing p => "[Errno 2] No such file or directory: " ++ Text.quoted p
  | notDirectory p => "[Errno 20] Not a directory: " ++ Text.quoted p
  | directory p => "[Errno 21] Is a directory: " ++ Text.quoted p

def unifyLineEnds : List Char → List Char
  | [] => []
  | '\r' :: '\n' :: cs => '\n' :: unifyLineEnds cs
  | '\r' :: cs => '\n' :: unifyLineEnds cs
  | c :: cs => c :: unifyLineEnds cs

structure Sources where
  file : String → Except FileError String
  input : String

structure Directory where
  files : List (String × String)

namespace Directory

def steps (path : String) : List String := (path.splitOn "/").filter fun s => s ≠ "" && s ≠ "."

def endsInside (path : String) : Bool :=
  match path.toList.reverse with
  | '/' :: _ => true
  | '.' :: '/' :: _ => true
  | _ => false

def find? (d : Directory) (steps : List String) : Option String :=
  (d.files.find? fun f => Directory.steps f.1 = steps).map (·.2)

def leadsTo (d : Directory) (steps : List String) : Bool :=
  steps.all (· = "..") || d.files.any fun f => steps.isPrefixOf (Directory.steps f.1)

def isBlocked (d : Directory) (steps : List String) : Bool :=
  d.files.any fun f => (Directory.steps f.1).isPrefixOf steps

def read (d : Directory) (path : String) : Except FileError String :=
  let steps := Directory.steps path
  if path = "" then .error (.missing path)
  else
    match d.find? steps with
    | some text =>
      if endsInside path then .error (.notDirectory path)
      else .ok (String.ofList (unifyLineEnds text.toList))
    | none =>
      if d.leadsTo steps then .error (.directory path)
      else if d.isBlocked steps then .error (.notDirectory path)
      else .error (.missing path)

end Directory

end LoopLowering.CommandLine
