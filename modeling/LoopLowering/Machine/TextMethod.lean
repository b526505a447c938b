import LoopLowering.Machine.Sequence
import LoopLowering.Text.Blank
import LoopLowering.Text.Case

/-!
Methods of strings. Positions count characters.
-/

namespace LoopLowering.Machine

namespace TextMethod

def charAt (s : String) (args : List Value) : StoreM Value := do
  let i ← argument args 0
  let p ← checkedPosition s.length i (throwException "StringIndexOutOfBoundsException" none)
  let c ← orRaise .badIndex s.toList[p]?
  return .char (String.singleton c)

def equals (s : String) (args : List Value) : StoreM Value := do
  return .bool ((← argument args 0).text? = some s)

def equalsIgnoreCase (s : String) (args : List Value) : StoreM Value := do
  let lower (s : String) := Text.toLower s.toList
  return .bool ((← argument args 0).text?.map lower = some (lower s))

def substring (s : String) (args : List Value) : StoreM Value := do
  let cs := s.toList
  let size := cs.length
  let start ← faultless (cutAt size 0 (← argument args 0))
  let stop ← match args with
    | [_, b] => faultless (cutAt size size b)
    | _ => pure size
  return .text (String.ofList (cut cs start stop))

def find? (part : List Char) : List Char → Option Nat
  | [] => if part.isEmpty then some 0 else none
  | c :: cs => if part.isPrefixOf (c :: cs) then some 0 else (find? part cs).map (· + 1)

def occurrence (s : String) (args : List Value) : StoreM (Option Nat) := do
  return find? (← shown (← argument args 0)).toList s.toList

def textArgument (args : List Value) : StoreM String := do
  orRaise .wrongKind (← argument args 0).text?

def signOf : Ordering → Int
  | .lt => -1
  | .eq => 0
  | .gt => 1

def hashCode (s : String) : Int :=
  let words := Number.twoTo 32
  Int.bmod (s.toList.foldl (fun h c => (31 * h + c.toNat) % words) 0 : Nat) words

def call (s : String) (name : String) (args : List Value) : StoreM Value := do
  match name with
  | "length" => return .int s.length
  | "charAt" => charAt s args
  | "equals" => equals s args
  | "equalsIgnoreCase" => equalsIgnoreCase s args
  | "isEmpty" => return .bool s.isEmpty
  | "substring" => substring s args
  | "toUpperCase" => return .text (String.ofList (Text.toUpper s.toList))
  | "toLowerCase" => return .text (String.ofList (Text.toLower s.toList))
  | "trim" => return .text (String.ofList (Text.trimBlanks s.toList))
  | "contains" => return .bool (← occurrence s args).isSome
  | "indexOf" => return .int (((← occurrence s args).map Int.ofNat).getD (-1))
  | "startsWith" => return .bool ((← textArgument args).toList.isPrefixOf s.toList)
  | "endsWith" => return .bool ((← textArgument args).toList.isSuffixOf s.toList)
  | "concat" => return .text (s ++ (← textArgument args))
  | "repeat" => faultless (repeatText s (← orRaise .wrongKind (indexOf? (← argument args 0))))
  | "compareTo" => return .int (signOf (compare s (← textArgument args)))
  | "toString" => return .text s
  | "hashCode" => return .int (hashCode s)
  | name => fail (.unknownMethodOf "String" name)

end TextMethod

end LoopLowering.Machine
