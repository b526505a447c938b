import LoopLowering.Number.Binary64
import LoopLowering.Text.Blank
import LoopLowering.Text.Digit

/-!
Numbers read from text. Blanks around a number are dropped, digits may be of any script, and an
underscore may stand between two digits.
-/

namespace LoopLowering.Number

open LoopLowering.Text

def readNat? (base : Nat) (cs : List Char) : Option Nat :=
  if cs.isEmpty then none else
  cs.foldlM (fun n c => do
    let v ← digitValue? c
    if v < base then some (n * base + v) else none) 0

def joinDigits (afterDigit : Bool) : List Char → Option (List Char)
  | [] => some []
  | c :: cs =>
    if c = '_' then
      if afterDigit && (cs.head?.map isDecimal).getD false then joinDigits false cs else none
    else (joinDigits (isDecimal c) cs).map (c :: ·)

def splitSign : List Char → Bool × List Char
  | '-' :: cs => (true, cs)
  | '+' :: cs => (false, cs)
  | cs => (false, cs)

def readInt? (s : String) : Option Int := do
  let (negative, cs) := splitSign (trimBlanks s.toList)
  let n ← readNat? 10 (← joinDigits false cs)
  return if negative then -n else n

def readExponent? : List Char → Option Int
  | [] => some 0
  | c :: cs =>
    if c = 'e' || c = 'E' then do
      let (negative, ds) := splitSign cs
      if ds.all isDecimal then
        let n ← readNat? 10 ds
        some (if negative then -n else n)
      else none
    else none

def readDecimal? (negative : Bool) (cs : List Char) : Option Float := do
  let whole := cs.takeWhile isDecimal
  let rest := cs.dropWhile isDecimal
  let (fraction, rest) :=
    match rest with
    | '.' :: rest => (rest.takeWhile isDecimal, rest.dropWhile isDecimal)
    | _ => ([], rest)
  let digits ← readNat? 10 (whole ++ fraction)
  let exponent ← readExponent? rest
  return ofDecimal negative digits (exponent - fraction.length)

def readFloat? (s : String) : Option Float := do
  let (negative, cs) := splitSign (trimBlanks s.toList)
  let word := String.ofList (cs.map Char.toLower)
  if word = "inf" || word = "infinity" then return infinity negative
  else if word = "nan" then return undefinedNumber
  else readDecimal? negative (← joinDigits false cs)

end LoopLowering.Number
