import LoopLowering.Text.Digit

/-!
Escapes in character and string literals: after a backslash come four hexadecimal digits behind
one or more `u`, up to three octal digits, or one character.
-/

namespace LoopLowering.Token

open LoopLowering.Text

def isHex (c : Char) : Bool :=
  ('0' ≤ c && c ≤ '9') || ('a' ≤ c && c ≤ 'f') || ('A' ≤ c && c ≤ 'F')

def isOctal (c : Char) : Bool := '0' ≤ c && c ≤ '7'

def leading (p : Char → Bool) (cs : List Char) : Nat := (cs.takeWhile p).length

def valueOf (base : Nat) (cs : List Char) : Nat :=
  cs.foldl (fun n c => n * base + (digitValue? c).getD 0) 0

def unicodeLength? (cs : List Char) : Option Nat :=
  let us := leading (· = 'u') cs
  let digits := (cs.drop us).take 4
  if us > 0 && digits.length = 4 && digits.all isHex then some (us + 4) else none

def namedEscape (c : Char) : Char :=
  match c with
  | 'n' => '\n'
  | 't' => '\t'
  | 'b' => Char.ofNat 8
  | 'r' => '\r'
  | 'f' => Char.ofNat 12
  | 's' => ' '
  | c => c

/-- What stands for the escape behind a backslash, and how many characters the escape takes. A `u`
without its four digits stands for nothing. -/
def escapeAt (c : Char) (cs : List Char) : Option (Char × Nat) :=
  if c = 'u' then
    (unicodeLength? (c :: cs)).map fun n =>
      (Char.ofNat (valueOf 16 (((c :: cs).take n).drop (n - 4))), n)
  else if isOctal c then
    let digits := c :: (cs.take (if c ≤ '3' then 2 else 1)).takeWhile isOctal
    some (Char.ofNat (valueOf 8 digits), digits.length)
  else some (namedEscape c, 1)

def unescapeFrom (skip : Nat) : List Char → Option (List Char)
  | [] => some []
  | c :: cs =>
    match skip with
    | s + 1 => unescapeFrom s cs
    | 0 =>
      match c, cs with
      | '\\', d :: ds => do
        let (e, n) ← escapeAt d ds
        return e :: (← unescapeFrom n (d :: ds))
      | c, cs => (unescapeFrom 0 cs).map (c :: ·)

def unescape (cs : List Char) : Option (List Char) := unescapeFrom 0 cs

end LoopLowering.Token
