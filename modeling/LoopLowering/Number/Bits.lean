import LoopLowering.Number.Natural

/-!
Bitwise operations on integers of any size, read as endless two's complement.
-/

namespace LoopLowering.Number

def complement (a : Int) : Int := -a - 1

def bitAnd : Int → Int → Int
  | .ofNat a, .ofNat b => (a &&& b : Nat)
  | .ofNat a, .negSucc b => (a - (a &&& b) : Nat)
  | .negSucc a, .ofNat b => (b - (b &&& a) : Nat)
  | .negSucc a, .negSucc b => complement (a ||| b : Nat)

def bitOr (a b : Int) : Int := complement (bitAnd (complement a) (complement b))

def bitXor : Int → Int → Int
  | .ofNat a, .ofNat b => (a ^^^ b : Nat)
  | .ofNat a, .negSucc b => complement (a ^^^ b : Nat)
  | .negSucc a, .ofNat b => complement (a ^^^ b : Nat)
  | .negSucc a, .negSucc b => (a ^^^ b : Nat)

def shiftLeft (a : Int) (n : Nat) : Int := a * twoTo n

def shiftRight (a : Int) (n : Nat) : Int := a.fdiv (twoTo n)

end LoopLowering.Number
