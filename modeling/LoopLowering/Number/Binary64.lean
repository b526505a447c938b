import LoopLowering.Number.Natural

/-!
Double-precision numbers as exact fractions. A finite number is `mantissa * 2 ^ exponent`; a
fraction is rounded to the nearest number, a half to the even neighbour.
-/

namespace LoopLowering.Number

inductive Reading where
  | finite (negative : Bool) (mantissa : Nat) (exponent : Int)
  | infinite (negative : Bool)
  | undefined

def read (x : Float) : Reading :=
  let bits := x.toBits.toNat
  let negative := bits / twoTo 63 == 1
  let field : Nat := bits / twoTo 52 % 2048
  let fraction := bits % twoTo 52
  if field = 2047 then
    if fraction = 0 then .infinite negative else .undefined
  else if field = 0 then .finite negative fraction (-1074)
  else .finite negative (fraction + twoTo 52) ((field : Int) - 1075)

def infinity (negative : Bool) : Float :=
  Float.ofBits (if negative then 0xFFF0000000000000 else 0x7FF0000000000000)

def undefinedNumber : Float := Float.ofBits 0x7FF8000000000000

def isNegative (x : Float) : Bool := x.toBits.toNat / twoTo 63 == 1

/-- The number with these parts; the mantissa is below `2 ^ 53`, and at least `2 ^ 52` unless the
exponent is the least one. An exponent past the range gives an infinity. -/
def assemble (negative : Bool) (mantissa : Nat) (exponent : Int) : Float :=
  let sign := if negative then twoTo 63 else 0
  let field := (exponent + 1075).toNat
  if mantissa < twoTo 52 then Float.ofBits (UInt64.ofNat (sign + mantissa))
  else if field < 2047 then
    Float.ofBits (UInt64.ofNat (sign + field * twoTo 52 + (mantissa - twoTo 52)))
  else infinity negative

def divideToEven (num den : Nat) : Nat :=
  let q := num / den
  let r := num % den
  if 2 * r > den || (2 * r == den && q % 2 == 1) then q + 1 else q

def descale (num den : Nat) (e : Int) : Nat × Nat :=
  if e < 0 then (num * twoTo (-e).toNat, den) else (num, den * twoTo e.toNat)

def exponentOf (num den : Nat) : Int :=
  let guess : Int := (num.log2 : Int) - den.log2 - 52
  let (n, d) := descale num den guess
  let e := if n / d < twoTo 52 then guess - 1 else guess
  max e (-1074)

def nearest (negative : Bool) (num den : Nat) : Float :=
  if num = 0 then assemble negative 0 (-1074) else
  let e := exponentOf num den
  let (n, d) := descale num den e
  let m := divideToEven n d
  if m = twoTo 53 then assemble negative (twoTo 52) (e + 1) else assemble negative m e

def ofInt? (n : Int) : Option Float :=
  let x := nearest (n < 0) n.natAbs 1
  match read x with
  | .infinite _ => none
  | _ => some x

/-- The double nearest to `digits * 10 ^ exponent`. Exponents that are past the range whatever the
digits are not computed. -/
def ofDecimal (negative : Bool) (digits : Nat) (exponent : Int) : Float :=
  if digits = 0 then assemble negative 0 (-1074)
  else if exponent > 400 then infinity negative
  else if exponent + (digits.log2 : Int) < -1200 then assemble negative 0 (-1074)
  else if exponent < 0 then nearest negative digits (tenTo (-exponent).toNat)
  else nearest negative (digits * tenTo exponent.toNat) 1

def truncate? (x : Float) : Option Int :=
  match read x with
  | .finite negative m e =>
    let n : Nat := if e < 0 then m / twoTo (-e).toNat else m * twoTo e.toNat
    some (if negative then -n else n)
  | _ => none

def compareInt (n : Int) (x : Float) : Option Ordering :=
  match read x with
  | .undefined => none
  | .infinite negative => some (if negative then .gt else .lt)
  | .finite negative m e =>
    let m : Int := if negative then -m else m
    some (if e < 0 then compare (n * twoTo (-e).toNat) m else compare n (m * twoTo e.toNat))

def compareFloat (x y : Float) : Option Ordering :=
  if x < y then some .lt else if y < x then some .gt else if x == y then some .eq else none

def remainder? (x y : Float) : Option Float :=
  match read x, read y with
  | .undefined, _ => some undefinedNumber
  | _, .undefined => some undefinedNumber
  | .infinite _, _ => none
  | .finite .., .infinite _ => some x
  | .finite negative mx ex, .finite _ my ey =>
    if my = 0 then none else
    let e := min ex ey
    let r := (mx * twoTo (ex - e).toNat) % (my * twoTo (ey - e).toNat)
    some (if e < 0 then nearest negative r (twoTo (-e).toNat)
      else nearest negative (r * twoTo e.toNat) 1)

end LoopLowering.Number
