import LoopLowering.Number.Planar

/-!
Powers of floating-point numbers. Powers whose value is exact at the borders (zeros, infinities,
undefined numbers) are decided first; a power too large for a finite result is an overflow, and one
of a negative number with a fraction as exponent is complex.
-/

namespace LoopLowering.Number

def isOdd (x : Float) : Bool := remainder? x.abs 2 == some 1

def powerOfZero (x y : Float) : Except Fault Float :=
  if y < 0 then .error .zeroDivision
  else .ok (if isOdd y then x else 0)

def powerOfInfinity (x y : Float) : Float :=
  if y > 0 then (if isOdd y then x else x.abs)
  else if isOdd y && isNegative x then -0.0
  else 0

def infinitePower (x y : Float) : Float :=
  if x.abs == 1 then 1
  else if (y > 0) == (x.abs > 1) then y.abs
  else 0

def finitePower (x y : Float) : Except Fault (Float ⊕ Planar) :=
  if x < 0 && y.floor != y then do return .inr (← (Planar.ofReal x).power (.ofReal y))
  else
    let p := Float.pow x.abs y
    if p.isInf then .error .overflow
    else .ok (.inl (if x < 0 && isOdd y then -p else p))

def power (x y : Float) : Except Fault (Float ⊕ Planar) :=
  if y == 0 then .ok (.inl 1)
  else if x.isNaN then .ok (.inl x)
  else if y.isNaN then .ok (.inl (if x == 1 then 1 else y))
  else if y.isInf then .ok (.inl (infinitePower x y))
  else if x.isInf then .ok (.inl (powerOfInfinity x y))
  else if x == 0 then do return .inl (← powerOfZero x y)
  else finitePower x y

def squareRoot (x : Float) : Except Fault Float :=
  if x < 0 then .error .badValue else .ok x.sqrt

end LoopLowering.Number
