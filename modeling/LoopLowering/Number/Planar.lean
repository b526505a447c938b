import LoopLowering.Fault
import LoopLowering.Number.FloatStyle

/-!
Complex numbers. A negative number to the power of a fraction is one, and arithmetic goes on with
it. Quotients divide by the larger part of the divisor first.
-/

namespace LoopLowering.Number

structure Planar where
  re : Float
  im : Float

namespace Planar

def ofReal (x : Float) : Planar := ⟨x, 0⟩

def isZero (z : Planar) : Bool := z.re == 0 && z.im == 0

def isUndefined (z : Planar) : Bool := z.re.isNaN || z.im.isNaN

def same (z w : Planar) : Bool := z.re == w.re && z.im == w.im

def add (z w : Planar) : Planar := ⟨z.re + w.re, z.im + w.im⟩

def sub (z w : Planar) : Planar := ⟨z.re - w.re, z.im - w.im⟩

def neg (z : Planar) : Planar := ⟨-z.re, -z.im⟩

def mul (z w : Planar) : Planar := ⟨z.re * w.re - z.im * w.im, z.re * w.im + z.im * w.re⟩

def div (z w : Planar) : Except Fault Planar :=
  if w.re.abs >= w.im.abs then
    if w.re == 0 then .error .zeroDivision
    else
      let ratio := w.im / w.re
      let divisor := w.re + w.im * ratio
      .ok ⟨(z.re + z.im * ratio) / divisor, (z.im - z.re * ratio) / divisor⟩
  else if w.im.abs >= w.re.abs then
    let ratio := w.re / w.im
    let divisor := w.re * ratio + w.im
    .ok ⟨(z.re * ratio + z.im) / divisor, (z.im * ratio - z.re) / divisor⟩
  else .ok ⟨undefinedNumber, undefinedNumber⟩

def rootFrom (n : Nat) : (k root : Nat) → Nat
  | 0, root => root
  | k + 1, root =>
    let next := root + twoTo k
    rootFrom n k (if next * next ≤ n then next else root)

def nearestRoot (n : Nat) (e : Int) : Float :=
  let extra := 64
  let scaled := n * twoTo (2 * extra)
  let root := rootFrom scaled (scaled.log2 / 2 + 1) 0
  let digits := 2 * root + (if root * root = scaled then 0 else 1)
  let shift := e - extra - 1
  if shift < 0 then nearest false digits (twoTo (-shift).toNat)
  else nearest false (digits * twoTo shift.toNat) 1

def modulus (z : Planar) : Except Fault Float :=
  match read z.re, read z.im with
  | .infinite _, _ => .ok z.re.abs
  | _, .infinite _ => .ok z.im.abs
  | .finite _ m d, .finite _ n e =>
    let least := min d e
    let x := m * twoTo (d - least).toNat
    let y := n * twoTo (e - least).toNat
    let r := nearestRoot (x * x + y * y) least
    if r.isInf then .error .overflow else .ok r
  | _, _ => .ok undefinedNumber

def powerFrom : (bits n : Nat) → (power z : Planar) → Planar
  | 0, _, power, _ => power
  | bits + 1, n, power, z =>
    if n = 0 then power
    else powerFrom bits (n / 2) (if n % 2 = 1 then power.mul z else power) (z.mul z)

def integerPower (z : Planar) (n : Int) : Except Fault Planar :=
  let p := powerFrom 7 n.natAbs (ofReal 1) z
  if n > 0 then .ok p else (ofReal 1).div p

def polarPower (z w : Planar) : Except Fault Planar := do
  if w.isZero then return ofReal 1
  if z.isZero then
    if w.im != 0 || w.re < 0 then throw .zeroDivision else return ofReal 0
  let size ← z.modulus
  let angle := Float.atan2 z.im z.re
  let length := Float.pow size w.re
  let turn := angle * w.re
  if w.im == 0 then return ⟨length * Float.cos turn, length * Float.sin turn⟩
  else
    let length := length / Float.exp (angle * w.im)
    let turn := turn + w.im * Float.log size
    return ⟨length * Float.cos turn, length * Float.sin turn⟩

def power (z w : Planar) : Except Fault Planar := do
  let p ← match truncate? w.re with
    | some n =>
      if w.im == 0 && w.re.floor == w.re && n.natAbs ≤ 100 then z.integerPower n else z.polarPower w
    | none => z.polarPower w
  if p.re.isInf || p.im.isInf then throw .overflow else return p

def partText (x : Float) : String :=
  let text := FloatStyle.source.format x
  match text.toList.reverse with
  | '0' :: '.' :: rest => String.ofList rest.reverse
  | _ => text

def text (z : Planar) : String :=
  let im := partText z.im
  if z.re == 0 && !isNegative z.re then im ++ "j"
  else
    let sign := if im.startsWith "-" then "" else "+"
    "(" ++ partText z.re ++ sign ++ im ++ "j)"

end Planar

end LoopLowering.Number
