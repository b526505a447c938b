import LoopLowering.Number.Binary64

/-!
The shortest decimal that reads back as a given double. Of the decimals with the fewest digits it
is the one nearest to the number; of two equally near, the even one.
-/

namespace LoopLowering.Number

structure Interval where
  low : Nat
  value : Nat
  high : Nat
  closed : Bool

/-- The interval of `m * 2 ^ e` in units of `2 ^ (e - 2)`. Below a power of two the numbers lie
closer together. -/
def Interval.of (m : Nat) (e : Int) : Interval where
  low := if m = twoTo 52 && e > -1074 then 4 * m - 1 else 4 * m - 2
  value := 4 * m
  high := 4 * m + 2
  closed := m % 2 == 0

def Interval.contains (i : Interval) (x scale : Nat) : Bool :=
  if i.closed then i.low * scale ≤ x && x ≤ i.high * scale
  else i.low * scale < x && x < i.high * scale

structure Decimal where
  digits : Nat
  exponent : Int

def powerOfTen (k : Int) : Nat × Nat :=
  if k < 0 then (1, tenTo (-k).toNat) else (tenTo k.toNat, 1)

def onGrid (i : Interval) (e k : Int) : Option Decimal :=
  let (un, ud) := descale 1 1 (2 - e)
  let (gn, gd) := powerOfTen k
  let step := gn * ud
  let scale := un * gd
  let d := i.value * scale / step
  let below := i.contains (d * step) scale
  let above := i.contains ((d + 1) * step) scale
  let r := i.value * scale % step
  if below && above then
    if 2 * r < step || (2 * r == step && d % 2 == 0) then some ⟨d, k⟩ else some ⟨d + 1, k⟩
  else if below then some ⟨d, k⟩
  else if above then some ⟨d + 1, k⟩
  else none

def firstOnGrid (i : Interval) (e : Int) : (tries : Nat) → (k : Int) → Option Decimal
  | 0, _ => none
  | t + 1, k =>
    match onGrid i e k with
    | some d => some d
    | none => firstOnGrid i e t (k - 1)

def Decimal.strip : (tries : Nat) → Decimal → Decimal
  | 0, d => d
  | t + 1, d =>
    if d.digits % 10 = 0 then Decimal.strip t ⟨d.digits / 10, d.exponent + 1⟩ else d

def leadingExponent (m : Nat) (e : Int) : Int :=
  ((m.log2 : Int) + e + 1) * 30103 / 100000 + 1

def shortest (m : Nat) (e : Int) : Decimal :=
  match firstOnGrid (Interval.of m e) e 22 (leadingExponent m e) with
  | some d => d.strip 20
  | none => ⟨m, e⟩

end LoopLowering.Number
