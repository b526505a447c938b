import LoopLowering.Machine.Value

/-!
Numbers among the values, equality and order. Booleans count as the numbers 0 and 1, characters
compare as texts, and arrays compare element by element, without end if they contain themselves.
-/

namespace LoopLowering.Machine

open LoopLowering.Number

inductive Num where
  | int (n : Int)
  | float (x : Float)

namespace Num

def compare : Num → Num → Option Ordering
  | int a, int b => some (Ord.compare a b)
  | int a, float y => compareInt a y
  | float x, int b => (compareInt b x).map Ordering.swap
  | float x, float y => compareFloat x y

def toFloat : Num → Except Fault Float
  | int n =>
    match ofInt? n with
    | some x => .ok x
    | none => .error .overflow
  | float x => .ok x

end Num

def Value.num? : Value → Option Num
  | bool b => some (.int (if b then 1 else 0))
  | int n => some (.int n)
  | float x => some (.float x)
  | _ => none

def Value.isUndefined : Value → Bool
  | float x => x.isNaN
  | _ => false

def isReal (z : Planar) (n : Num) : Bool := z.im == 0 && (Num.float z.re).compare n = some .eq

def equalPlanar (h : Heap) (a b : Value) : Bool :=
  match a.planar? h, b.planar? h with
  | some z, some w => z.same w
  | some z, none => b.num?.any (isReal z)
  | none, some w => a.num?.any (isReal w)
  | none, none => false

/-- Equality of values; `depth` bounds how deep arrays nest. Elements of arrays are also equal if
both are undefined numbers. -/
def equalAt (h : Heap) : (depth : Nat) → Value → Value → Option Bool
  | 0, _, _ => none
  | d + 1, a, b =>
    match a.num?, b.num? with
    | some x, some y => some (x.compare y = some .eq)
    | _, _ =>
      match a.text?, b.text? with
      | some s, some t => some (s = t)
      | _, _ =>
        match a, b with
        | .null, .null => some true
        | .ref i, .ref j =>
          if i = j then some true
          else
            match a.array? h, b.array? h with
            | some xs, some ys =>
              if xs.size = ys.size then
                (xs.toList.zip ys.toList).allM fun p =>
                  if p.1.isUndefined && p.2.isUndefined then some true else equalAt h d p.1 p.2
              else some false
            | _, _ => some (equalPlanar h a b)
        | _, _ => some (equalPlanar h a b)

def equal? (h : Heap) (a b : Value) : Option Bool := equalAt h (h.objects.size + 2) a b

def sameElement? (h : Heap) (a b : Value) : Option Bool :=
  if a.isUndefined && b.isUndefined then some true else equal? h a b

def identical : Value → Value → Bool
  | .null, .null => true
  | .ref i, .ref j => i = j
  | _, _ => false

inductive Comparison where
  | lt | gt | le | ge
  deriving DecidableEq, Repr

def Comparison.holds : Comparison → Ordering → Bool
  | lt, o => o = .lt
  | gt, o => o = .gt
  | le, o => o ≠ .gt
  | ge, o => o ≠ .lt

def compareAt (h : Heap) (c : Comparison) :
    (depth : Nat) → Value → Value → Option (Except Fault Bool)
  | 0, _, _ => none
  | d + 1, a, b =>
    match a.num?, b.num? with
    | some x, some y => some (.ok (((x.compare y).map c.holds).getD false))
    | _, _ =>
      match a.text?, b.text? with
      | some s, some t => some (.ok (c.holds (compare s t)))
      | _, _ =>
        match a.array? h, b.array? h with
        | some xs, some ys => do
          match ← (xs.toList.zip ys.toList).findM? fun p => (!·) <$> sameElement? h p.1 p.2 with
          | some p => compareAt h c d p.1 p.2
          | none => some (.ok (c.holds (compare xs.size ys.size)))
        | _, _ => some (.error .wrongKind)

def compareValues? (h : Heap) (c : Comparison) (a b : Value) : Option (Except Fault Bool) :=
  compareAt h c (h.objects.size + 2) a b

end LoopLowering.Machine
