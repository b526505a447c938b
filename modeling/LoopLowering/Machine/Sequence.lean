import LoopLowering.Machine.Operator

/-!
Places in sequences. An index below zero counts from the end where an operation allows it; the
checked operations throw instead.
-/

namespace LoopLowering.Machine

variable {α : Type}

def position? (size : Nat) (i : Int) : Option Nat :=
  let j := if i < 0 then i + size else i
  if 0 ≤ j && j < size then some j.toNat else none

def positionOf (size : Nat) (v : Value) : StoreM Nat := do
  let i ← orRaise .wrongKind (indexOf? v)
  orRaise .badIndex (position? size i)

def inBounds (size : Nat) (v : Value) : StoreM Bool := do
  match v.num? with
  | some i =>
    let notBelow := i.compare (.int 0) matches some .eq | some .gt
    return notBelow && (i.compare (.int size) matches some .lt)
  | none => raise .wrongKind

def checkedPosition (size : Nat) (v : Value) (outside : StoreM Unit) : StoreM Nat := do
  unless ← inBounds size v do outside
  return (← orRaise .wrongKind (indexOf? v)).toNat

def outOfBounds (className : String) (size : Nat) (v : Value) : StoreM Unit :=
  throwException className
    (some ("Index " ++ v.plain ++ " out of bounds for length " ++ toString size))

def clamp (size : Nat) (i : Int) : Nat :=
  min size (if i < 0 then i + size else i).toNat

def cutAt (size absent : Nat) : Value → Except Fault Nat
  | .null => .ok absent
  | v =>
    match indexOf? v with
    | some i => .ok (clamp size i)
    | none => .error .wrongKind

def cut (cs : List α) (start stop : Nat) : List α := (cs.take stop).drop start

def wordIndex (v : Value) : Except Fault Int :=
  match indexOf? v with
  | some i => if i < -(Number.twoTo 63) || Number.twoTo 63 ≤ i then .error .overflow else .ok i
  | none => .error .wrongKind

def argument (args : List Value) (i : Nat) : StoreM Value := orRaise .badIndex args[i]?

end LoopLowering.Machine
