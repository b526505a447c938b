import LoopLowering.Machine.Sequence

/-!
Methods of lists. Those that change a list throw on an immutable one before they look at their
arguments.
-/

namespace LoopLowering.Machine

structure ListCell where
  index : Nat
  items : Array Value
  immutable : Bool

namespace ListCell

def put (l : ListCell) (items : Array Value) : StoreM Unit :=
  store l.index (.list items l.immutable)

def add (l : ListCell) (args : List Value) : StoreM Value := do
  match args with
  | [i, v] =>
    let p := clamp l.items.size (← faultless (wordIndex i))
    l.put (l.items.toList.take p ++ v :: l.items.toList.drop p).toArray
  | args => l.put (l.items.push (← argument args 0))
  return .bool true

def get (l : ListCell) (args : List Value) : StoreM Value := do
  let i ← argument args 0
  let size := l.items.size
  let p ← checkedPosition size i (outOfBounds "IndexOutOfBoundsException" size i)
  orRaise .badIndex l.items[p]?

def set (l : ListCell) (args : List Value) : StoreM Value := do
  let p ← positionOf l.items.size (← argument args 0)
  let old ← orRaise .badIndex l.items[p]?
  l.put (l.items.setIfInBounds p (← argument args 1))
  return old

def search (args : List Value) : List Value → (i : Nat) → StoreM (Option Nat)
  | [], _ => return none
  | x :: xs, i => do
    if ← equalOperands x (← argument args 0) then return some i
    else search args xs (i + 1)

def indexOf (l : ListCell) (args : List Value) : StoreM (Option Nat) :=
  search args l.items.toList 0

def removeAt (l : ListCell) (i : Value) : StoreM Value := do
  let p ← orRaise .badIndex (position? l.items.size (← faultless (wordIndex i)))
  let old ← orRaise .badIndex l.items[p]?
  l.put (l.items.eraseIdxIfInBounds p)
  return old

def remove (l : ListCell) (args : List Value) : StoreM Value := do
  let v ← argument args 0
  if v.isNumeric && !v.isChar then l.removeAt v
  else
    match ← l.indexOf args with
    | some p =>
      l.put (l.items.eraseIdxIfInBounds p)
      return .bool true
    | none => return .bool false

def sameItems? (h : Heap) (xs ys : Array Value) : Option Bool :=
  if xs.size = ys.size then (xs.toList.zip ys.toList).allM fun p => sameElement? h p.1 p.2
  else some false

def sameItems (xs ys : Array Value) : StoreM Bool := do finite (sameItems? (← heap) xs ys)

def equals (l : ListCell) (args : List Value) : StoreM Value := do
  let other ← argument args 0
  match other.list? (← heap) with
  | some items => return .bool (← sameItems l.items items)
  | none => return .bool false

def changes : List String := ["add", "set", "remove", "clear"]

def call (l : ListCell) (name : String) (args : List Value) : StoreM Value := do
  if l.immutable && changes.contains name then
    throwException "UnsupportedOperationException" none
  match name with
  | "add" => l.add args
  | "get" => l.get args
  | "set" => l.set args
  | "size" => return .int l.items.size
  | "isEmpty" => return .bool l.items.isEmpty
  | "contains" => return .bool (← l.indexOf args).isSome
  | "indexOf" => return .int (((← l.indexOf args).map Int.ofNat).getD (-1))
  | "remove" => l.remove args
  | "clear" =>
    l.put #[]
    return .null
  | "iterator" => allocIterator l.index
  | "toString" => return .text (← shown (.ref (.object l.index)))
  | "equals" => l.equals args
  | name => fail (.unknownMethodOf "List" name)

end ListCell

end LoopLowering.Machine
