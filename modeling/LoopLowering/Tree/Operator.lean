/-!
Operators of expressions. Each has a symbol; a symbol outside the language is kept as it is.
-/

namespace LoopLowering

inductive BinaryOp where
  | or | and | bitOr | bitXor | bitAnd
  | eq | ne | lt | gt | le | ge
  | shiftLeft | shiftRight | shiftRightUnsigned
  | add | sub | mul | div | rem
  | other (symbol : String)
  deriving DecidableEq, Repr

namespace BinaryOp

def symbol : BinaryOp → String
  | or => "||" | and => "&&" | bitOr => "|" | bitXor => "^" | bitAnd => "&"
  | eq => "==" | ne => "!=" | lt => "<" | gt => ">" | le => "<=" | ge => ">="
  | shiftLeft => "<<" | shiftRight => ">>" | shiftRightUnsigned => ">>>"
  | add => "+" | sub => "-" | mul => "*" | div => "/" | rem => "%"
  | other s => s

def known : List BinaryOp :=
  [or, and, bitOr, bitXor, bitAnd, eq, ne, lt, gt, le, ge, shiftLeft, shiftRight,
    shiftRightUnsigned, add, sub, mul, div, rem]

def ofSymbol (s : String) : BinaryOp := (known.find? (·.symbol = s)).getD (other s)

def level? : BinaryOp → Option Nat
  | or => some 0
  | and => some 1
  | bitOr => some 2
  | bitXor => some 3
  | bitAnd => some 4
  | eq | ne => some 5
  | lt | gt | le | ge => some 6
  | shiftLeft | shiftRight | shiftRightUnsigned => some 7
  | add | sub => some 8
  | mul | div | rem => some 9
  | other _ => none

end BinaryOp

def instanceOfLevel : Nat := 6

inductive UnaryOp where
  | increment | decrement | plus | minus | not | complement
  | other (symbol : String)
  deriving DecidableEq, Repr

namespace UnaryOp

def symbol : UnaryOp → String
  | increment => "++" | decrement => "--" | plus => "+" | minus => "-" | not => "!"
  | complement => "~"
  | other s => s

def known : List UnaryOp := [increment, decrement, plus, minus, not, complement]

def ofSymbol (s : String) : UnaryOp := (known.find? (·.symbol = s)).getD (other s)

end UnaryOp

inductive AssignOp where
  | plain
  | compound (op : BinaryOp)
  | other (symbol : String)
  deriving DecidableEq, Repr

namespace AssignOp

def symbol : AssignOp → String
  | plain => "="
  | compound op => op.symbol ++ "="
  | other s => s

def ofSymbol (s : String) : AssignOp :=
  if s = "=" then plain
  else
    match s.toList.reverse with
    | '=' :: cs => compound (.ofSymbol (String.ofList cs.reverse))
    | _ => other s

def operator? : AssignOp → Option BinaryOp
  | plain => none
  | compound op => some op
  | other s => some (.ofSymbol (String.ofList s.toList.dropLast))

end AssignOp

inductive LiteralKind where
  | int | long | float | double | char | string | boolean | null
  | other (name : String)
  deriving DecidableEq, Repr

namespace LiteralKind

def name : LiteralKind → String
  | int => "int" | long => "long" | float => "float" | double => "double" | char => "char"
  | string => "string" | boolean => "boolean" | null => "null"
  | other s => s

def known : List LiteralKind := [int, long, float, double, char, string, boolean, null]

def ofName (s : String) : LiteralKind := (known.find? (·.name = s)).getD (other s)

end LiteralKind

end LoopLowering
