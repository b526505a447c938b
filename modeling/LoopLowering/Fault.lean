/-!
Failures that are not part of the language: what an operation does on operands it was not made
for. They carry no text.
-/

namespace LoopLowering

inductive Fault where
  | wrongKind
  | badValue
  | badIndex
  | noSuchPart
  | overflow
  | zeroDivision
  | unknownOperator
  deriving DecidableEq, Repr

end LoopLowering
