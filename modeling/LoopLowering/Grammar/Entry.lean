import LoopLowering.Grammar.Declaration

/-!
Reading a whole text as a compilation unit, a statement, a list of statements or an expression.
-/

namespace LoopLowering

inductive TextKind where
  | unit
  | statement
  | statements
  | expression
  deriving DecidableEq, Repr

namespace Grammar

def rule : TextKind → Nat → Parser Node
  | .unit => compilationUnit
  | .statement => statement
  | .statements => fun n => return .plain (.block (← statements n))
  | .expression => expr

def closed (source : String) (ts : List Token) : List Token :=
  ts ++ [⟨.finish, .null, (ts.getLast?.map (·.line)).getD 1, source.length⟩]

/-- A bound on how deep the rules nest: fewer than sixteen between two tokens. -/
def nesting (ts : List Token) : Nat := 16 * ts.length + 64

def whole (k : TextKind) (n : Nat) : Parser Node := do
  let t ← rule k n
  if ← check .finish then return t else reject .expectedEnd

end Grammar

def parse (k : TextKind) (source : String) : Except ReadError Node := do
  let ts := Grammar.closed source (← tokenize source)
  match (Grammar.whole k (Grammar.nesting ts)).run ts with
  | .ok (t, _) => return t
  | .error e => throw (.rejected (e.diagnostic source.toList))

end LoopLowering
