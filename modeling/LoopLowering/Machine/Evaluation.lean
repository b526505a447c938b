import LoopLowering.Machine.Statement

/-!
The evaluator that nests the rules of the language. It descends a bounded number of levels and
ends as exhausted below them; a bound that leaves room for every counted step is part of it.
-/

namespace LoopLowering.Machine

/-- The evaluator that descends at most `depth` levels. -/
def evaluatorAt (program : Program) (limit : Int) : (depth : Nat) → Evaluator
  | 0 => ⟨program, limit, fun _ => throw .exhausted, fun _ _ => throw .exhausted⟩
  | n + 1 =>
    ⟨program, limit, fun e => (evaluatorAt program limit n).expression e,
      fun labels s => (evaluatorAt program limit n).countedStatement labels s⟩

def creationDepth : Nat := Number.twoTo 20

/-- Enough levels for code of a size: between two counted steps evaluation only goes down into
the code. -/
def depthFor (limit : Int) (size : Nat) : Nat := (limit.toNat + 2) * (size + 2) + creationDepth

def evaluator (program : Program) (limit : Int) (phrase : Nat) : Evaluator :=
  evaluatorAt program limit (depthFor limit (program.size + phrase))

end LoopLowering.Machine
