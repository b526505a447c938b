import LoopLowering.Machine.Program
import LoopLowering.Machine.State
import LoopLowering.Machine.StaticMethod

/-!
An evaluator gives the meaning of expressions and statements. The rules of the language are
written against an evaluator for the parts of a phrase, so each rule stands on its own; the
evaluator that nests them is tied in `Machine.Evaluation`.
-/

namespace LoopLowering.Machine

structure Evaluator where
  program : Program
  limit : Int
  eval : Node → Exec Value
  exec : List String → Node → Exec Unit

namespace Evaluator

def tick (ev : Evaluator) : Exec Unit := Machine.tick ev.limit

def evalAll (ev : Evaluator) : List Node → Exec (List Value)
  | [] => return []
  | e :: es => do
    let v ← ev.eval e
    let vs ← ev.evalAll es
    return v :: vs

def truth (ev : Evaluator) (e : Node) : Exec Bool := do
  match ← ev.eval e with
  | .bool b => return b
  | _ => fail .notBoolean

def currentClass (ev : Evaluator) : Exec ClassInfo := do
  let name := (← getFrame).className
  return (ev.program.class? name).getD ⟨name, []⟩

end Evaluator

def nameOf (n : Node) : Except Fault String :=
  match n.shape.attributes.lookup "name" with
  | some (.text s) => .ok s
  | _ => .error .noSuchPart

end LoopLowering.Machine
