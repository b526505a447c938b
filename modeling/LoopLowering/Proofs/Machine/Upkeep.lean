import LoopLowering.Proofs.Machine.Contract

/-! Statements under a contract. A contract that goes on after every end but exhaustion passes from
calls, declarations and the rounds of loops over elements to all statements. -/

namespace LoopLowering.Machine

variable {α β : Type}

namespace Contract

class Lasting (K : Contract) : Prop where
  throw {α : Type} (e : Signal) : K.Meets (throw e : Exec α)
  note (i : Incident) : K.Meets (note i)
  resume {a b c : State} {o : Option Signal} {e : Signal} (he : e ≠ .exhausted)
    (h : K.Allows a (some e) b) (h' : K.Allows b o c) : K.Allows a o c
  scope {α : Type} {bs : Bindings} (hbs : ∀ b ∈ bs, b.type = none) {body : Exec α}
    (h : K.Meets body) : K.Meets (inScope bs body)

attribute [instance] Lasting.throw Lasting.note

variable {K : Contract} [hlasting : K.Lasting]

lemma meets_onEnd {c : Exec α} {f : α → Exec β} {g : Signal → Exec β} [hc : K.Meets c]
    (hf : ∀ a, K.Meets (f a)) (hg : ∀ e, K.Meets (g e)) (hexhausted : g .exhausted = throw .exhausted) :
    K.Meets (onEnd c f g) := by
  refine hc.onEnd (fun _ a t h => K.trans h ((hf a).allows t)) fun st e t h => ?_
  by_cases he : e = .exhausted
  · rw [he, hexhausted]
    rwa [he] at h
  · exact hlasting.resume he h ((hg e).allows t)

instance instEnsuring (body : Exec α) (last : Exec Unit) [K.Meets body] [K.Meets last] :
    K.Meets (ensuring body last) := by
  rw [ensuring_eq]
  refine meets_onEnd (fun _ => inferInstance) (fun e => ?_) rfl
  unfold lastly
  split <;> infer_instance

end Contract

namespace Evaluator

open Contract

variable (K : Contract) [hlasting : K.Lasting] (ev : Evaluator)
  [∀ labels s, K.Meets (ev.exec labels s)]

instance (labels : List String) (e : Signal) : K.Meets (bodyEnd labels e) := by
  unfold bodyEnd
  split <;> infer_instance

instance (labels : List String) (body : Node) : K.Meets (ev.runBody labels body) := by
  rw [runBody_eq]
  exact meets_onEnd (fun _ => inferInstance) (fun _ => inferInstance) rfl

end Evaluator

class Contract.Upholds (K : Contract) (ev : Evaluator) : Prop extends K.Serves ev where
  exec (labels : List String) (s : Node) : K.Meets (ev.exec labels s)
  localVar (type : Node) (ds : List Node) : K.Meets (ev.execLocalVar type ds)
  forEachRound (labels : List String) (type name : Node) (v : Value) (body : Node) (i : Nat) :
    K.Meets (ev.forEachRound labels type name v body i)

attribute [instance] Contract.Upholds.exec Contract.Upholds.localVar
  Contract.Upholds.forEachRound

namespace Evaluator

open Contract

variable (K : Contract) [K.Calm] [hlasting : K.Lasting] (ev : Evaluator) [K.Upholds ev]

instance (ss : List Node) : K.Meets (ev.execAll ss) := by
  induction ss with
  | nil => exact instPure _
  | cons s ss ih =>
    unfold execAll
    infer_instance

instance (b : Option Node) : K.Meets (ev.execBody b) := by
  unfold execBody
  split <;> infer_instance

instance (labels : List String) (body : Node) : K.Meets (ev.round labels body) := by
  unfold round
  infer_instance

instance (ss : List Node) : K.Meets (ev.execBlock ss) :=
  hlasting.scope (by simp) inferInstance

instance (cond thenStmt : Node) (elseStmt : Option Node) :
    K.Meets (ev.execIf cond thenStmt elseStmt) := by
  unfold execIf
  infer_instance

instance (labels : List String) (cond body : Node) :
    K.Meets (ev.whileRound labels cond body) := by
  unfold whileRound
  infer_instance

instance (labels : List String) (cond body : Node) :
    K.Meets (ev.execWhile labels cond body) := by
  unfold execWhile
  infer_instance

instance (labels : List String) (body cond : Node) :
    K.Meets (ev.doWhileRound labels body cond) := by
  unfold doWhileRound
  infer_instance

instance (labels : List String) (body cond : Node) :
    K.Meets (ev.execDoWhile labels body cond) := by
  unfold execDoWhile
  infer_instance

instance (es : List Node) : K.Meets (ev.execInit es) := by
  induction es with
  | nil => exact instPure _
  | cons e es ih =>
    unfold execInit
    infer_instance

instance (labels : List String) (cond : Option Node) (update : List Node) (body : Node) :
    K.Meets (ev.forRound labels cond update body) := by
  unfold forRound
  infer_instance

instance (labels : List String) (init : List Node) (cond : Option Node) (update : List Node)
    (body : Node) : K.Meets (ev.execFor labels init cond update body) := by
  exact hlasting.scope (by simp) inferInstance

instance (v : Value) : K.Meets (noteForeign v) := by
  unfold noteForeign
  infer_instance

instance (labels : List String) (var iterable body : Node) :
    K.Meets (ev.execForEach labels var iterable body) := by
  have hloop : ∀ v, K.Meets (do
      let (type, name) ← loopVariable var
      ev.rounds (ev.forEachRound labels type name v body)) := inferInstance
  unfold execForEach
  dsimp only
  split <;> infer_instance

instance (v : Value) (handlers : List Node) : K.Meets (ev.handle v handlers) := by
  induction handlers with
  | nil => exact hlasting.throw _
  | cons c cs ih =>
    have hbody : ∀ name body, K.Meets (inScope [⟨name, v, none, false⟩] (ev.exec [] body)) :=
      fun _ _ => hlasting.scope (by simp) inferInstance
    unfold handle
    split <;> infer_instance

instance (body : Node) (handlers : List Node) :
    K.Meets (ev.execGuarded body handlers) := by
  rw [execGuarded_eq]
  refine meets_onEnd (fun _ => inferInstance) (fun e => ?_) rfl
  unfold guardEnd
  split <;> infer_instance

instance (body : Node) (handlers : List Node) (last : Option Node) :
    K.Meets (ev.execTry body handlers last) := by
  unfold execTry
  infer_instance

instance (labels : List String) (label : String) (body : Node) :
    K.Meets (ev.execLabeled labels label body) := by
  rw [execLabeled_eq]
  refine meets_onEnd (fun _ => inferInstance) (fun e => ?_) rfl
  unfold labelEnd
  split <;> infer_instance

instance (e : Option Node) : K.Meets (ev.execReturn e) := by
  unfold execReturn
  split <;> infer_instance

instance (labels : List String) (s : Node) : K.Meets (ev.statement labels s) := by
  unfold statement
  split <;> infer_instance

instance (labels : List String) (s : Node) : K.Meets (ev.countedStatement labels s) := by
  unfold countedStatement
  infer_instance

end Evaluator

end LoopLowering.Machine
