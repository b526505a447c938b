import LoopLowering.Proofs.Machine.Storage

/-! Running code only adds to the number of steps and to the incidents, and leaves a later store.
What has gone wrong in a run therefore stays visible in its last state. -/

namespace LoopLowering.Machine

variable {α β : Type}

structure Trace where
  steps : Nat
  incidents : List Incident
  store : Store

instance : Preorder Trace where
  le a b := a.steps ≤ b.steps ∧ a.incidents <:+ b.incidents ∧ a.store ≤ b.store
  le_refl a := ⟨Nat.le_refl _, List.suffix_rfl, le_rfl⟩
  le_trans _ _ _ h₁ h₂ :=
    ⟨Nat.le_trans h₁.1 h₂.1, h₁.2.1.trans h₂.2.1, h₁.2.2.trans h₂.2.2⟩

def State.trace (st : State) : Trace := ⟨st.steps, st.incidents, st.toStore⟩

def finalState : EStateM.Result Signal State α → State
  | .ok _ st => st
  | .error _ st => st

@[simp] lemma finalState_ok (a : α) (st : State) :
    finalState (.ok a st : EStateM.Result Signal State α) = st := rfl

@[simp] lemma finalState_error (e : Signal) (st : State) :
    finalState (.error e st : EStateM.Result Signal State α) = st := rfl

/-- The signal with which code ends, if it does not end normally. -/
def ending : EStateM.Result Signal State α → Option Signal
  | .ok _ _ => none
  | .error e _ => some e

@[simp] lemma ending_ok (a : α) (st : State) :
    ending (.ok a st : EStateM.Result Signal State α) = none := rfl

@[simp] lemma ending_error (e : Signal) (st : State) :
    ending (.error e st : EStateM.Result Signal State α) = some e := rfl

class Steady (c : Exec α) : Prop where
  trace_le : ∀ st, st.trace ≤ (finalState (c st)).trace

@[inline] def onEnd (c : Exec α) (f : α → Exec β) (g : Signal → Exec β) : Exec β := fun st =>
  match c st with
  | .ok a st => f a st
  | .error e st => g e st

lemma liftM_apply (c : StoreM α) (st : State) : (liftM c : Exec α) st =
    match c st.toStore with
    | .ok a t => .ok a { st with toStore := t }
    | .error e t => .error e { st with toStore := t } := rfl

def State.counted (st : State) (n : Nat) : State := { st with steps := st.steps + n }

lemma tick_apply (limit : Int) (st : State) :
    tick limit st = if limit < ((st.steps + 1 : Nat) : Int) then
        .error (.failed (.stepLimit limit)) (st.counted 1)
      else .ok () (st.counted 1) := by
  show (if ((st.steps + 1 : Nat) : Int) > limit then fail (.stepLimit limit) else pure () : Exec Unit)
    (st.counted 1) = _
  split <;> rfl

lemma get_bind (f : State → Exec α) (st : State) : (get >>= f) st = f st st := rfl

namespace Evaluator

lemma evalName_of_value (ev : Evaluator) {name : String} {st : State} {v : Value}
    (h : (st.resolve name).bind (st.valueOf name) = some v) : ev.evalName name st = .ok v st := by
  rw [evalName, get_bind, h]
  rfl

lemma evalName_of_none (ev : Evaluator) {name : String} {st : State}
    (h : (st.resolve name).bind (st.valueOf name) = none) :
    ev.evalName name st = ev.classRef name st := by
  rw [evalName, get_bind, h]

end Evaluator

lemma bind_eq_onEnd (c : Exec α) (f : α → Exec β) : c >>= f = onEnd c f throw := by
  funext st
  show EStateM.bind c f st = onEnd c f throw st
  unfold EStateM.bind onEnd
  cases c st <;> rfl

lemma exists_of_bind_ok {c : Exec α} {f : α → Exec β} {st u : State} {b : β}
    (h : (c >>= f) st = .ok b u) : ∃ a t, c st = .ok a t ∧ f a t = .ok b u := by
  rw [bind_eq_onEnd] at h
  unfold onEnd at h
  cases hc : c st with
  | ok a t =>
    rw [hc] at h
    exact ⟨a, t, rfl, h⟩
  | error e t =>
    rw [hc] at h
    cases h

lemma noting_eq (i : Incident) (c : Exec α) :
    noting i c = onEnd c pure fun e => (do note i; throw e) := by
  funext st
  unfold noting onEnd
  cases c st <;> rfl

def lastly (last : Exec Unit) : Signal → Exec α
  | .exhausted => throw .exhausted
  | e => do last; throw e

lemma lastly_eq (last : Exec Unit) {e : Signal} (h : e ≠ .exhausted) :
    (lastly last e : Exec α) = (do last; throw e) := by
  cases e <;> first | rfl | exact absurd rfl h

lemma ensuring_eq (body : Exec α) (last : Exec Unit) :
    ensuring body last = onEnd body (fun a => do last; return a) (lastly last) := by
  funext st
  unfold ensuring onEnd
  cases body st with
  | ok a t =>
    show _ = EStateM.bind last _ t
    dsimp only [EStateM.bind]
    cases last t <;> rfl
  | error e t =>
    cases e with
    | exhausted => rfl
    | _ =>
      show _ = EStateM.bind last _ t
      dsimp only [EStateM.bind]
      cases last t <;> rfl

def returnEnd : Signal → Exec Value
  | .returned v => return v
  | e => throw e

lemma catchReturn_eq (body : Exec Unit) :
    catchReturn body = onEnd body (fun _ => return .null) returnEnd := by
  funext st
  unfold catchReturn onEnd
  cases body st with
  | ok a t => rfl
  | error e t => cases e <;> rfl

lemma discard_eq (c : Exec α) : discard c = onEnd c (fun _ => return) throw := by
  funext st
  show EStateM.map _ c st = onEnd c (fun _ => return) throw st
  unfold EStateM.map onEnd
  cases c st <;> rfl

namespace Evaluator

variable (ev : Evaluator)

def bodyEnd (labels : List String) : Signal → Exec Bool
  | .breakTo none => return true
  | .continueTo none => return false
  | .continueTo (some l) =>
    if labels.contains l then return false else throw (.continueTo (some l))
  | e => throw e

lemma runBody_eq (labels : List String) (body : Node) :
    ev.runBody labels body = onEnd (ev.exec [] body) (fun _ => return false) (bodyEnd labels) := by
  funext st
  unfold runBody onEnd
  cases ev.exec [] body st with
  | ok a t => rfl
  | error e t =>
    cases e with
    | breakTo l => cases l <;> rfl
    | continueTo l =>
      cases l with
      | none => rfl
      | some l =>
        dsimp only [bodyEnd]
        split <;> rfl
    | _ => rfl

def guardEnd (handlers : List Node) : Signal → Exec Unit
  | .thrown v => ev.handle v handlers
  | e => throw e

lemma execGuarded_eq (body : Node) (handlers : List Node) :
    ev.execGuarded body handlers = onEnd (ev.exec [] body) pure (ev.guardEnd handlers) := by
  funext st
  unfold execGuarded onEnd
  cases ev.exec [] body st with
  | ok a t => rfl
  | error e t => cases e <;> rfl

def labelEnd (label : String) : Signal → Exec Unit
  | .breakTo l => if l = some label then return else throw (.breakTo l)
  | e => throw e

lemma execLabeled_eq (labels : List String) (label : String) (body : Node) :
    ev.execLabeled labels label body =
      onEnd (ev.exec (labels ++ [label]) body) pure (labelEnd label) := by
  funext st
  unfold execLabeled onEnd
  cases ev.exec (labels ++ [label]) body st with
  | ok a t => rfl
  | error e t =>
    cases e with
    | breakTo l =>
      dsimp only [labelEnd]
      split <;> rfl
    | _ => rfl

def uncaughtEnd : Signal → Exec Unit
  | .thrown v => do fail (.uncaught (← shown v))
  | e => throw e

lemma uncaughtEnd_thrown (v : Value) (st : State) :
    uncaughtEnd (.thrown v) st = match display? st.heap v with
      | some text => .error (.failed (.uncaught text)) st
      | none => .error .exhausted st := by
  have hshown : shown v st.toStore = finite (display? st.heap v) st.toStore := rfl
  show EStateM.bind (liftM (shown v)) _ st = _
  rw [EStateM.bind, liftM_apply, hshown]
  cases display? st.heap v <;> rfl

lemma reportUncaught_eq (body : Exec Value) :
    reportUncaught body = onEnd body (fun _ => return) uncaughtEnd := by
  funext st
  unfold reportUncaught onEnd
  cases body st with
  | ok a t => rfl
  | error e t =>
    cases e with
    | thrown v => exact (uncaughtEnd_thrown v t).symm
    | _ => rfl

end Evaluator

lemma onEnd_pure_throw (c : Exec α) : onEnd c pure throw = c := by
  funext st
  unfold onEnd
  cases c st <;> rfl

namespace Steady

lemma onEnd {c : Exec α} {f : α → Exec β} {g : Signal → Exec β} [hc : Steady c]
    (hf : ∀ a, Steady (f a)) (hg : ∀ e, Steady (g e)) : Steady (onEnd c f g) where
  trace_le st := by
    have h := hc.trace_le st
    unfold Machine.onEnd
    generalize c st = r at h ⊢
    cases r with
    | ok a t => exact h.trans ((hf a).trace_le t)
    | error e t => exact h.trans ((hg e).trace_le t)

instance instOnEnd {c : Exec α} {f : α → Exec β} {g : Signal → Exec β} [Steady c]
    [hf : ∀ a, Steady (f a)] [hg : ∀ e, Steady (g e)] : Steady (Machine.onEnd c f g) := .onEnd hf hg

instance instPure (a : α) : Steady (pure a) := ⟨fun _ => le_rfl⟩

instance instThrow (e : Signal) : Steady (throw e : Exec α) := ⟨fun _ => le_rfl⟩

instance instBind {c : Exec α} {f : α → Exec β} [Steady c] [hf : ∀ a, Steady (f a)] :
    Steady (c >>= f) :=
  bind_eq_onEnd c f ▸ .onEnd hf instThrow

instance instGet : Steady (get : Exec State) := ⟨fun _ => le_rfl⟩

instance instLift (c : StoreM α) [hc : Confined .all c] : Steady (liftM c : Exec α) where
  trace_le st := by
    have h := hc.confinedFrom st.toStore
    unfold ConfinedFrom at h
    rw [liftM_apply]
    generalize c st.toStore = r at h ⊢
    cases r with
    | ok a s => exact ⟨Nat.le_refl _, List.suffix_rfl, h⟩
    | error e s => exact ⟨Nat.le_refl _, List.suffix_rfl, h⟩

instance instIte {p : Prop} [Decidable p] {c d : Exec α} [Steady c] [Steady d] :
    Steady (if p then c else d) := by
  split <;> infer_instance

instance instNote (i : Incident) : Steady (note i) :=
  ⟨fun _ => ⟨Nat.le_refl _, List.suffix_cons _ _, le_rfl⟩⟩

instance instSetFrame (f : Frame) : Steady (setFrame f) := ⟨fun _ => le_rfl⟩

instance instGetFrame : Steady getFrame := inferInstanceAs (Steady (get >>= fun st => pure st.frame))

instance instPushScope (bs : Bindings) : Steady (pushScope bs) := ⟨fun _ => le_rfl⟩

instance instPopScope : Steady popScope where
  trace_le st := by
    unfold popScope
    split <;> exact le_rfl

instance instDeclare (name : String) (v : Value) (type : Option TypeInfo) :
    Steady (declare name v type) where
  trace_le st := by
    unfold declare
    split <;> exact le_rfl

instance instTick (limit : Int) : Steady (tick limit) := by
  have hcount : Steady (modify fun st => { st with steps := st.steps + 1 } : Exec PUnit) :=
    ⟨fun _ => ⟨Nat.le_succ _, List.suffix_rfl, le_rfl⟩⟩
  unfold tick
  infer_instance

instance instAssignName (name : String) (v : Value) (origin : Origin) :
    Steady (assignName name v origin) := by
  have hmodify : ∀ d, Steady (modify fun st => { st with frame := { st.frame with
      scopes := st.frame.scopes.modify d (·.put name v origin) } } : Exec PUnit) :=
    fun _ => ⟨fun _ => le_rfl⟩
  refine @instBind _ _ _ _ instGet fun st => ?_
  split <;> infer_instance

instance instNoting (i : Incident) (c : Exec α) [Steady c] : Steady (noting i c) :=
  noting_eq i c ▸ .onEnd instPure fun _ => inferInstance

instance instLastly (last : Exec Unit) [Steady last] (e : Signal) :
    Steady (lastly last e : Exec α) := by
  unfold lastly
  split <;> infer_instance

instance instEnsuring (body : Exec α) (last : Exec Unit) [Steady body] [Steady last] :
    Steady (ensuring body last) := by
  rw [ensuring_eq]
  exact .onEnd (fun _ => inferInstance) fun _ => inferInstance

instance instDiscard (c : Exec α) [Steady c] : Steady (discard c) :=
  discard_eq c ▸ .onEnd (fun _ => inferInstance) instThrow

instance instInScope (bs : Bindings) (body : Exec α) [Steady body] : Steady (inScope bs body) :=
  inferInstanceAs (Steady (pushScope bs >>= fun _ => ensuring body popScope))

instance instBindParameters (ps : List Node) (args : List Value) :
    Steady (bindParameters ps args) := by
  induction ps generalizing args with
  | nil => exact instPure _
  | cons p ps ih =>
    unfold bindParameters
    split
    · refine @instIte _ _ _ _ _ inferInstance ?_
      split <;> infer_instance
    · infer_instance

instance instReturnEnd (e : Signal) : Steady (returnEnd e) := by
  unfold returnEnd
  split <;> infer_instance

instance instCatchReturn (body : Exec Unit) [Steady body] : Steady (catchReturn body) := by
  rw [catchReturn_eq]
  exact .onEnd (fun _ => inferInstance) fun _ => inferInstance

end Steady

class Evaluator.Steady (ev : Evaluator) : Prop where
  eval (e : Node) : Machine.Steady (ev.eval e)
  exec (labels : List String) (s : Node) : Machine.Steady (ev.exec labels s)

attribute [instance] Evaluator.Steady.eval Evaluator.Steady.exec

namespace Evaluator

variable (ev : Evaluator) [ev.Steady]

instance : Machine.Steady ev.tick := inferInstanceAs (Machine.Steady (Machine.tick ev.limit))

instance (es : List Node) : Machine.Steady (ev.evalAll es) := by
  induction es with
  | nil => exact Steady.instPure _
  | cons e es ih =>
    unfold evalAll
    infer_instance

instance (e : Node) : Machine.Steady (ev.truth e) := by
  refine @Steady.instBind _ _ _ _ inferInstance fun v => ?_
  split <;> infer_instance

instance : Machine.Steady ev.currentClass := by
  unfold currentClass
  infer_instance

instance (b : Option Node) : Machine.Steady (ev.execBody b) := by
  unfold execBody
  split <;> infer_instance

instance (className : String) (r : Routine) (this : Option Nat) (args : List Value) :
    Machine.Steady (ev.invoke className r this args) := by
  unfold invoke
  infer_instance

instance (type : Except Fault TypeInfo) (init : Option Node) :
    Machine.Steady (ev.initialValue type init) := by
  unfold initialValue
  split <;> infer_instance

instance (type : Node) (put : String → Value → Origin → StoreM Unit)
    [∀ name v origin, Confined .all (put name v origin)] (ds : List Node) :
    Machine.Steady (ev.initFields type put ds) := by
  induction ds with
  | nil => exact Steady.instPure _
  | cons d ds ih =>
    unfold initFields
    split <;> infer_instance

instance (static : Bool) (put : String → Value → Origin → StoreM Unit)
    [∀ name v origin, Confined .all (put name v origin)] (ms : List Node) :
    Machine.Steady (ev.initMembers static put ms) := by
  induction ms with
  | nil => exact Steady.instPure _
  | cons m ms ih =>
    unfold initMembers
    dsimp only
    split <;> infer_instance

instance (f : Frame) (body : Exec Unit) [Machine.Steady body] :
    Machine.Steady (inFrame f body) := by
  unfold inFrame
  infer_instance

instance (c : ClassInfo) (index : Nat) (args : List Value) :
    Machine.Steady (ev.construct c index args) := by
  unfold construct
  split <;> infer_instance

instance (c : ClassInfo) (args : List Value) : Machine.Steady (ev.instantiate c args) := by
  unfold instantiate
  infer_instance

instance (c : ClassInfo) : Machine.Steady (ev.initStatics c) := by
  unfold initStatics
  infer_instance

instance (type : Node) (args : List Value) : Machine.Steady (ev.create type args) := by
  refine @Steady.instBind _ _ _ _ inferInstance fun typeName => ?_
  split <;> infer_instance

instance (name : String) : Machine.Steady (ev.classRef name) := by
  unfold classRef
  infer_instance

instance (name : String) : Machine.Steady (ev.evalName name) := by
  refine @Steady.instBind _ _ _ _ inferInstance fun st => ?_
  split <;> infer_instance

instance (name : String) (target : Node) : Machine.Steady (ev.evalField name target) := by
  unfold evalField
  infer_instance

instance (target index : Node) : Machine.Steady (ev.evalIndex target index) := by
  unfold evalIndex
  infer_instance

instance (target index : Node) : Machine.Steady (ev.evalElement target index) := by
  unfold evalElement
  infer_instance

instance : Machine.Steady evalThis := by
  unfold evalThis
  infer_instance

instance (args : List Value) : Machine.Steady (ev.callThis args) := by
  refine @Steady.instBind _ _ _ _ inferInstance fun c => ?_
  split <;> infer_instance

instance (name : String) (args : List Value) : Machine.Steady (ev.callUnqualified name args) := by
  unfold callUnqualified
  refine @Steady.instIte _ _ _ _ _ inferInstance (@Steady.instIte _ _ _ _ _ inferInstance ?_)
  refine @Steady.instBind _ _ _ _ inferInstance fun c => ?_
  split <;> infer_instance

instance (className name : String) (args : List Value) :
    Machine.Steady (ev.callStatic className name args) := by
  unfold callStatic
  split
  · split <;> infer_instance
  · infer_instance

instance (h : Heap) (v : Value) (name : String) (args : List Value) :
    Machine.Steady (ev.callFound h v name args) := by
  unfold callFound
  split
  · infer_instance
  · split <;> infer_instance
  · infer_instance

instance (v : Value) (name : String) (args : List Value) :
    Machine.Steady (ev.callOn v name args) := by
  unfold callOn
  infer_instance

instance (name : String) (target : Option Node) (args : List Node) :
    Machine.Steady (ev.evalCall name target args) := by
  refine @Steady.instBind _ _ _ _ inferInstance fun args => ?_
  split <;> infer_instance

instance (type : Node) (args : List Node) : Machine.Steady (ev.evalCreation type args) := by
  unfold evalCreation
  infer_instance

instance (es : List Node) : Machine.Steady (ev.evalSizes es) := by
  induction es with
  | nil => exact Steady.instPure _
  | cons e es ih =>
    unfold evalSizes
    infer_instance

instance (extraDims : Nat) (type : Node) (sizes : List Node) (init : Option Node) :
    Machine.Steady (ev.evalArrayCreation extraDims type sizes init) := by
  unfold evalArrayCreation
  split <;> infer_instance

instance (values : List Node) : Machine.Steady (ev.evalArrayInit values) := by
  unfold evalArrayInit
  infer_instance

instance (name : String) (target : Node) (v : Value) (origin : Origin) :
    Machine.Steady (ev.assignField name target v origin) := by
  unfold assignField
  infer_instance

instance (target : Node) (v : Value) (origin : Origin) :
    Machine.Steady (ev.assign target v origin) := by
  unfold assign
  split <;> infer_instance

instance (op : AssignOp) (target e : Node) : Machine.Steady (ev.assignedValue op target e) := by
  unfold assignedValue
  split <;> infer_instance

instance (op : AssignOp) (target e : Node) : Machine.Steady (ev.evalAssign op target e) := by
  unfold evalAssign
  infer_instance

instance (op : BinaryOp) (left right : Node) : Machine.Steady (ev.evalBinary op left right) := by
  unfold evalBinary
  split <;> infer_instance

instance (up after : Bool) (target : Node) : Machine.Steady (ev.evalStep up after target) := by
  unfold evalStep
  infer_instance

instance (op : UnaryOp) (after : Bool) (e : Node) : Machine.Steady (ev.evalUnary op after e) := by
  unfold evalUnary
  split <;> infer_instance

instance (cond thenExpr elseExpr : Node) :
    Machine.Steady (ev.evalConditional cond thenExpr elseExpr) := by
  unfold evalConditional
  infer_instance

instance (type e : Node) : Machine.Steady (ev.evalCast type e) := by
  unfold evalCast
  infer_instance

instance (e type : Node) : Machine.Steady (ev.evalInstanceOf e type) := by
  unfold evalInstanceOf
  infer_instance

instance (e : Node) : Machine.Steady (ev.expression e) := by
  unfold expression
  split <;> infer_instance

end Evaluator

instance (round : Nat → Exec Bool) [h : ∀ i, Steady (round i)] (most i : Nat) :
    Steady (repeatFrom round most i) := by
  induction most generalizing i with
  | zero => exact Steady.instThrow _
  | succ n ih =>
    unfold repeatFrom
    infer_instance

namespace Evaluator

variable (ev : Evaluator) [ev.Steady]

instance (round : Nat → Exec Bool) [∀ i, Machine.Steady (round i)] :
    Machine.Steady (ev.rounds round) := by
  unfold rounds
  infer_instance

instance (ss : List Node) : Machine.Steady (ev.execAll ss) := by
  induction ss with
  | nil => exact Steady.instPure _
  | cons s ss ih =>
    unfold execAll
    infer_instance

instance (ss : List Node) : Machine.Steady (ev.execBlock ss) := by
  unfold execBlock
  infer_instance

instance (type : Node) (ds : List Node) : Machine.Steady (ev.execLocalVar type ds) := by
  induction ds with
  | nil => exact Steady.instPure _
  | cons d ds ih =>
    unfold execLocalVar
    split <;> infer_instance

instance (cond thenStmt : Node) (elseStmt : Option Node) :
    Machine.Steady (ev.execIf cond thenStmt elseStmt) := by
  unfold execIf
  infer_instance

instance (labels : List String) (e : Signal) : Machine.Steady (bodyEnd labels e) := by
  unfold bodyEnd
  split <;> infer_instance

instance (labels : List String) (body : Node) : Machine.Steady (ev.runBody labels body) := by
  rw [runBody_eq]
  exact .onEnd (fun _ => inferInstance) fun _ => inferInstance

instance (labels : List String) (body : Node) : Machine.Steady (ev.round labels body) := by
  unfold round
  infer_instance

instance (labels : List String) (cond body : Node) :
    Machine.Steady (ev.whileRound labels cond body) := by
  unfold whileRound
  infer_instance

instance (labels : List String) (cond body : Node) :
    Machine.Steady (ev.execWhile labels cond body) := by
  unfold execWhile
  infer_instance

instance (labels : List String) (body cond : Node) :
    Machine.Steady (ev.doWhileRound labels body cond) := by
  unfold doWhileRound
  infer_instance

instance (labels : List String) (body cond : Node) :
    Machine.Steady (ev.execDoWhile labels body cond) := by
  unfold execDoWhile
  infer_instance

instance (es : List Node) : Machine.Steady (ev.execInit es) := by
  induction es with
  | nil => exact Steady.instPure _
  | cons e es ih =>
    unfold execInit
    infer_instance

instance (es : List Node) : Machine.Steady (ev.evalEach es) := by
  induction es with
  | nil => exact Steady.instPure _
  | cons e es ih =>
    unfold evalEach
    infer_instance

instance (cond : Option Node) : Machine.Steady (ev.condition cond) := by
  unfold condition
  split <;> infer_instance

instance (labels : List String) (cond : Option Node) (update : List Node) (body : Node) :
    Machine.Steady (ev.forRound labels cond update body) := by
  unfold forRound
  infer_instance

instance (labels : List String) (init : List Node) (cond : Option Node) (update : List Node)
    (body : Node) : Machine.Steady (ev.execFor labels init cond update body) := by
  unfold execFor
  infer_instance

instance (labels : List String) (type name : Node) (v : Value) (body : Node) (i : Nat) :
    Machine.Steady (ev.forEachRound labels type name v body i) := by
  refine @Steady.instBind _ _ _ _ inferInstance fun items => ?_
  split <;> infer_instance

instance (v : Value) : Machine.Steady (noteForeign v) := by
  unfold noteForeign
  infer_instance

instance (labels : List String) (var iterable body : Node) :
    Machine.Steady (ev.execForEach labels var iterable body) := by
  have hrounds : ∀ type name v,
      Machine.Steady (ev.rounds (ev.forEachRound labels type name v body)) := inferInstance
  unfold execForEach
  infer_instance

instance (e : Option Node) : Machine.Steady (ev.execReturn e) := by
  unfold execReturn
  split <;> infer_instance

instance (e : Node) : Machine.Steady (ev.execThrow e) := by
  unfold execThrow
  infer_instance

instance (v : Value) (handlers : List Node) : Machine.Steady (ev.handle v handlers) := by
  induction handlers with
  | nil => exact Steady.instThrow _
  | cons c cs ih =>
    unfold handle
    split <;> infer_instance

instance (handlers : List Node) (e : Signal) : Machine.Steady (ev.guardEnd handlers e) := by
  unfold guardEnd
  split <;> infer_instance

instance (body : Node) (handlers : List Node) : Machine.Steady (ev.execGuarded body handlers) := by
  rw [execGuarded_eq]
  exact .onEnd (fun _ => inferInstance) fun _ => inferInstance

instance (body : Node) (handlers : List Node) (last : Option Node) :
    Machine.Steady (ev.execTry body handlers last) := by
  unfold execTry
  infer_instance

instance (label : String) (e : Signal) : Machine.Steady (labelEnd label e) := by
  unfold labelEnd
  split <;> infer_instance

instance (labels : List String) (label : String) (body : Node) :
    Machine.Steady (ev.execLabeled labels label body) := by
  rw [execLabeled_eq]
  exact .onEnd (fun _ => inferInstance) fun _ => inferInstance

instance (labels : List String) (s : Node) : Machine.Steady (ev.statement labels s) := by
  unfold statement
  split <;> infer_instance

instance (labels : List String) (s : Node) : Machine.Steady (ev.countedStatement labels s) := by
  unfold countedStatement
  infer_instance

end Evaluator

lemma evaluatorAt_program (program : Program) (limit : Int) (depth : Nat) :
    (evaluatorAt program limit depth).program = program := by
  cases depth <;> rfl

instance (program : Program) (limit : Int) (depth : Nat) :
    (evaluatorAt program limit depth).Steady := by
  induction depth with
  | zero => exact ⟨fun _ => Steady.instThrow _, fun _ _ => Steady.instThrow _⟩
  | succ n ih => exact ⟨fun e => inferInstanceAs (Steady (Evaluator.expression _ e)),
      fun ls s => inferInstanceAs (Steady (Evaluator.countedStatement _ ls s))⟩

namespace Evaluator

variable (ev : Evaluator) [ev.Steady]

instance (cs : List ClassInfo) : Machine.Steady (ev.initClasses cs) := by
  induction cs with
  | nil => exact Steady.instPure _
  | cons c cs ih =>
    unfold initClasses
    infer_instance

instance (method : String) (className : Option String) :
    Machine.Steady (ev.entry method className) := by
  unfold entry
  split
  · split <;> infer_instance
  · infer_instance

instance (e : Signal) : Machine.Steady (uncaughtEnd e) := by
  unfold uncaughtEnd
  split <;> infer_instance

instance (body : Exec Value) [Machine.Steady body] : Machine.Steady (reportUncaught body) := by
  rw [reportUncaught_eq]
  exact .onEnd (fun _ => inferInstance) fun _ => inferInstance

instance (method : String) (className : Option String) (args : Option (List Value)) :
    Machine.Steady (ev.run method className args) := by
  unfold run
  infer_instance

end Evaluator

end LoopLowering.Machine
