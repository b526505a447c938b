import LoopLowering.Proofs.Machine.Growth

/-! A run with a smaller limit is a beginning of the run with a larger one. The two do the same until
the smaller limit is passed. From then on the first run only leaves the code that it is in: no
statement of a `finally` does anything, no handler takes the failure, and nothing is printed. -/

namespace LoopLowering.Machine

set_option synthInstance.maxSize 1000

variable {α β : Type}

structure Bounds where
  limit : Int
  more : Int
  limit_le : limit ≤ more
  deeper : Prop

def Signal.Halts (limit : Int) : Signal → Prop
  | .failed (.stepLimit n) => n = limit
  | .fault .badIndex => True
  | _ => False

namespace Bounds

variable (B : Bounds)

inductive Halted : EStateM.Result Signal State α → Prop
  | overrun {e : Signal} {t : State} (he : e.Halts B.limit) (ht : B.limit < t.steps) :
    Halted (.error e t)
  | exhausted (t : State) (h : B.deeper) : Halted (.error .exhausted t)

/-- The ends of the two runs: they are the same, or the first run was cut off before. -/
inductive Cut (st : State) :
    EStateM.Result Signal State α → EStateM.Result Signal State α → Prop
  | same {r : EStateM.Result Signal State α}
    (h : (st.steps : Int) ≤ B.limit → ((finalState r).steps : Int) ≤ B.limit) : Cut st r r
  | cut {r r' : EStateM.Result Signal State α} (h : B.Halted r)
    (hstore : (finalState r).toStore ≤ (finalState r').toStore) : Cut st r r'

def Passive (g : Signal → Exec α) : Prop :=
  ∀ e t, B.Halted (.error e t : EStateM.Result Signal State β) →
    B.Halted (g e t) ∧ (finalState (g e t)).toStore = t.toStore

class Idle (c : Exec Unit) : Prop where
  idle : ∀ t, B.limit < t.steps →
    (∃ u, c t = .ok () u ∧ t.steps ≤ u.steps ∧ u.toStore = t.toStore) ∨
      B.Halted (c t) ∧ (finalState (c t)).toStore = t.toStore

class Cuts (c c' : Exec α) : Prop where
  cut : ∀ st, B.Cut st (c st) (c' st)

variable {B}

namespace Halted

lemma retype {e : Signal} {t : State} (h : B.Halted (.error e t : EStateM.Result Signal State α)) :
    B.Halted (.error e t : EStateM.Result Signal State β) := by
  cases h with
  | overrun he ht => exact .overrun he ht
  | exhausted _ h => exact .exhausted _ h

lemma halts {e : Signal} {t : State} (h : B.Halted (.error e t : EStateM.Result Signal State α)) :
    e.Halts B.limit ∨ e = .exhausted := by
  cases h with
  | overrun he _ => exact .inl he
  | exhausted => exact .inr rfl

lemma later {e : Signal} {t u : State} (h : B.Halted (.error e t : EStateM.Result Signal State α))
    (hu : t.steps ≤ u.steps) : B.Halted (.error e u : EStateM.Result Signal State α) := by
  cases h with
  | overrun he ht => exact .overrun he (by omega)
  | exhausted _ h => exact .exhausted _ h

end Halted

namespace Passive

lemma of_eq {g : Signal → Exec α} (h : ∀ e, e.Halts B.limit → g e = throw e)
    (hexhausted : g .exhausted = throw .exhausted) : B.Passive (β := β) g := by
  intro e t ht
  have hthrow : g e = throw e := by
    rcases ht.halts with he | rfl
    · exact h e he
    · exact hexhausted
  rw [hthrow]
  exact ⟨ht.retype, rfl⟩

lemma rethrow : B.Passive (β := β) (throw : Signal → Exec α) := of_eq (fun _ _ => rfl) rfl

lemma noting (i : Incident) : B.Passive (β := β) (fun e => (do note i; throw e : Exec α)) :=
  fun e t ht =>
    have hlater : B.Halted (.error e { t with incidents := i :: t.incidents }) :=
      Halted.later ht.retype (Nat.le_refl t.steps)
    ⟨hlater, rfl⟩

lemma lastly (last : Exec Unit) [hl : B.Idle last] :
    B.Passive (β := β) (Machine.lastly last : Signal → Exec α) := by
  intro e t ht
  by_cases he : e = .exhausted
  · subst he
    exact ⟨ht.retype, rfl⟩
  · rw [lastly_eq last he]
    cases ht with
    | exhausted => exact absurd rfl he
    | overrun hhalts hsteps =>
      show B.Halted (EStateM.bind last _ t) ∧ (finalState (EStateM.bind last _ t)).toStore = _
      unfold EStateM.bind
      obtain ⟨u, hu, hle, hstore⟩ | ⟨hhalted, hstore⟩ := hl.idle t hsteps
      · rw [hu]
        exact ⟨.overrun hhalts (by omega), hstore⟩
      · generalize last t = r at hhalted hstore ⊢
        cases r with
        | ok => cases hhalted
        | error e' u => exact ⟨hhalted.retype, hstore⟩

end Passive

lemma Cut.onEnd {c c' : Exec α} {f f' : α → Exec β} {g g' : Signal → Exec β} {st : State}
    (h : B.Cut st (c st) (c' st))
    (hf : ∀ a t, c st = .ok a t → B.Cut t (f a t) (f' a t))
    (hg : ∀ e t, c st = .error e t → B.Cut t (g e t) (g' e t)) (hp : B.Passive (β := α) g)
    [hf' : ∀ a, Steady (f' a)] [hg' : ∀ e, Steady (g' e)] :
    B.Cut st (Machine.onEnd c f g st) (Machine.onEnd c' f' g' st) := by
  unfold Machine.onEnd
  generalize c st = r at h hf hg ⊢
  generalize c' st = r' at h ⊢
  cases h with
  | same hsteps =>
    have hthen : ∀ {t : State} {q q' : EStateM.Result Signal State β},
        (finalState r).steps = t.steps → B.Cut t q q' → B.Cut st q q' := by
      intro t q q' ht hq
      cases hq with
      | same h => exact .same fun hst => h (ht ▸ hsteps hst)
      | cut h hstore => exact .cut h hstore
    cases r with
    | ok a t => exact hthen rfl (hf a t rfl)
    | error e t => exact hthen rfl (hg e t rfl)
  | cut hhalted hstore =>
    have hgrows : ∀ (d : Exec β) [Steady d] (t : State),
        t.toStore ≤ (finalState (d t)).toStore := fun d hd t => (hd.trace_le t).2.2
    cases r with
    | ok => cases hhalted
    | error e t =>
      obtain ⟨hend, heq⟩ := hp e t hhalted
      refine .cut hend (heq ▸ ?_)
      cases r' with
      | ok a t' => exact le_trans hstore (hgrows (f' a) t')
      | error e' t' => exact le_trans hstore (hgrows (g' e') t')

namespace Cuts

lemma onEnd {c c' : Exec α} {f f' : α → Exec β} {g g' : Signal → Exec β} [hc : B.Cuts c c']
    (hf : ∀ a, B.Cuts (f a) (f' a)) (hg : ∀ e, B.Cuts (g e) (g' e))
    (hp : B.Passive (β := α) g) [∀ a, Steady (f' a)] [∀ e, Steady (g' e)] :
    B.Cuts (Machine.onEnd c f g) (Machine.onEnd c' f' g') where
  cut st := (hc.cut st).onEnd (fun a t _ => (hf a).cut t) (fun e t _ => (hg e).cut t) hp

lemma timeless {c : Exec α} (h : ∀ st, (finalState (c st)).steps = st.steps) : B.Cuts c c where
  cut st := .same fun hst => (h st).symm ▸ hst

instance instPure (a : α) : B.Cuts (pure a) (pure a) := timeless fun _ => rfl

instance instThrow (e : Signal) : B.Cuts (throw e : Exec α) (throw e) := timeless fun _ => rfl

instance instGet : B.Cuts (get : Exec State) get := timeless fun _ => rfl

lemma steps_lift (c : StoreM α) (st : State) :
    (finalState ((liftM c : Exec α) st)).steps = st.steps := by
  rw [liftM_apply]
  cases c st.toStore <;> rfl

instance instLift (c : StoreM α) : B.Cuts (liftM c : Exec α) (liftM c) :=
  timeless (steps_lift c)

instance instNote (i : Incident) : B.Cuts (note i) (note i) := timeless fun _ => rfl

instance instSetFrame (f : Frame) : B.Cuts (setFrame f) (setFrame f) := timeless fun _ => rfl

instance instPushScope (bs : Bindings) : B.Cuts (pushScope bs) (pushScope bs) :=
  timeless fun _ => rfl

instance instPopScope : B.Cuts popScope popScope :=
  timeless fun st => by
    unfold popScope
    split <;> rfl

instance instDeclare (name : String) (v : Value) (type : Option TypeInfo) :
    B.Cuts (declare name v type) (declare name v type) :=
  timeless fun st => by
    unfold declare
    split <;> rfl

instance instBind {c c' : Exec α} {f f' : α → Exec β} [B.Cuts c c']
    [hf : ∀ a, B.Cuts (f a) (f' a)] [∀ a, Steady (f' a)] : B.Cuts (c >>= f) (c' >>= f') := by
  rw [bind_eq_onEnd, bind_eq_onEnd]
  exact .onEnd hf (fun _ => inferInstance) .rethrow

instance instIte {p : Prop} [Decidable p] {c c' d d' : Exec α} [B.Cuts c c'] [B.Cuts d d'] :
    B.Cuts (if p then c else d) (if p then c' else d') := by
  split <;> infer_instance

instance instGetFrame : B.Cuts getFrame getFrame :=
  inferInstanceAs (B.Cuts (get >>= fun st => pure st.frame) (get >>= fun st => pure st.frame))

instance instDiscard (c c' : Exec α) [B.Cuts c c'] : B.Cuts (discard c) (discard c') := by
  rw [discard_eq, discard_eq]
  exact .onEnd (fun _ => inferInstance) (fun _ => inferInstance) .rethrow

instance instNoting (i : Incident) (c c' : Exec α) [B.Cuts c c'] :
    B.Cuts (noting i c) (noting i c') := by
  rw [noting_eq, noting_eq]
  exact .onEnd (fun _ => inferInstance) (fun _ => inferInstance) (.noting i)

instance instLastly (last last' : Exec Unit) [B.Cuts last last'] (e : Signal) :
    B.Cuts (lastly last e : Exec α) (lastly last' e) := by
  by_cases he : e = .exhausted
  · subst he
    exact instThrow _
  · rw [lastly_eq last he, lastly_eq last' he]
    infer_instance

instance instEnsuring (body body' : Exec α) (last last' : Exec Unit) [B.Cuts body body']
    [B.Cuts last last'] [B.Idle last] [Steady last'] :
    B.Cuts (ensuring body last) (ensuring body' last') := by
  rw [ensuring_eq, ensuring_eq]
  exact .onEnd (fun _ => inferInstance) (fun _ => inferInstance) (.lastly last)

lemma of_exhausted {c' : Exec α} {d' : Exec β} (h : B.Cuts (throw .exhausted) c') [hd : Steady d']
    (hthen : ∀ st, c' st = .error .exhausted st → d' st = .error .exhausted st) :
    B.Cuts (throw .exhausted) d' where
  cut st := by
    have hcut : B.Cut st (.error .exhausted st) (c' st) := h.cut st
    show B.Cut st (.error .exhausted st) (d' st)
    generalize hc : c' st = r at hcut
    cases hcut with
    | same hsteps =>
      rw [hthen st hc]
      exact .same hsteps
    | cut hhalted =>
      cases hhalted with
      | overrun he => cases he
      | exhausted _ hdeeper => exact .cut (.exhausted st hdeeper) (hd.trace_le st).2.2

instance instIdlePopScope : B.Idle popScope where
  idle t ht := by
    unfold popScope
    split
    · exact .inr ⟨.overrun trivial ht, rfl⟩
    · exact .inl ⟨_, rfl, Nat.le_refl _, rfl⟩

instance instIdleSetFrame (f : Frame) : B.Idle (setFrame f) where
  idle _ _ := .inl ⟨_, rfl, Nat.le_refl _, rfl⟩

instance instInScope (bs : Bindings) (body body' : Exec α) [B.Cuts body body'] [Steady body'] :
    B.Cuts (inScope bs body) (inScope bs body') :=
  inferInstanceAs (B.Cuts (pushScope bs >>= fun _ => ensuring body popScope)
    (pushScope bs >>= fun _ => ensuring body' popScope))

instance instAssignName (name : String) (v : Value) (origin : Origin) :
    B.Cuts (assignName name v origin) (assignName name v origin) :=
  timeless fun st => by
    unfold assignName
    rw [get_bind]
    cases st.resolve name with
    | none => rfl
    | some b =>
      cases b with
      | scope d => rfl
      | field a => exact steps_lift (setField a name v origin) st
      | static c => rfl

instance instTick : B.Cuts (tick B.limit) (tick B.more) where
  cut st := by
    rw [tick_apply, tick_apply]
    have hle := B.limit_le
    by_cases h : B.limit < (st.steps + 1 : Nat)
    · rw [if_pos h]
      refine .cut (.overrun rfl h) ?_
      split <;> exact le_rfl
    · rw [if_neg h, if_neg (by omega)]
      exact .same fun _ => not_lt.mp h

instance instBindParameters (ps : List Node) (args : List Value) :
    B.Cuts (bindParameters ps args) (bindParameters ps args) := by
  induction ps generalizing args with
  | nil => exact instPure _
  | cons p ps ih =>
    unfold bindParameters
    split
    · refine @instIte _ _ _ _ _ _ _ _ inferInstance ?_
      split <;> infer_instance
    · infer_instance

instance instCatchReturn (body body' : Exec Unit) [B.Cuts body body'] :
    B.Cuts (catchReturn body) (catchReturn body') := by
  rw [catchReturn_eq, catchReturn_eq]
  have hend : ∀ e, B.Cuts (returnEnd e) (returnEnd e) := by
    intro e
    unfold returnEnd
    split <;> infer_instance
  refine .onEnd (fun _ => inferInstance) hend (.of_eq (fun e he => ?_) rfl)
  cases e <;> first | rfl | cases he

end Cuts

end Bounds

class Evaluator.Alike (B : Bounds) (ev ev' : Evaluator) : Prop where
  program : ev'.program = ev.program
  limit : ev.limit = B.limit
  more : ev'.limit = B.more
  eval (e : Node) : B.Cuts (ev.eval e) (ev'.eval e)
  exec (labels : List String) (s : Node) : B.Cuts (ev.exec labels s) (ev'.exec labels s)
  idle : (∀ labels s, B.Idle (ev.exec labels s)) ∨
    ∀ labels s, ev.exec labels s = throw .exhausted

namespace Evaluator

open Bounds

variable {B : Bounds} (ev ev' : Evaluator) [hev : Alike B ev ev'] [ev'.Steady]

instance (e : Node) : B.Cuts (ev.eval e) (ev'.eval e) := hev.eval e

instance (labels : List String) (s : Node) : B.Cuts (ev.exec labels s) (ev'.exec labels s) :=
  hev.exec labels s

instance : B.Cuts ev.tick ev'.tick := by
  unfold tick
  rw [hev.limit, hev.more]
  infer_instance

instance (es : List Node) : B.Cuts (ev.evalAll es) (ev'.evalAll es) := by
  induction es with
  | nil => exact Cuts.instPure _
  | cons e es ih =>
    unfold evalAll
    infer_instance

instance (e : Node) : B.Cuts (ev.truth e) (ev'.truth e) := by
  refine @Cuts.instBind _ _ _ _ _ _ _ inferInstance (fun v => ?_) fun v => ?_
  · split <;> infer_instance
  · split <;> infer_instance

instance : B.Cuts ev.currentClass ev'.currentClass := by
  unfold currentClass
  rw [hev.program]
  infer_instance

instance (b : Option Node) : B.Cuts (ev.execBody b) (ev'.execBody b) := by
  unfold execBody
  split <;> infer_instance

instance (className : String) (r : Routine) (this : Option Nat) (args : List Value) :
    B.Cuts (ev.invoke className r this args) (ev'.invoke className r this args) := by
  unfold invoke
  infer_instance

instance (type : Except Fault TypeInfo) (init : Option Node) :
    B.Cuts (ev.initialValue type init) (ev'.initialValue type init) := by
  unfold initialValue
  split <;> infer_instance

section

variable (put : String → Value → Origin → StoreM Unit)
  [∀ name v origin, Confined .all (put name v origin)]

instance (type : Node) (ds : List Node) :
    B.Cuts (ev.initFields type put ds) (ev'.initFields type put ds) := by
  induction ds with
  | nil => exact Cuts.instPure _
  | cons d ds ih =>
    unfold initFields
    split <;> infer_instance

instance (static : Bool) (ms : List Node) :
    B.Cuts (ev.initMembers static put ms) (ev'.initMembers static put ms) := by
  induction ms with
  | nil => exact Cuts.instPure _
  | cons m ms ih =>
    unfold initMembers
    dsimp only
    split <;> infer_instance

end

instance (f : Frame) (body body' : Exec Unit) [B.Cuts body body'] [Machine.Steady body'] :
    B.Cuts (inFrame f body) (inFrame f body') := by
  unfold inFrame
  infer_instance

instance (c : ClassInfo) (index : Nat) (args : List Value) :
    B.Cuts (ev.construct c index args) (ev'.construct c index args) := by
  unfold construct
  split <;> infer_instance

instance (c : ClassInfo) (args : List Value) :
    B.Cuts (ev.instantiate c args) (ev'.instantiate c args) := by
  unfold instantiate
  infer_instance

instance (c : ClassInfo) : B.Cuts (ev.initStatics c) (ev'.initStatics c) := by
  unfold initStatics
  infer_instance

instance (type : Node) (args : List Value) : B.Cuts (ev.create type args) (ev'.create type args) := by
  unfold create
  rw [hev.program]
  refine @Cuts.instBind _ _ _ _ _ _ _ inferInstance (fun typeName => ?_) fun typeName => ?_
  · split <;> infer_instance
  · split <;> infer_instance

instance (name : String) : B.Cuts (ev.classRef name) (ev'.classRef name) := by
  unfold classRef
  rw [hev.program]
  infer_instance

instance (name : String) : B.Cuts (ev.evalName name) (ev'.evalName name) := by
  refine @Cuts.instBind _ _ _ _ _ _ _ inferInstance (fun st => ?_) fun st => ?_
  · split <;> infer_instance
  · split <;> infer_instance

instance (name : String) (target : Node) :
    B.Cuts (ev.evalField name target) (ev'.evalField name target) := by
  unfold evalField
  infer_instance

instance (target index : Node) : B.Cuts (ev.evalIndex target index) (ev'.evalIndex target index) := by
  unfold evalIndex
  infer_instance

instance (target index : Node) :
    B.Cuts (ev.evalElement target index) (ev'.evalElement target index) := by
  unfold evalElement
  infer_instance

instance : B.Cuts evalThis evalThis := by
  unfold evalThis
  infer_instance

instance (args : List Value) : B.Cuts (ev.callThis args) (ev'.callThis args) := by
  refine @Cuts.instBind _ _ _ _ _ _ _ inferInstance (fun c => ?_) fun c => ?_
  · split <;> infer_instance
  · split <;> infer_instance

instance (name : String) (args : List Value) :
    B.Cuts (ev.callUnqualified name args) (ev'.callUnqualified name args) := by
  unfold callUnqualified
  refine @Cuts.instIte _ _ _ _ _ _ _ _ inferInstance
    (@Cuts.instIte _ _ _ _ _ _ _ _ inferInstance ?_)
  refine @Cuts.instBind _ _ _ _ _ _ _ inferInstance (fun c => ?_) fun c => ?_
  · split <;> infer_instance
  · split <;> infer_instance

instance (className name : String) (args : List Value) :
    B.Cuts (ev.callStatic className name args) (ev'.callStatic className name args) := by
  unfold callStatic
  rw [hev.program]
  split
  · split <;> infer_instance
  · infer_instance

instance (h : Heap) (v : Value) (name : String) (args : List Value) :
    B.Cuts (ev.callFound h v name args) (ev'.callFound h v name args) := by
  unfold callFound declared?
  rw [hev.program]
  split
  · infer_instance
  · split <;> infer_instance
  · infer_instance

instance (v : Value) (name : String) (args : List Value) :
    B.Cuts (ev.callOn v name args) (ev'.callOn v name args) := by
  unfold callOn
  infer_instance

instance (name : String) (target : Option Node) (args : List Node) :
    B.Cuts (ev.evalCall name target args) (ev'.evalCall name target args) := by
  refine @Cuts.instBind _ _ _ _ _ _ _ inferInstance (fun args => ?_) fun args => ?_
  · split <;> infer_instance
  · split <;> infer_instance

instance (type : Node) (args : List Node) :
    B.Cuts (ev.evalCreation type args) (ev'.evalCreation type args) := by
  unfold evalCreation
  infer_instance

instance (es : List Node) : B.Cuts (ev.evalSizes es) (ev'.evalSizes es) := by
  induction es with
  | nil => exact Cuts.instPure _
  | cons e es ih =>
    unfold evalSizes
    infer_instance

instance (extraDims : Nat) (type : Node) (sizes : List Node) (init : Option Node) :
    B.Cuts (ev.evalArrayCreation extraDims type sizes init)
      (ev'.evalArrayCreation extraDims type sizes init) := by
  unfold evalArrayCreation
  split <;> infer_instance

instance (values : List Node) : B.Cuts (ev.evalArrayInit values) (ev'.evalArrayInit values) := by
  unfold evalArrayInit
  infer_instance

instance (name : String) (target : Node) (v : Value) (origin : Origin) :
    B.Cuts (ev.assignField name target v origin) (ev'.assignField name target v origin) := by
  have hput : ev'.putField = ev.putField := by
    unfold putField
    rw [hev.program]
  unfold assignField
  rw [hput]
  infer_instance

instance (target : Node) (v : Value) (origin : Origin) :
    B.Cuts (ev.assign target v origin) (ev'.assign target v origin) := by
  unfold assign
  split <;> infer_instance

instance (op : AssignOp) (target e : Node) :
    B.Cuts (ev.assignedValue op target e) (ev'.assignedValue op target e) := by
  unfold assignedValue
  split <;> infer_instance

instance (op : AssignOp) (target e : Node) :
    B.Cuts (ev.evalAssign op target e) (ev'.evalAssign op target e) := by
  unfold evalAssign
  infer_instance

instance (op : BinaryOp) (left right : Node) :
    B.Cuts (ev.evalBinary op left right) (ev'.evalBinary op left right) := by
  unfold evalBinary
  split <;> infer_instance

instance (up after : Bool) (target : Node) :
    B.Cuts (ev.evalStep up after target) (ev'.evalStep up after target) := by
  unfold evalStep
  infer_instance

instance (op : UnaryOp) (after : Bool) (e : Node) :
    B.Cuts (ev.evalUnary op after e) (ev'.evalUnary op after e) := by
  unfold evalUnary
  split <;> infer_instance

instance (cond thenExpr elseExpr : Node) :
    B.Cuts (ev.evalConditional cond thenExpr elseExpr)
      (ev'.evalConditional cond thenExpr elseExpr) := by
  unfold evalConditional
  infer_instance

instance (type e : Node) : B.Cuts (ev.evalCast type e) (ev'.evalCast type e) := by
  unfold evalCast
  infer_instance

instance (e type : Node) : B.Cuts (ev.evalInstanceOf e type) (ev'.evalInstanceOf e type) := by
  unfold evalInstanceOf
  infer_instance

instance cuts_expression (e : Node) : B.Cuts (ev.expression e) (ev'.expression e) := by
  unfold expression
  split <;> infer_instance

end Evaluator

lemma Evaluator.countedStatement_of_lt (ev : Evaluator) (labels : List String) (s : Node)
    {st : State} (h : ev.limit < st.steps) : ev.countedStatement labels s st =
      .error (.failed (.stepLimit ev.limit)) (st.counted 1) := by
  unfold countedStatement tick
  rw [bind_eq_onEnd, onEnd, tick_apply, if_pos (by omega)]
  rfl

structure Timely (limit : Int) (c : Exec α) : Prop where
  le {st : State} {a : α} {t : State} (h : c st = .ok a t) : st.steps ≤ t.steps
  within {st : State} {a : α} {t : State} (h : c st = .ok a t) (hst : (st.steps : Int) ≤ limit) :
    (t.steps : Int) ≤ limit

lemma Bounds.Cuts.timely {B : Bounds} {c c' : Exec α} (hc : B.Cuts c c') [hs : Steady c] :
    Timely B.limit c where
  le {st a t} h := by
    have hle := (hs.trace_le st).1
    rw [h] at hle
    exact hle
  within {st a t} h hst := by
    have hcut := hc.cut st
    rw [h] at hcut
    generalize c' st = r at hcut
    cases hcut with
    | same hsteps => exact hsteps hst
    | cut hhalted => cases hhalted

def Paced (limit : Int) (P : α → Prop) (c : Exec α) : Prop :=
  ∀ st a t, c st = .ok a t → P a → st.steps < t.steps ∧ (t.steps : Int) ≤ limit

namespace Paced

variable {limit : Int} {P : α → Prop} {Q : β → Prop} {c : Exec α} {f : α → Exec β}

lemma tick : Paced limit (fun _ => True) (tick limit) := by
  intro st a t h _
  rw [tick_apply] at h
  split at h
  · cases h
  · rename_i hlimit
    cases h
    exact ⟨Nat.lt_succ_self _, not_lt.mp hlimit⟩

lemma pure {a : α} (h : ¬ P a) : Paced limit P (pure a) := by
  rintro st _ _ ⟨⟩ ha
  exact absurd ha h

lemma followed (hc : Paced limit (fun _ => True) c) (hf : ∀ a, Timely limit (f a)) :
    Paced limit Q (c >>= f) := by
  intro st b u h _
  obtain ⟨a, t, ht, hu⟩ := exists_of_bind_ok h
  obtain ⟨hlt, hle⟩ := hc st a t ht trivial
  exact ⟨hlt.trans_le ((hf a).le hu), (hf a).within hu hle⟩

lemma after (hc : Timely limit c) (hf : ∀ a, Paced limit Q (f a)) : Paced limit Q (c >>= f) := by
  intro st b u h hb
  obtain ⟨a, t, ht, hu⟩ := exists_of_bind_ok h
  obtain ⟨hlt, hle⟩ := hf a t b u hu hb
  exact ⟨(hc.le ht).trans_lt hlt, hle⟩

end Paced

namespace Bounds

variable {B : Bounds}

lemma Cut.repeatFrom {round round' : Nat → Exec Bool} [hround : ∀ i, B.Cuts (round i) (round' i)]
    [∀ i, Steady (round' i)] (hpaced : ∀ i, Paced B.limit (· = true) (round i)) {n m : Nat}
    (hnm : n ≤ m) (i : Nat) {st : State} (hrounds : B.limit.toNat + 2 ≤ n + st.steps)
    (hpositive : (st.steps : Int) ≤ B.limit ∨ 0 < n) :
    B.Cut st (Machine.repeatFrom round n i st) (Machine.repeatFrom round' m i st) := by
  induction n generalizing m i st with
  | zero => omega
  | succ n ih =>
    obtain ⟨m, rfl⟩ : ∃ k, m = k + 1 := ⟨m - 1, by omega⟩
    unfold Machine.repeatFrom
    rw [bind_eq_onEnd, bind_eq_onEnd]
    refine ((hround i).cut st).onEnd (fun b t ht => ?_) (fun e t _ => (Cuts.instThrow e).cut t)
      .rethrow
    cases b with
    | false => exact (Cuts.instPure _).cut t
    | true =>
      obtain ⟨hlt, hle⟩ := hpaced i st true t ht rfl
      exact ih (by omega) (i + 1) (by omega) (.inl hle)

end Bounds

namespace Evaluator

open Bounds

variable {B : Bounds} (ev ev' : Evaluator) [hev : Alike B ev ev']

lemma cuts_rounds {round round' : Nat → Exec Bool} [∀ i, B.Cuts (round i) (round' i)]
    [∀ i, Machine.Steady (round' i)] (hpaced : ∀ i, Paced B.limit (· = true) (round i)) :
    B.Cuts (ev.rounds round) (ev'.rounds round') where
  cut st := by
    unfold rounds
    rw [hev.limit, hev.more]
    have hle := B.limit_le
    exact .repeatFrom hpaced (by omega) 0 (by omega) (.inr (by omega))

variable [ev'.Steady]

instance (ss : List Node) : B.Cuts (ev.execAll ss) (ev'.execAll ss) := by
  induction ss with
  | nil => exact Cuts.instPure _
  | cons s ss ih =>
    unfold execAll
    infer_instance

instance (ss : List Node) : B.Cuts (ev.execBlock ss) (ev'.execBlock ss) := by
  unfold execBlock
  infer_instance

instance (type : Node) (ds : List Node) :
    B.Cuts (ev.execLocalVar type ds) (ev'.execLocalVar type ds) := by
  induction ds with
  | nil => exact Cuts.instPure _
  | cons d ds ih =>
    unfold execLocalVar
    split <;> infer_instance

instance (cond thenStmt : Node) (elseStmt : Option Node) :
    B.Cuts (ev.execIf cond thenStmt elseStmt) (ev'.execIf cond thenStmt elseStmt) := by
  unfold execIf
  infer_instance

instance (labels : List String) (e : Signal) : B.Cuts (bodyEnd labels e) (bodyEnd labels e) := by
  unfold bodyEnd
  split <;> infer_instance

instance (labels : List String) (body : Node) :
    B.Cuts (ev.runBody labels body) (ev'.runBody labels body) := by
  rw [runBody_eq, runBody_eq]
  refine .onEnd (fun _ => inferInstance) (fun _ => inferInstance) (.of_eq (fun e he => ?_) rfl)
  cases e <;> first | rfl | cases he

instance (labels : List String) (body : Node) :
    B.Cuts (ev.round labels body) (ev'.round labels body) := by
  unfold round
  infer_instance

instance (labels : List String) (cond body : Node) :
    B.Cuts (ev.whileRound labels cond body) (ev'.whileRound labels cond body) := by
  unfold whileRound
  infer_instance

instance (labels : List String) (body cond : Node) :
    B.Cuts (ev.doWhileRound labels body cond) (ev'.doWhileRound labels body cond) := by
  unfold doWhileRound
  infer_instance

instance (es : List Node) : B.Cuts (ev.execInit es) (ev'.execInit es) := by
  induction es with
  | nil => exact Cuts.instPure _
  | cons e es ih =>
    unfold execInit
    infer_instance

instance (es : List Node) : B.Cuts (ev.evalEach es) (ev'.evalEach es) := by
  induction es with
  | nil => exact Cuts.instPure _
  | cons e es ih =>
    unfold evalEach
    infer_instance

instance (cond : Option Node) : B.Cuts (ev.condition cond) (ev'.condition cond) := by
  unfold condition
  split <;> infer_instance

instance (labels : List String) (cond : Option Node) (update : List Node) (body : Node) :
    B.Cuts (ev.forRound labels cond update body) (ev'.forRound labels cond update body) := by
  unfold forRound
  infer_instance

instance (labels : List String) (type name : Node) (v : Value) (body : Node) (i : Nat) :
    B.Cuts (ev.forEachRound labels type name v body i)
      (ev'.forEachRound labels type name v body i) := by
  refine @Cuts.instBind _ _ _ _ _ _ _ inferInstance (fun items => ?_) fun items => ?_
  · split <;> infer_instance
  · split <;> infer_instance

instance (v : Value) : B.Cuts (noteForeign v) (noteForeign v) := by
  unfold noteForeign
  infer_instance

instance (e : Option Node) : B.Cuts (ev.execReturn e) (ev'.execReturn e) := by
  unfold execReturn
  split <;> infer_instance

instance (e : Node) : B.Cuts (ev.execThrow e) (ev'.execThrow e) := by
  unfold execThrow
  infer_instance

instance (v : Value) (handlers : List Node) :
    B.Cuts (ev.handle v handlers) (ev'.handle v handlers) := by
  induction handlers with
  | nil => exact Cuts.instThrow _
  | cons c cs ih =>
    unfold handle
    split <;> infer_instance

instance (body : Node) (handlers : List Node) :
    B.Cuts (ev.execGuarded body handlers) (ev'.execGuarded body handlers) := by
  have hend : ∀ e, B.Cuts (ev.guardEnd handlers e) (ev'.guardEnd handlers e) := by
    intro e
    unfold guardEnd
    split <;> infer_instance
  rw [execGuarded_eq, execGuarded_eq]
  refine .onEnd (fun _ => inferInstance) hend (.of_eq (fun e he => ?_) rfl)
  cases e <;> first | rfl | cases he

omit hev [ev'.Steady] in
lemma idle_execBody (h : ∀ labels s, B.Idle (ev.exec labels s)) (last : Option Node) :
    B.Idle (ev.execBody last) := by
  unfold execBody
  split
  · exact ⟨fun t _ => .inl ⟨t, rfl, Nat.le_refl _, rfl⟩⟩
  · exact h [] _

omit hev [ev'.Steady] in
lemma execTry_exhausted {body : Node} {st : State}
    (h : ev.exec [] body st = .error .exhausted st) (handlers : List Node) (last : Option Node) :
    ev.execTry body handlers last st = .error .exhausted st := by
  unfold execTry ensuring execGuarded
  rw [h]

instance (body : Node) (handlers : List Node) (last : Option Node) :
    B.Cuts (ev.execTry body handlers last) (ev'.execTry body handlers last) := by
  rcases hev.idle with hidle | hbottom
  · have := idle_execBody ev hidle last
    unfold execTry
    infer_instance
  · have hbody : B.Cuts (ev.exec [] body) (ev'.exec [] body) := inferInstance
    have htry : ev.execTry body handlers last = throw .exhausted :=
      funext fun st => execTry_exhausted ev (by rw [hbottom]; rfl) handlers last
    rw [hbottom] at hbody
    rw [htry]
    exact hbody.of_exhausted fun st h => execTry_exhausted ev' h handlers last

instance (labels : List String) (label : String) (body : Node) :
    B.Cuts (ev.execLabeled labels label body) (ev'.execLabeled labels label body) := by
  have hend : ∀ e, B.Cuts (labelEnd label e) (labelEnd label e) := by
    intro e
    unfold labelEnd
    split <;> infer_instance
  rw [execLabeled_eq, execLabeled_eq]
  refine .onEnd (fun _ => inferInstance) hend (.of_eq (fun e he => ?_) rfl)
  cases e <;> first | rfl | cases he

section

variable [ev.Steady]

include ev' hev

omit [ev'.Steady] in
lemma round_paced (labels : List String) (body : Node) :
    Paced B.limit (fun _ => True) (ev.round labels body) := by
  have hbody : B.Cuts (do return !(← ev.runBody labels body))
      (do return !(← ev'.runBody labels body)) := inferInstance
  unfold round tick
  rw [hev.limit]
  exact Paced.tick.followed fun _ => hbody.timely

omit [ev'.Steady] in
lemma whileRound_paced (labels : List String) (cond body : Node) :
    Paced B.limit (· = true) (ev.whileRound labels cond body) := by
  have hcond : B.Cuts (ev.truth cond) (ev'.truth cond) := inferInstance
  refine .after hcond.timely fun b => ?_
  split
  · exact fun st a t h _ => ev.round_paced ev' labels body st a t h trivial
  · exact .pure (by decide)

omit [ev'.Steady] in
lemma doWhileRound_paced (labels : List String) (body cond : Node) :
    Paced B.limit (· = true) (ev.doWhileRound labels body cond) := by
  have hcond : ∀ b : Bool, B.Cuts (if b then ev.truth cond else return false)
      (if b then ev'.truth cond else return false) := inferInstance
  exact (ev.round_paced ev' labels body).followed fun b => (hcond b).timely

lemma forRound_paced (labels : List String) (cond : Option Node) (update : List Node)
    (body : Node) : Paced B.limit (· = true) (ev.forRound labels cond update body) := by
  have hcond : B.Cuts (ev.condition cond) (ev'.condition cond) := inferInstance
  have hupdate : ∀ b : Bool,
      B.Cuts (if b then do ev.evalEach update; return true else return false)
        (if b then do ev'.evalEach update; return true else return false) := inferInstance
  refine .after hcond.timely fun b => ?_
  split
  · exact (ev.round_paced ev' labels body).followed fun b => (hupdate b).timely
  · exact .pure (by decide)

lemma forEachRound_paced (labels : List String) (type name : Node) (v : Value) (body : Node)
    (i : Nat) : Paced B.limit (· = true) (ev.forEachRound labels type name v body i) := by
  have helements : B.Cuts (liftM (elements v) : Exec (Array Value)) (liftM (elements v)) :=
    inferInstance
  refine .after helements.timely fun items => ?_
  split
  · exact .pure (by decide)
  · rename_i x _
    have hbody : B.Cuts
        (do
          let name ← faultless (nameOf name)
          let x ← coerceTo type x
          let var : Variable := ⟨name, x, (typeInfo type).toOption, false⟩
          return !(← inScope [var] (ev.runBody labels body)))
        (do
          let name ← faultless (nameOf name)
          let x ← coerceTo type x
          let var : Variable := ⟨name, x, (typeInfo type).toOption, false⟩
          return !(← inScope [var] (ev'.runBody labels body))) := inferInstance
    unfold tick
    rw [hev.limit]
    exact Paced.tick.followed fun _ => hbody.timely

end

include ev' hev in
omit [ev'.Steady] in
lemma idle_countedStatement (labels : List String) (s : Node) :
    B.Idle (ev.countedStatement labels s) where
  idle t ht := by
    have hcounted : B.limit < ((t.counted 1).steps : Int) := by
      show B.limit < ((t.steps + 1 : Nat) : Int)
      omega
    rw [ev.countedStatement_of_lt labels s (hev.limit ▸ ht), hev.limit]
    exact .inr ⟨.overrun rfl hcounted, rfl⟩

variable [ev.Steady]

instance (labels : List String) (cond body : Node) :
    B.Cuts (ev.execWhile labels cond body) (ev'.execWhile labels cond body) :=
  cuts_rounds ev ev' fun _ => ev.whileRound_paced ev' labels cond body

instance (labels : List String) (body cond : Node) :
    B.Cuts (ev.execDoWhile labels body cond) (ev'.execDoWhile labels body cond) :=
  cuts_rounds ev ev' fun _ => ev.doWhileRound_paced ev' labels body cond

instance (labels : List String) (init : List Node) (cond : Option Node) (update : List Node)
    (body : Node) :
    B.Cuts (ev.execFor labels init cond update body) (ev'.execFor labels init cond update body) := by
  have hrounds : B.Cuts (ev.rounds fun _ => ev.forRound labels cond update body)
      (ev'.rounds fun _ => ev'.forRound labels cond update body) :=
    cuts_rounds ev ev' fun _ => ev.forRound_paced ev' labels cond update body
  unfold execFor
  infer_instance

instance (labels : List String) (var iterable body : Node) :
    B.Cuts (ev.execForEach labels var iterable body) (ev'.execForEach labels var iterable body) := by
  have hrounds : ∀ type name v, B.Cuts (ev.rounds (ev.forEachRound labels type name v body))
      (ev'.rounds (ev'.forEachRound labels type name v body)) := fun type name v =>
    cuts_rounds ev ev' (ev.forEachRound_paced ev' labels type name v body)
  unfold execForEach
  infer_instance

instance (labels : List String) (s : Node) :
    B.Cuts (ev.statement labels s) (ev'.statement labels s) := by
  unfold statement
  split <;> infer_instance

instance cuts_countedStatement (labels : List String) (s : Node) :
    B.Cuts (ev.countedStatement labels s) (ev'.countedStatement labels s) := by
  unfold countedStatement
  infer_instance

end Evaluator

lemma evaluatorAt_alike (p : Program) (B : Bounds) (d d' : Nat) (hd : d ≤ d')
    (hdeeper : d < d' → B.deeper) :
    Evaluator.Alike B (evaluatorAt p B.limit d) (evaluatorAt p B.more d') := by
  induction d generalizing d' with
  | zero =>
    have hbottom : ∀ (labels : List String) (s : Node),
        (evaluatorAt p B.limit 0).exec labels s = throw .exhausted := fun _ _ => rfl
    cases d' with
    | zero => exact ⟨rfl, rfl, rfl, fun _ => .instThrow _, fun _ _ => .instThrow _, .inr hbottom⟩
    | succ d' =>
      have hcut : ∀ {α : Type} (c' : Exec α) [Steady c'], B.Cuts (throw .exhausted) c' :=
        fun c' hc' => ⟨fun st =>
          .cut (.exhausted st (hdeeper (Nat.succ_pos d'))) (hc'.trace_le st).2.2⟩
      exact ⟨rfl, rfl, rfl, fun _ => hcut _, fun _ _ => hcut _, .inr hbottom⟩
  | succ d ih =>
    obtain ⟨d', rfl⟩ : ∃ k, d' = k + 1 := ⟨d' - 1, by omega⟩
    have hsub := ih d' (by omega) (fun h => hdeeper (by omega))
    exact ⟨rfl, rfl, rfl, fun e => Evaluator.cuts_expression _ _ e,
      fun labels s => Evaluator.cuts_countedStatement _ _ labels s,
      .inl fun labels s => Evaluator.idle_countedStatement _ (evaluatorAt p B.more d') labels s⟩

end LoopLowering.Machine
