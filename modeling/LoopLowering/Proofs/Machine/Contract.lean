import LoopLowering.Grammar.Entry
import LoopLowering.Proofs.Machine.Growth
import LoopLowering.Proofs.Machine.Mishap

/-! Contracts of running code. A contract says how the state before, the end and the state after may
relate. One that operations on values cannot break passes from calls, assignments and creations of
objects to all expressions, so what is particular to an invariant is said of these and of statements
only. -/

namespace LoopLowering.Machine

variable {α β : Type}

structure Contract where
  Allows : State → Option Signal → State → Prop
  refl (st : State) : Allows st none st
  trans {a b c : State} {o : Option Signal} (h : Allows a none b) (h' : Allows b o c) :
    Allows a o c

class Contract.Meets (K : Contract) (c : Exec α) : Prop where
  allows : ∀ st, K.Allows st (ending (c st)) (finalState (c st))

namespace Contract

variable {K : Contract}

lemma Meets.onEnd {K' : Contract} {c : Exec α} {f : α → Exec β} {g : Signal → Exec β}
    (hc : K'.Meets c)
    (hf : ∀ st a t, K'.Allows st none t → K.Allows st (ending (f a t)) (finalState (f a t)))
    (hg : ∀ st e t, K'.Allows st (some e) t → K.Allows st (ending (g e t)) (finalState (g e t))) :
    K.Meets (Machine.onEnd c f g) where
  allows st := by
    have h := hc.allows st
    unfold Machine.onEnd
    generalize c st = r at h ⊢
    cases r with
    | ok a t => exact hf st a t h
    | error e t => exact hg st e t h

instance instPure (a : α) : K.Meets (pure a) := ⟨K.refl⟩

instance instBind {c : Exec α} {f : α → Exec β} [hc : K.Meets c] [hf : ∀ a, K.Meets (f a)] :
    K.Meets (c >>= f) :=
  bind_eq_onEnd c f ▸ hc.onEnd (fun _ a t h => K.trans h ((hf a).allows t)) fun _ _ _ h => h

instance instIte {p : Prop} [Decidable p] {c d : Exec α} [K.Meets c] [K.Meets d] :
    K.Meets (if p then c else d) := by
  split <;> infer_instance

instance instDiscard (c : Exec α) [hc : K.Meets c] : K.Meets (discard c) :=
  discard_eq c ▸ hc.onEnd (fun _ _ _ h => h) fun _ _ _ h => h

instance instGet : K.Meets (get : Exec State) := ⟨K.refl⟩

instance instGetFrame : K.Meets getFrame :=
  inferInstanceAs (K.Meets (get >>= fun st => pure st.frame))

class Calm (K : Contract) : Prop where
  store (st : State) (s : Store) (o : Option Signal) (hs : st.toStore.After .values s)
    (h : ∀ e ∈ o, e.isJump = false) : K.Allows st o { st with toStore := s }
  count (st : State) (n : Nat) : K.Allows st none { st with steps := n }

section

variable [hK : K.Calm]

instance instLift (c : StoreM α) [Tame c] [hc : Confined .values c] :
    K.Meets (liftM c : Exec α) where
  allows st := by
    have hafter := hc.confinedFrom st.toStore
    unfold ConfinedFrom at hafter
    rw [liftM_apply]
    cases h : c st.toStore with
    | ok a s =>
      rw [h] at hafter
      exact hK.store st s none hafter (by simp)
    | error e s =>
      rw [h] at hafter
      exact hK.store st s (some e) hafter (by simpa using Tame.isJump_eq_false h)

lemma meets_throw {e : Signal} (h : e.isJump = false) : K.Meets (throw e : Exec α) where
  allows st := hK.store st st.toStore (some e) (.refl _) (by simpa using h)

instance instExhausted : K.Meets (throw .exhausted : Exec α) := meets_throw rfl

instance instTick (limit : Int) : K.Meets (tick limit) := by
  have hcount : K.Meets (modify fun st => { st with steps := st.steps + 1 } : Exec PUnit) :=
    ⟨fun st => hK.count st _⟩
  unfold tick
  infer_instance

end

class Blind (K : Contract) : Prop where
  store (st : State) (s : Store) (o : Option Signal) (h : ∀ e ∈ o, e.isJump = false) :
    K.Allows st o { st with toStore := s }
  count (st : State) (n : Nat) : K.Allows st none { st with steps := n }
  rebind (st : State) (name : String) (v : Value) (origin : Origin) (d : Nat)
    (h : st.resolve name = some (.scope d)) :
    K.Allows st none { st with frame :=
      { st.frame with scopes := st.frame.scopes.modify d (·.put name v origin) } }

variable [hK : K.Blind]

instance instCalm : K.Calm where
  store st s o _ h := hK.store st s o h
  count := hK.count

lemma meets_lift (c : StoreM α) [Tame c] : K.Meets (liftM c : Exec α) where
  allows st := by
    rw [liftM_apply]
    cases h : c st.toStore with
    | ok a s => exact hK.store st s none (by simp)
    | error e s => exact hK.store st s (some e) (by simpa using Tame.isJump_eq_false h)

instance instAssignName (name : String) (v : Value) (origin : Origin) :
    K.Meets (assignName name v origin) where
  allows st := by
    unfold assignName
    rw [get_bind]
    cases h : st.resolve name with
    | none => exact (meets_lift (K := K) (fail (α := Unit) _)).allows st
    | some b =>
      cases b with
      | scope d => exact hK.rebind st name v origin d h
      | field a => exact (meets_lift (K := K) (setField a name v origin)).allows st
      | static c => exact (meets_lift (K := K) (setStatic c name v origin)).allows st

end Contract

namespace Program

variable {p : Program} {className name : String} {count : Nat} {c : ClassInfo} {r : Routine}

def ofText? (source : String) : Option Program :=
  (parse .unit source).toOption.bind fun tree => (ofTree tree).toOption

structure Sample (check : Program → Bool) where
  text : String
  passes : (ofText? text).any check = true

lemma Sample.exists_program {check : Program → Bool} (s : Sample check) :
    ∃ p, ofText? s.text = some p ∧ check p = true :=
  (Option.any_eq_true _ _).mp s.passes

def routines (p : Program) : List Routine :=
  p.classes.flatMap fun c => c.methods ++ c.members.filterMap constructor?

lemma mem_classes_of_class? (h : p.class? className = some c) : c ∈ p.classes :=
  List.mem_of_find?_eq_some h

lemma mem_routines_of_method (hc : c ∈ p.classes) (hr : c.findMethod? name count = some r) :
    r ∈ p.routines :=
  List.mem_flatMap.mpr ⟨c, hc, List.mem_append_left _ (List.mem_of_find?_eq_some hr)⟩

lemma mem_routines_of_constructor (hc : c ∈ p.classes) (hr : c.findConstructor? count = some r) :
    r ∈ p.routines :=
  List.mem_flatMap.mpr ⟨c, hc, List.mem_append_right _ (List.mem_of_find?_eq_some hr)⟩

end Program

class Contract.Serves (K : Contract) (ev : Evaluator) : Prop where
  eval (e : Node) : K.Meets (ev.eval e)
  assign (op : AssignOp) (target e : Node) : K.Meets (ev.evalAssign op target e)
  step (up after : Bool) (target : Node) : K.Meets (ev.evalStep up after target)
  invoke (className : String) {r : Routine} (this : Option Nat) (args : List Value)
    (hr : r ∈ ev.program.routines) : K.Meets (ev.invoke className r this args)
  instantiate {c : ClassInfo} (args : List Value) (hc : c ∈ ev.program.classes) :
    K.Meets (ev.instantiate c args)

attribute [instance] Contract.Serves.eval Contract.Serves.assign Contract.Serves.step

namespace Evaluator

open Contract

section

variable (K : Contract) [K.Calm] (ev : Evaluator) [∀ e, K.Meets (ev.eval e)]

instance (type : Except Fault TypeInfo) (init : Option Node) :
    K.Meets (ev.initialValue type init) := by
  unfold initialValue
  split <;> infer_instance

instance (target index : Node) : K.Meets (ev.evalIndex target index) := by
  unfold evalIndex
  infer_instance

end

section

variable (K : Contract) [K.Blind] (ev : Evaluator) [∀ e, K.Meets (ev.eval e)]

instance (type : Node) (put : String → Value → Origin → StoreM Unit)
    [∀ name v origin, Tame (put name v origin)] (ds : List Node) :
    K.Meets (ev.initFields type put ds) := by
  have hput := fun name v origin => meets_lift (K := K) (put name v origin)
  induction ds with
  | nil => exact instPure _
  | cons d ds ih =>
    unfold initFields
    split <;> infer_instance

instance (target : Node) (v : Value) (origin : Origin) : K.Meets (ev.assign target v origin) := by
  have hput := fun h t name => meets_lift (K := K) (ev.putField h t name v origin)
  have hfield : ∀ name target, K.Meets (ev.assignField name target v origin) := by
    intro name target
    unfold assignField
    infer_instance
  unfold assign
  split <;> infer_instance

instance (op : AssignOp) (target e : Node) : K.Meets (ev.evalAssign op target e) := by
  have hvalue : K.Meets (ev.assignedValue op target e) := by
    unfold assignedValue
    split <;> infer_instance
  unfold evalAssign
  infer_instance

instance (up after : Bool) (target : Node) : K.Meets (ev.evalStep up after target) := by
  unfold evalStep
  infer_instance

end

variable (K : Contract) [K.Calm] (ev : Evaluator) [hev : K.Serves ev]

instance : K.Meets ev.tick := inferInstanceAs (K.Meets (Machine.tick ev.limit))

instance (es : List Node) : K.Meets (ev.evalAll es) := by
  induction es with
  | nil => exact instPure _
  | cons e es ih =>
    unfold evalAll
    infer_instance

instance (e : Node) : K.Meets (ev.truth e) := by
  refine @instBind _ _ _ _ _ inferInstance fun v => ?_
  split <;> infer_instance

instance (type : Node) (args : List Value) : K.Meets (ev.create type args) := by
  refine @instBind _ _ _ _ _ inferInstance fun typeName => ?_
  split
  · rename_i c hc
    have := hev.instantiate args (Program.mem_classes_of_class? hc)
    infer_instance
  · infer_instance

instance (name : String) : K.Meets (ev.classRef name) := by
  unfold classRef
  infer_instance

instance (name : String) : K.Meets (ev.evalName name) := by
  refine @instBind _ _ _ _ _ inferInstance fun st => ?_
  split <;> infer_instance

instance (name : String) (target : Node) : K.Meets (ev.evalField name target) := by
  unfold evalField
  infer_instance

instance (target index : Node) : K.Meets (ev.evalElement target index) := by
  unfold evalElement
  infer_instance

instance : K.Meets evalThis := by
  unfold evalThis
  infer_instance

lemma getD_class?_members (name : String) :
    (ev.program.class? name).getD ⟨name, []⟩ ∈ ev.program.classes ∨
      ((ev.program.class? name).getD ⟨name, []⟩).members = [] := by
  cases h : ev.program.class? name with
  | none => exact .inr rfl
  | some c => exact .inl (Program.mem_classes_of_class? h)

lemma currentClass_bind (f : ClassInfo → Exec α) :
    ev.currentClass >>= f =
      getFrame >>= fun fr => f ((ev.program.class? fr.className).getD ⟨fr.className, []⟩) := by
  simp [currentClass]

instance (args : List Value) : K.Meets (ev.callThis args) := by
  rw [callThis, currentClass_bind]
  refine @instBind _ _ _ _ _ inferInstance fun f => ?_
  split
  · rename_i r hr
    have hmem : r ∈ ev.program.routines := by
      rcases ev.getD_class?_members f.className with hc | hc
      · exact Program.mem_routines_of_constructor hc hr
      · simp [ClassInfo.findConstructor?, hc] at hr
    have := fun c this => hev.invoke c this args hmem
    infer_instance
  · infer_instance

instance (name : String) (args : List Value) : K.Meets (ev.callUnqualified name args) := by
  unfold callUnqualified
  refine @instIte _ _ _ _ _ _ inferInstance (@instIte _ _ _ _ _ _ inferInstance ?_)
  rw [currentClass_bind]
  refine @instBind _ _ _ _ _ inferInstance fun f => ?_
  split
  · rename_i r hr
    have hmem : r ∈ ev.program.routines := by
      rcases ev.getD_class?_members f.className with hc | hc
      · exact Program.mem_routines_of_method hc hr
      · simp [ClassInfo.findMethod?, ClassInfo.methods, hc] at hr
    have := fun c this => hev.invoke c this args hmem
    infer_instance
  · infer_instance

instance (className name : String) (args : List Value) :
    K.Meets (ev.callStatic className name args) := by
  unfold callStatic
  split
  · rename_i c hc
    split
    · rename_i r hr
      exact hev.invoke _ _ _ (Program.mem_routines_of_method (Program.mem_classes_of_class? hc) hr)
    · infer_instance
  · infer_instance

instance (h : Heap) (v : Value) (name : String) (args : List Value) :
    K.Meets (ev.callFound h v name args) := by
  unfold callFound
  split
  · infer_instance
  · split
    · rename_i r hr
      obtain ⟨c, hc, hr⟩ := Option.bind_eq_some_iff.mp hr
      exact hev.invoke _ _ _ (Program.mem_routines_of_method (Program.mem_classes_of_class? hc) hr)
    · infer_instance
  · infer_instance

instance (v : Value) (name : String) (args : List Value) : K.Meets (ev.callOn v name args) := by
  unfold callOn
  infer_instance

instance (name : String) (target : Option Node) (args : List Node) :
    K.Meets (ev.evalCall name target args) := by
  refine @instBind _ _ _ _ _ inferInstance fun args => ?_
  split <;> infer_instance

instance (type : Node) (args : List Node) : K.Meets (ev.evalCreation type args) := by
  unfold evalCreation
  infer_instance

instance (es : List Node) : K.Meets (ev.evalSizes es) := by
  induction es with
  | nil => exact instPure _
  | cons e es ih =>
    unfold evalSizes
    infer_instance

instance (extraDims : Nat) (type : Node) (sizes : List Node) (init : Option Node) :
    K.Meets (ev.evalArrayCreation extraDims type sizes init) := by
  unfold evalArrayCreation
  split <;> infer_instance

instance (values : List Node) : K.Meets (ev.evalArrayInit values) := by
  unfold evalArrayInit
  infer_instance

instance (op : BinaryOp) (left right : Node) : K.Meets (ev.evalBinary op left right) := by
  unfold evalBinary
  split <;> infer_instance

instance (op : UnaryOp) (after : Bool) (e : Node) : K.Meets (ev.evalUnary op after e) := by
  unfold evalUnary
  split <;> infer_instance

instance (cond thenExpr elseExpr : Node) :
    K.Meets (ev.evalConditional cond thenExpr elseExpr) := by
  unfold evalConditional
  infer_instance

instance (type e : Node) : K.Meets (ev.evalCast type e) := by
  unfold evalCast
  infer_instance

instance (e type : Node) : K.Meets (ev.evalInstanceOf e type) := by
  unfold evalInstanceOf
  infer_instance

instance meets_expression (e : Node) : K.Meets (ev.expression e) := by
  unfold expression
  split <;> infer_instance

end Evaluator

instance (K : Contract) [K.Calm] (round : Nat → Exec Bool) [∀ i, K.Meets (round i)]
    (most i : Nat) : K.Meets (repeatFrom round most i) := by
  induction most generalizing i with
  | zero => exact Contract.instExhausted
  | succ n ih =>
    unfold repeatFrom
    infer_instance

namespace Evaluator

open Contract

variable (K : Contract) [K.Calm] (ev : Evaluator)

instance (round : Nat → Exec Bool) [∀ i, K.Meets (round i)] : K.Meets (ev.rounds round) := by
  unfold rounds
  infer_instance

variable [K.Serves ev]

instance (es : List Node) : K.Meets (ev.evalEach es) := by
  induction es with
  | nil => exact instPure _
  | cons e es ih =>
    unfold evalEach
    infer_instance

instance (cond : Option Node) : K.Meets (ev.condition cond) := by
  unfold condition
  split <;> infer_instance

instance (e : Node) : K.Meets (ev.execThrow e) := by
  have hthrow : ∀ v, K.Meets (throw (.thrown v) : Exec Unit) := fun _ => meets_throw rfl
  unfold execThrow
  infer_instance

end Evaluator

end LoopLowering.Machine
