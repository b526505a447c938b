import LoopLowering.Proofs.Machine.Contract
import LoopLowering.Proofs.Machine.Truncation
import LoopLowering.Proofs.Tree.Nodes

/-! How deep code nests. Between two counted steps evaluation goes down into the code and into the
field initializers of the objects that it creates. Code that may still count few steps therefore
settles at a bounded depth, if its parts do. -/

namespace LoopLowering.Machine

set_option synthInstance.maxSize 1000

variable {α β : Type}

/-- Code that settles: as long as fewer than `k` steps can be counted it is exhausted only by going
round in a cycle of objects. -/
class Settles (limit : Int) (k : Nat) (c : Exec α) : Prop where
  settles : ∀ st, limit < st.steps + k → ending (c st) = some .exhausted →
    (finalState (c st)).heap.Cyclic

namespace Settles

variable {limit : Int} {k : Nat}

lemma onEnd {c : Exec α} {f : α → Exec β} {g : Signal → Exec β} [hc : Settles limit k c]
    [hs : Steady c] (hf : ∀ a, Settles limit k (f a))
    (hg : ∀ e, e ≠ .exhausted → Settles limit k (g e))
    (hheap : ∀ t, (finalState (g .exhausted t)).heap = t.heap) :
    Settles limit k (onEnd c f g) where
  settles st hst := by
    have hsettles := hc.settles st hst
    have hle : st.steps ≤ (finalState (c st)).steps := (hs.trace_le st).1
    unfold Machine.onEnd
    generalize c st = r at hsettles hle ⊢
    have hthen : limit < ((finalState r).steps : Int) + k := by omega
    cases r with
    | ok a t => exact (hf a).settles t hthen
    | error e t =>
      by_cases he : e = .exhausted
      · subst he
        rintro -
        show (finalState (g .exhausted t)).heap.Cyclic
        rw [hheap]
        exact hsettles rfl
      · exact (hg e he).settles t hthen

lemma of_ne {c : Exec α} (h : ∀ st, ending (c st) ≠ some .exhausted) : Settles limit k c :=
  ⟨fun st _ he => absurd he (h st)⟩

lemma throw {e : Signal} (h : e ≠ .exhausted) : Settles limit k (throw e : Exec α) :=
  of_ne fun _ he => h (Option.some.inj he)

instance instPure (a : α) : Settles limit k (pure a) := of_ne fun _ h => by cases h

instance instGet : Settles limit k (get : Exec State) := of_ne fun _ h => by cases h

instance instLift (c : StoreM α) [hc : Tame c] : Settles limit k (liftM c : Exec α) where
  settles st _ h := by
    rw [liftM_apply] at h ⊢
    cases hrun : c st.toStore with
    | ok a s =>
      rw [hrun] at h
      cases h
    | error e s =>
      rw [hrun] at h
      obtain rfl := Option.some.inj h
      obtain hmishap | ⟨-, hcyclic⟩ := hc.mishap _ _ _ hrun
      · cases hmishap
      · exact hcyclic

instance instBind {c : Exec α} {f : α → Exec β} [Settles limit k c] [Steady c]
    [hf : ∀ a, Settles limit k (f a)] : Settles limit k (c >>= f) := by
  rw [bind_eq_onEnd]
  exact onEnd hf (fun _ => throw) fun _ => rfl

instance instIte {p : Prop} [Decidable p] {c d : Exec α} [Settles limit k c] [Settles limit k d] :
    Settles limit k (if p then c else d) := by
  split <;> infer_instance

instance instNote (i : Incident) : Settles limit k (note i) := of_ne fun _ h => by cases h

instance instSetFrame (f : Frame) : Settles limit k (setFrame f) := of_ne fun _ h => by cases h

instance instGetFrame : Settles limit k getFrame := of_ne fun _ h => by cases h

instance instPushScope (bs : Bindings) : Settles limit k (pushScope bs) :=
  of_ne fun _ h => by cases h

instance instPopScope : Settles limit k popScope :=
  of_ne fun st h => by
    unfold popScope at h
    split at h <;> cases h

instance instDeclare (name : String) (v : Value) (type : Option TypeInfo) :
    Settles limit k (declare name v type) :=
  of_ne fun st h => by
    unfold declare at h
    split at h <;> cases h

instance instAssignName (name : String) (v : Value) (origin : Origin) :
    Settles limit k (assignName name v origin) where
  settles st hst := by
    unfold assignName
    rw [get_bind]
    cases st.resolve name with
    | none => exact (instLift (fail (α := Unit) _)).settles st hst
    | some b =>
      cases b with
      | scope d => exact fun h => by cases h
      | field a => exact (instLift (setField a name v origin)).settles st hst
      | static c => exact (instLift (setStatic c name v origin)).settles st hst

lemma tick_bind {f : Unit → Exec β} (hf : ∀ j, k = j + 1 → Settles limit j (f ())) :
    Settles limit k (tick limit >>= f) where
  settles st hst := by
    rw [bind_eq_onEnd, Machine.onEnd, tick_apply]
    by_cases hlimit : limit < ((st.steps + 1 : Nat) : Int)
    · rw [if_pos hlimit]
      exact fun h => by cases h
    · rw [if_neg hlimit]
      obtain ⟨j, rfl⟩ : ∃ j, k = j + 1 := ⟨k - 1, by omega⟩
      refine (hf j rfl).settles _ ?_
      show limit < ((st.steps + 1 : Nat) : Int) + j
      omega

instance instTick : Settles limit k (tick limit) :=
  of_ne fun st h => by
    rw [tick_apply] at h
    split at h <;> cases h

instance instDiscard (c : Exec α) [Settles limit k c] [Steady c] : Settles limit k (discard c) := by
  rw [discard_eq]
  exact onEnd (fun _ => inferInstance) (fun _ => throw) fun _ => rfl

instance instNoting (i : Incident) (c : Exec α) [Settles limit k c] [Steady c] :
    Settles limit k (noting i c) := by
  rw [noting_eq]
  refine onEnd (fun _ => inferInstance) (fun e he => ?_) fun _ => rfl
  have : Settles limit k (MonadExcept.throw e : Exec α) := throw he
  infer_instance

instance instEnsuring (body : Exec α) (last : Exec Unit) [Settles limit k body] [Steady body]
    [Settles limit k last] [Steady last] : Settles limit k (ensuring body last) := by
  rw [ensuring_eq]
  refine onEnd (fun _ => inferInstance) (fun e he => ?_) fun _ => rfl
  have : Settles limit k (MonadExcept.throw e : Exec α) := throw he
  rw [lastly_eq last he]
  infer_instance

instance instInScope (bs : Bindings) (body : Exec α) [Settles limit k body] [Steady body] :
    Settles limit k (inScope bs body) :=
  inferInstanceAs (Settles limit k (pushScope bs >>= fun _ => ensuring body popScope))

instance instBindParameters (ps : List Node) (args : List Value) :
    Settles limit k (bindParameters ps args) := by
  induction ps generalizing args with
  | nil => exact instPure _
  | cons p ps ih =>
    unfold bindParameters
    split
    · refine @instIte _ _ _ _ _ _ _ inferInstance ?_
      split <;> infer_instance
    · infer_instance

instance instCatchReturn (body : Exec Unit) [Settles limit k body] [Steady body] :
    Settles limit k (catchReturn body) := by
  rw [catchReturn_eq]
  refine onEnd (fun _ => inferInstance) (fun e he => ?_) fun _ => rfl
  have : Settles limit k (MonadExcept.throw e : Exec Value) := throw he
  unfold returnEnd
  split <;> infer_instance

end Settles

class Evaluator.SettlesCalls (limit : Int) (k : Nat) (ev : Evaluator) : Prop where
  invoke (className : String) {r : Routine} (this : Option Nat) (args : List Value)
    (hr : r ∈ ev.program.routines) : Settles limit k (ev.invoke className r this args)

namespace Evaluator

open Settles

variable {limit : Int} {k : Nat} (ev : Evaluator) [ev.Steady]

lemma evalAll_settles {es : List Node} (h : ∀ e ∈ es, Settles limit k (ev.eval e)) :
    Settles limit k (ev.evalAll es) := by
  induction es with
  | nil => exact instPure _
  | cons e es ih =>
    obtain ⟨he, hes⟩ := List.forall_mem_cons.mp h
    have := ih hes
    unfold evalAll
    infer_instance

instance (e : Node) [Settles limit k (ev.eval e)] : Settles limit k (ev.truth e) := by
  refine @instBind _ _ _ _ _ _ inferInstance inferInstance fun v => ?_
  split <;> infer_instance

instance : Settles limit k ev.currentClass := by
  unfold currentClass
  infer_instance

instance (name : String) : Settles limit k (ev.classRef name) := by
  unfold classRef
  infer_instance

instance (name : String) : Settles limit k (ev.evalName name) := by
  refine @instBind _ _ _ _ _ _ inferInstance inferInstance fun st => ?_
  split <;> infer_instance

instance (name : String) (target : Node) [Settles limit k (ev.eval target)] :
    Settles limit k (ev.evalField name target) := by
  unfold evalField
  infer_instance

section

variable (target index : Node) [Settles limit k (ev.eval target)] [Settles limit k (ev.eval index)]

instance : Settles limit k (ev.evalIndex target index) := by
  unfold evalIndex
  infer_instance

instance : Settles limit k (ev.evalElement target index) := by
  unfold evalElement
  infer_instance

end

instance : Settles limit k evalThis := by
  unfold evalThis
  infer_instance

section

variable [hcalls : SettlesCalls limit k ev]

instance (args : List Value) : Settles limit k (ev.callThis args) := by
  rw [callThis, currentClass_bind]
  refine @instBind _ _ _ _ _ _ inferInstance inferInstance fun f => ?_
  split
  · rename_i r hr
    have hmem : r ∈ ev.program.routines := by
      rcases ev.getD_class?_members f.className with hc | hc
      · exact Program.mem_routines_of_constructor hc hr
      · simp [ClassInfo.findConstructor?, hc] at hr
    have := fun c this => hcalls.invoke c this args hmem
    infer_instance
  · infer_instance

instance (name : String) (args : List Value) : Settles limit k (ev.callUnqualified name args) := by
  unfold callUnqualified
  refine @instIte _ _ _ _ _ _ _ inferInstance (@instIte _ _ _ _ _ _ _ inferInstance ?_)
  rw [currentClass_bind]
  refine @instBind _ _ _ _ _ _ inferInstance inferInstance fun f => ?_
  split
  · rename_i r hr
    have hmem : r ∈ ev.program.routines := by
      rcases ev.getD_class?_members f.className with hc | hc
      · exact Program.mem_routines_of_method hc hr
      · simp [ClassInfo.findMethod?, ClassInfo.methods, hc] at hr
    have := fun c this => hcalls.invoke c this args hmem
    infer_instance
  · infer_instance

instance (className name : String) (args : List Value) :
    Settles limit k (ev.callStatic className name args) := by
  unfold callStatic
  split
  · rename_i c hc
    split
    · rename_i r hr
      exact hcalls.invoke _ _ _
        (Program.mem_routines_of_method (Program.mem_classes_of_class? hc) hr)
    · infer_instance
  · infer_instance

instance (h : Heap) (v : Value) (name : String) (args : List Value) :
    Settles limit k (ev.callFound h v name args) := by
  unfold callFound
  split
  · infer_instance
  · split
    · rename_i r hr
      obtain ⟨c, hc, hr⟩ := Option.bind_eq_some_iff.mp hr
      exact hcalls.invoke _ _ _
        (Program.mem_routines_of_method (Program.mem_classes_of_class? hc) hr)
    · infer_instance
  · infer_instance

instance (v : Value) (name : String) (args : List Value) :
    Settles limit k (ev.callOn v name args) := by
  unfold callOn
  infer_instance

lemma evalCall_settles (name : String) {target : Option Node} {args : List Node}
    (htarget : ∀ t ∈ target, Settles limit k (ev.eval t))
    (hargs : ∀ e ∈ args, Settles limit k (ev.eval e)) :
    Settles limit k (ev.evalCall name target args) := by
  have := ev.evalAll_settles hargs
  refine @instBind _ _ _ _ _ _ inferInstance inferInstance fun args => ?_
  cases target with
  | none => infer_instance
  | some t =>
    have := htarget t rfl
    infer_instance

end

lemma evalCreation_settles {type : Node} {args : List Node}
    (hargs : ∀ e ∈ args, Settles limit k (ev.eval e))
    [∀ vs, Settles limit k (ev.create type vs)] : Settles limit k (ev.evalCreation type args) := by
  have := ev.evalAll_settles hargs
  unfold evalCreation
  infer_instance

lemma evalSizes_settles {es : List Node} (h : ∀ e ∈ es, Settles limit k (ev.eval e)) :
    Settles limit k (ev.evalSizes es) := by
  induction es with
  | nil => exact instPure _
  | cons e es ih =>
    obtain ⟨he, hes⟩ := List.forall_mem_cons.mp h
    have := ih hes
    unfold evalSizes
    infer_instance

lemma evalArrayCreation_settles (extraDims : Nat) (type : Node) {sizes : List Node}
    {init : Option Node} (hsizes : ∀ e ∈ sizes, Settles limit k (ev.eval e))
    (hinit : ∀ e ∈ init, Settles limit k (ev.eval e)) :
    Settles limit k (ev.evalArrayCreation extraDims type sizes init) := by
  have := ev.evalSizes_settles hsizes
  unfold evalArrayCreation
  split
  · exact hinit _ rfl
  · infer_instance

lemma evalArrayInit_settles {values : List Node} (h : ∀ e ∈ values, Settles limit k (ev.eval e)) :
    Settles limit k (ev.evalArrayInit values) := by
  have := ev.evalAll_settles h
  unfold evalArrayInit
  infer_instance

instance (name : String) (target : Node) (v : Value) (origin : Origin)
    [Settles limit k (ev.eval target)] :
    Settles limit k (ev.assignField name target v origin) := by
  unfold assignField
  infer_instance

lemma mem_inner_of_unwrap {target c : Node} (h : c ∈ (unwrap target).children) :
    c ∈ target.inner := by
  induction target using Node.children_induction with
  | h t s ih =>
    by_cases hs : ∃ e, s = .parens e
    · obtain ⟨e, rfl⟩ := hs
      have he : e ∈ (Node.mk t (.parens e)).children := List.mem_singleton.mpr rfl
      exact Node.mem_inner_trans (Node.mem_inner_of_children he)
        (Node.nodes_eq e ▸ List.mem_cons_of_mem _ (ih e he h))
    · have hunwrap : unwrap (.mk t s) = .mk t s := by
        cases s <;> first | rfl | exact absurd ⟨_, rfl⟩ hs
      rw [hunwrap] at h
      exact Node.mem_inner_of_children h

lemma assign_settles {target : Node} (h : ∀ c ∈ target.inner, Settles limit k (ev.eval c))
    (v : Value) (origin : Origin) : Settles limit k (ev.assign target v origin) := by
  have hbelow : ∀ c ∈ (unwrap target).children, Settles limit k (ev.eval c) :=
    fun c hc => h c (mem_inner_of_unwrap hc)
  unfold assign
  split
  · infer_instance
  · rename_i name t hshape
    have ht := hbelow t (by simp [Node.children, hshape, Shape.children, Shape.parts, Part.toList])
    infer_instance
  · rename_i t i hshape
    have ht := hbelow t (by simp [Node.children, hshape, Shape.children, Shape.parts, Part.toList])
    have hi := hbelow i (by simp [Node.children, hshape, Shape.children, Shape.parts, Part.toList])
    infer_instance
  · infer_instance

instance (op : AssignOp) (target e : Node) [Settles limit k (ev.eval target)]
    [Settles limit k (ev.eval e)] : Settles limit k (ev.assignedValue op target e) := by
  unfold assignedValue
  split <;> infer_instance

instance (op : AssignOp) (target e : Node) [Settles limit k (ev.eval target)]
    [Settles limit k (ev.eval e)] [∀ v origin, Settles limit k (ev.assign target v origin)] :
    Settles limit k (ev.evalAssign op target e) := by
  unfold evalAssign
  infer_instance

instance (op : BinaryOp) (left right : Node) [Settles limit k (ev.eval left)]
    [Settles limit k (ev.eval right)] : Settles limit k (ev.evalBinary op left right) := by
  unfold evalBinary
  split <;> infer_instance

section

variable (target : Node) [Settles limit k (ev.eval target)]
  [∀ v origin, Settles limit k (ev.assign target v origin)]

instance (up after : Bool) : Settles limit k (ev.evalStep up after target) := by
  unfold evalStep
  infer_instance

instance (op : UnaryOp) (after : Bool) : Settles limit k (ev.evalUnary op after target) := by
  unfold evalUnary
  split <;> infer_instance

end

instance (cond thenExpr elseExpr : Node) [Settles limit k (ev.eval cond)]
    [Settles limit k (ev.eval thenExpr)] [Settles limit k (ev.eval elseExpr)] :
    Settles limit k (ev.evalConditional cond thenExpr elseExpr) := by
  unfold evalConditional
  infer_instance

instance (type e : Node) [Settles limit k (ev.eval e)] : Settles limit k (ev.evalCast type e) := by
  unfold evalCast
  infer_instance

instance (e type : Node) [Settles limit k (ev.eval e)] :
    Settles limit k (ev.evalInstanceOf e type) := by
  unfold evalInstanceOf
  infer_instance

lemma expression_settles [SettlesCalls limit k ev] {e : Node}
    (h : ∀ c ∈ e.inner, Settles limit k (ev.eval c))
    (hcreate : ∀ type args, e.shape = .objectCreation type args →
      ∀ vs, Settles limit k (ev.create type vs)) : Settles limit k (ev.expression e) := by
  obtain ⟨tag, s⟩ := e
  have hchild : ∀ c ∈ s.children, Settles limit k (ev.eval c) :=
    fun c hc => h c (Node.mem_inner_of_children hc)
  have hassign : ∀ c ∈ s.children, ∀ v origin, Settles limit k (ev.assign c v origin) :=
    fun c hc => ev.assign_settles fun d hd => h d (Node.mem_inner_trans
      (Node.mem_inner_of_children hc) (Node.nodes_eq c ▸ List.mem_cons_of_mem _ hd))
  cases s with
  | literal value kind => exact instPure _
  | ident name => exact inferInstanceAs (Settles limit k (ev.evalName name))
  | thisExpr => exact inferInstanceAs (Settles limit k evalThis)
  | parens e => exact hchild e (by simp [Shape.children, Shape.parts, Part.toList])
  | fieldAccess name target =>
    have ht := hchild target (by simp [Shape.children, Shape.parts, Part.toList])
    exact inferInstanceAs (Settles limit k (ev.evalField name target))
  | arrayAccess target index =>
    have ht := hchild target (by simp [Shape.children, Shape.parts, Part.toList])
    have hi := hchild index (by simp [Shape.children, Shape.parts, Part.toList])
    exact inferInstanceAs (Settles limit k (ev.evalElement target index))
  | methodCall name target args =>
    refine ev.evalCall_settles name (fun c hc => hchild c ?_) fun c hc => hchild c ?_
    · simp [Shape.children, Shape.parts, Part.toList, Option.mem_def.mp hc]
    · simp [Shape.children, Shape.parts, Part.toList, hc]
  | objectCreation type args =>
    have := hcreate type args rfl
    refine ev.evalCreation_settles fun c hc => hchild c ?_
    simp [Shape.children, Shape.parts, Part.toList, hc]
  | arrayCreation dims type sizes init =>
    refine ev.evalArrayCreation_settles dims type (fun c hc => hchild c ?_) fun c hc => hchild c ?_
    · simp [Shape.children, Shape.parts, Part.toList, hc]
    · simp [Shape.children, Shape.parts, Part.toList, Option.mem_def.mp hc]
  | arrayInit values =>
    refine ev.evalArrayInit_settles fun c hc => hchild c ?_
    simp [Shape.children, Shape.parts, Part.toList, hc]
  | assign op target e =>
    have ht := hchild target (by simp [Shape.children, Shape.parts, Part.toList])
    have he := hchild e (by simp [Shape.children, Shape.parts, Part.toList])
    have hstore := hassign target (by simp [Shape.children, Shape.parts, Part.toList])
    exact inferInstanceAs (Settles limit k (ev.evalAssign op target e))
  | binary op left right =>
    have hl := hchild left (by simp [Shape.children, Shape.parts, Part.toList])
    have hr := hchild right (by simp [Shape.children, Shape.parts, Part.toList])
    exact inferInstanceAs (Settles limit k (ev.evalBinary op left right))
  | unary op after e =>
    have he := hchild e (by simp [Shape.children, Shape.parts, Part.toList])
    have hstore := hassign e (by simp [Shape.children, Shape.parts, Part.toList])
    exact inferInstanceAs (Settles limit k (ev.evalUnary op after e))
  | conditional cond thenExpr elseExpr =>
    have hc := hchild cond (by simp [Shape.children, Shape.parts, Part.toList])
    have ht := hchild thenExpr (by simp [Shape.children, Shape.parts, Part.toList])
    have he := hchild elseExpr (by simp [Shape.children, Shape.parts, Part.toList])
    exact inferInstanceAs (Settles limit k (ev.evalConditional cond thenExpr elseExpr))
  | cast type e =>
    have he := hchild e (by simp [Shape.children, Shape.parts, Part.toList])
    exact inferInstanceAs (Settles limit k (ev.evalCast type e))
  | instanceOf e type =>
    have he := hchild e (by simp [Shape.children, Shape.parts, Part.toList])
    exact inferInstanceAs (Settles limit k (ev.evalInstanceOf e type))
  | _ => exact instLift (fail _)

end Evaluator

abbrev Bounds.single (limit : Int) : Bounds := ⟨limit, limit, le_rfl, False⟩

lemma cyclic_of_repeatFrom {limit : Int} {k : Nat} {round : Nat → Exec Bool}
    [hsettles : ∀ i, Settles limit k (round i)]
    (hpaced : ∀ i, Paced limit (· = true) (round i)) {n : Nat} (i : Nat) {st : State}
    (hst : limit < st.steps + k) (hrounds : limit.toNat + 2 ≤ n + st.steps)
    (hpositive : (st.steps : Int) ≤ limit ∨ 0 < n) :
    ending (repeatFrom round n i st) = some .exhausted →
      (finalState (repeatFrom round n i st)).heap.Cyclic := by
  induction n generalizing i st with
  | zero => omega
  | succ n ih =>
    have hround := (hsettles i).settles st hst
    unfold repeatFrom
    rw [bind_eq_onEnd, onEnd]
    cases h : round i st with
    | ok b t =>
      cases b with
      | false => exact fun h => by cases h
      | true =>
        obtain ⟨hlt, hle⟩ := hpaced i st true t h rfl
        exact ih (i + 1) (by omega) (by omega) (.inl hle)
    | error e t =>
      rw [h] at hround
      exact hround

namespace Evaluator

open Settles

variable {limit : Int} {k : Nat} (ev : Evaluator) [ev.Steady]

lemma execAll_settles {ss : List Node} (h : ∀ s ∈ ss, Settles limit k (ev.exec [] s)) :
    Settles limit k (ev.execAll ss) := by
  induction ss with
  | nil => exact instPure _
  | cons s ss ih =>
    obtain ⟨hs, hss⟩ := List.forall_mem_cons.mp h
    have := ih hss
    unfold execAll
    infer_instance

omit [ev.Steady] in
lemma execBody_settles {body : Option Node} (h : ∀ b ∈ body, Settles limit k (ev.exec [] b)) :
    Settles limit k (ev.execBody body) := by
  cases body with
  | none => exact instPure _
  | some b => exact h b rfl

lemma initialValue_settles (type : Except Fault TypeInfo) {init : Option Node}
    (h : ∀ e ∈ init, Settles limit k (ev.eval e)) : Settles limit k (ev.initialValue type init) := by
  cases init with
  | none =>
    unfold initialValue
    infer_instance
  | some e =>
    have := h e rfl
    unfold initialValue
    infer_instance

lemma mem_inner_of_declarator {d e : Node} {name : String} {dims : Nat} {init : Option Node}
    (hd : d.shape = .declarator name dims init) (he : e ∈ init) : e ∈ d.inner := by
  refine Node.mem_inner_of_children ?_
  simp [Node.children, hd, Shape.children, Shape.parts, Part.toList, Option.mem_def.mp he]

lemma execLocalVar_settles (type : Node) {ds : List Node}
    (h : ∀ d ∈ ds, ∀ c ∈ d.inner, Settles limit k (ev.eval c)) :
    Settles limit k (ev.execLocalVar type ds) := by
  induction ds with
  | nil => exact instPure _
  | cons d ds ih =>
    obtain ⟨hd, hds⟩ := List.forall_mem_cons.mp h
    have := ih hds
    unfold execLocalVar
    split
    · rename_i name dims init hshape
      have := fun type => ev.initialValue_settles type fun e he =>
        hd e (mem_inner_of_declarator hshape he)
      infer_instance
    · infer_instance

lemma execIf_settles (cond thenStmt : Node) {elseStmt : Option Node} [Settles limit k (ev.eval cond)]
    [Settles limit k (ev.exec [] thenStmt)] (h : ∀ s ∈ elseStmt, Settles limit k (ev.exec [] s)) :
    Settles limit k (ev.execIf cond thenStmt elseStmt) := by
  have := ev.execBody_settles h
  unfold execIf
  infer_instance

lemma evalEach_settles {es : List Node} (h : ∀ e ∈ es, Settles limit k (ev.eval e)) :
    Settles limit k (ev.evalEach es) := by
  induction es with
  | nil => exact instPure _
  | cons e es ih =>
    obtain ⟨he, hes⟩ := List.forall_mem_cons.mp h
    have := ih hes
    unfold evalEach
    infer_instance

lemma execInit_settles {es : List Node} (hexec : ∀ e ∈ es, Settles limit k (ev.exec [] e))
    (heval : ∀ e ∈ es, Settles limit k (ev.eval e)) : Settles limit k (ev.execInit es) := by
  induction es with
  | nil => exact instPure _
  | cons e es ih =>
    obtain ⟨he, hes⟩ := List.forall_mem_cons.mp hexec
    obtain ⟨hv, hvs⟩ := List.forall_mem_cons.mp heval
    have := ih hes hvs
    unfold execInit
    infer_instance

lemma condition_settles {cond : Option Node} (h : ∀ e ∈ cond, Settles limit k (ev.eval e)) :
    Settles limit k (ev.condition cond) := by
  cases cond with
  | none => exact instPure _
  | some e =>
    have := h e rfl
    exact inferInstanceAs (Settles limit k (ev.truth e))

section

variable [hev : Alike (.single limit) ev ev]

include hev

instance : Settles limit k ev.tick := by
  have hlimit : ev.limit = limit := hev.limit
  unfold tick
  rw [hlimit]
  infer_instance

omit [ev.Steady] in
lemma rounds_settles {round : Nat → Exec Bool} [∀ i, Settles limit k (round i)]
    (hpaced : ∀ i, Paced limit (· = true) (round i)) : Settles limit k (ev.rounds round) where
  settles st hst := by
    have hlimit : ev.limit = limit := hev.limit
    unfold rounds
    rw [hlimit]
    exact cyclic_of_repeatFrom hpaced 0 hst (by omega) (.inr (by omega))

section

variable (labels : List String) (body : Node) [Settles limit k (ev.exec [] body)]

omit hev in
instance : Settles limit k (ev.runBody labels body) := by
  rw [runBody_eq]
  refine Settles.onEnd (fun _ => inferInstance) (fun e he => ?_) fun _ => rfl
  have : Settles limit k (throw e : Exec Bool) := Settles.throw he
  unfold bodyEnd
  split <;> infer_instance

instance : Settles limit k (ev.round labels body) := by
  unfold round
  infer_instance

lemma execWhile_settles (cond : Node) [Settles limit k (ev.eval cond)] :
    Settles limit k (ev.execWhile labels cond body) := by
  have hround : Settles limit k (ev.whileRound labels cond body) := by
    unfold whileRound
    infer_instance
  exact ev.rounds_settles fun _ => ev.whileRound_paced (B := .single limit) ev labels cond body

lemma execDoWhile_settles (cond : Node) [Settles limit k (ev.eval cond)] :
    Settles limit k (ev.execDoWhile labels body cond) := by
  have hround : Settles limit k (ev.doWhileRound labels body cond) := by
    unfold doWhileRound
    infer_instance
  exact ev.rounds_settles fun _ => ev.doWhileRound_paced (B := .single limit) ev labels body cond

lemma execFor_settles {init : List Node} {cond : Option Node} {update : List Node}
    (hexec : ∀ e ∈ init, Settles limit k (ev.exec [] e))
    (heval : ∀ e ∈ init, Settles limit k (ev.eval e))
    (hcond : ∀ e ∈ cond, Settles limit k (ev.eval e))
    (hupdate : ∀ e ∈ update, Settles limit k (ev.eval e)) :
    Settles limit k (ev.execFor labels init cond update body) := by
  have hinit := ev.execInit_settles hexec heval
  have hround : Settles limit k (ev.forRound labels cond update body) := by
    have := ev.condition_settles hcond
    have := ev.evalEach_settles hupdate
    unfold forRound
    infer_instance
  have hrounds : Settles limit k (ev.rounds fun _ => ev.forRound labels cond update body) :=
    ev.rounds_settles fun _ => ev.forRound_paced (B := .single limit) ev labels cond update body
  unfold execFor
  infer_instance

lemma execForEach_settles (var iterable : Node) [Settles limit k (ev.eval iterable)] :
    Settles limit k (ev.execForEach labels var iterable body) := by
  have hround : ∀ type name v i, Settles limit k (ev.forEachRound labels type name v body i) := by
    intro type name v i
    refine @Settles.instBind _ _ _ _ _ _ inferInstance inferInstance fun items => ?_
    split <;> infer_instance
  have hrounds : ∀ type name v,
      Settles limit k (ev.rounds (ev.forEachRound labels type name v body)) := fun type name v =>
    ev.rounds_settles (ev.forEachRound_paced (B := .single limit) ev labels type name v body)
  unfold execForEach noteForeign
  infer_instance

end

end

lemma execReturn_settles {e : Option Node} (h : ∀ c ∈ e, Settles limit k (ev.eval c)) :
    Settles limit k (ev.execReturn e) := by
  have hthrow : ∀ v, Settles limit k (throw (.returned v) : Exec Unit) :=
    fun v => Settles.throw fun h => by cases h
  cases e with
  | none => exact hthrow .null
  | some e =>
    have := h e rfl
    unfold execReturn
    infer_instance

instance (e : Node) [Settles limit k (ev.eval e)] : Settles limit k (ev.execThrow e) := by
  have hthrow : ∀ v, Settles limit k (throw (.thrown v) : Exec Unit) :=
    fun v => Settles.throw fun h => by cases h
  unfold execThrow
  infer_instance

lemma handle_settles (v : Value) {handlers : List Node}
    (h : ∀ c ∈ handlers, ∀ b ∈ c.inner, Settles limit k (ev.exec [] b)) :
    Settles limit k (ev.handle v handlers) := by
  induction handlers with
  | nil => exact Settles.throw fun h => by cases h
  | cons c cs ih =>
    obtain ⟨hc, hcs⟩ := List.forall_mem_cons.mp h
    have := ih hcs
    unfold handle
    split
    · rename_i modifiers name types body hshape
      have := hc body (Node.mem_inner_of_children
        (by simp [Node.children, hshape, Shape.children, Shape.parts, Part.toList]))
      infer_instance
    · infer_instance

lemma execTry_settles (body : Node) {handlers : List Node} {last : Option Node}
    [Settles limit k (ev.exec [] body)]
    (hhandlers : ∀ c ∈ handlers, ∀ b ∈ c.inner, Settles limit k (ev.exec [] b))
    (hlast : ∀ s ∈ last, Settles limit k (ev.exec [] s)) :
    Settles limit k (ev.execTry body handlers last) := by
  have hguarded : Settles limit k (ev.execGuarded body handlers) := by
    rw [execGuarded_eq]
    refine Settles.onEnd (fun _ => inferInstance) (fun e he => ?_) fun _ => rfl
    unfold guardEnd
    split
    · exact ev.handle_settles _ hhandlers
    · exact Settles.throw he
  have := ev.execBody_settles hlast
  unfold execTry
  infer_instance

instance (labels : List String) (label : String) (body : Node)
    [Settles limit k (ev.exec (labels ++ [label]) body)] :
    Settles limit k (ev.execLabeled labels label body) := by
  rw [execLabeled_eq]
  refine Settles.onEnd (fun _ => inferInstance) (fun e he => ?_) fun _ => rfl
  have : Settles limit k (throw e : Exec Unit) := Settles.throw he
  unfold labelEnd
  split <;> infer_instance

lemma statement_settles [Alike (.single limit) ev ev] {s : Node}
    (hexec : ∀ c ∈ s.inner, ∀ labels, Settles limit k (ev.exec labels c))
    (heval : ∀ c ∈ s.inner, Settles limit k (ev.eval c)) (labels : List String) :
    Settles limit k (ev.statement labels s) := by
  obtain ⟨tag, s⟩ := s
  have hs : ∀ c ∈ s.children, ∀ labels, Settles limit k (ev.exec labels c) :=
    fun c hc => hexec c (Node.mem_inner_of_children hc)
  have he : ∀ c ∈ s.children, Settles limit k (ev.eval c) :=
    fun c hc => heval c (Node.mem_inner_of_children hc)
  have hbelow : ∀ c ∈ s.children, ∀ d ∈ c.inner, d ∈ (Node.mk tag s).inner := fun c hc d hd =>
    Node.mem_inner_trans (Node.mem_inner_of_children hc)
      (Node.nodes_eq c ▸ List.mem_cons_of_mem _ hd)
  cases s with
  | block ss =>
    have : Settles limit k (ev.execAll ss) := ev.execAll_settles fun c hc => hs c
      (by simp [Shape.children, Shape.parts, Part.toList, hc]) []
    exact inferInstanceAs (Settles limit k (inScope [] (ev.execAll ss)))
  | localVar modifiers type ds =>
    refine ev.execLocalVar_settles type fun d hd c hc => heval c (hbelow d ?_ c hc)
    simp [Shape.children, Shape.parts, Part.toList, hd]
  | exprStmt e =>
    have := he e (by simp [Shape.children, Shape.parts, Part.toList])
    exact inferInstanceAs (Settles limit k (discard (ev.eval e)))
  | ifElse cond thenStmt elseStmt =>
    have := he cond (by simp [Shape.children, Shape.parts, Part.toList])
    have := hs thenStmt (by simp [Shape.children, Shape.parts, Part.toList]) []
    refine ev.execIf_settles cond thenStmt fun c hc => hs c ?_ []
    simp [Shape.children, Shape.parts, Part.toList, Option.mem_def.mp hc]
  | whileLoop cond body =>
    have := he cond (by simp [Shape.children, Shape.parts, Part.toList])
    have := hs body (by simp [Shape.children, Shape.parts, Part.toList]) []
    exact ev.execWhile_settles labels body cond
  | doWhile body cond =>
    have := he cond (by simp [Shape.children, Shape.parts, Part.toList])
    have := hs body (by simp [Shape.children, Shape.parts, Part.toList]) []
    exact ev.execDoWhile_settles labels body cond
  | forLoop init cond update body =>
    have := hs body (by simp [Shape.children, Shape.parts, Part.toList]) []
    have hinit : ∀ c ∈ init, c ∈ Shape.children (.forLoop init cond update body) := by
      intro c hc
      simp [Shape.children, Shape.parts, Part.toList, hc]
    refine ev.execFor_settles labels body (fun c hc => hs c (hinit c hc) [])
      (fun c hc => he c (hinit c hc)) (fun c hc => he c ?_) fun c hc => he c ?_
    · simp [Shape.children, Shape.parts, Part.toList, Option.mem_def.mp hc]
    · simp [Shape.children, Shape.parts, Part.toList, hc]
  | forEach var iterable body =>
    have := he iterable (by simp [Shape.children, Shape.parts, Part.toList])
    have := hs body (by simp [Shape.children, Shape.parts, Part.toList]) []
    exact ev.execForEach_settles labels body var iterable
  | returnStmt e =>
    refine ev.execReturn_settles fun c hc => he c ?_
    simp [Shape.children, Shape.parts, Part.toList, Option.mem_def.mp hc]
  | breakStmt label => exact Settles.throw fun h => by cases h
  | continueStmt label => exact Settles.throw fun h => by cases h
  | throwStmt e =>
    have := he e (by simp [Shape.children, Shape.parts, Part.toList])
    exact inferInstanceAs (Settles limit k (ev.execThrow e))
  | tryStmt body handlers last =>
    have := hs body (by simp [Shape.children, Shape.parts, Part.toList]) []
    refine ev.execTry_settles body (fun c hc b hb => hexec b (hbelow c ?_ b hb) [])
      fun c hc => hs c ?_ []
    · simp [Shape.children, Shape.parts, Part.toList, hc]
    · simp [Shape.children, Shape.parts, Part.toList, Option.mem_def.mp hc]
  | labeled label body =>
    have := hs body (by simp [Shape.children, Shape.parts, Part.toList]) (labels ++ [label])
    exact inferInstanceAs (Settles limit k (ev.execLabeled labels label body))
  | emptyStmt => exact Settles.instPure _
  | _ => exact Settles.instLift (fail _)

end Evaluator

end LoopLowering.Machine
