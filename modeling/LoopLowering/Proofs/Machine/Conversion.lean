import LoopLowering.Proofs.Machine.Kind
import LoopLowering.Proofs.Machine.Limit
import LoopLowering.Proofs.Machine.Upkeep

/-! Conversions. Every variable and field holds what its declared type admits, in every state that a
run can reach, unless a plain assignment has reached it since its declaration or an operator has met
there a boolean: declarations, parameters, loops over elements, compound assignments and the counting
operators convert. Plain assignment stores what it is given. -/

namespace LoopLowering.Machine

variable {α β : Type}

def Variable.Fits (x : Variable) : Prop := ∀ t ∈ x.type, x.loose = false → t.Admits x.value

def Bindings.Fit (bs : Bindings) : Prop := ∀ x ∈ bs, x.Fits

structure Store.Fits (s : Store) : Prop where
  record {i : Nat} {c : String} {fs : Bindings} (h : s.heap.objects[i]? = some (.record c fs)) :
    fs.Fit
  static : ∀ c ∈ s.statics, c.2.Fit

def Frame.Fits (f : Frame) : Prop := ∀ bs ∈ f.scopes, bs.Fit

/-- All variables of the method in execution and all fields, static or not, fit. -/
structure State.Fits (st : State) : Prop where
  store : st.toStore.Fits
  frame : st.frame.Fits

def Origin.Brings (v : Value) : Origin → Prop
  | .declaration type => ∀ t ∈ type, t.Admits v
  | .plain => True
  | .operator old => ∀ t : TypeInfo, t.Admits old → (∀ b, old ≠ .bool b) → t.Admits v

section

variable {x : Variable} {v : Value} {origin : Origin} {bs : Bindings} {name : String}

lemma Variable.fits_of_untyped (h : x.type = none) : x.Fits := by
  intro t ht
  rw [h] at ht
  cases ht

lemma Variable.fits_create (hv : origin.Brings v) : (Variable.create name v origin).Fits := by
  cases origin with
  | declaration type => exact fun t ht _ => hv t ht
  | _ => exact fits_of_untyped rfl

lemma Variable.Fits.give (hx : x.Fits) (hv : origin.Brings v) : (x.give v origin).Fits := by
  intro t ht hloose
  cases origin with
  | declaration type => exact hv t ht
  | plain => cases hloose
  | operator old =>
    obtain ⟨hloose, halike⟩ := Bool.or_eq_false_iff.mp hloose
    have halike : old.alike x.value = true := by simpa using halike
    exact hv t ((hx t ht hloose).of_alike halike) (Value.ne_bool_of_alike halike)

lemma Bindings.Fit.put (hbs : bs.Fit) (name : String) (hv : origin.Brings v) :
    (bs.put name v origin).Fit := by
  induction bs with
  | nil => exact List.forall_mem_singleton.mpr (Variable.fits_create hv)
  | cons b bs ih =>
    obtain ⟨hb, hbs⟩ := List.forall_mem_cons.mp hbs
    unfold Bindings.put
    split
    · exact List.forall_mem_cons.mpr ⟨hb.give hv, hbs⟩
    · exact List.forall_mem_cons.mpr ⟨hb, ih hbs⟩

lemma fit_putStatics {all : List (String × Bindings)} (hall : ∀ c ∈ all, c.2.Fit)
    (className name : String) (hv : origin.Brings v) :
    ∀ c ∈ putStatics all className name v origin, c.2.Fit := by
  induction all with
  | nil =>
    have hnew : Bindings.Fit [.create name v origin] :=
      List.forall_mem_singleton.mpr (Variable.fits_create hv)
    exact List.forall_mem_singleton.mpr hnew
  | cons c cs ih =>
    obtain ⟨hc, hcs⟩ := List.forall_mem_cons.mp hall
    unfold putStatics
    split
    · exact List.forall_mem_cons.mpr ⟨hc.put name hv, hcs⟩
    · exact List.forall_mem_cons.mpr ⟨hc, ih hcs⟩

end

lemma Store.Fits.after {s t : Store} (hs : s.Fits) (h : s.After .values t) : t.Fits where
  record {i c fs} ht := by
    rcases h.records id i c fs ht with rfl | hbefore
    · exact fun x hx => by cases hx
    · exact hs.record hbefore
  static := by
    rw [h.statics id]
    exact hs.static

/-- What fits before, fits afterwards, however code ends. -/
def fitting : Contract where
  Allows st _ st' := st.Fits → st'.Fits
  refl _ := id
  trans h h' := h' ∘ h

namespace Fitting

open Contract

instance instCalm : fitting.Calm where
  store _ _ _ hs _ hst := ⟨hst.store.after hs, hst.frame⟩
  count _ _ hst := ⟨hst.store, hst.frame⟩

lemma onEnd {c : Exec α} {f : α → Exec β} {g : Signal → Exec β} [hc : fitting.Meets c]
    (hf : ∀ a, fitting.Meets (f a)) (hg : ∀ e, fitting.Meets (g e)) :
    fitting.Meets (onEnd c f g) :=
  hc.onEnd (fun _ a t h hst => (hf a).allows t (h hst)) fun _ e t h hst => (hg e).allows t (h hst)

instance instThrow (e : Signal) : fitting.Meets (throw e : Exec α) := ⟨fun _ => id⟩

instance instNote (i : Incident) : fitting.Meets (note i) := ⟨fun _ hst => ⟨hst.store, hst.frame⟩⟩

lemma setFrame {f : Frame} (h : f.Fits) : fitting.Meets (setFrame f) :=
  ⟨fun _ hst => ⟨hst.store, h⟩⟩

lemma getFrame_bind {f : Frame → Exec α} (h : ∀ fr : Frame, fr.Fits → fitting.Meets (f fr)) :
    fitting.Meets (getFrame >>= f) :=
  ⟨fun st hst => (h st.frame hst.frame).allows st hst⟩

lemma bind {Q : α → Prop} {c : Exec α} {f : α → Exec β} [hc : fitting.Meets c] (hQ : Yields Q c)
    (hf : ∀ a, Q a → fitting.Meets (f a)) : fitting.Meets (c >>= f) where
  allows st hst := by
    have hfits := hc.allows st hst
    rw [bind_eq_onEnd, Machine.onEnd]
    cases h : c st with
    | ok a t =>
      rw [h] at hfits
      exact (hf a (hQ st a t h)).allows t hfits
    | error e t =>
      rw [h] at hfits
      exact hfits

lemma pushScope {bs : Bindings} (h : bs.Fit) : fitting.Meets (pushScope bs) :=
  ⟨fun _ hst => ⟨hst.store, List.forall_mem_cons.mpr ⟨h, hst.frame⟩⟩⟩

instance instPopScope : fitting.Meets popScope where
  allows st hst := by
    unfold popScope
    split
    · exact hst
    · rename_i hscopes
      refine ⟨hst.store, fun bs hbs => hst.frame bs ?_⟩
      rw [hscopes]
      exact List.mem_cons_of_mem _ hbs

instance instEnsuring (body : Exec α) (last : Exec Unit) [fitting.Meets body]
    [fitting.Meets last] : fitting.Meets (ensuring body last) := by
  rw [ensuring_eq]
  refine onEnd (fun _ => inferInstance) fun e => ?_
  unfold lastly
  split <;> infer_instance

lemma inScope {bs : Bindings} (h : bs.Fit) (body : Exec α) [fitting.Meets body] :
    fitting.Meets (inScope bs body) := by
  have := pushScope h
  unfold Machine.inScope
  infer_instance

instance instLasting : fitting.Lasting where
  throw := instThrow
  note := instNote
  resume _ h h' := h' ∘ h
  scope hbs _ h :=
    have := h
    inScope (fun b hb => Variable.fits_of_untyped (hbs b hb)) _

instance instNoting (i : Incident) (c : Exec α) [fitting.Meets c] :
    fitting.Meets (noting i c) := by
  rw [noting_eq]
  exact onEnd (fun _ => inferInstance) fun _ => inferInstance

instance instCatchReturn (body : Exec Unit) [fitting.Meets body] :
    fitting.Meets (catchReturn body) := by
  rw [catchReturn_eq]
  refine onEnd (fun _ => inferInstance) fun e => ?_
  unfold returnEnd
  split <;> infer_instance

lemma lift {c : StoreM α} (h : ∀ s : Store, s.Fits → (finalStore (c s)).Fits) :
    fitting.Meets (liftM c : Exec α) where
  allows st hst := by
    have hstore := h st.toStore hst.store
    rw [liftM_apply]
    cases hc : c st.toStore <;> rw [hc] at hstore <;> exact ⟨hstore, hst.frame⟩

section

variable {v : Value} {origin : Origin} (hv : origin.Brings v) (name : String)
include hv

lemma setField (index : Nat) :
    fitting.Meets (liftM (setField index name v origin) : Exec Unit) := by
  refine lift fun s hs => ?_
  unfold Machine.setField
  rw [heap_bind]
  cases hobject : s.heap.objects[index]? with
  | none => exact hs
  | some o =>
    cases o with
    | record c fields =>
      refine ⟨fun {i d fs} hi => ?_, hs.static⟩
      change (s.heap.objects.setIfInBounds index _)[i]? = _ at hi
      rw [Array.getElem?_setIfInBounds] at hi
      split at hi
      · split at hi
        · cases hi
          exact (hs.record hobject).put name hv
        · cases hi
      · exact hs.record hi
    | _ => exact hs

lemma setStatic (className : String) :
    fitting.Meets (liftM (setStatic className name v origin) : Exec Unit) :=
  ⟨fun _ hst => ⟨⟨hst.store.record, fit_putStatics hst.store.static className name hv⟩, hst.frame⟩⟩

lemma assignName : fitting.Meets (assignName name v origin) where
  allows st hst := by
    unfold Machine.assignName
    rw [get_bind]
    cases st.resolve name with
    | none => exact hst
    | some b =>
      cases b with
      | scope d =>
        refine ⟨hst.store, fun bs hbs => ?_⟩
        obtain ⟨i, hi⟩ := List.mem_iff_getElem?.mp hbs
        change (st.frame.scopes.modify d (·.put name v origin))[i]? = some bs at hi
        rw [List.getElem?_modify] at hi
        obtain ⟨ds, hds, rfl⟩ := Option.map_eq_some_iff.mp hi
        have hfit := hst.frame ds (List.mem_iff_getElem?.mpr ⟨i, hds⟩)
        split
        · exact hfit.put name hv
        · exact hfit
      | field a => exact (setField hv name a).allows st hst
      | static c => exact (setStatic hv name c).allows st hst

end

lemma declare (name : String) {v : Value} {type : Option TypeInfo} (hv : ∀ t ∈ type, t.Admits v) :
    fitting.Meets (declare name v type) where
  allows st hst := by
    unfold Machine.declare
    split
    · exact hst
    · rename_i bs scopes hscopes
      have hframe := hst.frame
      unfold Frame.Fits at hframe
      rw [hscopes] at hframe
      obtain ⟨hbs, hrest⟩ := List.forall_mem_cons.mp hframe
      exact ⟨hst.store, List.forall_mem_cons.mpr ⟨hbs.put name hv, hrest⟩⟩

end Fitting

lemma coerceTo_admits (type : Node) (v : Value) :
    Yields (fun w => ∀ t ∈ (typeInfo type).toOption, t.Admits w) (coerceTo type v) := by
  unfold coerceTo
  cases typeInfo type with
  | error f => exact .raise f
  | ok t =>
    refine .faultless fun w hw u hu => ?_
    cases hu
    exact TypeInfo.admits_coerce hw

namespace Evaluator

class GivesArrays (ev : Evaluator) : Prop where
  arrayInit {e : Node} (he : isArrayInit e = true) :
    Yields (fun v => v.isNumeric = false) (ev.eval e)

variable (ev : Evaluator)

lemma initialValue_admits [hev : ev.GivesArrays] (type : Except Fault TypeInfo)
    (init : Option Node) :
    Yields (fun v => ∀ t ∈ type.toOption, t.Admits v) (ev.initialValue type init) := by
  unfold initialValue
  cases init with
  | none =>
    cases type with
    | error f => exact .bind (R := fun _ => False) (.lift (.raise f)) fun _ => False.elim
    | ok t =>
      refine .pure fun u hu => ?_
      cases hu
      exact t.admits_default
  | some e =>
    dsimp only
    by_cases he : isArrayInit e = true
    · refine .bind (hev.arrayInit he) fun v hv => ?_
      rw [if_pos he]
      exact .pure fun t _ => TypeInfo.admits_of_not_numeric hv
    · refine .after fun v => ?_
      rw [if_neg he]
      cases type with
      | error f => exact .lift (.raise f)
      | ok t =>
        refine .lift (.faultless fun w hw u hu => ?_)
        cases hu
        exact TypeInfo.admits_coerce hw

lemma assignedValue_brings (op : AssignOp) (target e : Node) :
    Yields (fun r => r.2.Brings r.1) (ev.assignedValue op target e) := by
  unfold assignedValue
  split
  · exact .after fun v => .pure trivial
  · rename_i binary _
    refine .after fun old => .after fun v => ?_
    refine .bind (R := fun new => old.isOrdinary = true → old.Follows new) ?_ fun new hnew => ?_
    · by_cases hold : old.isOrdinary = true
      · exact (Yields.lift (applyBinary_follows hold binary)).mono fun _ h _ => h
      · exact fun _ _ _ _ h => absurd h hold
    · refine .bind (R := fun w => fitCompound old new = .ok w) ?_ fun w hw => .pure ?_
      · exact .lift (.faultless fun w hw => hw)
      · intro t ht hbool
        exact ht.fitCompound (ht.of_ordinary hbool hnew) hw

open Contract

section

variable [∀ e, fitting.Meets (ev.eval e)] {v : Value} {origin : Origin} (hv : origin.Brings v)
include hv

omit [∀ e, fitting.Meets (ev.eval e)] in
lemma putField_fits (h : Heap) (t : Value) (name : String) :
    fitting.Meets (liftM (ev.putField h t name v origin) : Exec Unit) := by
  unfold putField
  split
  · split
    · exact Fitting.setStatic hv name _
    · infer_instance
  · exact Fitting.setField hv name _
  · infer_instance

lemma assign_fits (target : Node) : fitting.Meets (ev.assign target v origin) := by
  have hfield : ∀ name t, fitting.Meets (ev.assignField name t v origin) := by
    intro name t
    have := fun h u => ev.putField_fits hv h u name
    unfold assignField
    infer_instance
  unfold assign
  split
  · exact Fitting.assignName hv _
  · exact hfield _ _
  · infer_instance
  · infer_instance

end

section

variable [∀ e, fitting.Meets (ev.eval e)]

instance (op : AssignOp) (target e : Node) : fitting.Meets (ev.evalAssign op target e) := by
  have hvalue : fitting.Meets (ev.assignedValue op target e) := by
    unfold assignedValue
    split <;> infer_instance
  refine Fitting.bind (ev.assignedValue_brings op target e) fun r hr => ?_
  have := ev.assign_fits hr target
  infer_instance

instance (up after : Bool) (target : Node) : fitting.Meets (ev.evalStep up after target) := by
  refine @instBind _ _ _ _ _ inferInstance fun old => ?_
  refine Fitting.bind (Q := fun new => Origin.Brings new (.operator old)) ?_ fun new hnew => ?_
  · by_cases hold : old.isOrdinary = true
    · refine (Yields.lift (step_follows up hold)).mono fun new hnew t ht hbool => ?_
      exact ht.of_ordinary hbool fun _ => hnew
    · intro st new u _ t ht hbool
      exact ht.of_ordinary hbool fun h => absurd h hold
  · have := ev.assign_fits hnew target
    infer_instance

end

instance (ps : List Node) (args : List Value) : fitting.Meets (bindParameters ps args) := by
  induction ps generalizing args with
  | nil => exact instPure _
  | cons p ps ih =>
    unfold bindParameters
    split
    · split
      · have (name : String) (v : Value) : fitting.Meets (declare name v) :=
          Fitting.declare name fun t ht => by cases ht
        infer_instance
      · split
        · infer_instance
        · refine Fitting.bind (.lift (coerceTo_admits _ _)) fun w hw => ?_
          have := fun name => Fitting.declare name hw
          infer_instance
    · infer_instance

instance (b : Option Node) [∀ labels s, fitting.Meets (ev.exec labels s)] :
    fitting.Meets (ev.execBody b) := by
  unfold execBody
  split <;> infer_instance

lemma fits_new (className : String) (this : Option Nat) : Frame.Fits { className, this } :=
  fun _ hbs => by
    obtain rfl := List.mem_singleton.mp hbs
    exact fun _ hx => by cases hx

instance (className : String) (r : Routine) (this : Option Nat) (args : List Value)
    [∀ labels s, fitting.Meets (ev.exec labels s)] :
    fitting.Meets (ev.invoke className r this args) := by
  have hcall := Fitting.getFrame_bind (f := fun saved => do
      setFrame { className, this }
      noting .brokenBinding (bindParameters r.params args)
      ensuring (catchReturn (ev.execBody r.body)) (setFrame saved)) fun saved hsaved => by
    have := Fitting.setFrame (fits_new className this)
    have := Fitting.setFrame hsaved
    infer_instance
  unfold invoke tick
  infer_instance

section

variable [∀ e, fitting.Meets (ev.eval e)] [ev.GivesArrays]

lemma initFields_fits (type : Node) {put : String → Value → Origin → StoreM Unit}
    (hput : ∀ name v origin, Origin.Brings v origin →
      fitting.Meets (liftM (put name v origin) : Exec Unit)) (ds : List Node) :
    fitting.Meets (ev.initFields type put ds) := by
  induction ds with
  | nil => exact instPure _
  | cons d ds ih =>
    unfold initFields
    split
    · refine Fitting.bind (ev.initialValue_admits _ _) fun v hv => ?_
      have := fun name => hput name v (.declaration _) hv
      infer_instance
    · infer_instance

lemma initMembers_fits [∀ labels s, fitting.Meets (ev.exec labels s)] (static : Bool)
    {put : String → Value → Origin → StoreM Unit}
    (hput : ∀ name v origin, Origin.Brings v origin →
      fitting.Meets (liftM (put name v origin) : Exec Unit)) (ms : List Node) :
    fitting.Meets (ev.initMembers static put ms) := by
  have hfields := fun type ds => ev.initFields_fits type hput ds
  induction ms with
  | nil => exact instPure _
  | cons m ms ih =>
    unfold initMembers
    dsimp only
    split <;> infer_instance

lemma execLocalVar_fits (type : Node) (ds : List Node) :
    fitting.Meets (ev.execLocalVar type ds) := by
  induction ds with
  | nil => exact instPure _
  | cons d ds ih =>
    unfold execLocalVar
    split
    · refine @instBind _ _ _ _ _ inferInstance fun t => ?_
      refine Fitting.bind (ev.initialValue_admits t _) fun v hv => ?_
      have := fun name => Fitting.declare name hv
      infer_instance
    · infer_instance

end

lemma inFrame_fits {f : Frame} (hf : f.Fits) (body : Exec Unit) [fitting.Meets body] :
    fitting.Meets (inFrame f body) :=
  Fitting.getFrame_bind fun saved hsaved => by
    have := Fitting.setFrame hf
    have := Fitting.setFrame hsaved
    infer_instance

class KeepsKinds (ev : Evaluator) : Prop extends ev.GivesArrays where
  eval (e : Node) : fitting.Meets (ev.eval e)
  exec (labels : List String) (s : Node) : fitting.Meets (ev.exec labels s)

attribute [instance] KeepsKinds.eval KeepsKinds.exec

variable [ev.KeepsKinds]

instance (c : ClassInfo) (args : List Value) : fitting.Meets (ev.instantiate c args) := by
  have hmembers := fun index => ev.initMembers_fits false
    (fun name _ _ hv => Fitting.setField hv name index) c.members
  have hframe := fun index => inFrame_fits (fits_new c.name (some index))
    (ev.initMembers false (setField index) c.members)
  have hconstruct : ∀ index, fitting.Meets (ev.construct c index args) := by
    intro index
    unfold construct
    split <;> infer_instance
  unfold instantiate
  infer_instance

instance (c : ClassInfo) : fitting.Meets (ev.initStatics c) := by
  have := ev.initMembers_fits true (fun name _ _ hv => Fitting.setStatic hv name c.name) c.members
  exact inFrame_fits (fits_new c.name none) _

lemma fitting_serves : fitting.Serves ev where
  eval := inferInstance
  assign _ _ _ := inferInstance
  step _ _ _ := inferInstance
  invoke _ _ _ _ _ := inferInstance
  instantiate _ _ := inferInstance

instance : fitting.Upholds ev where
  toServes := ev.fitting_serves
  exec := inferInstance
  localVar := ev.execLocalVar_fits
  forEachRound labels type name v body i := by
    have := ev.fitting_serves
    refine @instBind _ _ _ _ _ inferInstance fun items => ?_
    split
    · infer_instance
    · refine @instBind _ _ _ _ _ inferInstance fun _ =>
        @instBind _ _ _ _ _ inferInstance fun name => ?_
      refine Fitting.bind (.lift (coerceTo_admits type _)) fun w hw => ?_
      have hscope : Bindings.Fit [⟨name, w, (typeInfo type).toOption, false⟩] :=
        List.forall_mem_singleton.mpr fun t ht _ => hw t ht
      have := Fitting.inScope hscope (ev.runBody labels body)
      infer_instance

end Evaluator

instance (p : Program) (limit : Int) (depth : Nat) : (evaluatorAt p limit depth).KeepsKinds := by
  induction depth with
  | zero =>
    exact { arrayInit := fun _ => .throw _
            eval := fun _ => Contract.instExhausted
            exec := fun _ _ => Contract.instExhausted }
  | succ n ih =>
    refine { arrayInit := fun {e} he => ?_
             eval := fun e => inferInstanceAs (fitting.Meets (Evaluator.expression _ e))
             exec := fun labels s =>
              inferInstanceAs (fitting.Meets (Evaluator.countedStatement _ labels s)) }
    obtain ⟨tag, s⟩ := e
    cases s with
    | arrayInit values =>
      show Yields _ ((evaluatorAt p limit n).evalAll values >>= fun vs =>
        liftM (alloc (.array vs.toArray)))
      exact .after fun vs => .lift (.after fun _ => .pure rfl)
    | _ => cases he

namespace Evaluator

open Contract

variable (ev : Evaluator) [ev.KeepsKinds]

instance (cs : List ClassInfo) : fitting.Meets (ev.initClasses cs) := by
  induction cs with
  | nil => exact instPure _
  | cons c cs ih =>
    unfold initClasses
    infer_instance

instance (method : String) (className : Option String) :
    fitting.Meets (ev.entry method className) := by
  unfold entry
  split
  · split <;> infer_instance
  · infer_instance

instance (body : Exec Value) [fitting.Meets body] : fitting.Meets (reportUncaught body) := by
  rw [reportUncaught_eq]
  refine Fitting.onEnd (fun _ => inferInstance) fun e => ?_
  unfold uncaughtEnd
  split <;> infer_instance

instance (method : String) (className : Option String) (args : Option (List Value)) :
    fitting.Meets (ev.run method className args) := by
  unfold run
  infer_instance

lemma wholeRun_fits (method : String) (className : Option String) :
    fitting.Meets (ev.wholeRun method className) := by
  unfold wholeRun
  infer_instance

end Evaluator

lemma State.fits_initial : State.Fits {} where
  store :=
    { record := fun h => by simp at h
      static := fun _ h => by cases h }
  frame := Evaluator.fits_new "" none

lemma Setup.executeAt_fits (p : Program) (limit : Int) (depth : Nat) (method : String)
    (className : Option String) : (executeAt ⟨p, limit⟩ depth method className).state.Fits := by
  rw [executeAt, Outcome.of_eq]
  exact ((evaluatorAt p limit depth).wholeRun_fits method className).allows {} State.fits_initial

/-- In every state that code passes through, every variable and field of a declared type holds what
the type admits, unless a plain assignment has reached it since its declaration or an operator has
met there a boolean: expressions, statements, calls and creations of objects keep this however they
end, a routine starts so with its parameters, and every run starts so and is left so. Complex numbers
are no real numbers and stay as they are. -/
theorem conversions_hold (p : Program) (limit : Int) (depth : Nat) :
    (∀ e st, st.Fits → (finalState ((evaluatorAt p limit depth).eval e st)).Fits) ∧
    (∀ labels s st, st.Fits → (finalState ((evaluatorAt p limit depth).exec labels s st)).Fits) ∧
    (∀ className (r : Routine) this args (st : State), st.Fits →
      (finalState (bindParameters r.params args { st with frame := { className, this } })).Fits ∧
      (finalState ((evaluatorAt p limit depth).invoke className r this args st)).Fits) ∧
    (∀ c args st, st.Fits →
      (finalState ((evaluatorAt p limit depth).instantiate c args st)).Fits) ∧
    (∀ method className, (Setup.executeAt ⟨p, limit⟩ depth method className).state.Fits) ∧
    ∀ method className, (Setup.execute ⟨p, limit⟩ method className).state.Fits := by
  refine ⟨fun e => Contract.Meets.allows (K := fitting), fun labels s =>
    Contract.Meets.allows (K := fitting), fun className r this args st hst => ⟨?_, ?_⟩, fun c args =>
    Contract.Meets.allows (K := fitting), Setup.executeAt_fits p limit depth,
    fun method className => ?_⟩
  · exact Contract.Meets.allows (K := fitting) _ ⟨hst.store, Evaluator.fits_new className this⟩
  · exact Contract.Meets.allows (K := fitting) _ hst
  · rw [Setup.execute_eq_executeAt]
    exact Setup.executeAt_fits p limit _ method className

theorem conversions_hold_sum :
    let x : Node := .plain (.ident "x")
    let n : Node := .plain (.assign (.compound .add) x (.plain (.literal (.int 2) .int)))
    let st : State :=
      { frame := { className := "A", scopes := [[⟨"x", .int 1, some ⟨"int", 0⟩, false⟩]] } }
    st.Fits ∧ ∃ u, (evaluatorAt ⟨[]⟩ 10 2).eval n st = .ok (.int 3) u ∧ u.Fits ∧
      u.frame.scopes = [[⟨"x", .int 3, some ⟨"int", 0⟩, false⟩]] := by
  intro x n st
  have hx : Variable.Fits ⟨"x", .int 1, some ⟨"int", 0⟩, false⟩ := by
    intro t ht _
    cases ht
    exact TypeInfo.admits_int 1 (by decide)
  have hst : st.Fits := ⟨State.fits_initial.store,
    List.forall_mem_singleton.mpr (List.forall_mem_singleton.mpr hx)⟩
  refine ⟨hst, _, rfl, ?_, rfl⟩
  exact (conversions_hold ⟨[]⟩ 10 2).1 n st hst

def halvedInteger : Program.Sample fun p =>
    let st := (Setup.execute ⟨p, 20000⟩ "main" none).state
    (st.statics? "A").map (fun b => (b.name, b.type, indexOf? b.value, b.value.isNumeric)) ==
      [("d", some ⟨"double", 0⟩, some 1, true)] && st.out == "0\n" where
  text := "class A { static double d; public static void main(String[] a) { d = 1; System.out.println(d / 2); } }"
  passes := by decide +kernel

theorem plain_assignment_unconverted : ∃ p, Program.ofText?
    "class A { static double d; public static void main(String[] a) { d = 1; System.out.println(d / 2); } }" =
      some p ∧ ∃ b, (Setup.execute ⟨p, 20000⟩ "main" none).state.statics? "A" = [b] ∧
        b.name = "d" ∧ b.type = some ⟨"double", 0⟩ ∧ ¬ TypeInfo.Admits ⟨"double", 0⟩ b.value ∧
        (Setup.execute ⟨p, 20000⟩ "main" none).state.out = "0\n" := by
  obtain ⟨p, hp, hrun⟩ := halvedInteger.exists_program
  obtain ⟨hfield, hout⟩ := Bool.and_eq_true_iff.mp hrun
  obtain ⟨b, hfields, hb⟩ := List.map_eq_singleton_iff.mp (beq_iff_eq.mp hfield)
  simp only [Prod.mk.injEq] at hb
  obtain ⟨hname, htype, hvalue, hnumeric⟩ := hb
  refine ⟨p, hp, b, hfields, hname, htype, fun hadmits => ?_, beq_iff_eq.mp hout⟩
  obtain ⟨x, hx⟩ := hadmits.floating rfl (by decide) hnumeric
  rw [hx] at hvalue
  cases hvalue

end LoopLowering.Machine
