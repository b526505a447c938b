import LoopLowering.Proofs.Machine.Upkeep

/-! The frame of a method in execution. A statement leaves it as it found it, however it ends, as
long as no frame of another method stays behind: a call whose arguments cannot be bound and an
object whose initialization fails do leave theirs. -/

namespace LoopLowering.Machine

variable {α : Type}

namespace Bindings

def names (bs : Bindings) : List String := bs.map (·.name)

lemma names_put_of_bound {bs : Bindings} {name : String} (h : (bs.lookup name).isSome = true)
    (v : Value) (origin : Origin) : (bs.put name v origin).names = bs.names := by
  induction bs with
  | nil => simp [lookup] at h
  | cons b bs ih =>
    rw [put]
    split
    · simp [names, Variable.give_name]
    · rename_i hb
      rw [lookup, if_neg hb] at h
      exact congrArg (b.name :: ·) (ih h)

lemma names_prefix_put (bs : Bindings) (name : String) (v : Value) (origin : Origin) :
    bs.names <+: (bs.put name v origin).names := by
  induction bs with
  | nil => exact List.nil_prefix
  | cons b bs ih =>
    rw [put]
    split
    · simp [names, Variable.give_name]
    · exact List.cons_prefix_cons.mpr ⟨rfl, ih⟩

end Bindings

/-- The scopes of a frame at a later time: the innermost may have got variables, and the others
have those that they had. -/
inductive SameScopes : List Bindings → List Bindings → Prop
  | nil : SameScopes [] []
  | cons {a b : Bindings} {as bs : List Bindings} (first : a.names <+: b.names)
      (rest : as.map Bindings.names = bs.map Bindings.names) : SameScopes (a :: as) (b :: bs)

namespace SameScopes

variable {as bs cs : List Bindings}

lemma of_names (h : as.map Bindings.names = bs.map Bindings.names) : SameScopes as bs := by
  cases as with
  | nil =>
    obtain rfl : bs = [] := by simpa using h.symm
    exact .nil
  | cons a as =>
    cases bs with
    | nil => simp at h
    | cons b bs =>
      obtain ⟨hfirst, hrest⟩ := List.cons.inj h
      exact .cons (hfirst ▸ List.prefix_rfl) hrest

lemma refl (as : List Bindings) : SameScopes as as := of_names rfl

lemma trans (h : SameScopes as bs) (h' : SameScopes bs cs) : SameScopes as cs := by
  cases h with
  | nil => exact h'
  | cons first rest =>
    cases h' with
    | cons first' rest' => exact .cons (first.trans first') (rest.trans rest')

lemma length_eq (h : SameScopes as bs) : bs.length = as.length := by
  cases h with
  | nil => rfl
  | cons _ rest => simpa using (congrArg List.length rest).symm

end SameScopes

/-- The same frame at a later time. -/
structure Frame.Continues (f g : Frame) : Prop where
  className : g.className = f.className
  this : g.this = f.this
  scopes : SameScopes f.scopes g.scopes

namespace Frame.Continues

lemma refl (f : Frame) : f.Continues f := ⟨rfl, rfl, .refl _⟩

lemma trans {f g h : Frame} (hfg : f.Continues g) (hgh : g.Continues h) : f.Continues h :=
  ⟨hgh.className.trans hfg.className, hgh.this.trans hfg.this, hfg.scopes.trans hgh.scopes⟩

end Frame.Continues

/-- Whether a frame stayed after the code that it was made for. -/
def Incident.leavesFrame : Incident → Bool
  | .brokenCreation | .brokenBinding => true
  | .foreignIteration => false

/-- How many frames have stayed so far. -/
def State.strayFrames (st : State) : Nat := st.incidents.countP Incident.leavesFrame

lemma strayFrames_le {st st' : State} (h : st.trace ≤ st'.trace) :
    st.strayFrames ≤ st'.strayFrames := h.2.1.sublist.countP_le

lemma strayFrames_final_le (c : Exec α) [hc : Steady c] (st : State) :
    st.strayFrames ≤ (finalState (c st)).strayFrames := strayFrames_le (hc.trace_le st)

lemma strayFrames_cons {i : Incident} (h : i.leavesFrame = true) (st : State) :
    { st with incidents := i :: st.incidents }.strayFrames = st.strayFrames + 1 :=
  List.countP_cons_of_pos h

def keepsFrame : Contract where
  Allows st o st' := st.strayFrames ≤ st'.strayFrames ∧
    (o ≠ some .exhausted → st'.strayFrames = st.strayFrames → st.frame.Continues st'.frame)
  refl st := ⟨Nat.le_refl _, fun _ _ => .refl _⟩
  trans h h' := ⟨Nat.le_trans h.1 h'.1, fun ho heq =>
    (h.2 nofun (by have := h.1; have := h'.1; omega)).trans
      (h'.2 ho (by have := h.1; have := h'.1; omega))⟩

namespace keepsFrame

lemma of_frame_eq {st st' : State} {o : Option Signal} (hle : st.strayFrames ≤ st'.strayFrames)
    (h : st'.frame = st.frame) : keepsFrame.Allows st o st' :=
  ⟨hle, fun _ _ => h ▸ .refl _⟩

lemma of_stray {st st' : State} {o : Option Signal} (h : st.strayFrames < st'.strayFrames) :
    keepsFrame.Allows st o st' :=
  ⟨Nat.le_of_lt h, fun _ heq => absurd heq (Nat.ne_of_gt h)⟩

lemma resume {a b c : State} {o : Option Signal} {e : Signal} (he : e ≠ .exhausted)
    (h : keepsFrame.Allows a (some e) b) (h' : keepsFrame.Allows b o c) :
    keepsFrame.Allows a o c :=
  ⟨Nat.le_trans h.1 h'.1, fun ho heq =>
    (h.2 (by simpa using he) (by have := h.1; have := h'.1; omega)).trans
      (h'.2 ho (by have := h.1; have := h'.1; omega))⟩

lemma continues_rebind {st : State} {name : String} {d : Nat} (v : Value) (origin : Origin)
    (h : st.resolve name = some (.scope d)) :
    st.frame.Continues
      { st.frame with scopes := st.frame.scopes.modify d (·.put name v origin) } := by
  have hbound : ∃ bs, st.frame.scopes[d]? = some bs ∧ (bs.lookup name).isSome = true := by
    unfold State.resolve at h
    split at h
    · rename_i d' hd
      cases h
      obtain ⟨hlt, hd, -⟩ := List.findIdx?_eq_some_iff_getElem.mp hd
      exact ⟨_, List.getElem?_eq_getElem hlt, hd⟩
    · split at h
      · cases h
      · split at h <;> cases h
  obtain ⟨bs, hbs, hname⟩ := hbound
  refine ⟨rfl, rfl, .of_names ?_⟩
  refine List.ext_getElem? fun i => ?_
  rw [List.getElem?_map, List.getElem?_map, List.getElem?_modify]
  by_cases hi : d = i
  · subst hi
    simp [hbs, Bindings.names_put_of_bound hname]
  · simp [hi]

end keepsFrame

instance : keepsFrame.Blind where
  store _ _ _ _ := keepsFrame.of_frame_eq (Nat.le_refl _) rfl
  count _ _ := keepsFrame.of_frame_eq (Nat.le_refl _) rfl
  rebind _ _ v origin _ h := ⟨Nat.le_refl _, fun _ _ => keepsFrame.continues_rebind v origin h⟩

namespace keepsFrame

open Contract

instance instDeclare (name : String) (v : Value) (type : Option TypeInfo) :
    keepsFrame.Meets (declare name v type) where
  allows st := by
    unfold declare
    split
    · exact of_frame_eq (Nat.le_refl _) rfl
    · rename_i bs scopes hscopes
      refine ⟨Nat.le_refl _, fun _ _ => ⟨rfl, rfl, ?_⟩⟩
      rw [hscopes]
      exact .cons (bs.names_prefix_put name v _) rfl

lemma popScope_allows {st t : State} {bs : Bindings} {o : Option Signal}
    (h : keepsFrame.Allows
      { st with frame := { st.frame with scopes := bs :: st.frame.scopes } } o t)
    (ho : o ≠ some .exhausted) (o' : Option Signal) :
    keepsFrame.Allows st o' (finalState (popScope t)) := by
  unfold popScope
  split
  · rename_i hscopes
    refine ⟨h.1, fun _ heq => ?_⟩
    have hsame := (h.2 ho heq).scopes
    rw [hscopes] at hsame
    cases hsame
  · rename_i scopes hscopes
    refine ⟨h.1, fun _ heq => ?_⟩
    have hcont := h.2 ho heq
    have hsame := hcont.scopes
    rw [hscopes] at hsame
    cases hsame with
    | cons _ rest => exact ⟨hcont.className, hcont.this, .of_names rest⟩

instance instInScope (bs : Bindings) (body : Exec α) [hbody : keepsFrame.Meets body] :
    keepsFrame.Meets (inScope bs body) where
  allows st := by
    have h := hbody.allows { st with frame := { st.frame with scopes := bs :: st.frame.scopes } }
    show keepsFrame.Allows st (ending (ensuring body popScope _))
      (finalState (ensuring body popScope _))
    unfold ensuring
    generalize body { st with frame := { st.frame with scopes := bs :: st.frame.scopes } } = r
      at h ⊢
    cases r with
    | ok a t =>
      have hpop := popScope_allows h nofun
      dsimp only
      cases hp : popScope t <;> simpa [hp] using hpop _
    | error e t =>
      cases e with
      | exhausted => exact ⟨h.1, nofun⟩
      | _ =>
        have hpop := popScope_allows h nofun
        dsimp only
        cases hp : popScope t <;> simpa [hp] using hpop _

instance : keepsFrame.Lasting where
  throw _ := ⟨fun _ => of_frame_eq (Nat.le_refl _) rfl⟩
  note i := ⟨fun st => of_frame_eq ((List.sublist_cons_self i st.incidents).countP_le) rfl⟩
  resume he h h' := resume he h h'
  scope _ _ _ := inferInstance

lemma meets_framed (f : Frame) (prepare : Exec Unit) (body : Exec α) [Steady prepare]
    [Steady body] :
    keepsFrame.Meets (do
      let saved ← getFrame
      setFrame f
      noting .brokenBinding prepare
      ensuring body (setFrame saved)) where
  allows st := by
    have hprepare := strayFrames_final_le prepare { st with frame := f }
    show keepsFrame.Allows st
      (ending ((noting .brokenBinding prepare >>= fun _ => ensuring body (setFrame st.frame))
        { st with frame := f }))
      (finalState ((noting .brokenBinding prepare >>= fun _ => ensuring body (setFrame st.frame))
        { st with frame := f }))
    rw [bind_eq_onEnd]
    unfold onEnd noting
    generalize prepare { st with frame := f } = r at hprepare ⊢
    cases r with
    | error e t =>
      show keepsFrame.Allows st (some e) { t with incidents := .brokenBinding :: t.incidents }
      refine of_stray ?_
      rw [strayFrames_cons rfl]
      exact Nat.lt_succ_of_le hprepare
    | ok _ t =>
      have hbody := Nat.le_trans hprepare (strayFrames_final_le body t)
      dsimp only
      unfold ensuring
      generalize body t = r at hbody ⊢
      cases r with
      | ok a u => exact of_frame_eq hbody rfl
      | error e u =>
        cases e with
        | exhausted => exact ⟨hbody, nofun⟩
        | _ => exact of_frame_eq hbody rfl

lemma meets_inFrame (f : Frame) (body : Exec Unit) [Steady body] :
    keepsFrame.Meets (noting .brokenCreation (Evaluator.inFrame f body)) where
  allows st := by
    have hbody := strayFrames_final_le body { st with frame := f }
    unfold noting
    have hrun : Evaluator.inFrame f body st =
        onEnd body (fun _ => setFrame st.frame) throw { st with frame := f } := by
      rw [← bind_eq_onEnd]
      rfl
    rw [hrun]
    unfold onEnd
    generalize body { st with frame := f } = r at hbody ⊢
    cases r with
    | ok _ t => exact of_frame_eq hbody rfl
    | error e t =>
      show keepsFrame.Allows st (some e) { t with incidents := .brokenCreation :: t.incidents }
      refine of_stray ?_
      rw [strayFrames_cons rfl]
      exact Nat.lt_succ_of_le hbody

end keepsFrame

class Evaluator.KeepsFrame (ev : Evaluator) : Prop extends ev.Steady where
  eval_meets (e : Node) : keepsFrame.Meets (ev.eval e)
  exec_meets (labels : List String) (s : Node) : keepsFrame.Meets (ev.exec labels s)

attribute [instance] Evaluator.KeepsFrame.eval_meets Evaluator.KeepsFrame.exec_meets

namespace Evaluator

open Contract

variable (ev : Evaluator) [ev.KeepsFrame]

instance (className : String) (r : Routine) (this : Option Nat) (args : List Value) :
    keepsFrame.Meets (ev.invoke className r this args) := by
  have hframed := keepsFrame.meets_framed { className, this } (bindParameters r.params args)
    (catchReturn (ev.execBody r.body))
  unfold invoke
  infer_instance

instance (c : ClassInfo) (index : Nat) (args : List Value) :
    keepsFrame.Meets (ev.construct c index args) := by
  unfold construct
  split <;> infer_instance

instance (c : ClassInfo) (args : List Value) : keepsFrame.Meets (ev.instantiate c args) := by
  have hmembers := fun f index => keepsFrame.meets_inFrame f
    (ev.initMembers false (setField index) c.members)
  unfold instantiate
  infer_instance

lemma keepsFrame_serves : keepsFrame.Serves ev where
  eval := inferInstance
  assign _ _ _ := inferInstance
  step _ _ _ := inferInstance
  invoke _ _ _ _ _ := inferInstance
  instantiate _ _ := inferInstance

instance (type : Node) (ds : List Node) : keepsFrame.Meets (ev.execLocalVar type ds) := by
  induction ds with
  | nil => exact instPure _
  | cons d ds ih =>
    unfold execLocalVar
    split <;> infer_instance

instance : keepsFrame.Upholds ev where
  toServes := keepsFrame_serves ev
  exec := inferInstance
  localVar := inferInstance
  forEachRound labels type name v body i := by
    have := keepsFrame_serves ev
    refine @instBind _ _ _ _ _ inferInstance fun items => ?_
    split <;> infer_instance

end Evaluator

instance (program : Program) (limit : Int) (depth : Nat) :
    (evaluatorAt program limit depth).KeepsFrame := by
  induction depth with
  | zero =>
    exact { eval_meets := fun _ => Contract.instExhausted
            exec_meets := fun _ _ => Contract.instExhausted }
  | succ n ih =>
    exact { eval_meets := fun e => inferInstanceAs (keepsFrame.Meets (Evaluator.expression _ e))
            exec_meets := fun labels s =>
              inferInstanceAs (keepsFrame.Meets (Evaluator.countedStatement _ labels s)) }

/-- A statement leaves the frame as it found it, however it ends, unless the frame of another
method stayed behind while it ran. -/
theorem frame_continues (program : Program) (limit : Int) (depth : Nat) (labels : List String)
    (s : Node) (st : State)
    (hend : ending ((evaluatorAt program limit depth).exec labels s st) ≠ some .exhausted)
    (hstray : (finalState ((evaluatorAt program limit depth).exec labels s st)).strayFrames =
      st.strayFrames) :
    st.frame.Continues (finalState ((evaluatorAt program limit depth).exec labels s st)).frame ∧
      (finalState ((evaluatorAt program limit depth).exec labels s st)).frame.scopes.length =
        st.frame.scopes.length := by
  have hmeets : keepsFrame.Meets ((evaluatorAt program limit depth).exec labels s) := inferInstance
  have hcontinues := (hmeets.allows st).2 hend hstray
  exact ⟨hcontinues, hcontinues.scopes.length_eq⟩

def dividingCall : Program.Sample fun program =>
    (parse .statement "{ int y = f(0); }").toOption.any fun s =>
      let r := (evaluatorAt program 100 50).exec [] s
        { frame := { className := "A", scopes := [[⟨"x", .int 5, none, false⟩]] } }
      (ending r).any Signal.isMishap && (finalState r).strayFrames == 0 where
  text := "class A { static int f(int n) { while (true) { return 1 / n; } } }"
  passes := by decide +kernel

theorem frame_continues_thrown : ∃ program s,
    Program.ofText? "class A { static int f(int n) { while (true) { return 1 / n; } } }" =
        some program ∧
      (parse .statement "{ int y = f(0); }").toOption = some s ∧
      ∃ r, (evaluatorAt program 100 50).exec [] s
          { frame := { className := "A", scopes := [[⟨"x", .int 5, none, false⟩]] } } = r ∧
        (ending r).any Signal.isMishap = true ∧ (finalState r).strayFrames = 0 ∧
          (finalState r).frame.scopes.length = 1 := by
  obtain ⟨program, hprogram, hrun⟩ := dividingCall.exists_program
  obtain ⟨s, hs, hrun⟩ := (Option.any_eq_true _ _).mp hrun
  obtain ⟨hend, hstray⟩ := Bool.and_eq_true_iff.mp hrun
  refine ⟨program, s, hprogram, hs, _, rfl, hend, eq_of_beq hstray, ?_⟩
  refine (frame_continues program 100 50 [] s _ (fun h => ?_) (eq_of_beq hstray)).2
  rw [h] at hend
  cases hend

def dividingCreation : Program.Sample fun program =>
    (parse .statement "new B();").toOption.any fun s =>
      let r := (evaluatorAt program 100 50).exec [] s
        { frame := { className := "A", scopes := [[], [⟨"x", .int 5, none, false⟩]] } }
      (ending r).any Signal.isMishap && (finalState r).frame.className == "B" &&
        (finalState r).frame.scopes.length == 1 where
  text := "class B { int v = 1 / 0; }"
  passes := by decide +kernel

theorem frame_lost_in_creation : ∃ program s,
    Program.ofText? "class B { int v = 1 / 0; }" = some program ∧
      (parse .statement "new B();").toOption = some s ∧
      ∃ r, (evaluatorAt program 100 50).exec [] s
          { frame := { className := "A", scopes := [[], [⟨"x", .int 5, none, false⟩]] } } = r ∧
        (ending r).any Signal.isMishap = true ∧
          (finalState r).frame.className = "B" ∧ (finalState r).frame.scopes.length = 1 := by
  obtain ⟨program, hprogram, hrun⟩ := dividingCreation.exists_program
  obtain ⟨s, hs, hrun⟩ := (Option.any_eq_true _ _).mp hrun
  simp only [Bool.and_eq_true, beq_iff_eq] at hrun
  exact ⟨program, s, hprogram, hs, _, rfl, hrun.1.1, hrun.1.2, hrun.2⟩

end LoopLowering.Machine
