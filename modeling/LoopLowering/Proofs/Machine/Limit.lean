import LoopLowering.Proofs.Machine.Contract
import LoopLowering.Proofs.Machine.Truncation

/-! Whole runs with a smaller and a larger limit. The main statement says that a limit only cuts a
run short: what a cut run has printed is the beginning of what the longer run prints. -/

namespace LoopLowering.Machine

set_option synthInstance.maxSize 1000

variable {α β : Type}

namespace Evaluator

open Bounds

variable {B : Bounds} (ev ev' : Evaluator) [hev : Alike B ev ev'] [ev'.Steady]

instance (cs : List ClassInfo) : B.Cuts (ev.initClasses cs) (ev'.initClasses cs) := by
  induction cs with
  | nil => exact Cuts.instPure _
  | cons c cs ih =>
    unfold initClasses
    infer_instance

instance (method : String) (className : Option String) :
    B.Cuts (ev.entry method className) (ev'.entry method className) := by
  unfold entry entryClass
  rw [hev.program]
  split
  · split <;> infer_instance
  · infer_instance

instance (e : Signal) : B.Cuts (uncaughtEnd e) (uncaughtEnd e) := by
  unfold uncaughtEnd
  split <;> infer_instance

instance (body body' : Exec Value) [B.Cuts body body'] :
    B.Cuts (reportUncaught body) (reportUncaught body') := by
  rw [reportUncaught_eq, reportUncaught_eq]
  refine .onEnd (fun _ => inferInstance) (fun _ => inferInstance) (.of_eq (fun e he => ?_) rfl)
  cases e <;> first | rfl | cases he

instance (method : String) (className : Option String) (args : Option (List Value)) :
    B.Cuts (ev.run method className args) (ev'.run method className args) := by
  unfold run
  infer_instance

lemma reportUncaught_paced {limit : Int} {body : Exec Value}
    (h : Paced limit (fun _ => True) body) :
    Paced limit (fun _ => True) (reportUncaught body) := by
  rintro st ⟨⟩ t hrun -
  rw [reportUncaught_eq] at hrun
  unfold onEnd at hrun
  cases hbody : body st with
  | ok v u =>
    rw [hbody] at hrun
    cases hrun
    exact h st v t hbody trivial
  | error e u =>
    rw [hbody] at hrun
    cases e with
    | thrown v =>
      simp only [uncaughtEnd_thrown] at hrun
      split at hrun <;> cases hrun
    | _ => cases hrun

variable [ev.Steady]

include ev' hev

lemma invoke_paced (className : String) (r : Routine) (this : Option Nat) (args : List Value) :
    Paced B.limit (fun _ => True) (ev.invoke className r this args) := by
  have hcall : B.Cuts
      (do
        let saved ← getFrame
        setFrame { className, this }
        noting .brokenBinding (bindParameters r.params args)
        ensuring (catchReturn (ev.execBody r.body)) (setFrame saved) : Exec Value)
      (do
        let saved ← getFrame
        setFrame { className, this }
        noting .brokenBinding (bindParameters r.params args)
        ensuring (catchReturn (ev'.execBody r.body)) (setFrame saved)) := inferInstance
  unfold invoke tick
  rw [hev.limit]
  exact Paced.tick.followed fun _ => hcall.timely

lemma run_paced (method : String) (className : Option String) (args : Option (List Value)) :
    Paced B.limit (fun _ => True) (ev.run method className args) := by
  have hentry : B.Cuts (ev.entry method className) (ev'.entry method className) := inferInstance
  have hargs : ∀ r : Routine, B.Cuts (liftM (entryArguments r args) : Exec (List Value))
      (liftM (entryArguments r args)) := inferInstance
  have hnew : ∀ c, B.Cuts (ev.instantiate c []) (ev'.instantiate c []) := inferInstance
  have hpure : ∀ a : Option Nat, B.Cuts (pure a) (pure a) := inferInstance
  refine .after hentry.timely fun (c, r) => .after (hargs r).timely fun args => ?_
  have hcall : ∀ this, Paced B.limit (fun _ => True)
      (reportUncaught (ev.invoke c.name r this args)) :=
    fun this => reportUncaught_paced (ev.invoke_paced ev' c.name r this args)
  dsimp only
  split
  · exact .after (hpure _).timely hcall
  · exact .after (hnew c).timely fun index => .after (hpure _).timely hcall

/-- A whole run: the static fields, then a method. -/
def wholeRun (ev : Evaluator) (method : String) (className : Option String) : Exec Unit := do
  ev.initClasses ev.program.classes
  ev.run method className none

omit [ev.Steady] in
lemma cuts_wholeRun (method : String) (className : Option String) :
    B.Cuts (ev.wholeRun method className) (ev'.wholeRun method className) := by
  unfold wholeRun
  rw [hev.program]
  infer_instance

lemma wholeRun_paced (method : String) (className : Option String) :
    Paced B.limit (fun _ => True) (ev.wholeRun method className) := by
  have hboot : B.Cuts (ev.initClasses ev.program.classes)
      (ev'.initClasses ev.program.classes) := inferInstance
  exact .after hboot.timely fun _ => ev.run_paced ev' method className none

end Evaluator

/-- A run beside one that its limit did not end so early. -/
structure Outcome.Truncates (limit : Int) (u v : Outcome) : Prop where
  same (h : (u.state.steps : Int) ≤ limit) : v = u
  ends (h : limit < u.state.steps) : u.signal ≠ none
  out : Continues u.state.out v.state.out
  err : Continues u.state.err v.state.err

lemma Outcome.of_eq (c : Exec α) (st : State) :
    Outcome.of c st = ⟨finalState (c st), ending (c st)⟩ := by
  unfold Outcome.of
  cases c st <;> rfl

lemma Bounds.Cut.store_le {B : Bounds} {st : State} {r r' : EStateM.Result Signal State α}
    (h : B.Cut st r r') : (finalState r).toStore ≤ (finalState r').toStore := by
  cases h with
  | same => exact le_rfl
  | cut _ hstore => exact hstore

lemma Outcome.of_truncates {B : Bounds} {c c' : Exec α} {st : State}
    (hcut : B.Cut st (c st) (c' st))
    (hwithin : ∀ a t, c st = .ok a t → (t.steps : Int) ≤ B.limit)
    (hfair : B.deeper → (Outcome.of c st).signal ≠ some .exhausted) :
    (Outcome.of c st).Truncates B.limit (Outcome.of c' st) := by
  have hstore := hcut.store_le
  rw [of_eq, of_eq] at *
  generalize c st = r at *
  generalize c' st = r' at *
  cases hcut with
  | same =>
    refine ⟨fun _ => rfl, fun hover hnone => ?_, hstore.out, hstore.err⟩
    cases r with
    | ok a t => exact absurd (hwithin a t rfl) (not_le.mpr hover)
    | error e t => cases hnone
  | cut hhalted =>
    refine ⟨fun hle => ?_, fun _ hnone => ?_, hstore.out, hstore.err⟩
    · cases hhalted with
      | overrun _ hover => exact absurd hle (not_le.mpr hover)
      | exhausted t hdeeper => exact absurd rfl (hfair hdeeper)
    · cases hhalted <;> cases hnone

namespace Setup

/-- A whole run that nests at most so deep. -/
def executeAt (s : Setup) (depth : Nat) (method : String) (className : Option String) : Outcome :=
  Outcome.of ((evaluatorAt s.program s.limit depth).wholeRun method className) {}

lemma execute_eq_executeAt (s : Setup) (method : String) (className : Option String) :
    s.execute method className =
      s.executeAt (depthFor s.limit s.program.size) method className := by
  unfold executeAt Evaluator.wholeRun
  rw [evaluatorAt_program]
  rfl

lemma depthFor_le {limit more : Int} (h : limit ≤ more) (size : Nat) :
    depthFor limit size ≤ depthFor more size :=
  Nat.add_le_add_right (Nat.mul_le_mul_right _ (by omega)) _

section

variable {p : Program} {B : Bounds} {d d' : Nat} (method : String) (className : Option String)
  (hd : d ≤ d') (hdeeper : d < d' → B.deeper)
include hd hdeeper

lemma executeAt_truncates
    (hfair : B.deeper → (executeAt ⟨p, B.limit⟩ d method className).signal ≠ some .exhausted) :
    (executeAt ⟨p, B.limit⟩ d method className).Truncates B.limit
      (executeAt ⟨p, B.more⟩ d' method className) := by
  have halike := evaluatorAt_alike p B d d' hd hdeeper
  have hcut := Evaluator.cuts_wholeRun (B := B) (evaluatorAt p B.limit d) (evaluatorAt p B.more d')
    method className
  have hpaced := Evaluator.wholeRun_paced (B := B) (evaluatorAt p B.limit d)
    (evaluatorAt p B.more d') method className
  exact Outcome.of_truncates (hcut.cut _) (fun a t h => (hpaced _ a t h trivial).2) hfair

lemma executeAt_le : (executeAt ⟨p, B.limit⟩ d method className).state.toStore ≤
    (executeAt ⟨p, B.more⟩ d' method className).state.toStore := by
  have halike := evaluatorAt_alike p B d d' hd hdeeper
  have hcut := Evaluator.cuts_wholeRun (B := B) (evaluatorAt p B.limit d) (evaluatorAt p B.more d')
    method className
  unfold executeAt
  rw [Outcome.of_eq, Outcome.of_eq]
  exact (hcut.cut _).store_le

end

lemma execute_le (p : Program) (method : String) (className : Option String) {limit more : Int}
    (h : limit ≤ more) : (execute ⟨p, limit⟩ method className).state.toStore ≤
      (execute ⟨p, more⟩ method className).state.toStore := by
  rw [execute_eq_executeAt, execute_eq_executeAt]
  exact executeAt_le (B := ⟨limit, more, h, True⟩) method className (depthFor_le h p.size)
    fun _ => trivial

/-- A limit only cuts a run short. At every depth of nesting, a run that stays within the limit is
the same with every larger limit; any other run does not end normally, and what it prints is the
beginning of what it prints with a larger limit. Beyond the limit a statement does nothing. -/
theorem limit_only_truncates (p : Program) (method : String) (className : Option String)
    {limit more : Int} (h : limit ≤ more) :
    (∀ depth, (executeAt ⟨p, limit⟩ depth method className).Truncates limit
      (executeAt ⟨p, more⟩ depth method className)) ∧
    ((execute ⟨p, limit⟩ method className).signal ≠ some .exhausted →
      (execute ⟨p, limit⟩ method className).Truncates limit
        (execute ⟨p, more⟩ method className)) ∧
    ∀ (depth : Nat) (labels : List String) (s : Node) (st : State), limit < st.steps →
      ∃ e t, (evaluatorAt p limit depth).exec labels s st = .error e t ∧
        t.toStore = st.toStore := by
  refine ⟨fun depth => ?_, fun hfair => ?_, fun depth labels s st hover => ?_⟩
  · exact executeAt_truncates (B := ⟨limit, more, h, False⟩) method className le_rfl
      (fun hlt => absurd hlt (lt_irrefl depth)) False.elim
  · rw [execute_eq_executeAt] at hfair ⊢
    rw [execute_eq_executeAt]
    exact executeAt_truncates (B := ⟨limit, more, h, True⟩) method className
      (depthFor_le h p.size) (fun _ => trivial) fun _ => hfair
  · cases depth with
    | zero => exact ⟨_, _, rfl, rfl⟩
    | succ d =>
      have hlimit : (evaluatorAt p limit d).limit = limit := by cases d <;> rfl
      exact ⟨_, _, Evaluator.countedStatement_of_lt _ labels s (hlimit.symm ▸ hover), rfl⟩

def endlessFinally : Program.Sample fun p =>
    let u := execute ⟨p, 15⟩ "main" none
    u.state.out == "121" && decide (15 < u.state.steps) && u.signal.any Signal.isMishap where
  text := "class A { static void main() { while (true) { try { System.out.print(1); } finally { System.out.print(2); } } } }"
  passes := by decide +kernel

theorem limit_only_truncates_finally : ∃ p, Program.ofText?
      "class A { static void main() { while (true) { try { System.out.print(1); } finally { System.out.print(2); } } } }" =
        some p ∧
    (15 : Int) ≤ 50 ∧ (execute ⟨p, 15⟩ "main" none).state.out = "121" ∧
      15 < (execute ⟨p, 15⟩ "main" none).state.steps ∧
        (execute ⟨p, 15⟩ "main" none).Truncates 15 (execute ⟨p, 50⟩ "main" none) := by
  obtain ⟨p, hp, hrun⟩ := endlessFinally.exists_program
  simp only [Bool.and_eq_true, beq_iff_eq, decide_eq_true_eq] at hrun
  obtain ⟨⟨hout, hsteps⟩, hfailed⟩ := hrun
  refine ⟨p, hp, by decide, hout, hsteps, (limit_only_truncates p "main" none (by decide)).2.1 ?_⟩
  intro hexhausted
  rw [hexhausted] at hfailed
  cases hfailed

end Setup

end LoopLowering.Machine
