import LoopLowering.Proofs.CommandLine
import LoopLowering.Proofs.Grammar.Running
import LoopLowering.Proofs.Machine.Exits
import LoopLowering.Proofs.Machine.Mishap

/-! How a whole run of a confined program ends. An exception that leaves the method is reported as an
error of the program, by the command line with a message and the status 1. Only the initialization
of the classes and the creation of the object on which the method runs let exceptions through. -/

namespace LoopLowering.Machine

variable {α β : Type}

lemma bind_eq_error {c : Exec α} {f : α → Exec β} {st st' : State} {e : Signal} :
    (c >>= f) st = .error e st' ↔
      c st = .error e st' ∨ ∃ a t, c st = .ok a t ∧ f a t = .error e st' := by
  show EStateM.bind c f st = _ ↔ _
  unfold EStateM.bind
  cases c st with
  | ok a t => simp
  | error e t => simp

def returned? : EStateM.Result Signal State α → Option (α × State)
  | .ok a st => some (a, st)
  | .error .. => none

lemma returned?_eq_some {r : EStateM.Result Signal State α} {a : α × State} :
    returned? r = some a ↔ r = .ok a.1 a.2 := by
  cases r <;> simp [returned?, Prod.ext_iff]

def thrown? : EStateM.Result Signal State α → Option (Value × State)
  | .error (.thrown v) st => some (v, st)
  | _ => none

lemma thrown?_eq_some {r : EStateM.Result Signal State α} {a : Value × State} :
    thrown? r = some a ↔ r = .error (.thrown a.1) a.2 := by
  cases r with
  | ok => simp [thrown?]
  | error e st => cases e <;> simp [thrown?, Prod.ext_iff]

lemma times_alloc_ok (o : Object) (n : Nat) (st : Store) :
    ∃ vs st', times (alloc o) n st = .ok vs st' := by
  induction n generalizing st with
  | zero => exact ⟨[], st, rfl⟩
  | succ n ih =>
    obtain ⟨vs, st', h⟩ := ih { st with heap := { st.heap with objects := st.heap.objects.push o } }
    refine ⟨.ref (.object st.heap.objects.size) :: vs, st', ?_⟩
    show EStateM.bind (times (alloc o) n) _ _ = _
    rw [EStateM.bind, h]
    rfl

lemma entryArguments_ne_error (r : Routine) (st st' : State) (e : Signal) :
    (liftM (Evaluator.entryArguments r none) : Exec (List Value)) st ≠ .error e st' := by
  obtain ⟨vs, s, h⟩ := times_alloc_ok (.array #[]) r.params.length st.toStore
  rw [liftM_apply, Evaluator.entryArguments, h]
  rintro ⟨⟩

lemma Outcome.of_bind_ok {c : Exec α} {f : α → Exec β} {a : α} {st u : State}
    (h : c st = .ok a u) : Outcome.of (c >>= f) st = Outcome.of (f a) u := by
  have hbind : (c >>= f) st = f a u := by
    show EStateM.bind c f st = _
    rw [EStateM.bind, h]
  unfold Outcome.of
  rw [hbind]

lemma RunError.render_diagnostic (e : RunError) : e.diagnostic.render = e.message := by
  simp [RunError.diagnostic, Diagnostic.render, Diagnostic.place]

def reported (v : Value) (t : State) : Outcome :=
  match display? t.heap v with
  | some text => ⟨t, some (.failed (.uncaught text))⟩
  | none => ⟨t, some .exhausted⟩

lemma reported_of_display? {v : Value} {t : State} {text : String}
    (h : display? t.heap v = some text) : reported v t = ⟨t, some (.failed (.uncaught text))⟩ := by
  unfold reported
  rw [h]

lemma reported_of_none {v : Value} {t : State} (h : display? t.heap v = none) :
    reported v t = ⟨t, some .exhausted⟩ := by
  unfold reported
  rw [h]

lemma reportUncaught_ne_thrown (body : Exec Value) (st st' : State) (v : Value) :
    Evaluator.reportUncaught body st ≠ .error (.thrown v) st' := by
  rw [Evaluator.reportUncaught_eq, onEnd]
  cases body st with
  | ok a t => rintro ⟨⟩
  | error e t =>
    cases e with
    | thrown w =>
      dsimp only
      rw [Evaluator.uncaughtEnd_thrown]
      split <;> rintro ⟨⟩
    | _ => rintro ⟨⟩

lemma reportUncaught_thrown {body : Exec Value} {st t : State} {v : Value}
    (h : body st = .error (.thrown v) t) :
    Outcome.of (Evaluator.reportUncaught body) st = reported v t := by
  unfold Outcome.of reported
  rw [Evaluator.reportUncaught_eq, onEnd, h]
  dsimp only
  rw [Evaluator.uncaughtEnd_thrown]
  cases display? t.heap v <;> rfl

namespace Evaluator

variable (ev : Evaluator) (c : ClassInfo) (r : Routine)

/-- What a run makes before it calls its method: the object to call it on, and the arguments. -/
def prepare : Exec (Option Nat × List Value) := do
  let args ← entryArguments r none
  let this ← if r.isStatic then pure none else do pure (some (← ev.instantiate c []))
  return (this, args)

lemma runMethod_eq : ev.runMethod c r none =
    ev.prepare c r >>= fun call => reportUncaught (ev.invoke c.name r call.1 call.2) := by
  cases h : r.isStatic <;> simp [runMethod, prepare, h]

end Evaluator

def Signal.isThrown : Signal → Bool
  | .thrown _ => true
  | _ => false

namespace Setup

variable (s : Setup)

/-- An exception leaves the initialization of the classes. -/
def BootThrows (v : Value) : Prop := ∃ t, s.boot {} = .error (.thrown v) t

structure Enters (method : String) (className : Option String) (c : ClassInfo) (r : Routine)
    (st : State) : Prop where
  boot : s.boot {} = .ok () st
  entry : (s.evaluatorFor 0).entryPoint method className = some (c, r)

/-- An exception leaves the creation of the object on which the method runs. -/
def CreationThrows (method : String) (className : Option String) (v : Value) : Prop :=
  ∃ c r st t, s.Enters method className c r st ∧ r.isStatic = false ∧
    (s.evaluatorFor 0).prepare c r st = .error (.thrown v) t

/-- An exception leaves the method. -/
def MethodThrows (method : String) (className : Option String) (v : Value) (t : State) : Prop :=
  ∃ c r st call u, s.Enters method className c r st ∧
    (s.evaluatorFor 0).prepare c r st = .ok call u ∧
      (s.evaluatorFor 0).invoke c.name r call.1 call.2 u = .error (.thrown v) t

variable {s} {method : String} {className : Option String} {c : ClassInfo} {r : Routine}
  {st : State}

lemma Enters.execute_eq (h : s.Enters method className c r st) :
    s.execute method className = Outcome.of ((s.evaluatorFor 0).runMethod c r none) st := by
  have hrun : (do s.boot; s.run method className none : Exec Unit) {} =
      (s.evaluatorFor 0).runMethod c r none st := by
    show EStateM.bind s.boot _ {} = _
    rw [EStateM.bind, h.boot, run, Evaluator.run_eq, h.entry]
  unfold execute Outcome.of
  rw [hrun]

lemma MethodThrows.execute_eq {v : Value} {t : State}
    (h : s.MethodThrows method className v t) : s.execute method className = reported v t := by
  obtain ⟨c, r, st, call, u, henters, hprepare, hinvoke⟩ := h
  rw [henters.execute_eq, Evaluator.runMethod_eq, ← reportUncaught_thrown hinvoke]
  exact Outcome.of_bind_ok hprepare

lemma isStatic_eq_false_of_prepare {ev : Evaluator} {e : Signal} {t : State}
    (h : ev.prepare c r st = .error e t) : r.isStatic = false := by
  cases hstatic : r.isStatic with
  | false => rfl
  | true =>
    simp only [Evaluator.prepare, hstatic, if_true, pure_bind, bind_eq_error] at h
    obtain hargs | ⟨args, u, -, hpure⟩ := h
    · exact absurd hargs (entryArguments_ne_error _ _ _ _)
    · cases hpure

variable (s method className)

/-- The code of a run, whose exceptions nothing reports. -/
def bareRun : Exec Value := do
  s.boot
  let (c, r) ← (s.evaluatorFor 0).entry method className
  let (this, args) ← (s.evaluatorFor 0).prepare c r
  (s.evaluatorFor 0).invoke c.name r this args

lemma bareRun_thrown_iff (v : Value) :
    (∃ t, s.bareRun method className {} = .error (.thrown v) t) ↔
      s.BootThrows v ∨ s.CreationThrows method className v ∨
        ∃ t, s.MethodThrows method className v t := by
  unfold bareRun
  rw [Evaluator.entry_eq]
  simp only [bind_eq_error, exists_or]
  refine or_congr Iff.rfl ⟨?_, ?_⟩
  · rintro ⟨t, ⟨⟩, st, hboot, hrun⟩
    cases hentry : (s.evaluatorFor 0).entryPoint method className with
    | none =>
      rw [hentry] at hrun
      obtain hfail | ⟨x, u, hfail, -⟩ := hrun <;> cases hfail
    | some x =>
      obtain ⟨c, r⟩ := x
      rw [hentry] at hrun
      obtain hpure | ⟨_, _, ⟨⟩, hrun⟩ := hrun
      · cases hpure
      obtain hprepare | ⟨call, u, hprepare, hinvoke⟩ := hrun
      · exact .inl ⟨c, r, st, t, ⟨hboot, hentry⟩, isStatic_eq_false_of_prepare hprepare, hprepare⟩
      · exact .inr ⟨t, c, r, st, call, u, ⟨hboot, hentry⟩, hprepare, hinvoke⟩
  · rintro (⟨c, r, st, t, henters, -, hprepare⟩ | ⟨t, c, r, st, call, u, henters, hprepare, hinvoke⟩)
    · refine ⟨t, (), st, henters.boot, ?_⟩
      rw [henters.entry]
      exact .inr ⟨(c, r), st, rfl, .inl hprepare⟩
    · refine ⟨t, (), st, henters.boot, ?_⟩
      rw [henters.entry]
      exact .inr ⟨(c, r), st, rfl, .inr ⟨call, u, hprepare, hinvoke⟩⟩

lemma signal_execute_iff (e : Signal) :
    (s.execute method className).signal = some e ↔
      ∃ st, (do s.boot; s.run method className none : Exec Unit) {} = .error e st := by
  unfold execute Outcome.of
  cases (do s.boot; s.run method className none : Exec Unit) {} with
  | ok a st => simp
  | error e st => simp

lemma execute_thrown_iff (v : Value) :
    (s.execute method className).signal = some (.thrown v) ↔
      s.BootThrows v ∨ s.CreationThrows method className v := by
  rw [signal_execute_iff]
  simp only [bind_eq_error, exists_or]
  refine or_congr Iff.rfl ⟨?_, ?_⟩
  · rintro ⟨t, ⟨⟩, st, hboot, hrun⟩
    rw [run, Evaluator.run_eq] at hrun
    split at hrun
    · rename_i c r hentry
      rw [Evaluator.runMethod_eq, bind_eq_error] at hrun
      obtain hprepare | ⟨call, u, -, hreport⟩ := hrun
      · exact ⟨c, r, st, t, ⟨hboot, hentry⟩, isStatic_eq_false_of_prepare hprepare, hprepare⟩
      · exact absurd hreport (reportUncaught_ne_thrown _ _ _ _)
    · cases hrun
  · rintro ⟨c, r, st, t, henters, -, hprepare⟩
    refine ⟨t, (), st, henters.boot, ?_⟩
    rw [run, Evaluator.run_eq, henters.entry]
    dsimp only
    rw [Evaluator.runMethod_eq, bind_eq_error]
    exact .inl hprepare

variable {s method className}

lemma exit?_eq_none_of_execute (h : s.program.Confined) {e : Signal}
    (he : (s.execute method className).signal = some e) : e.exit? = none := by
  obtain ⟨st, hst⟩ := (signal_execute_iff _ _ _ _).mp he
  have hev : (s.evaluatorFor 0).Confines := confines_evaluatorAt h s.limit _
  have hboot : (within []).Meets s.boot := Evaluator.initClasses_within _ h
  have hrun : (within []).Meets (s.run method className none) := Evaluator.run_within _ _ _ _
  exact exit?_eq_none_of_within inferInstance hst

section

variable {src : CommandLine.Sources} {args : List String} {v : Value} {t : State}

lemma MethodThrows.answer {text : String} (h : s.MethodThrows method className v t)
    (htext : display? t.heap v = some text)
    (r : CommandLine.Request src args s method className) :
    CommandLine.execute src args =
      ({ err := r.progress ++ "erro: " ++ ("exceção não apanhada: " ++ text) ++ "\n" },
        .exit 1) := by
  have hexecute := h.execute_eq.trans (reported_of_display? htext)
  calc CommandLine.execute src args
    _ = r.answer ⟨t, some (.failed (.uncaught text))⟩ := by rw [r.execute_eq, hexecute]
    _ = _ := by rw [r.answer_failed, RunError.render_diagnostic]; rfl

lemma answer_of_thrown (h : (s.execute method className).signal = some (.thrown v))
    (r : CommandLine.Request src args s method className) :
    CommandLine.execute src args = ({ err := r.progress },
      .escaped (.signal (.thrown v) (s.execute method className).state.heap)) := by
  rw [r.execute_eq, CommandLine.Request.answer, h]

end

/-- An exception that nothing catches leaves a run where its classes are initialized, where the
object for its method is made, or from its method. One that leaves the method is reported as an
error of the program, by the command line with a message and the status 1; the other two escape.
Jumps and returns never leave a run of a confined program. -/
theorem exceptions_reported {program : Program} (h : program.Confined) (limit : Int)
    (method : String) (className : Option String) :
    (∀ e, (execute ⟨program, limit⟩ method className).signal = some e → e.exit? = none) ∧
    (∀ v, (∃ t, bareRun ⟨program, limit⟩ method className {} = .error (.thrown v) t) ↔
      BootThrows ⟨program, limit⟩ v ∨ CreationThrows ⟨program, limit⟩ method className v ∨
        ∃ t, MethodThrows ⟨program, limit⟩ method className v t) ∧
    (∀ v t, MethodThrows ⟨program, limit⟩ method className v t →
      (display? t.heap v = none → t.heap.Cyclic ∧
        execute ⟨program, limit⟩ method className = ⟨t, some .exhausted⟩) ∧
      ∀ text, display? t.heap v = some text →
        execute ⟨program, limit⟩ method className = ⟨t, some (.failed (.uncaught text))⟩ ∧
        ∀ src args (r : CommandLine.Request src args ⟨program, limit⟩ method className),
          CommandLine.execute src args =
            ({ err := r.progress ++ "erro: " ++ ("exceção não apanhada: " ++ text) ++ "\n" },
              .exit 1)) ∧
    ∀ v, ((execute ⟨program, limit⟩ method className).signal = some (.thrown v) ↔
        BootThrows ⟨program, limit⟩ v ∨ CreationThrows ⟨program, limit⟩ method className v) ∧
      ((execute ⟨program, limit⟩ method className).signal = some (.thrown v) →
        ∀ src args (r : CommandLine.Request src args ⟨program, limit⟩ method className),
          CommandLine.execute src args = ({ err := r.progress },
            .escaped (.signal (.thrown v) (execute ⟨program, limit⟩ method className).state.heap))) := by
  refine ⟨fun e he => exit?_eq_none_of_execute h he, bareRun_thrown_iff _ _ _,
    fun v t hthrows => ⟨fun hnone => ⟨cyclic_of_display? hnone, ?_⟩, fun text htext => ⟨?_, ?_⟩⟩,
    fun v => ⟨execute_thrown_iff _ _ _ v, fun hthrown src args r => answer_of_thrown hthrown r⟩⟩
  · exact hthrows.execute_eq.trans (reported_of_none hnone)
  · exact hthrows.execute_eq.trans (reported_of_display? htext)
  · exact fun src args r => hthrows.answer htext r

def methodText? (s : Setup) (method : String) (className : Option String) : Option String := do
  let boot ← returned? (s.boot {})
  let entry ← (s.evaluatorFor 0).entryPoint method className
  let call ← returned? ((s.evaluatorFor 0).prepare entry.1 entry.2 boot.2)
  let thrown ← thrown? ((s.evaluatorFor 0).invoke entry.1.name entry.2 call.1.1 call.1.2 call.2)
  display? thrown.2.heap thrown.1

lemma exists_of_methodText? {s : Setup} {method text : String} {className : Option String}
    (h : s.methodText? method className = some text) :
    ∃ v t, s.MethodThrows method className v t ∧ display? t.heap v = some text := by
  obtain ⟨boot, hboot, h⟩ := Option.bind_eq_some_iff.mp h
  obtain ⟨entry, hentry, h⟩ := Option.bind_eq_some_iff.mp h
  obtain ⟨call, hprepare, h⟩ := Option.bind_eq_some_iff.mp h
  obtain ⟨thrown, hinvoke, htext⟩ := Option.bind_eq_some_iff.mp h
  have henters : s.Enters method className entry.1 entry.2 boot.2 :=
    ⟨returned?_eq_some.mp hboot, hentry⟩
  exact ⟨thrown.1, thrown.2, ⟨entry.1, entry.2, boot.2, call.1, call.2, henters,
    returned?_eq_some.mp hprepare, thrown?_eq_some.mp hinvoke⟩, htext⟩

def dividingMethod : Program.Sample fun program =>
    decide program.Confined &&
      methodText? ⟨program, 100⟩ "main" none == some "ArithmeticException: / by zero" where
  text := "class A { static void main() { int x = 1 / 0; } }"
  passes := by decide +kernel

def inputRequest {text : String} {tree : Node} {program : Program}
    (hparse : parse .unit text = .ok tree) (hprogram : Program.ofTree tree = .ok program) :
    CommandLine.Request ⟨fun path => .error (.missing path), text⟩ ["run", "--max-steps", "100"]
      ⟨program, 100⟩ "main" none where
  verbose := false
  file := none
  pass := .none
  source := ("<stdin>", text)
  tree := tree
  lowered := tree
  reads := (by decide +kernel : CommandLine.readInvocation false ["run", "--max-steps", "100"] =
    .ok ⟨false, .run none "main" none .none 100⟩)
  chosen := rfl
  parses := hparse
  lowers := rfl
  holds := hprogram

theorem exceptions_reported_division : ∃ program,
    Program.ofText? "class A { static void main() { int x = 1 / 0; } }" = some program ∧
      program.Confined ∧
      (execute ⟨program, 100⟩ "main" none).signal =
        some (.failed (.uncaught "ArithmeticException: / by zero")) ∧
      CommandLine.execute ⟨fun path => .error (.missing path),
          "class A { static void main() { int x = 1 / 0; } }"⟩ ["run", "--max-steps", "100"] =
        ({ err := "erro: exceção não apanhada: ArithmeticException: / by zero\n" }, .exit 1) := by
  obtain ⟨program, hprogram, hrun⟩ := dividingMethod.exists_program
  obtain ⟨hconfined, htext⟩ := Bool.and_eq_true_iff.mp hrun
  have h := of_decide_eq_true hconfined
  obtain ⟨v, t, hthrows, htext⟩ := exists_of_methodText? (beq_iff_eq.mp htext)
  obtain ⟨hexecute, hanswer⟩ := ((exceptions_reported h 100 "main" none).2.2.1 v t hthrows).2 _ htext
  refine ⟨program, hprogram, h, by rw [hexecute], ?_⟩
  obtain ⟨tree, hparse, htree⟩ := Option.bind_eq_some_iff.mp hprogram
  exact hanswer _ _ (inputRequest (eq_ok_of_toOption hparse) (eq_ok_of_toOption htree))

def dividingField : Program.Sample fun program =>
    decide program.Confined &&
      (execute ⟨program, 100⟩ "main" none).signal.any Signal.isThrown where
  text := "class A { static int x = 1 / 0; static void main() { } }"
  passes := by decide +kernel

theorem exception_of_static_field : ∃ program,
    Program.ofText? "class A { static int x = 1 / 0; static void main() { } }" = some program ∧
      program.Confined ∧ ∃ v, (execute ⟨program, 100⟩ "main" none).signal = some (.thrown v) := by
  obtain ⟨program, hprogram, hrun⟩ := dividingField.exists_program
  obtain ⟨hconfined, hthrown⟩ := Bool.and_eq_true_iff.mp hrun
  obtain ⟨e, he, hthrown⟩ := (Option.any_eq_true _ _).mp hthrown
  cases e with
  | thrown v => exact ⟨program, hprogram, of_decide_eq_true hconfined, v, he⟩
  | _ => cases hthrown

end Setup

end LoopLowering.Machine
