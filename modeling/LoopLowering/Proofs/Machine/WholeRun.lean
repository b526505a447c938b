import LoopLowering.Proofs.Machine.Limit
import LoopLowering.Proofs.Machine.Lockstep

/-! Whole runs of two programs whose bodies are lowered forms of each other: from the static fields
to the end of a method. -/

namespace LoopLowering.Machine

open Evaluator

variable {S : Setting} {w : World} {links : List Link} {ev ev' : Evaluator} [ev.Steady]
  [ev'.Steady]

def Over (S : Setting) : Unit → State → Unit → State → Prop := fun _ t _ t' =>
  ∃ w links k, Related S w links k t t'

def Ended (S : Setting) : Signal → State → Signal → State → Prop := fun e t e' t' =>
  ∃ w links k, Related S w links k t t' ∧ Signal.Rel S.leaves w e e'

namespace Matches

lemma initStatics (hm : Matches S ev ev') {c c' : ClassInfo} (hc : ClassLowers S c c') {k : Credit}
    {s s' : State} (hs : Related S w links k s s') :
    Meets S (Returns S w links k Done) (Ended S) (ev.initStatics c s) (ev'.initStatics c' s') := by
  have hbody : Sim S w fresh S.leaves Done (ev.initMembers true (setStatic c.name) c.members)
      (ev'.initMembers true (setStatic c.name) c'.members) :=
    hm.initMembers true (fun _ name _ _ origin hv => agree_setStatic c.name name hv origin origin)
      hc.members w
  have hframe := hs.frame
  unfold Evaluator.initStatics
  rw [hc.name]
  show Meets S _ _
    ((do ev.initMembers true (setStatic c.name) c.members; setFrame s.frame : Exec Unit)
      { s with frame := { className := c.name } })
    ((do ev'.initMembers true (setStatic c.name) c'.members; setFrame s'.frame : Exec Unit)
      { s' with frame := { className := c.name } })
  rw [bind_eq_onEnd, bind_eq_onEnd]
  refine (hbody k _ _ (hs.withFrame ⟨rfl, rfl, aligned_fresh⟩)).onEnd ?_ ?_ inferInstance
    inferInstance inferInstance inferInstance (passes_of_eq rfl) (passes_of_eq rfl)
  · rintro _ t _ t' ⟨w₁, hw, ht, -⟩
    exact .ok ⟨w₁, hw, ht.withFrame (hframe.mono hw), trivial⟩
  · rintro e t e' t' ⟨w₁, -, ht, he⟩
    exact .error ⟨w₁, fresh, k, ht, he⟩

lemma initClasses (hm : Matches S ev ev') {cs cs' : List ClassInfo}
    (h : List.Forall₂ (ClassLowers S) cs cs') {k : Credit} {s s' : State}
    (hs : Related S w links k s s') :
    Meets S (Returns S w links k Done) (Ended S)
      (ev.initClasses cs s) (ev'.initClasses cs' s') := by
  induction h generalizing w s s' with
  | nil => exact .ok ⟨w, le_rfl, hs, trivial⟩
  | cons hc _ ih =>
    rw [Evaluator.initClasses, Evaluator.initClasses, bind_eq_onEnd, bind_eq_onEnd]
    refine (hm.initStatics hc hs).onEnd ?_ (fun _ _ _ _ h => .error h) inferInstance
      inferInstance inferInstance inferInstance (passes_of_eq rfl) (passes_of_eq rfl)
    rintro _ t _ t' ⟨w₁, hw, ht, -⟩
    refine (ih ht).imp ?_ fun _ _ _ _ h => h
    rintro _ _ _ _ ⟨w₂, hw₂, h⟩
    exact ⟨w₂, hw.trans hw₂, h⟩

omit [ev.Steady] [ev'.Steady] in
lemma entry (hm : Matches S ev ev') (method : String) (className : Option String) :
    Sim S w links S.leaves (fun _ p p' => ClassLowers S p.1 p'.1 ∧ RoutineLowers S p.2 p'.2)
      (ev.entry method className) (ev'.entry method className) := by
  have hclass : Option.Rel (ClassLowers S) (ev.entryClass method className)
      (ev'.entryClass method className) := by
    cases className with
    | some c => exact class?_lowers hm.program c
    | none =>
      exact forall₂_find? hm.program fun c c' hc => option_isSome (hc.firstMethod? method)
  unfold Evaluator.entry
  obtain ⟨hn, hn'⟩ | ⟨c, c', hc, hc', h⟩ := option_cases hclass
  · rw [hn, hn']
    exact .lift (.fail _)
  · rw [hc, hc']
    dsimp only
    obtain ⟨hn, hn'⟩ | ⟨r, r', hr, hr', hroutine⟩ := option_cases (h.firstMethod? method)
    · rw [hn, hn']
      exact .lift (.fail _)
    · rw [hr, hr']
      exact .pure ⟨h, hroutine⟩

lemma reportUncaught {c : Exec Value} {c' : Exec Value}
    (h : Sim S w links S.leaves Value.Rel c c') :
    Sim S w links S.leaves Done (reportUncaught c) (Evaluator.reportUncaught c') := by
  rw [reportUncaught_eq, reportUncaught_eq]
  refine h.onEnd (fun w₁ _ _ _ _ => .pure trivial) (fun w₁ e e' _ he => ?_) rfl rfl
  cases he with
  | breakTo h => exact .throw (.breakTo h)
  | continueTo h => exact .throw (.continueTo h)
  | turned h => exact absurd h (S.leaves_turns _ _)
  | returned h => exact .throw (.returned h)
  | failure h =>
    cases h with
    | failed e => exact .throw (.failure (.failed e))
    | fault f => exact .throw (.failure (.fault f))
    | thrown hv =>
      refine (Paid.lift (Q := fun _ => Eq) (agree_shown hv)).bind fun w₂ text text' _ htext => ?_
      subst htext
      exact .lift (.fail _)

lemma run (hm : Matches S ev ev') (method : String) (className : Option String) (w : World) :
    Sim S w links S.leaves Done (ev.run method className none) (ev'.run method className none) := by
  unfold Evaluator.run
  refine (hm.entry method className).bind fun w₁ p p' _ h => ?_
  obtain ⟨c, r⟩ := p
  obtain ⟨c', r'⟩ := p'
  obtain ⟨hc, hr⟩ := h
  dsimp only at hc hr ⊢
  have hargs : Agree w₁ (Values w₁) (entryArguments r none) (entryArguments r' none) := by
    show Agree w₁ (Values w₁) (times (alloc (.array #[])) r.params.length)
      (times (alloc (.array #[])) r'.params.length)
    rw [hr.params]
    exact agree_times (agree_alloc (.array .nil)) _
  have hcall : ∀ (this : Option Nat) {w : World} {args args' : List Value}, Values w args args' →
      Sim S w links S.leaves Done (Evaluator.reportUncaught (ev.invoke c.name r this args))
        (Evaluator.reportUncaught (ev'.invoke c'.name r' this args')) := by
    intro this w args args' hargs
    rw [hc.name]
    exact reportUncaught (hm.invoke c.name hr this hargs)
  refine (Paid.lift hargs).bind fun w₂ args args' _ hargs => ?_
  rw [hr.isStatic]
  split
  · exact hcall none hargs
  · refine (hm.instantiate hc .nil).bind fun w₃ i i' hw hi => ?_
    subst hi
    exact hcall (some i) (hargs.mono hw)

lemma wholeRun (hm : Matches S ev ev') (method : String) (className : Option String) {k : Credit}
    {s s' : State} (hs : Related S w links k s s') :
    Meets S (Over S) (Ended S)
      (ev.wholeRun method className s) (ev'.wholeRun method className s') := by
  unfold Evaluator.wholeRun
  rw [bind_eq_onEnd, bind_eq_onEnd]
  refine (hm.initClasses hm.program hs).onEnd ?_ (fun _ _ _ _ h => .error h) inferInstance
    inferInstance inferInstance inferInstance (passes_of_eq rfl) (passes_of_eq rfl)
  rintro _ t _ t' ⟨w₁, -, ht, -⟩
  refine (hm.run method className w₁ k t t' ht).imp ?_ ?_
  · rintro _ _ _ _ ⟨w₂, -, ht, -⟩
    exact ⟨w₂, links, _, ht⟩
  · rintro _ _ _ _ ⟨w₂, -, ht, he⟩
    exact ⟨w₂, links, _, ht, he⟩

end Matches

/-- Two signals that come to the same: objects that they carry are shown alike. -/
inductive Signal.Alike (h h' : Heap) : Signal → Signal → Prop
  | same (e : Signal) : Alike h h' e e
  | returned {v v' : Value} (hv : display? h' v' = display? h v) :
    Alike h h' (.returned v) (.returned v')
  | thrown {v v' : Value} (hv : display? h' v' = display? h v) : Alike h h' (.thrown v) (.thrown v')

/-- Two runs that print the same and end in the same way. -/
structure Outcome.Alike (u u' : Outcome) : Prop where
  out : u'.state.out = u.state.out
  err : u'.state.err = u.state.err
  signal : Option.Rel (Signal.Alike u.state.heap u'.state.heap) u.signal u'.signal

/-- A run that was not cut short by the bound on its steps, and did not nest without end. -/
structure Outcome.Within (limit : Int) (u : Outcome) : Prop where
  steps : ¬ spent limit u.state
  nesting : u.signal ≠ some .exhausted

def Signal.isExhausted : Signal → Bool
  | .exhausted => true
  | _ => false

def Outcome.staysWithin (limit : Int) (u : Outcome) : Bool :=
  decide (u.state.steps ≤ limit) && !u.signal.any Signal.isExhausted

lemma Outcome.within_of_staysWithin {limit : Int} {u : Outcome} (h : u.staysWithin limit = true) :
    u.Within limit := by
  obtain ⟨hsteps, hsignal⟩ := (Bool.and_eq_true _ _).mp h
  refine ⟨fun hspent => ?_, fun hexhausted => ?_⟩
  · exact (hspent.2.trans_le (of_decide_eq_true hsteps)).false
  · rw [hexhausted] at hsignal
    cases hsignal

lemma Signal.Rel.alike {routes : Routes} (hturns : ∀ l m, ¬ routes.turns l m) {h h' : Heap}
    (hh : Heap.Rel w h h') {e e' : Signal} (he : Signal.Rel routes w e e') :
    Signal.Alike h h' e e' := by
  cases he with
  | breakTo _ => exact .same _
  | continueTo _ => exact .same _
  | turned ht => exact absurd ht (hturns _ _)
  | returned hv => exact .returned (display?_rel hh hv)
  | failure hf =>
    cases hf with
    | thrown hv => exact .thrown (display?_rel hh hv)
    | failed e => exact .same _
    | fault f => exact .same _

lemma related_start (S : Setting) : Related S {} fresh 0 {} {} where
  store := ⟨⟨.nil, rfl, rfl, List.nodup_nil, by simp, by simp, by simp⟩, .nil, rfl, rfl⟩
  frame := ⟨rfl, rfl, aligned_fresh⟩
  upper := Nat.zero_le _
  lower _ := Nat.le_refl 0
  intact := by
    rintro (h | ⟨i, hi, -⟩)
    · exact Nat.lt_irrefl 0 h.1
    · cases hi

structure Outcome.Compares (S : Setting) (u u' : Outcome) : Prop where
  alike : u.Alike u'
  upper : u'.state.steps ≤ S.factor * u.state.steps
  lower : S.tight = true → u.state.steps ≤ u'.state.steps
  intact : ¬ S.Lost u.state
  nesting : u'.signal ≠ some .exhausted

namespace Setup

theorem executeAt_compares {p p' : Program} (hp : ProgramLowers S p p') {d d' : Nat}
    (hdeep : Deep S d d') (method : String) (className : Option String)
    (hfirst : (executeAt ⟨p, S.limit⟩ d method className).signal ≠ some .exhausted)
    (hintact : ¬ S.Lost (executeAt ⟨p, S.limit⟩ d method className).state)
    (hsecond : S.strict = true ∨
      (executeAt ⟨p', S.limit'⟩ d' method className).Within S.limit') :
    Outcome.Compares S (executeAt ⟨p, S.limit⟩ d method className)
      (executeAt ⟨p', S.limit'⟩ d' method className) := by
  have hmeets := (matches_evaluatorAt hp hdeep).wholeRun method className (related_start S)
  unfold executeAt at hfirst hintact hsecond ⊢
  rw [Outcome.of_eq, Outcome.of_eq] at *
  generalize (evaluatorAt p S.limit d).wholeRun method className {} = r at *
  generalize (evaluatorAt p' S.limit' d').wholeRun method className {} = r' at *
  cases hmeets with
  | first h =>
    cases r with
    | ok a t => exact absurd h hintact
    | error e t =>
      rcases h with rfl | h
      · exact absurd rfl hfirst
      · exact absurd h hintact
  | second hs h =>
    rcases hsecond with hstrict | hwithin
    · rw [hs] at hstrict
      cases hstrict
    · cases r' with
      | ok a t => exact absurd h hwithin.steps
      | error e t =>
        rcases h with rfl | h
        · exact absurd rfl hwithin.nesting
        · exact absurd h hwithin.steps
  | ok h =>
    obtain ⟨w, links, k, h⟩ := h
    exact ⟨⟨h.store.out, h.store.err, .none⟩, le_trans le_self_add h.upper,
      fun ht => le_trans le_self_add (h.lower ht), h.intact, by rintro ⟨⟩⟩
  | error h =>
    obtain ⟨w, links, k, h, he⟩ := h
    refine ⟨⟨h.store.out, h.store.err, .some (he.alike S.leaves_turns h.store.heap)⟩,
      le_trans le_self_add h.upper, fun ht => le_trans le_self_add (h.lower ht), h.intact, ?_⟩
    exact fun hex => he.ne_exhausted.2 (Option.some.inj hex)

end Setup

end LoopLowering.Machine
