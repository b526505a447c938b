import LoopLowering.Proofs.Machine.Contract
import LoopLowering.Proofs.Tree.Path

/-! Jumps and returns go where the program text says. A statement is left by a jump only if it holds
one whose target lies outside of it, and in a program whose routines hold none no call is. -/

namespace LoopLowering

/-- A way to leave a statement other than at its end or by a failure. -/
inductive Exit where
  | breakTo (label : Option String)
  | continueTo (label : Option String)
  | returned
  deriving DecidableEq, Repr

def Exit.stopsAt (labels : List String) : Exit → Bool
  | .breakTo none | .continueTo none => true
  | .continueTo (some l) => labels.contains l
  | _ => false

namespace Node

/-- The jumps and returns that leave a statement under labels. The routines of a class declared
inside are not parts of the statement. -/
def exits : Node → (labels : List String) → List Exit :=
  fold fun _ s labels =>
    match s with
    | .breakStmt l => [.breakTo l]
    | .continueStmt l => [.continueTo l]
    | .returnStmt _ => [.returned]
    | .labeled l body => (body (labels ++ [l])).filter (· ≠ .breakTo (some l))
    | .whileLoop _ body | .doWhile body _ | .forLoop _ _ _ body | .forEach _ _ body =>
      (body []).filter fun x => !x.stopsAt labels
    | .block ss => ss.flatMap (· [])
    | .ifElse _ thenStmt elseStmt => (thenStmt :: elseStmt.toList).flatMap (· [])
    | .tryStmt body catches last => (body :: (catches ++ last.toList)).flatMap (· [])
    | .catchClause _ _ _ body => body []
    | _ => []

section

variable (t : Tag) (labels : List String)

lemma exits_breakStmt (l : Option String) :
    exits (mk t (.breakStmt l)) labels = [.breakTo l] := rfl

lemma exits_continueStmt (l : Option String) :
    exits (mk t (.continueStmt l)) labels = [.continueTo l] := rfl

lemma exits_returnStmt (e : Option Node) : exits (mk t (.returnStmt e)) labels = [.returned] := rfl

lemma exits_labeled (l : String) (body : Node) :
    exits (mk t (.labeled l body)) labels =
      (exits body (labels ++ [l])).filter (· ≠ .breakTo (some l)) := rfl

lemma exits_whileLoop (cond body : Node) :
    exits (mk t (.whileLoop cond body)) labels =
      (exits body []).filter fun x => !x.stopsAt labels := rfl

lemma exits_doWhile (body cond : Node) :
    exits (mk t (.doWhile body cond)) labels =
      (exits body []).filter fun x => !x.stopsAt labels := rfl

lemma exits_forLoop (init : List Node) (cond : Option Node) (update : List Node) (body : Node) :
    exits (mk t (.forLoop init cond update body)) labels =
      (exits body []).filter fun x => !x.stopsAt labels := rfl

lemma exits_block (ss : List Node) :
    exits (mk t (.block ss)) labels = ss.flatMap (exits · []) := by
  rw [exits, fold_mk]
  simp [Shape.map, Shape.mapAt, mapIdx_const, List.flatMap_map]

lemma exits_ifElse (cond thenStmt : Node) (elseStmt : Option Node) :
    exits (mk t (.ifElse cond thenStmt elseStmt)) labels =
      (thenStmt :: elseStmt.toList).flatMap (exits · []) := by
  cases elseStmt <;> rfl

lemma exits_tryStmt (body : Node) (catches : List Node) (last : Option Node) :
    exits (mk t (.tryStmt body catches last)) labels =
      (body :: (catches ++ last.toList)).flatMap (exits · []) := by
  rw [exits, fold_mk]
  cases last <;> simp [Shape.map, Shape.mapAt, mapIdx_const, List.flatMap_map]

end

end Node

namespace Machine

variable {α : Type}

def Signal.exit? : Signal → Option Exit
  | .breakTo l => some (.breakTo l)
  | .continueTo l => some (.continueTo l)
  | .returned _ => some .returned
  | _ => none

lemma Signal.exit?_of_not_isJump {e : Signal} (h : e.isJump = false) : e.exit? = none := by
  cases e <;> first | rfl | cases h

def within (xs : List Exit) : Contract where
  Allows _ o _ := ∀ e ∈ o, ∀ x ∈ e.exit?, x ∈ xs
  refl _ := by simp
  trans _ h := h

section

variable {xs ys : List Exit}

lemma Contract.Meets.mono {c : Exec α} (hc : (within xs).Meets c) (h : xs ⊆ ys) :
    (within ys).Meets c :=
  ⟨fun st e he x hx => h (hc.allows st e he x hx)⟩

instance : (within xs).Blind where
  store _ _ o h e he x hx := by simp [Signal.exit?_of_not_isJump (h e he)] at hx
  count _ _ := by simp [within]
  rebind _ _ _ _ _ _ := by simp [within]

lemma within_of_quiet {c : Exec α} (h : ∀ st, ∀ e ∈ ending (c st), e.exit? = none) :
    (within xs).Meets c :=
  ⟨fun st e he x hx => by simp [h st e he] at hx⟩

lemma exit?_eq_none_of_within {c : Exec α} (hc : (within []).Meets c) {st st' : State} {e : Signal}
    (h : c st = .error e st') : e.exit? = none := by
  have hallows := hc.allows st
  rw [h] at hallows
  exact Option.eq_none_iff_forall_not_mem.mpr fun x hx => List.not_mem_nil (hallows e rfl x hx)

lemma within_throw {e : Signal} (h : ∀ x ∈ e.exit?, x ∈ xs) :
    (within xs).Meets (throw e : Exec α) :=
  ⟨fun _ _ he x hx => by
    obtain rfl := Option.some.inj he
    exact h x hx⟩

instance instWithinDeclare (name : String) (v : Value) (type : Option TypeInfo) :
    (within xs).Meets (declare name v type) :=
  within_of_quiet fun st e he => by
    unfold declare at he
    split at he <;> simp at he
    simp [← he, Signal.exit?]

instance instWithinPopScope : (within xs).Meets popScope :=
  within_of_quiet fun st e he => by
    unfold popScope at he
    split at he <;> simp at he
    simp [← he, Signal.exit?]

instance instWithinSetFrame (f : Frame) : (within xs).Meets (setFrame f) :=
  within_of_quiet fun _ _ he => by cases he

instance instWithinPushScope (bs : Bindings) : (within xs).Meets (pushScope bs) :=
  within_of_quiet fun _ _ he => by cases he

instance instWithinNote (i : Incident) : (within xs).Meets (note i) :=
  within_of_quiet fun _ _ he => by cases he

lemma within_onEnd {β : Type} {c : Exec α} {f : α → Exec β} {g : Signal → Exec β}
    (hc : (within xs).Meets c) (hf : ∀ a, (within ys).Meets (f a))
    (hg : ∀ e, (∀ x ∈ e.exit?, x ∈ xs) → (within ys).Meets (g e)) :
    (within ys).Meets (onEnd c f g) :=
  hc.onEnd (fun _ a t _ => (hf a).allows t) fun _ e t h => (hg e (h e rfl)).allows t

instance instWithinEnsuring (body : Exec α) (last : Exec Unit) [hbody : (within xs).Meets body]
    [(within xs).Meets last] : (within xs).Meets (ensuring body last) := by
  rw [ensuring_eq]
  refine within_onEnd hbody (fun _ => inferInstance) fun e he => ?_
  have hthrow : (within xs).Meets (throw e : Exec α) := within_throw he
  unfold lastly
  split <;> infer_instance

instance instWithinInScope (bs : Bindings) (body : Exec α) [(within xs).Meets body] :
    (within xs).Meets (inScope bs body) :=
  inferInstanceAs ((within xs).Meets (pushScope bs >>= fun _ => ensuring body popScope))

instance instWithinNoting (i : Incident) (c : Exec α) [hc : (within xs).Meets c] :
    (within xs).Meets (noting i c) := by
  rw [noting_eq]
  refine within_onEnd hc (fun _ => inferInstance) fun e he => ?_
  have hthrow : (within xs).Meets (throw e : Exec α) := within_throw he
  infer_instance

instance instWithinBindParameters (ps : List Node) (args : List Value) :
    (within xs).Meets (bindParameters ps args) := by
  induction ps generalizing args with
  | nil => exact Contract.instPure _
  | cons p ps ih =>
    unfold bindParameters
    split
    · refine @Contract.instIte _ _ _ _ _ _ inferInstance ?_
      split <;> infer_instance
    · infer_instance

lemma within_catchReturn {body : Exec Unit} (hbody : (within xs).Meets body)
    (h : ∀ x ∈ xs, x = .returned) : (within []).Meets (catchReturn body) := by
  rw [catchReturn_eq]
  refine within_onEnd hbody (fun _ => inferInstance) fun e he => ?_
  cases e with
  | returned v => exact Contract.instPure v
  | breakTo l => cases h _ (he _ rfl)
  | continueTo l => cases h _ (he _ rfl)
  | _ => exact within_throw (by simp [Signal.exit?])

end

/-- A member of a class whose code holds no jump out of it, and no return out of an
initializer. -/
def confined (m : Node) : Bool :=
  match m.shape with
  | .methodDecl _ _ _ _ _ _ body => body.toList.all fun b => (b.exits []).all (· = .returned)
  | .constructorDecl _ _ _ _ body => (body.exits []).all (· = .returned)
  | .initBlock _ body => (body.exits []).isEmpty
  | _ => true

/-- All jumps of a program have their targets in their own routine or initializer. -/
def Program.Confined (p : Program) : Prop := ∀ c ∈ p.classes, ∀ m ∈ c.members, confined m = true

instance (p : Program) : Decidable p.Confined :=
  inferInstanceAs (Decidable (∀ c ∈ p.classes, ∀ m ∈ c.members, confined m = true))

lemma Program.Confined.exits_of_routine {p : Program} (hp : p.Confined) {r : Routine}
    (hr : r ∈ p.routines) {b : Node} (hb : r.body = some b) : ∀ x ∈ b.exits [], x = .returned := by
  obtain ⟨c, hc, hr⟩ := List.mem_flatMap.mp hr
  rcases List.mem_append.mp hr with hr | hr
  · obtain ⟨m, hm, hr⟩ := List.mem_filterMap.mp hr
    have hconfined := hp c hc m hm
    unfold method? at hr
    split at hr
    · rename_i body hshape
      cases hr
      have hbodies : ∀ b, body = some b → ∀ x ∈ b.exits [], x = .returned := by
        simpa [confined, hshape] using hconfined
      exact hbodies b hb
    · cases hr
  · obtain ⟨m, hm, hr⟩ := List.mem_filterMap.mp hr
    have hconfined := hp c hc m hm
    unfold constructor? at hr
    split at hr
    · rename_i hshape
      cases hr
      cases hb
      simpa [confined, hshape] using hconfined
    · cases hr

class Evaluator.Confines (ev : Evaluator) : Prop where
  program : ev.program.Confined
  eval_within (e : Node) : (within []).Meets (ev.eval e)
  exec_within (labels : List String) (s : Node) : (within (s.exits labels)).Meets (ev.exec labels s)

namespace Evaluator

open Contract

variable (ev : Evaluator) [hev : ev.Confines] {xs : List Exit}

instance (e : Node) : (within xs).Meets (ev.eval e) :=
  (Confines.eval_within e).mono (List.nil_subset _)

lemma exec_within_of {labels : List String} {s : Node} (h : s.exits labels ⊆ xs) :
    (within xs).Meets (ev.exec labels s) :=
  (Confines.exec_within labels s).mono h

lemma invoke_within (className : String) {r : Routine} (this : Option Nat) (args : List Value)
    (hr : r ∈ ev.program.routines) : (within []).Meets (ev.invoke className r this args) := by
  have hbody : (within []).Meets (catchReturn (ev.execBody r.body)) := by
    cases hb : r.body with
    | none => exact within_catchReturn (instPure (K := within []) _) (by simp)
    | some b =>
      exact within_catchReturn (Confines.exec_within [] b) (hev.program.exits_of_routine hr hb)
  unfold invoke
  infer_instance

lemma initMembers_within (static : Bool) (put : String → Value → Origin → StoreM Unit)
    [∀ name v origin, Tame (put name v origin)] {ms : List Node} (h : ∀ m ∈ ms, confined m = true) :
    (within []).Meets (ev.initMembers static put ms) := by
  induction ms with
  | nil => exact instPure _
  | cons m ms ih =>
    obtain ⟨hm, hms⟩ := List.forall_mem_cons.mp h
    have hrest := ih hms
    unfold initMembers
    dsimp only
    split
    · infer_instance
    · rename_i body hshape
      have hbody : body.exits [] = [] := by simpa [confined, hshape] using hm
      have hexec : (within []).Meets (ev.exec [] body) := hbody ▸ Confines.exec_within [] body
      infer_instance
    · infer_instance

lemma construct_within {c : ClassInfo} (hc : c ∈ ev.program.classes) (index : Nat)
    (args : List Value) : (within []).Meets (ev.construct c index args) := by
  unfold construct
  split
  · rename_i r hr
    have := ev.invoke_within c.name (some index) args (Program.mem_routines_of_constructor hc hr)
    infer_instance
  · infer_instance

lemma inFrame_within (f : Frame) (body : Exec Unit) [(within xs).Meets body] :
    (within xs).Meets (inFrame f body) := by
  unfold inFrame
  infer_instance

lemma instantiate_within {c : ClassInfo} (hc : c ∈ ev.program.classes) (args : List Value) :
    (within []).Meets (ev.instantiate c args) := by
  have hconstruct := fun index => ev.construct_within hc index args
  have hmembers : ∀ f index, (within []).Meets
      (inFrame f (ev.initMembers false (setField index) c.members)) := by
    intro f index
    have := ev.initMembers_within false (setField index) (hev.program c hc)
    exact inFrame_within f _
  unfold instantiate
  infer_instance

instance : (within xs).Serves ev where
  eval := inferInstance
  assign _ _ _ := inferInstance
  step _ _ _ := inferInstance
  invoke c _ this args hr := (ev.invoke_within c this args hr).mono (List.nil_subset _)
  instantiate args hc := (ev.instantiate_within hc args).mono (List.nil_subset _)

instance (type : Node) (ds : List Node) : (within xs).Meets (ev.execLocalVar type ds) := by
  induction ds with
  | nil => exact instPure _
  | cons d ds ih =>
    unfold execLocalVar
    split <;> infer_instance

lemma execAll_within {ss : List Node} (h : ss.flatMap (Node.exits · []) ⊆ xs) :
    (within xs).Meets (ev.execAll ss) := by
  induction ss with
  | nil => exact instPure _
  | cons s ss ih =>
    rw [List.flatMap_cons, List.append_subset] at h
    have hs := ev.exec_within_of h.1
    have hss := ih h.2
    unfold execAll
    infer_instance

lemma execBody_within {b : Option Node} (h : b.toList.flatMap (Node.exits · []) ⊆ xs) :
    (within xs).Meets (ev.execBody b) := by
  cases b with
  | none => exact instPure _
  | some b => exact ev.exec_within_of (by simpa using h)

lemma runBody_within (labels : List String) (body : Node) :
    (within ((body.exits []).filter fun x => !x.stopsAt labels)).Meets
      (ev.runBody labels body) := by
  rw [runBody_eq]
  refine within_onEnd (Confines.exec_within [] body) (fun _ => inferInstance) fun e he => ?_
  have hkeep : ∀ x ∈ e.exit?, x.stopsAt labels = false →
      x ∈ (body.exits []).filter fun x => !x.stopsAt labels :=
    fun x hx hstop => List.mem_filter.mpr ⟨he x hx, by simp [hstop]⟩
  unfold bodyEnd
  split
  · infer_instance
  · infer_instance
  · rename_i l
    split
    · infer_instance
    · rename_i hl
      exact within_throw fun x hx => hkeep x hx (by cases hx; simpa [Exit.stopsAt] using hl)
  · rename_i hbreak hcontinue hlabel
    refine within_throw fun x hx => hkeep x hx ?_
    cases e with
    | breakTo l =>
      cases l with
      | none => exact absurd rfl hbreak
      | some l =>
        cases hx
        rfl
    | continueTo l =>
      cases l with
      | none => exact absurd rfl hcontinue
      | some l => exact absurd rfl (hlabel l)
    | returned v =>
      cases hx
      rfl
    | _ => cases hx

lemma execLabeled_within (labels : List String) (label : String) (body : Node) :
    (within ((body.exits (labels ++ [label])).filter (· ≠ .breakTo (some label)))).Meets
      (ev.execLabeled labels label body) := by
  rw [execLabeled_eq]
  refine within_onEnd (Confines.exec_within _ body) (fun _ => inferInstance) fun e he => ?_
  have hkeep : ∀ x ∈ e.exit?, x ≠ .breakTo (some label) →
      x ∈ (body.exits (labels ++ [label])).filter (· ≠ .breakTo (some label)) :=
    fun x hx hne => List.mem_filter.mpr ⟨he x hx, by simpa using hne⟩
  cases e with
  | breakTo l =>
    show (within _).Meets (if l = some label then return else throw (.breakTo l))
    split
    · infer_instance
    · rename_i hl
      exact within_throw fun x hx => hkeep x hx (by cases hx; simpa using hl)
  | continueTo l => exact within_throw fun x hx => hkeep x hx (by cases hx; nofun)
  | returned v => exact within_throw fun x hx => hkeep x hx (by cases hx; nofun)
  | _ => exact within_throw (by simp [Signal.exit?])

lemma handle_within (v : Value) {handlers : List Node}
    (h : handlers.flatMap (Node.exits · []) ⊆ xs) : (within xs).Meets (ev.handle v handlers) := by
  induction handlers with
  | nil => exact within_throw (by simp [Signal.exit?])
  | cons c cs ih =>
    rw [List.flatMap_cons, List.append_subset] at h
    have hrest := ih h.2
    unfold handle
    split
    · rename_i mods name types body hshape
      have hbody : (within xs).Meets (ev.exec [] body) := by
        refine ev.exec_within_of ?_
        obtain ⟨t, s⟩ := c
        obtain rfl : s = .catchClause mods name types body := hshape
        exact h.1
      infer_instance
    · infer_instance

lemma execTry_within {body : Node} {handlers : List Node} {last : Option Node}
    (h : (body :: (handlers ++ last.toList)).flatMap (Node.exits · []) ⊆ xs) :
    (within xs).Meets (ev.execTry body handlers last) := by
  simp only [List.flatMap_cons, List.flatMap_append, List.append_subset] at h
  have hguarded : (within xs).Meets (ev.execGuarded body handlers) := by
    rw [execGuarded_eq]
    refine within_onEnd (ev.exec_within_of h.1) (fun _ => inferInstance) fun e he => ?_
    unfold guardEnd
    split
    · exact ev.handle_within _ h.2.1
    · exact within_throw he
  have hlast := ev.execBody_within h.2.2
  unfold execTry
  infer_instance

lemma execInit_within (es : List Node) : (within xs).Meets (ev.execInit es) := by
  induction es with
  | nil => exact instPure _
  | cons e es ih =>
    unfold execInit
    split
    · rename_i hlocal
      have hexec : (within xs).Meets (ev.exec [] e) := by
        refine ev.exec_within_of ?_
        obtain ⟨t, s⟩ := e
        cases s <;> first | exact List.nil_subset _ | cases hlocal
      infer_instance
    · infer_instance

lemma round_within (labels : List String) (body : Node) :
    (within ((body.exits []).filter fun x => !x.stopsAt labels)).Meets (ev.round labels body) := by
  have := ev.runBody_within labels body
  unfold round
  infer_instance

lemma execForEach_within (labels : List String) (var iterable body : Node) :
    (within ((body.exits []).filter fun x => !x.stopsAt labels)).Meets
      (ev.execForEach labels var iterable body) := by
  have hbody := ev.runBody_within labels body
  have hround : ∀ type name v i, (within ((body.exits []).filter fun x => !x.stopsAt labels)).Meets
      (ev.forEachRound labels type name v body i) := by
    intro type name v i
    refine @instBind _ _ _ _ _ inferInstance fun items => ?_
    split <;> infer_instance
  have hloop : ∀ v, (within ((body.exits []).filter fun x => !x.stopsAt labels)).Meets (do
      let q ← loopVariable var
      ev.rounds (ev.forEachRound labels q.1 q.2 v body)) := inferInstance
  unfold execForEach noteForeign
  dsimp only
  split <;> infer_instance

lemma statement_within (labels : List String) (s : Node) :
    (within (s.exits labels)).Meets (ev.statement labels s) := by
  obtain ⟨t, s⟩ := s
  unfold statement
  dsimp only [Node.shape]
  cases s with
  | block ss =>
    rw [Node.exits_block]
    have := ev.execAll_within (List.Subset.refl (ss.flatMap (Node.exits · [])))
    exact inferInstanceAs ((within _).Meets (inScope [] (ev.execAll ss)))
  | ifElse cond thenStmt elseStmt =>
    rw [Node.exits_ifElse]
    have hthen : (within ((thenStmt :: elseStmt.toList).flatMap (Node.exits · []))).Meets
        (ev.exec [] thenStmt) := ev.exec_within_of (by simp)
    have helse : (within ((thenStmt :: elseStmt.toList).flatMap (Node.exits · []))).Meets
        (ev.execBody elseStmt) := ev.execBody_within (by simp)
    dsimp only [execIf]
    infer_instance
  | whileLoop cond body =>
    have hround := ev.round_within labels body
    rw [Node.exits_whileLoop]
    dsimp only [execWhile, whileRound]
    infer_instance
  | doWhile body cond =>
    have hround := ev.round_within labels body
    rw [Node.exits_doWhile]
    dsimp only [execDoWhile, doWhileRound]
    infer_instance
  | forLoop init cond update body =>
    have hround := ev.round_within labels body
    rw [Node.exits_forLoop]
    have hinit : (within ((body.exits []).filter fun x => !x.stopsAt labels)).Meets
        (ev.execInit init) := ev.execInit_within init
    have hfor : (within ((body.exits []).filter fun x => !x.stopsAt labels)).Meets
        (ev.forRound labels cond update body) := by
      unfold forRound
      infer_instance
    dsimp only [execFor]
    infer_instance
  | forEach var iterable body => exact ev.execForEach_within labels var iterable body
  | tryStmt body handlers last =>
    rw [Node.exits_tryStmt]
    exact ev.execTry_within (List.Subset.refl _)
  | labeled label body => exact ev.execLabeled_within labels label body
  | returnStmt e =>
    have hthrow : ∀ v, (within (Node.exits (.mk t (.returnStmt e)) labels)).Meets
        (throw (.returned v) : Exec Unit) :=
      fun v => within_throw (by simp [Signal.exit?, Node.exits_returnStmt])
    dsimp only [execReturn]
    split <;> infer_instance
  | breakStmt l => exact within_throw (by simp [Signal.exit?, Node.exits_breakStmt])
  | continueStmt l => exact within_throw (by simp [Signal.exit?, Node.exits_continueStmt])
  | _ => infer_instance

lemma countedStatement_within (labels : List String) (s : Node) :
    (within (s.exits labels)).Meets (ev.countedStatement labels s) := by
  have hstatement := ev.statement_within labels s
  unfold countedStatement
  infer_instance

end Evaluator

lemma confines_evaluatorAt {program : Program} (h : program.Confined) (limit : Int) (depth : Nat) :
    (evaluatorAt program limit depth).Confines := by
  induction depth with
  | zero =>
    exact { program := h
            eval_within := fun _ => Contract.instExhausted
            exec_within := fun _ _ => Contract.instExhausted }
  | succ n ih =>
    exact { program := h
            eval_within := Evaluator.meets_expression (within []) (evaluatorAt program limit n)
            exec_within := (evaluatorAt program limit n).countedStatement_within }

namespace Evaluator

open Contract

variable (ev : Evaluator) [hev : ev.Confines]

lemma initClasses_within {cs : List ClassInfo} (h : ∀ c ∈ cs, ∀ m ∈ c.members, confined m = true) :
    (within []).Meets (ev.initClasses cs) := by
  induction cs with
  | nil => exact instPure _
  | cons c cs ih =>
    obtain ⟨hc, hcs⟩ := List.forall_mem_cons.mp h
    have hrest := ih hcs
    have hmembers := ev.initMembers_within true (setStatic c.name) hc
    have hstatics : (within []).Meets (ev.initStatics c) := inFrame_within _ _
    unfold initClasses
    infer_instance

instance (body : Exec Value) [hbody : (within []).Meets body] :
    (within []).Meets (reportUncaught body) := by
  rw [reportUncaught_eq]
  refine within_onEnd hbody (fun _ => inferInstance) fun e he => ?_
  unfold uncaughtEnd
  split
  · infer_instance
  · exact within_throw he

omit hev in
lemma mem_classes_of_entryClass {method : String} {className : Option String} {c : ClassInfo}
    (h : ev.entryClass method className = some c) : c ∈ ev.program.classes := by
  cases className with
  | none => exact List.mem_of_find?_eq_some h
  | some name => exact Program.mem_classes_of_class? h

def runMethod (c : ClassInfo) (r : Routine) (args : Option (List Value)) : Exec Unit := do
  let args ← entryArguments r args
  let this ← if r.isStatic then pure none else do pure (some (← ev.instantiate c []))
  reportUncaught (ev.invoke c.name r this args)

def entryPoint (method : String) (className : Option String) : Option (ClassInfo × Routine) :=
  (ev.entryClass method className).bind fun c => (c.firstMethod? method).map (c, ·)

omit hev in
lemma entry_eq (method : String) (className : Option String) : ev.entry method className =
    match ev.entryPoint method className with
    | some x => pure x
    | none => liftM (fail (.methodNotFound method)) := by
  unfold entry entryPoint
  cases ev.entryClass method className with
  | none => rfl
  | some c =>
    simp only [Option.bind_some]
    cases c.firstMethod? method <;> rfl

omit hev in
lemma run_eq (method : String) (className : Option String) (args : Option (List Value)) :
    ev.run method className args =
      match ev.entryPoint method className with
      | some (c, r) => ev.runMethod c r args
      | none => liftM (fail (.methodNotFound method)) := by
  unfold run
  rw [entry_eq]
  cases ev.entryPoint method className <;> rfl

lemma run_within (method : String) (className : Option String) (args : Option (List Value)) :
    (within []).Meets (ev.run method className args) := by
  rw [run_eq]
  split
  · rename_i c r hentry
    obtain ⟨c, hc, hentry⟩ := Option.bind_eq_some_iff.mp hentry
    obtain ⟨r, hr, hentry⟩ := Option.map_eq_some_iff.mp hentry
    obtain ⟨rfl, rfl⟩ := Prod.mk.inj hentry
    have hclass := ev.mem_classes_of_entryClass hc
    have hroutine : r ∈ ev.program.routines := List.mem_flatMap.mpr
      ⟨c, hclass, List.mem_append_left _ (List.mem_of_find?_eq_some hr)⟩
    have hinvoke := fun this args => ev.invoke_within c.name this args hroutine
    have hinstantiate := ev.instantiate_within hclass []
    unfold runMethod
    infer_instance
  · infer_instance

end Evaluator

/-- In a program whose jumps have their targets in their own routines, a statement is left only by
a jump or return that it holds and whose target is not inside it, and calls, creations of objects
and whole runs are never left so. -/
theorem exits_confined {program : Program} (h : program.Confined) (limit : Int) (depth : Nat) :
    (∀ labels s st e st', (evaluatorAt program limit depth).exec labels s st = .error e st' →
      ∀ x ∈ e.exit?, x ∈ s.exits labels) ∧
    (∀ className r this args, r ∈ program.routines → ∀ st e st',
      (evaluatorAt program limit depth).invoke className r this args st = .error e st' →
        e.exit? = none) ∧
    (∀ c args, c ∈ program.classes → ∀ st e st',
      (evaluatorAt program limit depth).instantiate c args st = .error e st' → e.exit? = none) ∧
    ∀ method className args st e st',
      (evaluatorAt program limit depth).run method className args st = .error e st' →
        e.exit? = none := by
  have hev := confines_evaluatorAt h limit depth
  refine ⟨fun labels s st e st' he x hx => ?_,
    fun className r this args hr _ _ _ => exit?_eq_none_of_within ?_,
    fun c args hc _ _ _ => exit?_eq_none_of_within ?_,
    fun method className args _ _ _ => exit?_eq_none_of_within ?_⟩
  · have hallows := (hev.exec_within labels s).allows st
    rw [he] at hallows
    exact hallows e rfl x hx
  · exact Evaluator.invoke_within _ _ _ _ (by rwa [evaluatorAt_program])
  · exact Evaluator.instantiate_within _ (by rwa [evaluatorAt_program]) _
  · exact Evaluator.run_within _ _ _ _

def overriddenJump : Program.Sample fun program => decide program.Confined where
  text := "class A { int f() { a: for (;;) for (;;) try { continue a; } finally { break; } } }"
  passes := by decide +kernel

theorem exits_confined_labelled : ∃ program,
    Program.ofText?
        "class A { int f() { a: for (;;) for (;;) try { continue a; } finally { break; } } }" =
          some program ∧ program.Confined ∧
      ∀ method className args st e st',
        (evaluatorAt program 100 50).run method className args st = .error e st' →
          e.exit? = none := by
  obtain ⟨program, hprogram, hconfined⟩ := overriddenJump.exists_program
  have h := of_decide_eq_true hconfined
  exact ⟨program, hprogram, h, (exits_confined h 100 50).2.2.2⟩

end Machine

end LoopLowering
