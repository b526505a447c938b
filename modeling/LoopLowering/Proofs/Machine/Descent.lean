import LoopLowering.Proofs.Loops.Commute
import LoopLowering.Proofs.Machine.Statement

/-! Going down into a statement. An evaluator of bounded depth runs a loop under labels as a number
of steps, the rule for the loop and a handler of the jumps to its labels; at too small a depth it
is stopped. -/

namespace LoopLowering.Machine

open Loops

variable {α β γ : Type}

lemma onEnd_onEnd (c : Exec α) (f : α → Exec β) (g : Signal → Exec β) (f₁ : β → Exec γ)
    (g₁ : Signal → Exec γ) :
    onEnd (onEnd c f g) f₁ g₁ = onEnd c (fun a => onEnd (f a) f₁ g₁) fun e => onEnd (g e) f₁ g₁ := by
  funext st
  unfold onEnd
  cases c st <;> rfl

lemma onEnd_throw (e : Signal) (f : α → Exec β) (g : Signal → Exec β) :
    onEnd (throw e) f g = g e := rfl

lemma onEnd_bind (c : Exec α) (f : α → Exec β) (f₁ : β → Exec γ) (g₁ : Signal → Exec γ) :
    onEnd (c >>= f) f₁ g₁ = onEnd c (fun a => onEnd (f a) f₁ g₁) g₁ := by
  rw [bind_eq_onEnd, onEnd_onEnd]
  rfl

structure Neutral (g : Signal → Exec α) : Prop where
  exhausted : g .exhausted = throw .exhausted
  failed : ∀ e, g (.failed e) = throw (.failed e)
  fault : ∀ f, g (.fault f) = throw (.fault f)
  ends : ∀ e, (∃ a, g e = return a) ∨ g e = throw e

lemma neutral_throw : Neutral (throw : Signal → Exec α) :=
  ⟨rfl, fun _ => rfl, fun _ => rfl, fun _ => .inr rfl⟩

lemma onEnd_ticks (limit : Int) (n : Nat) (c : Exec α) (f : α → Exec β) {g : Signal → Exec β}
    (hg : ∀ e, g (.failed e) = throw (.failed e)) :
    onEnd (do ticks limit n; c) f g = (do ticks limit n; onEnd c f g) := by
  funext st
  rw [onEnd_bind, bind_eq_onEnd]
  unfold onEnd
  obtain ⟨-, heq⟩ | ⟨m, -, -, -, heq⟩ := ticks_cases limit n st
  · rw [heq]
  · rw [heq]
    exact congrFun (hg _) _

lemma onEnd_popScope (f : Unit → Exec β) {g : Signal → Exec β} (hg : Neutral g) :
    onEnd popScope f g = (do popScope; f ()) := by
  funext st
  rw [bind_eq_onEnd]
  unfold onEnd popScope
  cases st.frame.scopes with
  | nil => exact congrFun (hg.fault _) st
  | cons bs ss => rfl

lemma onEnd_inScope (bs : Bindings) (c : Exec α) (f : α → β) {g : Signal → Exec β}
    (hg : Neutral g) : onEnd (inScope bs c) (fun a => return f a) g =
      inScope bs (onEnd c (fun a => return f a) g) := by
  have hinner : onEnd (onEnd c (fun a => do popScope; return a) (lastly popScope))
      (fun a => return f a) g = onEnd (onEnd c (fun a => return f a) g)
        (fun a => do popScope; return a) (lastly popScope) := by
    rw [onEnd_onEnd, onEnd_onEnd]
    congr 1
    · funext a
      rw [onEnd_bind, onEnd_popScope _ hg]
      rfl
    · funext e
      by_cases he : e = .exhausted
      · subst he
        rw [hg.exhausted]
        exact hg.exhausted
      · rw [lastly_eq _ he, onEnd_bind, onEnd_popScope _ hg, onEnd_throw]
        obtain ⟨a, ha⟩ | ha := hg.ends e
        · rw [ha]
          rfl
        · rw [ha, onEnd_throw, lastly_eq _ he]
  unfold inScope
  rw [onEnd_bind, ensuring_eq, ensuring_eq, hinner]
  rfl

lemma ticks_frame (limit : Int) (n : Nat) (st : State) (f : Frame) :
    ticks limit n { st with frame := f } =
      match ticks limit n st with
      | .ok _ t => .ok () { t with frame := f }
      | .error e t => .error e { t with frame := f } := by
  induction n generalizing st with
  | zero => rfl
  | succ n ih =>
    have hstep : ∀ st, ticks limit (n + 1) st =
      EStateM.bind (tick limit) (fun _ => ticks limit n) st := fun _ => rfl
    rw [hstep, hstep, EStateM.bind, EStateM.bind, tick_apply, tick_apply]
    by_cases hlimit : limit < ((st.steps + 1 : Nat) : Int)
    · rw [if_pos hlimit, if_pos hlimit]
      rfl
    · rw [if_neg hlimit, if_neg hlimit]
      exact ih (st.counted 1)

lemma ticks_add (limit : Int) (m n : Nat) :
    (do ticks limit m; ticks limit n) = ticks limit (m + n) := by
  induction m with
  | zero =>
    rw [Nat.zero_add]
    rfl
  | succ m ih =>
    rw [Nat.add_right_comm]
    show (do (do tick limit; ticks limit m); ticks limit n) = (do tick limit; ticks limit (m + n))
    rw [← ih, bind_assoc]

lemma inScope_ticks (bs : Bindings) (limit : Int) (n : Nat) (c : Exec α) :
    inScope bs (do ticks limit n; c) = (do ticks limit n; inScope bs c) := by
  funext st
  have hleft : inScope bs (do ticks limit n; c) st = onEnd (ticks limit n)
      (fun _ => onEnd c (fun a => do popScope; return a) (lastly popScope)) (lastly popScope)
      { st with frame := { st.frame with scopes := bs :: st.frame.scopes } } := by
    rw [← onEnd_bind, ← ensuring_eq]
    rfl
  have hright : (do ticks limit n; inScope bs c) st =
      onEnd (ticks limit n) (fun _ => inScope bs c) throw st := by rw [bind_eq_onEnd]
  rw [hleft, hright]
  unfold onEnd
  rw [ticks_frame]
  obtain ⟨-, heq⟩ | ⟨m, -, -, -, heq⟩ := ticks_cases limit n st
  · rw [heq]
    show _ = ensuring c popScope _
    rw [ensuring_eq]
    rfl
  · rw [heq]
    rfl

def labelsEnd (labels : List String) : Signal → Exec Unit
  | .breakTo (some l) => if labels.contains l then return else throw (.breakTo (some l))
  | e => throw e

instance instSteadyLabelsEnd (labels : List String) (e : Signal) : Steady (labelsEnd labels e) := by
  unfold labelsEnd
  split <;> infer_instance

lemma neutral_labelsEnd (labels : List String) : Neutral (labelsEnd labels) where
  exhausted := rfl
  failed _ := rfl
  fault _ := rfl
  ends e := by
    unfold labelsEnd
    split
    · split
      · exact .inl ⟨(), rfl⟩
      · exact .inr rfl
    · exact .inr rfl

lemma neutral_labelEnd (l : String) : Neutral (Evaluator.labelEnd l) where
  exhausted := rfl
  failed _ := rfl
  fault _ := rfl
  ends e := by
    unfold Evaluator.labelEnd
    split
    · split
      · exact .inl ⟨(), rfl⟩
      · exact .inr rfl
    · exact .inr rfl

lemma neutral_bodyEnd (labels : List String) : Neutral (Evaluator.bodyEnd labels) where
  exhausted := rfl
  failed _ := rfl
  fault _ := rfl
  ends e := by
    unfold Evaluator.bodyEnd
    split
    · exact .inl ⟨true, rfl⟩
    · exact .inl ⟨false, rfl⟩
    · split
      · exact .inl ⟨false, rfl⟩
      · exact .inr rfl
    · exact .inr rfl

def catchLabels (labels : List String) (c : Exec Unit) : Exec Unit := onEnd c pure (labelsEnd labels)

instance instSteadyCatchLabels (labels : List String) (c : Exec Unit) [Steady c] :
    Steady (catchLabels labels c) := by
  unfold catchLabels
  infer_instance

lemma catchLabels_nil (c : Exec Unit) : catchLabels [] c = c := by
  have hthrow : labelsEnd [] = throw := by
    funext e
    cases e with
    | breakTo l => cases l <;> rfl
    | _ => rfl
  rw [catchLabels, hthrow, onEnd_pure_throw]

lemma catchLabels_cons (l : String) (ls : List String) (c : Exec Unit) :
    onEnd (catchLabels ls c) pure (Evaluator.labelEnd l) = catchLabels (l :: ls) c := by
  rw [catchLabels, onEnd_onEnd, catchLabels]
  congr 1
  funext e
  cases e with
  | breakTo b =>
    cases b with
    | none => rfl
    | some b =>
      have heq : ∀ ls, labelsEnd ls (.breakTo (some b)) =
        if ls.contains b then return else throw (.breakTo (some b)) := fun _ => rfl
      rw [heq, heq]
      by_cases hls : ls.contains b = true
      · rw [if_pos hls, if_pos (by simp_all)]
        rfl
      · rw [if_neg hls, onEnd_throw]
        show (if some b = some l then _ else _) = _
        by_cases hb : b = l
        · rw [if_pos (by rw [hb]), if_pos (by simp [hb])]
        · rw [if_neg (by simpa using hb), if_neg (by simp_all)]
  | _ => rfl

lemma catchLabels_inScope (labels : List String) (bs : Bindings) (c : Exec Unit) :
    catchLabels labels (inScope bs c) = inScope bs (catchLabels labels c) :=
  onEnd_inScope bs c id (neutral_labelsEnd labels)

lemma evaluatorAt_tick (p : Program) (limit : Int) (d : Nat) :
    (evaluatorAt p limit d).tick = ticks limit 1 := by
  have hlimit : (evaluatorAt p limit d).limit = limit := by cases d <;> rfl
  rw [ticks_one, Evaluator.tick, hlimit]

section

variable (p : Program) (limit : Int) {labels : List String}

lemma exec_succ (d : Nat) (labels : List String) (n : Node) :
    (evaluatorAt p limit (d + 1)).exec labels n =
      (do ticks limit 1; (evaluatorAt p limit d).statement labels n) := by
  have hlimit : (evaluatorAt p limit d).limit = limit := by cases d <;> rfl
  rw [ticks_one]
  show (do (evaluatorAt p limit d).tick; (evaluatorAt p limit d).statement labels n) = _
  rw [Evaluator.tick, hlimit]

lemma exec_underLabels (ls : List (Tag × String)) (d : Nat) (labels : List String) (n : Node) :
    (evaluatorAt p limit (d + 1 + ls.length)).exec labels (underLabels ls n) = (do
      ticks limit (ls.length + 1)
      catchLabels (ls.map (·.2))
        ((evaluatorAt p limit d).statement (labels ++ ls.map (·.2)) n)) := by
  induction ls generalizing labels with
  | nil =>
    rw [List.map_nil, List.append_nil, catchLabels_nil]
    exact exec_succ p limit d labels n
  | cons l ls ih =>
    have hunder : (evaluatorAt p limit (d + 1 + ls.length)).statement labels
        (underLabels (l :: ls) n) =
        onEnd ((evaluatorAt p limit (d + 1 + ls.length)).exec (labels ++ [l.2]) (underLabels ls n))
          pure (Evaluator.labelEnd l.2) :=
      (Evaluator.execLabeled_eq (evaluatorAt p limit (d + 1 + ls.length)) labels l.2
        (underLabels ls n))
    rw [List.length_cons, ← Nat.add_assoc, exec_succ, hunder, ih, onEnd_ticks _ _ _ _
      (neutral_labelEnd l.2).failed, catchLabels_cons, ← bind_assoc, ticks_add, Nat.add_comm 1,
      List.map_cons, List.append_assoc, List.singleton_append]

lemma exec_shallow (ls : List (Tag × String)) {d : Nat} (hd : d ≤ ls.length) (labels : List String)
    (n : Node) (st : State) :
    Stopped (spent limit) ((evaluatorAt p limit d).exec labels (underLabels ls n) st) := by
  induction ls generalizing d labels st with
  | nil =>
    obtain rfl := Nat.le_zero.mp hd
    exact .inl rfl
  | cons l ls ih =>
    cases d with
    | zero => exact .inl rfl
    | succ d =>
      have hunder : (evaluatorAt p limit d).statement labels (underLabels (l :: ls) n) =
          onEnd ((evaluatorAt p limit d).exec (labels ++ [l.2]) (underLabels ls n)) pure
            (Evaluator.labelEnd l.2) :=
        Evaluator.execLabeled_eq (evaluatorAt p limit d) labels l.2 (underLabels ls n)
      rw [exec_succ, hunder, bind_eq_onEnd]
      unfold onEnd
      obtain ⟨-, heq⟩ | ⟨m, hm, -, hlt, heq⟩ := ticks_cases limit 1 st
      · rw [heq]
        have hstopped := ih (Nat.le_of_succ_le_succ hd) (labels ++ [l.2]) (st.counted 1)
        exact hstopped.onEnd (fun _ _ => spent_mono) Steady.instPure
          (fun e => (inferInstance : Steady (Evaluator.labelEnd l.2 e))) (passes_of_eq rfl)
      · rw [heq]
        exact .inr ⟨Nat.add_pos_right _ hm, hlt⟩

end

def Deep (S : Setting) (d d' : Nat) : Prop := S.strict = true → 6 * d ≤ d'

def Below (S : Setting) (p p' : Program) (d : Nat) : Prop :=
  ∀ m < d, ∀ m', Deep S m m' → Matches S (evaluatorAt p S.limit m) (evaluatorAt p' S.limit' m')

namespace Paid

variable {S : Setting} {w : World} {links : List Link} {routes : Routes} {pre post : Credit}
  {p p' : Program} {d d' : Nat} {labels : List String}

lemma counted {pre post : Credit} {Q : World → α → β → Prop} {c : Exec α} {c' : Exec β} [Steady c]
    [Steady c'] (mid : Credit) (a b : Nat) (hu : b + mid.1 ≤ S.factor * a + pre.1)
    (hl : S.tight = true → a + mid.2 ≤ b + pre.2)
    (h : ∀ w₁, w ≤ w₁ → Paid S w₁ links routes mid post Q c c') :
    Paid S w links routes pre post Q (do Machine.ticks S.limit a; c)
      (do Machine.ticks S.limit' b; c') :=
  (ticks a b hu hl).bind fun w₁ _ _ hw _ => h w₁ hw

lemma countedFirst {pre post : Credit} {Q : World → α → β → Prop} {c : Exec α} {c' : Exec β}
    [Steady c] [Steady c'] (mid : Credit) (n : Nat) (hu : mid.1 ≤ S.factor * n + pre.1)
    (hl : S.tight = true → n + mid.2 ≤ pre.2)
    (h : ∀ w₁, w ≤ w₁ → Paid S w₁ links routes mid post Q c c') :
    Paid S w links routes pre post Q (do Machine.ticks S.limit n; c) c' := by
  have hboth : Paid S w links routes pre post Q (do Machine.ticks S.limit n; c)
      (do Machine.ticks S.limit' 0; c') :=
    counted mid n 0 (by omega) (fun ht => by have := hl ht; omega) h
  exact hboth

lemma countedSecond {pre post : Credit} {Q : World → α → β → Prop} {c : Exec α} {c' : Exec β}
    [Steady c] [Steady c'] (mid : Credit) (n : Nat) (hu : n + mid.1 ≤ pre.1)
    (hl : S.tight = true → mid.2 ≤ n + pre.2)
    (h : ∀ w₁, w ≤ w₁ → Paid S w₁ links routes mid post Q c c') :
    Paid S w links routes pre post Q c (do Machine.ticks S.limit' n; c') := by
  have hboth : Paid S w links routes pre post Q (do Machine.ticks S.limit 0; c)
      (do Machine.ticks S.limit' n; c') :=
    counted mid 0 n (by omega) (fun ht => by have := hl ht; omega) h
  exact hboth

lemma handledFirst {Q : World → γ → β → Prop} {n : Node} {f : Unit → Exec γ} {g : Signal → Exec γ}
    {c' : Exec β} (hx : g .exhausted = MonadExcept.throw .exhausted)
    (hg : ∀ e, g (.failed e) = MonadExcept.throw (.failed e))
    (h : ∀ m, d = m + 1 → Paid S w links routes pre post Q (do
      Machine.ticks S.limit 1
      Machine.onEnd ((evaluatorAt p S.limit m).statement labels n) f g) c') :
    Paid S w links routes pre post Q
      (Machine.onEnd ((evaluatorAt p S.limit d).exec labels n) f g) c' := by
  cases d with
  | zero =>
    have hzero : Machine.onEnd ((evaluatorAt p S.limit 0).exec labels n) f g =
      MonadExcept.throw .exhausted := hx
    rw [hzero]
    exact fun _ _ _ _ => .first (.inl rfl)
  | succ m =>
    rw [exec_succ, onEnd_ticks _ _ _ _ hg]
    exact h m rfl

lemma handledSecond {Q : World → α → γ → Prop} {n : Node} {f : Unit → Exec γ}
    {g : Signal → Exec γ} {c : Exec α} (hx : g .exhausted = MonadExcept.throw .exhausted)
    (hg : ∀ e, g (.failed e) = MonadExcept.throw (.failed e)) (hd : S.strict = true → 0 < d')
    (h : ∀ m, d' = m + 1 → Paid S w links routes pre post Q c (do
      Machine.ticks S.limit' 1
      Machine.onEnd ((evaluatorAt p' S.limit' m).statement labels n) f g)) :
    Paid S w links routes pre post Q c
      (Machine.onEnd ((evaluatorAt p' S.limit' d').exec labels n) f g) := by
  cases d' with
  | zero =>
    have hzero : Machine.onEnd ((evaluatorAt p' S.limit' 0).exec labels n) f g =
      MonadExcept.throw .exhausted := hx
    rw [hzero]
    refine fun _ _ _ _ => .second (Bool.eq_false_iff.mpr fun hs => ?_) (.inl rfl)
    exact (hd hs).false
  | succ m =>
    rw [exec_succ, onEnd_ticks _ _ _ _ hg]
    exact h m rfl

lemma execFirst {Q : World → Unit → β → Prop} {n : Node} {c' : Exec β}
    (h : ∀ m, d = m + 1 → Paid S w links routes pre post Q
      (do Machine.ticks S.limit 1; (evaluatorAt p S.limit m).statement labels n) c') :
    Paid S w links routes pre post Q ((evaluatorAt p S.limit d).exec labels n) c' := by
  rw [← onEnd_pure_throw ((evaluatorAt p S.limit d).exec labels n)]
  refine handledFirst rfl (fun _ => rfl) fun m hm => ?_
  rw [onEnd_pure_throw]
  exact h m hm

lemma execSecond {Q : World → α → Unit → Prop} {n : Node} {c : Exec α}
    (hd : S.strict = true → 0 < d')
    (h : ∀ m, d' = m + 1 → Paid S w links routes pre post Q c
      (do Machine.ticks S.limit' 1; (evaluatorAt p' S.limit' m).statement labels n)) :
    Paid S w links routes pre post Q c ((evaluatorAt p' S.limit' d').exec labels n) := by
  rw [← onEnd_pure_throw ((evaluatorAt p' S.limit' d').exec labels n)]
  refine handledSecond rfl (fun _ => rfl) hd fun m hm => ?_
  rw [onEnd_pure_throw]
  exact h m hm

lemma evalSecond {Q : World → α → Value → Prop} {e : Node} {c : Exec α}
    (hd : S.strict = true → 0 < d')
    (h : ∀ m, d' = m + 1 → Paid S w links routes pre post Q c
      ((evaluatorAt p' S.limit' m).expression e)) :
    Paid S w links routes pre post Q c ((evaluatorAt p' S.limit' d').eval e) := by
  cases d' with
  | zero =>
    refine fun _ _ _ _ => .second (Bool.eq_false_iff.mpr fun hs => ?_) (.inl rfl)
    exact (hd hs).false
  | succ m => exact h m rfl

lemma underLabelsFirst {Q : World → Unit → β → Prop} {ls : List (Tag × String)} {n : Node}
    {c' : Exec β}
    (h : ∀ m, d = m + 1 + ls.length → Paid S w links routes pre post Q (do
      Machine.ticks S.limit (ls.length + 1)
      catchLabels (ls.map (·.2)) ((evaluatorAt p S.limit m).statement (ls.map (·.2)) n)) c') :
    Paid S w links routes pre post Q ((evaluatorAt p S.limit d).exec [] (underLabels ls n)) c' := by
  rcases Nat.lt_or_ge ls.length d with hd | hd
  · obtain ⟨m, rfl⟩ : ∃ m, d = m + 1 + ls.length := ⟨d - 1 - ls.length, by omega⟩
    rw [exec_underLabels]
    exact h m rfl
  · intro k s s' _
    refine .first ?_
    have hstopped := exec_shallow p S.limit ls hd [] n s
    generalize (evaluatorAt p S.limit d).exec [] (underLabels ls n) s = r at hstopped ⊢
    cases r with
    | ok _ t => exact .inl hstopped
    | error e t => exact hstopped.imp_right .inl

lemma underLabelsSecond {Q : World → α → Unit → Prop} {ls : List (Tag × String)} {n : Node}
    {c : Exec α} (hd : S.strict = true → ls.length < d')
    (h : ∀ m, d' = m + 1 + ls.length → Paid S w links routes pre post Q c (do
      Machine.ticks S.limit' (ls.length + 1)
      catchLabels (ls.map (·.2)) ((evaluatorAt p' S.limit' m).statement (ls.map (·.2)) n))) :
    Paid S w links routes pre post Q c
      ((evaluatorAt p' S.limit' d').exec [] (underLabels ls n)) := by
  rcases Nat.lt_or_ge ls.length d' with hlt | hge
  · obtain ⟨m, rfl⟩ : ∃ m, d' = m + 1 + ls.length := ⟨d' - 1 - ls.length, by omega⟩
    rw [exec_underLabels]
    exact h m rfl
  · intro k s s' _
    refine .second (Bool.eq_false_iff.mpr fun hs => ?_) (exec_shallow p' S.limit' ls hge [] n s')
    exact absurd (hd hs) (not_lt.mpr hge)

lemma labelsEnd {e e' : Signal}
    (he : Signal.Rel (routes.under labels) w e e') (hturns : ∀ l ∈ labels, ∀ c, ¬ routes.turns c l) :
    Sim S w links routes Done (Machine.labelsEnd labels e) (Machine.labelsEnd labels e') := by
  cases he with
  | @breakTo b h =>
    cases b with
    | none => exact .throw (.breakTo (h.resolve_left (by simp)))
    | some b =>
      refine .ite (fun _ => .pure trivial) fun hb => .throw (.breakTo (h.resolve_left ?_))
      rintro ⟨l, hl, heq⟩
      obtain rfl := Option.some.inj heq
      exact hb (by simpa using hl)
  | continueTo h => exact .throw (.continueTo h)
  | @turned c m h =>
    have hm : ¬ labels.contains m = true := fun hm => hturns m (by simpa using hm) c h
    dsimp only [Machine.labelsEnd]
    rw [if_neg hm]
    exact .throw (.turned h)
  | returned h => exact .throw (.returned h)
  | failure h =>
    have hthrow : Sim S w links routes Done (MonadExcept.throw e : Exec Unit)
        (MonadExcept.throw e' : Exec Unit) := .throw (.failure h)
    cases h <;> exact hthrow

end Paid

end LoopLowering.Machine
