import LoopLowering.Proofs.Grammar.DeclarationTrees
import LoopLowering.Proofs.Syntax.Nodes
import LoopLowering.Proofs.Workspace.Replacing

/-! A pass in place. Every location that it has saved is live when its turn comes, so that no edit
fails, and the tree that it leaves is, up to identities, the one that the pass without identities
makes. -/

namespace LoopLowering

namespace Workspace

open Loops

abbrev LoopStep := List String → Nat → Node → Outcome × Nat

def forStep : LoopStep := fun labels next n =>
  (.done (lowerFor labels next n).1, (lowerFor labels next n).2)

def forEachStep : LoopStep := fun labels next n => (lowerForEach labels n, next)

def lowerFrom (step : LoopStep) : List Location → (nextLabel : Nat) → Workspace →
    Workspace × Option LoweringError
  | [], _, ws => (ws, none)
  | loc :: locs, nextLabel, ws =>
    match step (labelsAbove loc) nextLabel (ws.lookup loc.node) with
    | (.failed f left, _) => ((ws.settle left).2, some (.fault f))
    | (.done new, nextLabel) =>
      match ws.putLowered loc new with
      | (ws, none) => lowerFrom step locs nextLabel ws
      | (ws, some e) => (ws, some e)

lemma forLoopsFrom_eq (locs : List Location) (next : Nat) (ws : Workspace) :
    ws.forLoopsFrom locs next = lowerFrom forStep locs next ws := by
  induction locs generalizing next ws with
  | nil => rfl
  | cons loc locs ih =>
    rw [forLoopsFrom, lowerFrom, forStep]
    generalize lowerFor (labelsAbove loc) next (ws.lookup loc.node) = lowered
    cases hput : ws.putLowered loc lowered.1 with
    | mk ws' error =>
      cases error with
      | none => simpa only [hput] using ih lowered.2 ws'
      | some e => simp only [hput]

lemma forEachLoopsFrom_eq (locs : List Location) (next : Nat) (ws : Workspace) :
    ws.forEachLoopsFrom locs = lowerFrom forEachStep locs next ws := by
  induction locs generalizing next ws with
  | nil => rfl
  | cons loc locs ih =>
    rw [forEachLoopsFrom, lowerFrom, forEachStep]
    cases lowerForEach (labelsAbove loc) (ws.lookup loc.node) with
    | failed f left => rfl
    | done new =>
      cases hput : ws.putLowered loc new with
      | mk ws' error =>
        cases error with
        | none => simpa only [hput] using ih next ws'
        | some e => simp only [hput]

abbrev Numbering := StateT (Nat × Nat) (Except Fault)

def numbered (step : LoopStep) (labels : List String) (n : Node) : Numbering Node := fun next =>
  match step labels next.1 n with
  | (.failed f _, _) => .error f
  | (.done new, nextLabel) =>
    .ok (new.number next.2, nextLabel, next.2 + new.size + new.size)

structure Lowers (isTarget : Shape Node → Bool) (step : LoopStep) : Prop where
  mapAt : ∀ (s : Shape Node) f, isTarget (s.mapAt f) = isTarget s
  labeled : ∀ l b, isTarget (.labeled l b) = false
  thrifty : ∀ labels next n new next', isTarget n.shape = true →
    step labels next n = (.done new, next') → Thrifty n new

lemma lowers_for : Lowers isForLoop forStep where
  mapAt := isForLoop_mapAt
  labeled _ _ := rfl
  thrifty labels next n new next' hn h k hk := by
    obtain ⟨t, s⟩ := n
    obtain ⟨hnew, -⟩ := Prod.mk.inj h
    obtain rfl := Outcome.done.inj hnew
    exact occurrences_lowerFor hk labels next hn

lemma lowers_forEach : Lowers isForEach forEachStep where
  mapAt := isForEach_mapAt
  labeled _ _ := rfl
  thrifty labels next n new next' hn h k hk := by
    obtain ⟨t, s⟩ := n
    exact occurrences_lowerForEach hk labels hn (Prod.mk.inj h).1

/-- The locations of a pass: live ones of its loops, and none below a place that is edited before
its turn. -/
structure Saved (isTarget : Shape Node → Bool) (root : Node) (locs : List Location) : Prop where
  live : ∀ loc ∈ locs, Live isTarget root loc
  target : ∀ loc ∈ locs, isTarget loc.node.shape = true
  apart : locs.Pairwise fun a b => ¬ (Loops.target a).path <+: b.path

lemma step_of_labeled {t : Tag} {l : String} {body c : Node} {st : Step}
    (h : (Node.mk t (.labeled l body)).child? st = some c) : st = ⟨"body", none⟩ := by
  have := Node.child?_eq_some.mp h
  simp_all [Shape.steps, Shape.parts, Part.steps]

lemma path_of_topPath {root n m : Node} {trail : List (Node × Step)} {p : Path}
    (hwithin : Location.Within root ⟨n, trail⟩) (hp : topPath trail <+: p)
    (hm : root.get? p = some m) (hlabel : labeledBody? m.shape = none) :
    (Location.mk n trail).path <+: p := by
  induction trail generalizing n with
  | nil => exact List.nil_prefix
  | cons a trail ih =>
    obtain ⟨⟨t, s⟩, st⟩ := a
    have hup : Location.Within root ⟨.mk t s, trail⟩ := fun l hl =>
      hwithin l (List.mem_cons_of_mem _ hl)
    cases hs : labeledBody? s with
    | none => rwa [Location.path_cons, Location.path, ← topPath_cons (t := t) hs]
    | some b =>
      obtain rfl := labeledBody?_eq_some.mp hs
      obtain ⟨r, rfl⟩ := ih hup hp
      have hlabeled := hup _ (Location.self_mem_chain _)
      have hchild := hwithin _ (Location.self_mem_chain _)
      rw [Location.path_cons, Node.get?_append, hlabeled, Option.bind_some] at hchild
      obtain ⟨c, hc, -⟩ := Option.bind_eq_some_iff.mp hchild
      rw [Node.get?_append, hlabeled, Option.bind_some] at hm
      cases r with
      | nil =>
        obtain rfl := Option.some.inj hm
        cases hlabel
      | cons st' r =>
        obtain ⟨c', hc', -⟩ := Option.bind_eq_some_iff.mp hm
        rw [Location.path_cons, step_of_labeled hc, step_of_labeled hc']
        exact ⟨r, by simp⟩

lemma saved_find {isTarget : Shape Node → Bool} {step : LoopStep} (hstep : Lowers isTarget step)
    (root : Node) : Saved isTarget root (root.find isTarget).reverse where
  live loc hloc := by
    rw [List.mem_reverse, Node.find, List.mem_filter] at hloc
    exact live_of_within (Location.within_walk hloc.1)
  target loc hloc := by
    rw [List.mem_reverse, Node.find, List.mem_filter] at hloc
    exact hloc.2
  apart := by
    have hwalk := Location.pairwise_preorder root []
    rw [← Node.walk_eq_preorder] at hwalk
    rw [List.pairwise_reverse, Node.find]
    refine (hwalk.filter _).imp_of_mem ?_
    intro a b ha hb hab hle
    obtain ⟨ha, hatarget⟩ := List.mem_filter.mp ha
    obtain ⟨hb, -⟩ := List.mem_filter.mp hb
    have hlabel : labeledBody? a.node.shape = none := by
      cases hs : labeledBody? a.node.shape with
      | none => rfl
      | some p =>
        rw [labeledBody?_eq_some.mp hs, hstep.labeled] at hatarget
        cases hatarget
    rw [target_eq] at hle
    exact hab (path_of_topPath (Location.within_walk hb) hle
      (Location.within_walk ha _ (Location.self_mem_chain a)) hlabel)

lemma lowerFrom_eq {isTarget : Shape Node → Bool} {step : LoopStep} (hstep : Lowers isTarget step)
    {locs : List Location} {ws : Workspace} {next next' id' : Nat} {root : Node}
    (htold : ws.root.Told ws.nextId) (hsaved : Saved isTarget ws.root locs)
    (hrun : locs.foldlM (visit (numbered step)) ws.root (next, ws.nextId) =
      .ok (root, next', id')) :
    ∃ after, lowerFrom step locs next ws = (after, none) ∧ after.root = root ∧
      after.root.Told after.nextId := by
  induction locs generalizing ws next with
  | nil =>
    obtain ⟨rfl, -⟩ := Prod.mk.inj (Except.ok.inj hrun)
    exact ⟨ws, rfl, rfl, htold⟩
  | cons loc locs ih =>
    obtain ⟨hlive, htarget, hapart⟩ := hsaved
    obtain ⟨hlive, hlives⟩ := List.forall_mem_cons.mp hlive
    obtain ⟨htarget, htargets⟩ := List.forall_mem_cons.mp htarget
    obtain ⟨hapart, haparts⟩ := List.pairwise_cons.mp hapart
    obtain ⟨cur, hcur, hid, hcurTarget⟩ := hlive loc (Location.self_mem_chain loc)
    have hlookup := lookup_of_get? hcur hid (htold.le_one _)
    rw [List.foldlM_cons] at hrun
    cases houtcome : step (labelsAbove loc) next cur with
    | mk outcome nextLabel =>
      have hvisit : visit (numbered step) ws.root loc (next, ws.nextId) =
          match outcome with
          | .failed f _ => .error f
          | .done new => .ok (Lowering.put ws.root loc (new.number ws.nextId), nextLabel,
              ws.nextId + new.size + new.size) := by
        rw [visit, hcur]
        simp only [bind, StateT.bind, numbered, houtcome]
        cases outcome <;> rfl
      change (visit (numbered step) ws.root loc (next, ws.nextId)).bind _ = _ at hrun
      rw [hvisit] at hrun
      cases outcome with
      | failed f left => cases hrun
      | done new =>
        have hthrift := hstep.thrifty _ _ _ _ _ (hcurTarget.trans htarget) houtcome
        obtain ⟨mid, hput, hroot, hnext, hmid⟩ :=
          putLowered_of_live hstep.mapAt htold hlive hcur hthrift
        have hsaved : Saved isTarget mid.root locs := by
          refine ⟨fun b hb => ?_, htargets, haparts⟩
          rw [hroot]
          exact (hlives b hb).setAt hstep.mapAt (hapart b hb)
        have hrun : locs.foldlM (visit (numbered step)) mid.root (nextLabel, mid.nextId) =
            .ok (root, next', id') := by
          rw [hroot, hnext]
          exact hrun
        obtain ⟨after, hafter, hrest⟩ := ih hmid hsaved hrun
        refine ⟨after, ?_, hrest⟩
        rw [lowerFrom, hlookup, houtcome]
        dsimp only
        rw [hput]
        exact hafter

structure Related (M N : Type → Type) [Monad M] [Monad N] where
  rel {α β : Type} (r : α → β → Prop) (x : M α) (y : N β) : Prop
  pure {α β : Type} {r : α → β → Prop} {a : α} {b : β} (h : r a b) : rel r (pure a) (pure b)
  bind {α β α' β' : Type} {r : α → β → Prop} {r' : α' → β' → Prop} {x : M α} {y : N β}
    {f : α → M α'} {g : β → N β'} (hxy : rel r x y) (hfg : ∀ a b, r a b → rel r' (f a) (g b)) :
    rel r' (x >>= f) (y >>= g)

namespace Related

variable {M N : Type → Type} [Monad M] [Monad N] (R : Related M N)

def copies (x : M Node) (y : N Node) : Prop := R.rel (fun a b => b = a.copy) x y

lemma fromLast {cs : List (Step × Node)} {f : Node → M Node} {g : Node → N Node}
    (h : ∀ c ∈ cs, R.copies (f c.2) (g c.2.copy)) :
    R.rel (fun a b => b = a.map fun c => (c.1, c.2.copy))
      (Loops.fromLast (cs.map fun c => (c.1, f c.2)))
      (Loops.fromLast (cs.map fun c => (c.1, g c.2.copy))) := by
  induction cs with
  | nil => exact R.pure rfl
  | cons c cs ih =>
    obtain ⟨hc, hcs⟩ := List.forall_mem_cons.mp h
    refine R.bind (ih hcs) fun rest rest' hrest => R.bind hc fun a b hab => R.pure ?_
    rw [hrest, hab]
    rfl

lemma refill_copy (s : Shape Node) (new : List (Step × Node)) :
    refill (s.map Node.copy) (new.map fun c => (c.1, c.2.copy)) =
      (refill s new).map Node.copy := by
  have hlookup : ∀ st, (new.map fun c => (c.1, c.2.copy)).lookup st =
      (new.lookup st).map Node.copy := by
    intro st
    induction new with
    | nil => rfl
    | cons c new ih =>
      rw [List.map_cons, List.lookup_cons, List.lookup_cons, ih]
      cases st == c.1 <;> rfl
  rw [refill, refill, Shape.map, Shape.map, Shape.mapAt_mapAt, Shape.mapAt_mapAt]
  refine Shape.mapAt_congr fun c _ => ?_
  rw [hlookup]
  cases new.lookup c.1 with
  | none => exact (copy_plain .emptyStmt).symm
  | some n => rfl

def copyLabel (l : Tag × String) : Tag × String := ({ l.1 with id := 0 }, l.2)

lemma copy_underLabels (labels : List (Tag × String)) (n : Node) :
    (underLabels labels n).copy = underLabels (labels.map copyLabel) n.copy := by
  induction labels with
  | nil => rfl
  | cons l labels ih =>
    rw [underLabels_cons, Node.copy_mk, List.map_cons, underLabels_cons, ← ih]
    rfl

lemma rewritten {isTarget : Shape Node → Bool}
    (hmap : ∀ (s : Shape Node) f, isTarget (s.mapAt f) = isTarget s)
    {rewrite : List String → Node → M Node} {rewrite' : List String → Node → N Node}
    (hrewrite : ∀ labels n, R.copies (rewrite labels n) (rewrite' labels n.copy)) (n : Node)
    (labels : List (Tag × String)) :
    R.copies (Loops.rewritten isTarget rewrite n labels)
      (Loops.rewritten isTarget rewrite' n.copy (labels.map copyLabel)) := by
  induction n using Node.children_induction generalizing labels with
  | h t s ih =>
    cases hs : labeledBody? s with
    | some p =>
      obtain ⟨l, body⟩ := p
      obtain rfl := labeledBody?_eq_some.mp hs
      have := ih body List.mem_cons_self (labels ++ [(t, l)])
      rw [Node.copy_mk, rewritten_labeled]
      rw [List.map_append] at this
      exact (rewritten_labeled isTarget rewrite' _ _ _ _).symm ▸ this
    | none =>
      have hs' : labeledBody? (s.map Node.copy) = none := by rw [labeledBody?_map, hs]; rfl
      have hsteps : (s.map Node.copy).steps.map
          (fun c => (c.1, Loops.rewritten isTarget rewrite' c.2 [])) =
          s.steps.map fun c => (c.1, Loops.rewritten isTarget rewrite' c.2.copy []) := by
        rw [Shape.map, Shape.steps_mapAt, List.map_map]
        rfl
      rw [Node.copy_mk, rewritten_of_not_labeled _ _ hs, rewritten_of_not_labeled _ _ hs', hsteps]
      refine R.bind (R.fromLast (f := (Loops.rewritten isTarget rewrite · []))
        (g := (Loops.rewritten isTarget rewrite' · [])) fun c hc =>
          ih c.2 (Shape.mem_children.mpr ⟨c.1, hc⟩) []) ?_
      rintro new _ rfl
      have hlabels : (labels.map copyLabel).map (·.2) = labels.map (·.2) := by
        rw [List.map_map]
        rfl
      rw [refill_copy, hlabels, ← Node.copy_mk, show isTarget ((refill s new).map Node.copy) =
        isTarget (refill s new) from hmap _ _]
      cases isTarget (refill s new) with
      | true => exact hrewrite _ _
      | false =>
        refine R.pure ?_
        rw [copy_underLabels]

end Related

def besideLabels : Related Numbering (StateM Nat) where
  rel r x y := ∀ next id, ∃ a id', x (next, id) = .ok (a, (y next).2, id') ∧ r a (y next).1
  pure h next id := ⟨_, id, rfl, h⟩
  bind {α β α' β' r r' x y f g} hxy hfg next id := by
    obtain ⟨a, id', hx, ha⟩ := hxy next id
    obtain ⟨b, id'', hf, hb⟩ := hfg a _ ha (y next).2 id'
    refine ⟨b, id'', ?_, hb⟩
    change (x (next, id)).bind _ = _
    rw [hx]
    exact hf

def besideFault : Related Numbering (Except Fault) where
  rel r x y := ∀ b, y = .ok b → ∀ next id, ∃ a next' id', x (next, id) = .ok (a, next', id') ∧ r a b
  pure h b hb next id := ⟨_, next, id, rfl, Except.ok.inj hb ▸ h⟩
  bind {α β α' β' r r' x y f g} hxy hfg b hb next id := by
    cases y with
    | error e => cases hb
    | ok c =>
      obtain ⟨a, next', id', hx, ha⟩ := hxy c rfl next id
      obtain ⟨b', next'', id'', hf, hb'⟩ := hfg a c ha b hb next' id'
      refine ⟨b', next'', id'', ?_, hb'⟩
      change (x (next, id)).bind _ = _
      rw [hx]
      exact hf

lemma besideLabels_lowerFor (labels : List String) (n : Node) :
    besideLabels.copies (numbered forStep labels n) (Lowering.lowerForM labels n.copy) := by
  intro next id
  have hcopy := lowerFor_copy labels next n
  refine ⟨(lowerFor labels next n).1.number id,
    id + (lowerFor labels next n).1.size + (lowerFor labels next n).1.size, ?_, ?_⟩
  · change _ = Except.ok (_, (lowerFor labels next n.copy).2, _)
    rw [hcopy]
    rfl
  · change (lowerFor labels next n.copy).1 = _
    rw [hcopy, Node.copy_number]

lemma besideFault_lowerForEach (labels : List String) (n : Node) :
    besideFault.copies (numbered forEachStep labels n) (Lowering.lowerForEachM labels n.copy) := by
  intro b hb next id
  rw [Lowering.lowerForEachM, lowerForEach_copy] at hb
  cases h : lowerForEach labels n with
  | failed f left =>
    rw [h] at hb
    cases hb
  | done new =>
    rw [h] at hb
    obtain rfl := Except.ok.inj hb
    refine ⟨new.number id, next, id + new.size + new.size, ?_, (Node.copy_number id new).symm⟩
    simp [numbered, forEachStep, h]

lemma lowerForLoops_eq {ws : Workspace} (h : ws.root.Told ws.nextId) :
    ∃ after root, ws.lowerForLoops = (after, none) ∧
      rewritten isForLoop (numbered forStep) ws.root [] (0, ws.nextId) = .ok root ∧
      after.root = root.1 ∧ after.root.Told after.nextId ∧
      after.root.copy = Lowering.forLoops ws.root.copy := by
  obtain ⟨root, id', hrun, hcopy⟩ := besideLabels.rewritten isForLoop_mapAt
    besideLabels_lowerFor ws.root [] 0 ws.nextId
  have hfold := Lowering.foldlM_find isForLoop_mapAt (fun _ _ => rfl) (numbered forStep) ws.root
  obtain ⟨after, hafter, hroot, htold⟩ := lowerFrom_eq lowers_for h (saved_find lowers_for ws.root)
    (hfold ▸ hrun)
  refine ⟨after, _, ?_, hrun, hroot, htold, ?_⟩
  · rw [lowerForLoops, forLoopsFrom_eq, hafter]
  · rw [hroot, ← hcopy, Lowering.forLoops_eq_rewritten]
    rfl

lemma lowerForEachLoops_eq {ws : Workspace} {tree : Node} (h : ws.root.Told ws.nextId)
    (htree : Lowering.forEachLoops ws.root.copy = .ok tree) :
    ∃ after root, ws.lowerForEachLoops = (after, none) ∧
      rewritten isForEach (numbered forEachStep) ws.root [] (0, ws.nextId) = .ok root ∧
      after.root = root.1 ∧ after.root.Told after.nextId ∧ after.root.copy = tree := by
  rw [Lowering.forEachLoops_eq_rewritten] at htree
  obtain ⟨root, next', id', hrun, hcopy⟩ := besideFault.rewritten isForEach_mapAt
    besideFault_lowerForEach ws.root [] tree htree 0 ws.nextId
  have hfold := Lowering.foldlM_find isForEach_mapAt (fun _ _ => rfl) (numbered forEachStep) ws.root
  obtain ⟨after, hafter, hroot, htold⟩ := lowerFrom_eq lowers_forEach h
    (saved_find lowers_forEach ws.root) (hfold ▸ hrun)
  refine ⟨after, _, ?_, hrun, hroot, htold, ?_⟩
  · rw [lowerForEachLoops, forEachLoopsFrom_eq _ 0, hafter]
  · rw [hroot, ← hcopy]

/-- A statement of a kind, or labels on one. -/
inductive StandsOn (p : Shape Node → Bool) : Node → Prop
  | loop {t : Tag} {s : Shape Node} (h : p s = true) : StandsOn p (.mk t s)
  | label {t : Tag} {l : String} {body : Node} (h : StandsOn p body) :
    StandsOn p (.mk t (.labeled l body))

lemma standsOn_labeled {p : Shape Node → Bool} (hp : ∀ l b, p (.labeled l b) = false) {t : Tag}
    {l : String} {body : Node} : StandsOn p (.mk t (.labeled l body)) ↔ StandsOn p body := by
  refine ⟨fun h => ?_, .label⟩
  cases h with
  | loop h =>
    rw [hp] at h
    cases h
  | label h => exact h

lemma standsOn_underLabels {p : Shape Node → Bool} (hp : ∀ l b, p (.labeled l b) = false)
    (labels : List (Tag × String)) {t : Tag} {s : Shape Node} (hs : labeledBody? s = none) :
    StandsOn p (underLabels labels (.mk t s)) ↔ p s = true := by
  induction labels with
  | nil =>
    refine ⟨fun h => ?_, .loop⟩
    cases h with
    | loop h => exact h
    | label h => cases hs
  | cons l labels ih =>
    rw [underLabels_cons, ← ih]
    exact standsOn_labeled hp

lemma rewritten_head {isTarget : Shape Node → Bool} {step : LoopStep} (hstep : Lowers isTarget step)
    {n : Node} {labels : List (Tag × String)} {next : Nat × Nat} {r : Node × Nat × Nat}
    (hrun : rewritten isTarget (numbered step) n labels next = .ok r) (hn : ¬ StandsOn isTarget n) :
    ∃ above t s f, labeledBody? s = none ∧ underLabels labels n = underLabels above (.mk t s) ∧
      r.1 = underLabels above (.mk t (s.mapAt f)) := by
  induction n using Node.children_induction generalizing labels with
  | h t s ih =>
    cases hs : labeledBody? s with
    | some p =>
      obtain ⟨l, body⟩ := p
      obtain rfl := labeledBody?_eq_some.mp hs
      rw [rewritten_labeled] at hrun
      obtain ⟨above, t', s', f, hs', hsame, hr⟩ := ih body List.mem_cons_self hrun fun h => hn (.label h)
      refine ⟨above, t', s', f, hs', ?_, hr⟩
      rwa [underLabels_append] at hsame
    | none =>
      refine ⟨labels, t, s, ?_⟩
      rw [rewritten_of_not_labeled _ _ hs] at hrun
      change (Loops.fromLast (M := Numbering) _ next).bind _ = _ at hrun
      cases hcs : Loops.fromLast
          (s.steps.map fun c => (c.1, rewritten isTarget (numbered step) c.2 [])) next with
      | error e =>
        rw [hcs] at hrun
        cases hrun
      | ok cs =>
        have hnot : isTarget (refill s cs.1) = false := by
          rw [refill, hstep.mapAt]
          exact Bool.eq_false_iff.mpr fun h => hn (.loop h)
        rw [hcs] at hrun
        simp only [Except.bind, hnot] at hrun
        obtain rfl := Except.ok.inj hrun
        exact ⟨_, hs, rfl, rfl⟩

lemma id_underLabels (labels : List (Tag × String)) (t : Tag) (s s' : Shape Node) :
    (underLabels labels (.mk t s)).id = (underLabels labels (.mk t s')).id := by
  cases labels <;> rfl

lemma root_of_head {isTarget : Shape Node → Bool} {step : LoopStep} (hstep : Lowers isTarget step)
    {root : Node} {next : Nat × Nat} {r : Node × Nat × Nat}
    (hrun : rewritten isTarget (numbered step) root [] next = .ok r)
    (hroot : ¬ StandsOn isTarget root) :
    r.1.id = root.id ∧ ∀ p : Shape Node → Bool, (∀ l b, p (.labeled l b) = false) →
      (∀ (s : Shape Node) f, p (s.mapAt f) = p s) → (StandsOn p r.1 ↔ StandsOn p root) := by
  obtain ⟨above, t, s, f, hs, hsame, hr⟩ := rewritten_head hstep hrun hroot
  obtain rfl : root = underLabels above (.mk t s) := hsame
  rw [hr]
  refine ⟨id_underLabels _ _ _ _, fun p hlabel hmap => ?_⟩
  rw [standsOn_underLabels hlabel above hs,
    standsOn_underLabels hlabel above (labeledBody?_mapAt_eq_none hs), hmap]

lemma untold_of_parse {k : TextKind} {source : String} {tree : Node}
    (h : parse k source = .ok tree) : ∀ m ∈ tree.nodes, m.id = 0 := by
  have htree := treeOf_parse h
  intro m hm
  cases k with
  | unit => exact (UnitTree.everywhere htree m hm).id
  | statement | statements => exact (StmtTree.everywhere htree m hm).id
  | expression => exact (ExprTree.everywhere htree m hm).id

lemma copy_of_untold {n : Node} (h : ∀ m ∈ n.nodes, m.id = 0) : n.copy = n := by
  induction n using Node.children_induction with
  | h t s ih =>
    obtain ⟨ht, hc⟩ := Node.forall_nodes_mk.mp h
    have htag : { t with id := 0 } = t := by
      rw [← show t.id = 0 from ht]
    rw [Node.copy_mk, htag, Shape.map_eq_self fun c hm => ih c hm (hc c hm)]

lemma told_ofTree {tree : Node} (h : ∀ m ∈ tree.nodes, m.id = 0) :
    (ofTree tree).root.Told (ofTree tree).nextId := by
  refine Node.told_number (fun k hk => ?_) Nat.one_pos
  rw [Node.occurrences, List.countP_eq_zero]
  intro m hm
  simpa [h m hm] using hk.symm

lemma count_copy {p : Shape Node → Bool} (hp : ∀ (s : Shape Node) f, p (s.mapAt f) = p s)
    (n : Node) : n.copy.count p = n.count p := by
  induction n using Node.children_induction with
  | h t s ih =>
    rw [Node.copy_mk, Node.count_mk, Node.count_mk, Shape.children_map, List.map_map, Shape.map, hp]
    congr 2
    exact List.map_congr_left ih

lemma standsOn_copy {p : Shape Node → Bool} (hlabel : ∀ l b, p (.labeled l b) = false)
    (hp : ∀ (s : Shape Node) f, p (s.mapAt f) = p s) (n : Node) :
    StandsOn p n.copy ↔ StandsOn p n := by
  induction n using Node.children_induction with
  | h t s ih =>
    rw [Node.copy_mk]
    cases hs : labeledBody? s with
    | none =>
      have hs' : labeledBody? (s.map Node.copy) = none := labeledBody?_mapAt_eq_none hs
      have hcopy := standsOn_underLabels hlabel [] (t := { t with id := 0 }) hs'
      rw [show p (s.map Node.copy) = p s from hp s _] at hcopy
      exact hcopy.trans (standsOn_underLabels hlabel [] hs).symm
    | some b =>
      obtain rfl := labeledBody?_eq_some.mp hs
      have hbody := ih b.2 List.mem_cons_self
      exact (standsOn_labeled hlabel).trans (hbody.trans (standsOn_labeled hlabel).symm)

structure Lowered (isTarget isOther : Shape Node → Bool) (ws after : Workspace) : Prop where
  told : after.root.Told after.nextId
  placed : after.root.copy.WellPlaced
  gone : after.root.count isTarget = 0
  kept : after.root.count isOther = ws.root.count isOther
  root : ¬ StandsOn isTarget ws.root →
    after.root.id = ws.root.id ∧ (StandsOn isOther after.root ↔ StandsOn isOther ws.root)

lemma lowered_forLoops {ws : Workspace} (htold : ws.root.Told ws.nextId)
    (hplaced : ws.root.copy.WellPlaced) :
    ∃ after, ws.lowerForLoops = (after, none) ∧
      after.root.copy = Lowering.forLoops ws.root.copy ∧ Lowered isForLoop isForEach ws after := by
  obtain ⟨after, r, hafter, hrun, hroot, htold, hcopy⟩ := lowerForLoops_eq htold
  have hfors : after.root.copy = (forsOf ws.root.copy [] 0).1 := by
    rw [hcopy, Lowering.forLoops_eq_forsOf hplaced]
  refine ⟨after, hafter, hcopy, htold, ?_, ?_, ?_, fun hnot => ?_⟩
  · rw [hfors]
    exact wellPlaced_forsOf hplaced [] 0
  · rw [← count_copy isForLoop_mapAt, hfors, findsLoops_forLoop.count_forsOf hplaced]
    simp [Node.count_eq_countP]
  · rw [← count_copy isForEach_mapAt, hfors, findsLoops_forEach.count_forsOf hplaced,
      ← count_copy isForEach_mapAt ws.root]
    congr 1
    funext s
    cases s <;> rfl
  · obtain ⟨hid, hstands⟩ := root_of_head lowers_for hrun hnot
    rw [hroot]
    exact ⟨hid, hstands isForEach (fun _ _ => rfl) isForEach_mapAt⟩

lemma lowered_forEachLoops {ws : Workspace} (htold : ws.root.Told ws.nextId)
    (hplaced : ws.root.copy.WellPlaced) :
    ∃ after, ws.lowerForEachLoops = (after, none) ∧
      Lowering.forEachLoops ws.root.copy = .ok after.root.copy ∧
      Lowered isForEach isForLoop ws after := by
  have hpass := Lowering.forEachLoops_eq_eachOf hplaced
  obtain ⟨after, r, hafter, hrun, hroot, htold, hcopy⟩ := lowerForEachLoops_eq htold hpass
  refine ⟨after, hafter, by rw [hcopy, hpass], htold, ?_, ?_, ?_, fun hnot => ?_⟩
  · rw [hcopy]
    exact wellPlaced_eachOf hplaced []
  · rw [← count_copy isForEach_mapAt, hcopy, findsLoops_forEach.count_eachOf hplaced]
    simp [Node.count_eq_countP]
  · rw [← count_copy isForLoop_mapAt, hcopy, findsLoops_forLoop.count_eachOf hplaced,
      ← count_copy isForLoop_mapAt ws.root]
    congr 1
    funext s
    cases s <;> rfl
  · obtain ⟨hid, hstands⟩ := root_of_head lowers_forEach hrun hnot
    rw [hroot]
    exact ⟨hid, hstands isForLoop (fun _ _ => rfl) isForLoop_mapAt⟩

lemma lower_of_no_loop {ws : Workspace} (hfor : ws.root.count isForLoop = 0)
    (heach : ws.root.count isForEach = 0) (p : Pass) : ws.lower p = (ws, none) := by
  have hforLoops : ws.lowerForLoops = (ws, none) := by
    rw [lowerForLoops, Node.count_eq_zero.mp hfor]
    rfl
  have hforEachLoops : ws.lowerForEachLoops = (ws, none) := by
    rw [lowerForEachLoops, Node.count_eq_zero.mp heach]
    rfl
  cases p <;> simp [lower, hforLoops, hforEachLoops]

/-- The passes over a tree that is read do not fail and leave no loop of their kind. A pass keeps
the loops of the other kind, and the root unless the root is a loop that it lowers or a label on
one. After both passes no pass has anything to do. -/
theorem lower_ofTree {k : TextKind} {source : String} {tree : Node}
    (h : parse k source = .ok tree) :
    ∃ a b c : Workspace,
      ((ofTree tree).lower .forLoops = (a, none) ∧ Pass.run .forLoops tree = .ok a.root.copy ∧
        a.root.count isForLoop = 0 ∧ a.root.count isForEach = tree.count isForEach ∧
        (¬ StandsOn isForLoop tree → a.root.id = (ofTree tree).root.id)) ∧
      ((ofTree tree).lower .forEachLoops = (b, none) ∧
        Pass.run .forEachLoops tree = .ok b.root.copy ∧
        b.root.count isForEach = 0 ∧ b.root.count isForLoop = tree.count isForLoop ∧
        (¬ StandsOn isForEach tree → b.root.id = (ofTree tree).root.id)) ∧
      ((ofTree tree).lower .all = (c, none) ∧ Pass.run .all tree = .ok c.root.copy ∧
        c.root.count isForLoop = 0 ∧ c.root.count isForEach = 0 ∧
        (¬ StandsOn isForLoop tree → ¬ StandsOn isForEach tree →
          c.root.id = (ofTree tree).root.id) ∧
        ∀ p : Pass, c.lower p = (c, none) ∧ p.run c.root = .ok c.root) := by
  have huntold := untold_of_parse h
  have hcopy : (ofTree tree).root.copy = tree :=
    (Node.copy_number 1 tree).trans (copy_of_untold huntold)
  have htold := told_ofTree huntold
  have hplaced : (ofTree tree).root.copy.WellPlaced := by
    rw [hcopy]
    exact wellPlaced_of_parse h
  have hcount : ∀ {p : Shape Node → Bool}, (∀ (s : Shape Node) f, p (s.mapAt f) = p s) →
      (ofTree tree).root.count p = tree.count p := by
    intro p hp
    rw [← count_copy hp, hcopy]
  have hstands : ∀ {p : Shape Node → Bool}, (∀ l b, p (.labeled l b) = false) →
      (∀ (s : Shape Node) f, p (s.mapAt f) = p s) →
      (StandsOn p (ofTree tree).root ↔ StandsOn p tree) := by
    intro p hlabel hp
    rw [← standsOn_copy hlabel hp, hcopy]
  have hfor := hstands (p := isForLoop) (fun _ _ => rfl) isForLoop_mapAt
  have heach := hstands (p := isForEach) (fun _ _ => rfl) isForEach_mapAt
  obtain ⟨a, ha, hacopy, hla⟩ := lowered_forLoops htold hplaced
  obtain ⟨b, hb, hbcopy, hlb⟩ := lowered_forEachLoops htold hplaced
  obtain ⟨c, hc, hccopy, hlc⟩ := lowered_forEachLoops hla.told hla.placed
  have hgone : c.root.count isForLoop = 0 := hlc.kept.trans hla.gone
  refine ⟨a, b, c, ⟨?_, ?_, hla.gone, ?_, ?_⟩, ⟨?_, ?_, hlb.gone, ?_, ?_⟩,
    ?_, ?_, hgone, hlc.gone, ?_, fun p => ⟨lower_of_no_loop hgone hlc.gone p, ?_⟩⟩
  · simp [lower, ha]
  · rw [hacopy, hcopy, Pass.run]
  · rw [hla.kept, hcount isForEach_mapAt]
  · exact fun hnot => (hla.root (mt hfor.mp hnot)).1
  · simp [lower, hb]
  · rw [Pass.run, ← hbcopy, hcopy]
  · rw [hlb.kept, hcount isForLoop_mapAt]
  · exact fun hnot => (hlb.root (mt heach.mp hnot)).1
  · simp [lower, ha, hc]
  · rw [Pass.run, ← hccopy, hacopy, hcopy]
  · intro hnotFor hnotEach
    obtain ⟨hid, hsame⟩ := hla.root (mt hfor.mp hnotFor)
    exact (hlc.root (mt hsame.mp (mt heach.mp hnotEach))).1.trans hid
  · have hforLoops : Lowering.forLoops c.root = c.root := by
      rw [Lowering.forLoops, Node.count_eq_zero.mp hgone]
      rfl
    have hforEach : Lowering.forEachLoops c.root = .ok c.root := by
      rw [Lowering.forEachLoops, Node.count_eq_zero.mp hlc.gone]
      rfl
    cases p <;> simp [Pass.run, hforLoops, hforEach]

theorem lower_ofTree_labelled : ∃ tree c,
    parse .statement "a: for (int i = 0; i < 3; i++) for (T x : xs) continue a;" = .ok tree ∧
      (ofTree tree).lower .all = (c, none) ∧ c.root.count isForLoop = 0 ∧
        c.root.count isForEach = 0 ∧ ∀ p : Pass, c.lower p = (c, none) := by
  cases h : parse .statement "a: for (int i = 0; i < 3; i++) for (T x : xs) continue a;" with
  | ok tree =>
    obtain ⟨-, -, c, -, -, hall, -, hfor, heach, -, hagain⟩ := lower_ofTree h
    exact ⟨tree, c, rfl, hall, hfor, heach, fun p => (hagain p).1⟩
  | error e =>
    have hok : (parse .statement
        "a: for (int i = 0; i < 3; i++) for (T x : xs) continue a;").isOk = true := by
      decide +kernel
    rw [h] at hok
    cases hok

end Workspace

end LoopLowering
