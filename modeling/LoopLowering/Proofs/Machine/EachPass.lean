import LoopLowering.Proofs.Loops.Commute
import LoopLowering.Proofs.Machine.ProgramPass
import LoopLowering.Proofs.Machine.Suited
import LoopLowering.Proofs.Machine.WholeRun

/-! The pass over the loops over elements makes lowered forms, where nothing uses the name of an
iterator. -/

namespace LoopLowering

namespace Loops

def elementName? (n : Node) : Option String :=
  match n.shape with
  | .forEach (.mk _ (.localVar _ _ [.mk _ (.declarator x 0 none)])) _ _ => some x
  | _ => none

/-- The labels of the loops over elements, those of each loop in a list; `labels` stand right before
the tree. -/
def elementLabels : Node → (labels : List String) → List (List String) :=
  Node.fold fun _ s labels =>
    match s with
    | .labeled l body => body (labels ++ [l])
    | .forEach _ _ body => labels :: body []
    | s => s.bodies.flatMap (· [])

lemma elementLabels_body {t : Tag} {s : Shape Node} (hs : labeledBody? s = none) {c : Node}
    (hc : c ∈ s.bodies) (labels : List String) :
    elementLabels c [] ⊆ elementLabels (.mk t s) labels := by
  intro ls hls
  have hmap : ls ∈ (s.map elementLabels).bodies.flatMap (· []) := by
    rw [Shape.bodies_map, List.flatMap_map]
    exact List.mem_flatMap.mpr ⟨c, hc, hls⟩
  rw [elementLabels, Node.fold_mk]
  cases s with
  | labeled l body => cases hs
  | forEach var iterable body =>
    obtain rfl := List.mem_singleton.mp hc
    exact List.mem_cons_of_mem _ hls
  | _ => exact hmap

end Loops

namespace Machine

open Loops

structure EachSetting (S : Setting) : Prop where
  foreign : S.forbidden .foreignIteration = true
  factor : 3 ≤ S.factor

structure ElementsFit (S : Setting) (labels : List String) (n : Node) : Prop where
  reserved : ∀ m ∈ n.nodes, ∀ x ∈ elementName? m, S.reserved (iteratorName x)
  breaks : ∀ ls ∈ elementLabels n labels, ∀ l ∈ ls, ¬ S.leaves.breaks (some l)
  single : S.tight = true → ∀ ls ∈ elementLabels n labels, ls.length ≤ 1

def anyLabel (_ : String) : Prop := True

section

variable {S : Setting} {t : Tag} {s : Shape Node}

lemma ElementsFit.body {ls : List String} (h : ElementsFit S ls (.mk t s))
    (hs : labeledBody? s = none) {c : Node} (hc : c ∈ s.bodies) : ElementsFit S [] c where
  reserved := (Node.forall_nodes_mk.mp h.reserved).2 c (Shape.mem_children_iff.mpr (.inr hc))
  breaks k hk := h.breaks k (elementLabels_body hs hc ls hk)
  single ht k hk := h.single ht k (elementLabels_body hs hc ls hk)

lemma ElementsFit.labeled {ls : List String} {l : String} {c : Node}
    (h : ElementsFit S ls (.mk t (.labeled l c))) : ElementsFit S (ls ++ [l]) c where
  reserved := (Node.forall_nodes_mk.mp h.reserved).2 c List.mem_cons_self
  breaks := h.breaks
  single := h.single

lemma keptEach {body new : Node} (hown : ¬ IsOwnBlock body → ¬ IsOwnBlock new)
    (h : Carries S anyLabel anyLabel body new) :
    ∃ ss, (ss = [body] ∨ ∃ tb, body = .mk tb (.block ss)) ∧
      (keptBlock new).2.length = ss.length ∧
      ∀ (i : Nat) (n n' : Node), ss[i]? = some n → (keptBlock new).2[i]? = some n' →
        ∀ {routes}, Suits S anyLabel routes (fun _ => True) [] body →
          Lowers S anyLabel routes (fun _ => True) [] n n' := by
  by_cases hbody : IsOwnBlock body
  · obtain ⟨tb, ss, rfl, ht⟩ := hbody
    obtain ⟨ss', rfl, hlen, hstatements⟩ := h.statements rfl
    rw [keptBlock_ownBlock ss' ht]
    refine ⟨ss, .inr ⟨tb, rfl⟩, hlen, fun i n n' hn hn' routes hsuits => ?_⟩
    have hmem := List.mem_of_getElem? hn
    refine hstatements i n n' hn hn' (hsuits.inner (s := .block ss) hmem (fun x hx => ?_)
      (fun _ _ h => h) hsuits.breaks)
    refine hsuits.exits x ?_
    rw [Node.exits_block]
    exact List.mem_flatMap.mpr ⟨n, hmem, hx⟩
  · rw [keptBlock_of_not_ownBlock (hown hbody)]
    refine ⟨[body], .inl rfl, rfl, fun i n n' hn hn' routes hsuits => ?_⟩
    cases i with
    | succ i => cases hn
    | zero =>
      obtain rfl := Option.some.inj hn
      obtain rfl := Option.some.inj hn'
      exact h.lowers hsuits

lemma carries_forEachAsWhile {labels : List (Tag × String)} {var iterable body new : Node}
    (helement : var.IsElement) (hS : EachSetting S)
    (hfit : ElementsFit S (labels.map (·.2)) (.mk t (.forEach var iterable body)))
    (hown : ¬ IsOwnBlock body → ¬ IsOwnBlock new) (h : Carries S anyLabel anyLabel body new) :
    Carries S anyLabel anyLabel (underLabels labels (.mk t (.forEach var iterable body)))
      (forEachAsWhile (labels.map (·.2)) (.mk t (.forEach var iterable new))) := by
  have hshape : ∀ ss, (underLabels labels (.mk t (.forEach var iterable body))).shape ≠
      .block ss := by cases labels <;> rintro _ ⟨⟩
  have hcatch : ∀ mods name types b,
      (underLabels labels (.mk t (.forEach var iterable body))).shape ≠
        .catchClause mods name types b := by cases labels <;> rintro _ _ _ _ ⟨⟩
  obtain ⟨tv, mods, type, td, x, -, rfl⟩ := helement
  obtain ⟨ss, hkeeps, hlen, hlowers⟩ := keptEach hown h
  refine carries_of_lowers hshape hcatch (by rintro _ _ _ _ ⟨⟩) fun routes names hsuits => ?_
  have hloop := hsuits.under
  have hbody := hloop.anywhere.loop (by rintro _ ⟨⟩) List.mem_cons_self rfl
  have hmem : labels.map (·.2) ∈ elementLabels (.mk t (.forEach
      (.mk tv (.localVar mods type [.mk td (.declarator x 0 none)])) iterable body))
        (labels.map (·.2)) := List.mem_cons_self
  have head : EachHead S anyLabel routes labels x iterable := {
    foreign := hS.foreign
    breaks := fun l hl => hfit.breaks _ hmem l.2 (List.mem_map_of_mem hl)
    bound := fun _ _ => trivial
    turns := fun l _ c => hsuits.turns c l.2
    avoids := hloop.avoids.child (Shape.mem_children_iff.mpr
      (.inl (List.mem_cons_of_mem _ List.mem_cons_self)))
    reserved := (Node.forall_nodes_mk.mp hfit.reserved).1 x rfl
    factor := hS.factor
    single := fun ht => by simpa using hfit.single ht _ hmem }
  rw [forEachAsWhile_mk]
  exact .forEachAsWhile head hkeeps hlen fun i n n' hn hn' => hlowers i n n' hn hn' hbody

theorem carries_eachOf {n : Node} (h : n.WellPlaced) (labels : List (Tag × String))
    (hS : EachSetting S) (hfit : ElementsFit S (labels.map (·.2)) n) :
    Carries S anyLabel anyLabel (underLabels labels n) (eachOf n labels) := by
  induction h generalizing labels with
  | @mk t s head phrases bodies ih =>
    cases hs : labeledBody? s with
    | some p =>
      obtain rfl := labeledBody?_eq_some.mp hs
      have hlabels : underLabels labels (.mk t (.labeled p.1 p.2)) =
          underLabels (labels ++ [(t, p.1)]) p.2 := (underLabels_append labels [(t, p.1)] p.2).symm
      rw [hlabels, eachOf_labeled]
      refine ih _ List.mem_cons_self _ ?_
      rw [List.map_append]
      exact hfit.labeled
    | none =>
      have hbody : ∀ c ∈ s.bodies, Carries S anyLabel anyLabel c (eachOf c []) :=
        fun c hc => ih c hc [] (hfit.body hs hc)
      cases heach : isForEach s with
      | true =>
        cases s with
        | forEach var iterable body =>
          have hvar := phrases var List.mem_cons_self
          have hiterable := phrases iterable (List.mem_cons_of_mem _ List.mem_cons_self)
          have hmem : body ∈ (Shape.forEach var iterable body).bodies := List.mem_cons_self
          rw [eachOf_forEach hvar hiterable]
          exact carries_forEachAsWhile head hS hfit
            (fun hnot => not_ownBlock_eachOf (bodies body hmem) fun _ => hnot) (hbody body hmem)
        | _ => cases heach
      | false =>
        rw [eachOf_mk hs heach]
        refine carries_mapAt hs (fun _ => id) (fun c hc hphrase => ?_) fun c hc hpart => ?_
        · exact eachOf_of_quiet (phrases c.2 hphrase) []
        · exact hbody c.2 hpart

end

def elementNames (tree : Node) : List String := tree.nodes.filterMap elementName?

/-- The rules under which the pass keeps what a program does: nothing uses the name of an iterator,
and no jump to the label of a loop over elements leaves its routine. -/
structure EachRules (tree : Node) : Prop where
  names : ∀ x ∈ elementNames tree, iteratorName x ∉ tree.names
  jumps : ∀ n ∈ tree.nodes, ∀ b ∈ memberBodies n, ∀ l ∈ (elementLabels tree []).flatten,
    .breakTo (some l) ∉ b.exits []

instance (tree : Node) : Decidable (EachRules tree) :=
  decidable_of_iff ((∀ x ∈ elementNames tree, iteratorName x ∉ tree.names) ∧
    ∀ n ∈ tree.nodes, ∀ b ∈ memberBodies n, ∀ l ∈ (elementLabels tree []).flatten,
      .breakTo (some l) ∉ b.exits [])
    ⟨fun ⟨names, jumps⟩ => ⟨names, jumps⟩, fun h => ⟨h.names, h.jumps⟩⟩

/-- Each loop over elements has at most one label. -/
def SingleLabels (tree : Node) : Prop := ∀ ls ∈ elementLabels tree [], ls.length ≤ 1

instance (tree : Node) : Decidable (SingleLabels tree) :=
  inferInstanceAs (Decidable (∀ ls ∈ elementLabels tree [], ls.length ≤ 1))

def eachSetting (tree : Node) (limit limit' : Int) (strict tight : Bool)
    (h : strict = true → 3 * limit ≤ limit') : Setting where
  limit := limit
  limit' := limit'
  factor := 3
  strict := strict
  tight := tight
  forbidden _ := true
  leaves :=
    { breaks := fun b => ∀ l ∈ b, l ∉ (elementLabels tree []).flatten, stays := fun _ => True }
  reserved m := ∃ x ∈ elementNames tree, m = iteratorName x
  one_le_factor := by decide
  limit_le := h
  leaves_turns _ _ h := h
  forbids_creation := rfl
  forbids_binding := rfl

structure Inside (tree n : Node) : Prop where
  names : n.names ⊆ tree.names
  nodes : n.nodes ⊆ tree.nodes
  labels : elementLabels n [] ⊆ elementLabels tree []

lemma hereditary_inside (tree : Node) : Hereditary (Inside tree) := by
  intro t s hs h c hc
  have hmem := Shape.mem_children_iff.mpr (.inr hc)
  have hlabel : labeledBody? s = none := by cases s <;> first | rfl | cases hs
  refine ⟨fun m hm => h.names (Node.names_subset hmem hm), fun m hm => h.nodes ?_,
    fun ls hls => h.labels (elementLabels_body hlabel hc [] hls)⟩
  rw [Node.nodes_mk]
  exact List.mem_cons_of_mem _ (List.mem_flatMap.mpr ⟨c, hmem, hm⟩)

section

variable {tree : Node} {limit limit' : Int} {strict tight : Bool}
  {hlimit : strict = true → 3 * limit ≤ limit'}

lemma elementsFit_inside {b : Node} (h : Inside tree b)
    (hsingle : tight = true → SingleLabels tree) :
    ElementsFit (eachSetting tree limit limit' strict tight hlimit) [] b where
  reserved m hm x hx := ⟨x, List.mem_filterMap.mpr ⟨m, h.nodes hm, hx⟩, rfl⟩
  breaks ls hls l hl hleaves := hleaves l rfl (List.mem_flatten.mpr ⟨ls, h.labels hls, hl⟩)
  single ht ls hls := hsingle ht ls (h.labels hls)

lemma body_eachLowers {b : Node} (hplaced : b.WellPlaced) (hrules : EachRules tree)
    (h : Inside tree b)
    (hjumps : ∀ l ∈ (elementLabels tree []).flatten, .breakTo (some l) ∉ b.exits [])
    (hsingle : tight = true → SingleLabels tree) :
    BodyLowers (eachSetting tree limit limit' strict tight hlimit) b (eachOf b []) := by
  have hcarries := carries_eachOf (S := eachSetting tree limit limit' strict tight hlimit)
    hplaced [] ⟨rfl, le_rfl⟩ (elementsFit_inside h hsingle)
  refine ⟨_, hcarries.lowers ⟨fun m hm ⟨x, hx, heq⟩ => ?_, fun _ _ => trivial, fun x hx => ?_,
    fun _ _ => id, fun _ _ => trivial, .inl fun _ => trivial⟩⟩
  · exact hrules.names x hx (heq ▸ h.names hm)
  · cases x with
    | breakTo l => exact fun k hk hmem => hjumps k hmem (Option.mem_def.mp hk ▸ hx)
    | continueTo l => trivial
    | returned => trivial

end

lemma exists_room (limit : Int) (size size' : Nat) :
    ∃ more : Int, 3 * limit ≤ more ∧ 6 * depthFor limit size ≤ depthFor more size' := by
  refine ⟨(3 * limit.toNat + 6 * depthFor limit size : Nat), by omega, ?_⟩
  have hle : ∀ n : Nat, n ≤ depthFor n size' := fun n =>
    (Nat.le_add_right n 2).trans
      ((Nat.le_mul_of_pos_right _ (by omega)).trans (Nat.le_add_right _ _))
  exact (Nat.le_add_left _ _).trans (hle _)

lemma forEachLoops_lowers {source : String} {tree : Node} (h : parse .unit source = .ok tree)
    (hrules : EachRules tree) : ∃ p p', Program.ofTree tree = .ok p ∧
      Program.ofTree (eachOf tree []) = .ok p' ∧
        ∀ limit limit' strict tight hlimit, (tight = true → SingleLabels tree) →
          ProgramLowers (eachSetting tree limit limit' strict tight hlimit) p p' := by
  have hH := hereditary_wellPlaced.and (hereditary_inside tree)
  obtain ⟨p, p', hp, hp', hpassed⟩ := program_passed passing_eachOf hH (treeOf_parse h)
    ⟨wellPlaced_of_parse h, ⟨fun _ => id, fun _ => id, fun _ => id⟩⟩ rfl
  refine ⟨p, p', hp, hp', fun limit limit' strict tight hlimit hsingle => ?_⟩
  refine program_lowers passing_eachOf hH (fun n hn => hn.1) hpassed
    fun n hn b hb hbody b' hb' => ?_
  subst hb'
  have hmem : n ∈ tree.nodes := hn.2.nodes (by simp [Node.nodes_eq])
  exact body_eachLowers hbody.1 hrules hbody.2 (hrules.jumps n hmem b hb) hsingle

end Machine

namespace Lowering

open Machine

/-- If a run meets no bound and no incident, then the run after the pass over the loops over elements
can be given room enough, and whenever it has room it prints the same and ends in the same way. It
counts at least as many steps if no loop has two labels: a failure before the loop finds fewer labels
around it. Without incidents every loop runs over a list or null and not over the word `super`, and no
failure leaves the frame of another call or of the initialization of an object behind. Objects are
shown by the order in which they came; addresses that a program prints are not compared. -/
theorem run_forEachLoops {source : String} {tree : Node} (h : parse .unit source = .ok tree)
    (hrules : EachRules tree) : ∃ new, forEachLoops tree = .ok new ∧
      ∀ method className limit,
        (runTree tree limit method className).state.incidents = [] →
        (runTree tree limit method className).Within limit →
          (∃ limit', (runTree new limit' method className).Within limit') ∧
          ∀ limit', (runTree new limit' method className).Within limit' →
            (runTree tree limit method className).Alike (runTree new limit' method className) ∧
            (SingleLabels tree → (runTree tree limit method className).state.steps ≤
              (runTree new limit' method className).state.steps) := by
  obtain ⟨p, p', hp, hp', hlowers⟩ := forEachLoops_lowers h hrules
  refine ⟨_, forEachLoops_eq_eachOf (wellPlaced_of_parse h),
    fun method className limit hincidents hwithin => ?_⟩
  simp only [runTree, hp, hp', Setup.execute_eq_executeAt] at hincidents hwithin ⊢
  have hintact : ∀ limit' strict tight hlimit,
      ¬ (eachSetting tree limit limit' strict tight hlimit).Lost
        (Setup.executeAt ⟨p, limit⟩ (depthFor limit p.size) method className).state := by
    rintro limit' strict tight hlimit (hspent | ⟨i, hi, -⟩)
    · exact hwithin.steps hspent
    · rw [hincidents] at hi
      cases hi
  refine ⟨?_, fun limit' hwithin' => ⟨?_, fun hsingle => ?_⟩⟩
  · obtain ⟨more, hsteps, hdepth⟩ := exists_room limit p.size p'.size
    have hcompares : Outcome.Compares (eachSetting tree limit more true false fun _ => hsteps)
        (Setup.executeAt ⟨p, limit⟩ (depthFor limit p.size) method className)
        (Setup.executeAt ⟨p', more⟩ (depthFor more p'.size) method className) :=
      Setup.executeAt_compares (hlowers limit more true false (fun _ => hsteps) (by rintro ⟨⟩))
        (fun _ => hdepth) method className hwithin.nesting (hintact _ _ _ _) (.inl rfl)
    refine ⟨more, fun hspent => hwithin.steps ?_, hcompares.nesting⟩
    have hupper : _ ≤ 3 * _ := hcompares.upper
    unfold spent at hspent ⊢
    omega
  · exact (Setup.executeAt_compares (hlowers limit limit' false false (by rintro ⟨⟩) (by rintro ⟨⟩))
      (by rintro ⟨⟩) method className hwithin.nesting (hintact _ _ _ _) (.inr hwithin')).alike
  · exact (Setup.executeAt_compares
      (hlowers limit limit' false true (by rintro ⟨⟩) fun _ => hsingle)
      (by rintro ⟨⟩) method className hwithin.nesting (hintact _ _ _ _) (.inr hwithin')).lower rfl

theorem run_forEachLoops_growing : ∃ tree new, parse .unit
      "class A { void main() { List xs = new ArrayList(); xs.add(1); a: for (int x : xs) { if (x > 3) break a; xs.add(x + x); System.out.print(x); } } }" =
        .ok tree ∧
    EachRules tree ∧ forEachLoops tree = .ok new ∧
      (runTree tree 100 "main" none).state.incidents = [] ∧
      (runTree tree 100 "main" none).Within 100 ∧
      (∃ limit, (runTree new limit "main" none).Within limit) ∧
      (runTree new 100 "main" none).Within 100 ∧ SingleLabels tree ∧
      (runTree tree 100 "main" none).state.out = "12" ∧
      (runTree tree 100 "main" none).Alike (runTree new 100 "main" none) ∧
      (runTree tree 100 "main" none).state.steps ≤ (runTree new 100 "main" none).state.steps := by
  have hread : ((parse .unit
      "class A { void main() { List xs = new ArrayList(); xs.add(1); a: for (int x : xs) { if (x > 3) break a; xs.add(x + x); System.out.print(x); } } }"
        ).toOption.any fun tree => (forEachLoops tree).toOption.any fun new =>
          decide (EachRules tree) && decide (SingleLabels tree) &&
            decide ((runTree tree 100 "main" none).state.incidents = []) &&
            (runTree tree 100 "main" none).staysWithin 100 &&
            (runTree new 100 "main" none).staysWithin 100 &&
            decide ((runTree tree 100 "main" none).state.out = "12")) = true := by
    decide +kernel
  obtain ⟨tree, htree, hread⟩ := (Option.any_eq_true _ _).mp hread
  obtain ⟨new, hnew, hrun⟩ := (Option.any_eq_true _ _).mp hread
  simp only [Bool.and_eq_true, decide_eq_true_eq] at hrun
  obtain ⟨⟨⟨⟨⟨hrules, hsingle⟩, hincidents⟩, hwithin⟩, hwithin'⟩, hout⟩ := hrun
  have hparse := eq_ok_of_toOption htree
  have hnew := eq_ok_of_toOption hnew
  have hwithin := Outcome.within_of_staysWithin hwithin
  have hwithin' := Outcome.within_of_staysWithin hwithin'
  obtain ⟨_, heq, hall⟩ := run_forEachLoops hparse hrules
  obtain rfl := Except.ok.inj (hnew.symm.trans heq)
  obtain ⟨hroom, hsame⟩ := hall "main" none 100 hincidents hwithin
  obtain ⟨halike, hsteps⟩ := hsame 100 hwithin'
  exact ⟨tree, new, hparse, hrules, hnew, hincidents, hwithin, hroom, hwithin', hsingle, hout,
    halike, hsteps hsingle⟩

/-- The labels of the loop go behind the step that gets the iterator: the block makes up for one of
the two that were counted before the failure, and a jump out of the head of the loop passes its
label. -/
theorem run_forEachLoops_relabelled :
    (∃ tree new, parse .unit
        "class A { void main() { List xs = null; a: b: for (int x : xs) ; } }" = .ok tree ∧
      EachRules tree ∧ forEachLoops tree = .ok new ∧
        (runTree tree 100 "main" none).state.incidents = [] ∧
        (runTree tree 100 "main" none).Within 100 ∧ (runTree new 100 "main" none).Within 100 ∧
        (runTree new 100 "main" none).state.steps < (runTree tree 100 "main" none).state.steps) ∧
    ∃ tree new, parse .unit
        "class A { List f() { break a; } void main() { a: for (int x : f()) ; System.out.print(1); } }" =
          .ok tree ∧
      (∀ x ∈ elementNames tree, Loops.iteratorName x ∉ tree.names) ∧ forEachLoops tree = .ok new ∧
        (runTree tree 100 "main" none).state.incidents = [] ∧
        (runTree tree 100 "main" none).Within 100 ∧ (runTree new 100 "main" none).Within 100 ∧
        (runTree tree 100 "main" none).state.out = "1" ∧
        (runTree new 100 "main" none).state.out = "" := by
  constructor
  · have hread : ((parse .unit
        "class A { void main() { List xs = null; a: b: for (int x : xs) ; } }"
          ).toOption.any fun tree => (forEachLoops tree).toOption.any fun new =>
            decide (EachRules tree) &&
            decide ((runTree tree 100 "main" none).state.incidents = []) &&
            (runTree tree 100 "main" none).staysWithin 100 &&
            (runTree new 100 "main" none).staysWithin 100 &&
            decide ((runTree new 100 "main" none).state.steps <
              (runTree tree 100 "main" none).state.steps)) = true := by
      decide +kernel
    obtain ⟨tree, htree, hread⟩ := (Option.any_eq_true _ _).mp hread
    obtain ⟨new, hnew, hrun⟩ := (Option.any_eq_true _ _).mp hread
    simp only [Bool.and_eq_true, decide_eq_true_eq] at hrun
    obtain ⟨⟨⟨⟨hrules, hincidents⟩, hwithin⟩, hwithin'⟩, hsteps⟩ := hrun
    exact ⟨tree, new, eq_ok_of_toOption htree, hrules, eq_ok_of_toOption hnew, hincidents,
      Outcome.within_of_staysWithin hwithin, Outcome.within_of_staysWithin hwithin', hsteps⟩
  · have hread : ((parse .unit
        "class A { List f() { break a; } void main() { a: for (int x : f()) ; System.out.print(1); } }"
          ).toOption.any fun tree => (forEachLoops tree).toOption.any fun new =>
            decide (∀ x ∈ elementNames tree, Loops.iteratorName x ∉ tree.names) &&
            decide ((runTree tree 100 "main" none).state.incidents = []) &&
            (runTree tree 100 "main" none).staysWithin 100 &&
            (runTree new 100 "main" none).staysWithin 100 &&
            decide ((runTree tree 100 "main" none).state.out = "1") &&
            decide ((runTree new 100 "main" none).state.out = "")) = true := by
      decide +kernel
    obtain ⟨tree, htree, hread⟩ := (Option.any_eq_true _ _).mp hread
    obtain ⟨new, hnew, hrun⟩ := (Option.any_eq_true _ _).mp hread
    simp only [Bool.and_eq_true, decide_eq_true_eq] at hrun
    obtain ⟨⟨⟨⟨⟨hnames, hincidents⟩, hwithin⟩, hwithin'⟩, hout⟩, hout'⟩ := hrun
    exact ⟨tree, new, eq_ok_of_toOption htree, hnames, eq_ok_of_toOption hnew, hincidents,
      Outcome.within_of_staysWithin hwithin, Outcome.within_of_staysWithin hwithin', hout, hout'⟩

end Lowering

end LoopLowering
