import LoopLowering.Proofs.Loops.Placement
import LoopLowering.Proofs.Tree.Nodes

/-! The loops, labels and jumps of a tree in the order of the text, each jump with the place where
it goes. A loop or label is known by the number of loops and labels around it. The labels with which
a pass guards the body of a loop are not seen; a jump to one goes to the end of that body. -/

namespace LoopLowering.Loops

inductive Jump where
  | breakTo (label : Option String)
  | continueTo (label : Option String)
  deriving DecidableEq

inductive Goal where
  | lost
  | behind (depth : Nat)
  | bodyEnd (depth : Nat) (left : List Node)

inductive Head where
  | testedBefore (cond : Node)
  | testedAfter (cond : Node)
  | elements (iterable : Node)

inductive Landmark where
  | loop (depth : Nat) (head : Head)
  | label (depth : Nat) (name : String)
  | jump (goal : Goal)

def Landmark.leaves : Landmark → Bool
  | .jump (.behind _) => true
  | _ => false

structure Scene where
  depth : Nat := 0
  goals : Jump → Goal := fun _ => .lost
  labels : List String := []
  guard : Option (String × Goal) := none

def isBodyLabel (l : String) : Bool := "forBody".toList.isPrefixOf l.toList

def expression? (n : Node) : Option Node :=
  match n.shape with
  | .exprStmt e => some e
  | _ => none

def guard? (body : Node) : Option (String × List Node) :=
  match body.shape with
  | .block (first :: after) => do
    let l ← (label? first).filter isBodyLabel
    return (l, ← after.mapM expression?)
  | _ => none

namespace Scene

variable (sc : Scene)

def inLoop (update : List Node) (body : Node) : Scene where
  depth := sc.depth + 1
  goals
    | .breakTo none => .behind sc.depth
    | .continueTo none => .bodyEnd sc.depth update
    | .continueTo (some l) =>
      if l ∈ sc.labels then .bodyEnd sc.depth update else sc.goals (.continueTo (some l))
    | j => sc.goals j
  guard := (guard? body).map fun g => (g.1, .bodyEnd sc.depth g.2)

def leaving (l : String) (goal : Goal) : Jump → Goal :=
  fun j => if j = .breakTo (some l) then goal else sc.goals j

def underLabel (l : String) : Scene :=
  match sc.guard.filter (·.1 = l) with
  | some g => { depth := sc.depth, goals := sc.leaving l g.2 }
  | none =>
    { depth := sc.depth + 1, goals := sc.leaving l (.behind sc.depth), labels := sc.labels ++ [l] }

lemma underLabel_of_no_guard (h : sc.guard = none) (l : String) :
    sc.underLabel l =
      { depth := sc.depth + 1, goals := sc.leaving l (.behind sc.depth),
        labels := sc.labels ++ [l] } := by
  simp [underLabel, h]

lemma underLabel_of_guard {l : String} {goal : Goal} (h : sc.guard = some (l, goal)) :
    sc.underLabel l = { depth := sc.depth, goals := sc.leaving l goal } := by
  have hfilter : sc.guard.filter (·.1 = l) = some (l, goal) := by
    rw [h]
    exact Option.filter_some_pos (by simp)
  rw [underLabel, hfilter]

def into : Shape Node → Scene
  | .labeled l _ => sc.underLabel l
  | .forLoop _ _ update body => sc.inLoop update body
  | .whileLoop _ body | .doWhile body _ | .forEach _ _ body => sc.inLoop [] body
  | .block _ => { sc with labels := [] }
  | s => if s.isStatement then { sc with labels := [], guard := none } else { depth := sc.depth }

def marks : Shape Node → List Landmark
  | .breakStmt l => [.jump (sc.goals (.breakTo l))]
  | .continueStmt l => [.jump (sc.goals (.continueTo l))]
  | .labeled l _ => if (sc.guard.filter (·.1 = l)).isSome then [] else [.label sc.depth l]
  | .forLoop _ cond _ _ =>
    [.loop sc.depth (.testedBefore (cond.getD (.plain (.literal (.bool true) .boolean))))]
  | .whileLoop cond _ => [.loop sc.depth (.testedBefore cond)]
  | .doWhile _ cond => [.loop sc.depth (.testedAfter cond)]
  | .forEach _ iterable _ => [.loop sc.depth (.elements iterable)]
  | _ => []

end Scene

def surveyed : Node → Node × (Scene → List Landmark) :=
  Node.fold fun t s =>
    let s' := s.map (·.1)
    (.mk t s', fun sc => sc.marks s' ++ s.bodies.flatMap (·.2 (sc.into s')))

def survey (n : Node) (sc : Scene) : List Landmark := (surveyed n).2 sc

/-- The landmarks of a whole tree. -/
def landmarks (n : Node) : List Landmark := survey n {}

lemma surveyed_fst (n : Node) : (surveyed n).1 = n := by
  induction n using Node.children_induction with
  | h t s ih =>
    rw [surveyed, Node.fold_mk, Shape.map, Shape.map, Shape.mapAt_mapAt]
    exact congrArg (Node.mk t) (Shape.map_eq_self ih)

lemma survey_mk (t : Tag) (s : Shape Node) (sc : Scene) :
    survey (.mk t s) sc = sc.marks s ++ s.bodies.flatMap (survey · (sc.into s)) := by
  have hs : (s.map surveyed).map (·.1) = s := by
    rw [Shape.map, Shape.map, Shape.mapAt_mapAt]
    exact Shape.map_eq_self fun c _ => surveyed_fst c
  rw [survey, surveyed, Node.fold_mk]
  show sc.marks ((s.map surveyed).map (·.1)) ++
    (s.map surveyed).bodies.flatMap (·.2 (sc.into ((s.map surveyed).map (·.1)))) = _
  rw [hs, Shape.bodies_map, List.flatMap_map]
  rfl

section

variable (t : Tag) (sc : Scene)

lemma survey_of_no_bodies {s : Shape Node} (hmarks : sc.marks s = []) (hbodies : s.bodies = []) :
    survey (.mk t s) sc = [] := by
  rw [survey_mk, hmarks, hbodies]
  rfl

lemma survey_block (ss : List Node) (h : sc.labels = []) :
    survey (.mk t (.block ss)) sc = ss.flatMap (survey · sc) := by
  have hinto : sc.into (.block ss) = sc := by
    show { sc with labels := [] } = sc
    rw [← h]
  rw [survey_mk, hinto]
  rfl

lemma survey_labeled (l : String) (body : Node) :
    survey (.mk t (.labeled l body)) sc =
      sc.marks (.labeled l body) ++ survey body (sc.underLabel l) := by
  rw [survey_mk]
  exact congrArg _ (List.append_nil _)

lemma survey_labeled_of_guard {l : String} {goal : Goal} (h : sc.guard = some (l, goal))
    (body : Node) :
    survey (.mk t (.labeled l body)) sc =
      survey body { depth := sc.depth, goals := sc.leaving l goal } := by
  rw [survey_labeled, sc.underLabel_of_guard h]
  have hmarks : sc.marks (.labeled l body) = [] := by
    simp [Scene.marks, h, Option.filter_some]
  rw [hmarks, List.nil_append]

lemma survey_whileLoop (cond body : Node) :
    survey (.mk t (.whileLoop cond body)) sc =
      .loop sc.depth (.testedBefore cond) :: survey body (sc.inLoop [] body) := by
  rw [survey_mk]
  exact congrArg (_ :: ·) (List.append_nil _)

lemma survey_forLoop (init : List Node) (cond : Option Node) (update : List Node) (body : Node) :
    survey (.mk t (.forLoop init cond update body)) sc =
      .loop sc.depth (.testedBefore (cond.getD (.plain (.literal (.bool true) .boolean)))) ::
        survey body (sc.inLoop update body) := by
  rw [survey_mk]
  exact congrArg (_ :: ·) (List.append_nil _)

end

lemma survey_statementsOf (n : Node) (sc : Scene) :
    (statementsOf n).flatMap (survey · sc) = [] := by
  unfold statementsOf
  split
  · refine List.flatMap_eq_nil_iff.mpr fun m hm => ?_
    obtain ⟨i, hi, rfl⟩ := List.mem_mapIdx.mp hm
    exact survey_of_no_bodies _ sc rfl rfl
  · rw [List.flatMap_singleton]
    exact survey_of_no_bodies _ sc rfl rfl

lemma survey_exprStmts (es : List Node) (sc : Scene) :
    (es.map fun e => Node.plain (.exprStmt e)).flatMap (survey · sc) = [] := by
  refine List.flatMap_eq_nil_iff.mpr fun m hm => ?_
  obtain ⟨e, -, rfl⟩ := List.mem_map.mp hm
  exact survey_of_no_bodies _ sc rfl rfl

section

variable {α : Type} {p : Shape α} {g h : α → Node} (sc : Scene)

lemma marks_map (hphrases : ∀ c ∈ p.phrases, g c = h c) :
    sc.marks (p.map g) = sc.marks (p.map h) := by
  cases p with
  | forLoop init cond update body =>
    have hcond : cond.map g = cond.map h :=
      Option.map_congr fun c hc => hphrases c (by simp [Shape.phrases, hc])
    simp [Shape.map, Shape.mapAt, Scene.marks, hcond]
  | whileLoop cond body =>
    simp [Shape.map, Shape.mapAt, Scene.marks, hphrases cond (by simp [Shape.phrases])]
  | doWhile body cond =>
    simp [Shape.map, Shape.mapAt, Scene.marks, hphrases cond (by simp [Shape.phrases])]
  | forEach var iterable body =>
    simp [Shape.map, Shape.mapAt, Scene.marks, hphrases iterable (by simp [Shape.phrases])]
  | _ => rfl

lemma into_map (hphrases : ∀ c ∈ p.phrases, g c = h c)
    (hguard : ∀ c ∈ p.bodies, guard? (g c) = guard? (h c)) :
    sc.into (p.map g) = sc.into (p.map h) := by
  cases p with
  | forLoop init cond update body =>
    have hupdate : update.map g = update.map h :=
      List.map_congr_left fun c hc => hphrases c (by simp [Shape.phrases, hc])
    simp [Shape.map, Shape.mapAt, Scene.into, Scene.inLoop, mapIdx_const, hupdate,
      hguard body (by simp [Shape.bodies])]
  | whileLoop cond body =>
    simp [Shape.map, Shape.mapAt, Scene.into, Scene.inLoop, hguard body (by simp [Shape.bodies])]
  | doWhile body cond =>
    simp [Shape.map, Shape.mapAt, Scene.into, Scene.inLoop, hguard body (by simp [Shape.bodies])]
  | forEach var iterable body =>
    simp [Shape.map, Shape.mapAt, Scene.into, Scene.inLoop, hguard body (by simp [Shape.bodies])]
  | _ => rfl

lemma survey_map (t : Tag) (hphrases : ∀ c ∈ p.phrases, g c = h c)
    (hguard : ∀ c ∈ p.bodies, guard? (g c) = guard? (h c))
    (hbodies : ∀ c ∈ p.bodies,
      survey (g c) (sc.into (p.map h)) = survey (h c) (sc.into (p.map h))) :
    survey (.mk t (p.map g)) sc = survey (.mk t (p.map h)) sc := by
  rw [survey_mk, survey_mk, marks_map sc hphrases, into_map sc hphrases hguard, Shape.bodies_map,
    Shape.bodies_map, List.flatMap_map, List.flatMap_map]
  exact congrArg _ (List.flatMap_congr hbodies)

end

lemma survey_underLabels_congr {labels labels' : List (Tag × String)}
    (hnames : labels.map (·.2) = labels'.map (·.2)) {a b : Node} {sc : Scene}
    (hguard : sc.guard = none)
    (h : ∀ sc', sc'.labels = sc.labels ++ labels.map (·.2) → sc'.guard = none →
      survey a sc' = survey b sc') :
    survey (underLabels labels a) sc = survey (underLabels labels' b) sc := by
  induction labels generalizing labels' sc with
  | nil =>
    obtain rfl : labels' = [] := by simpa using hnames.symm
    exact h sc (by simp) hguard
  | cons l labels ih =>
    obtain ⟨l', labels', rfl⟩ : ∃ l' ls, labels' = l' :: ls := by
      cases labels' with
      | nil => simp at hnames
      | cons l' ls => exact ⟨l', ls, rfl⟩
    have hl : l.2 = l'.2 := (List.cons.inj hnames).1
    rw [underLabels_cons, underLabels_cons, survey_labeled, survey_labeled, ← hl,
      sc.underLabel_of_no_guard hguard]
    congr 1
    exact ih (List.cons.inj hnames).2 rfl fun sc' hlabels => h sc' (by simpa using hlabels)

end LoopLowering.Loops
