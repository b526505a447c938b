import LoopLowering.Proofs.Workspace.Lowering

/-! What the names in a tree stand for: local variables by the rules of scopes, or fields. The pass
over the loops with a head of three parts moves the parts of a head to other scopes, and each name
in them keeps its meaning. -/

namespace LoopLowering

namespace Loops

abbrev Sight := List (String × Nat)

/-- A name in an expression: the node, the local variable that it stands for or none for a field,
and the declarations of classes and members around it, which say whose field. -/
structure Use where
  id : Nat
  name : String
  declaration : Option Nat
  around : List Nat
  deriving DecidableEq

/-- What a node means for names: the variable that a declarator or a parameter introduces, the
variables that a statement adds to the scope it stands in, and the names that are used, given what
is in sight. -/
structure Reading where
  introduced : Sight := []
  declared : Sight := []
  uses : Sight → List Use := fun _ => []

namespace Reading

section

variable (adds : Reading → Sight)

def after : List Reading → Sight → Sight
  | [], g => g
  | r :: rs, g => after rs (adds r ++ g)

def inTurn : List Reading → Sight → List Use
  | [], _ => []
  | r :: rs, g => r.uses g ++ inTurn rs (adds r ++ g)

end

def all (rs : List Reading) (g : Sight) : List Use := rs.flatMap (·.uses g)

def inside (t : Tag) (us : List Use) : List Use :=
  us.map fun u => { u with around := t.id :: u.around }

/-- Scopes as the machine opens them: a block, the head of a loop with its body, a handler and a
routine have a scope of their own, and an initial value does not see its own variable. A routine
starts with its parameters only. The updates of a loop are read after its body. -/
def alg : Tag → Shape Reading → Reading
  | t, .ident x => { uses := fun g => [⟨t.id, x, g.lookup x, []⟩] }
  | t, .declarator x _ init => { introduced := [(x, t.id)], uses := all init.toList }
  | t, .parameter _ x _ _ => { introduced := [(x, t.id)] }
  | _, .localVar _ _ ds => { declared := after introduced ds [], uses := inTurn introduced ds }
  | _, .block ss => { uses := inTurn declared ss }
  | t, .catchClause _ x _ body => { uses := fun g => body.uses ((x, t.id) :: g) }
  | _, .forLoop init cond update body =>
    { uses := fun g => inTurn declared init g ++
        all (cond.toList ++ body :: update) (after declared init g) }
  | _, .forEach var iterable body =>
    { uses := fun g => iterable.uses g ++ body.uses (var.declared ++ g) }
  | t, .classDecl _ _ _ _ _ _ members => { uses := fun g => inside t (all members g) }
  | t, .fieldDecl _ _ ds => { uses := fun _ => inside t (all ds []) }
  | t, .initBlock _ body => { uses := fun _ => inside t (body.uses []) }
  | t, .methodDecl _ _ _ _ params _ body =>
    { uses := fun _ => inside t (all body.toList (after introduced params [])) }
  | t, .constructorDecl _ _ params _ body =>
    { uses := fun _ => inside t (body.uses (after introduced params [])) }
  | _, s => { uses := all s.children }

end Reading

open Reading

def reading : Node → Reading := Node.fold Reading.alg

/-- The names used in a tree and what they stand for. -/
def uses (n : Node) : List Use := (reading n).uses []

def declaredNames (n : Node) : List String := (reading n).declared.map (·.1)

/-- Whether a declaration of variables stands only directly in a block or in the head of a loop. -/
def declaresInBlock (n : Node) : Bool :=
  match n.shape with
  | .block _ => true
  | s => s.bodies.all fun c => !c.shape.isDeclaration

def DeclaresInBlocks (n : Node) : Prop := ∀ m ∈ n.nodes, declaresInBlock m = true

instance (n : Node) : Decidable (DeclaresInBlocks n) :=
  inferInstanceAs (Decidable (∀ m ∈ n.nodes, declaresInBlock m = true))

/-- Whether no variable declared directly in the block that is the body of a loop has a name that
the updates of the loop use. -/
def updatesApart (n : Node) : Bool :=
  match n.shape with
  | .forLoop _ _ update (.mk _ (.block ss)) =>
    (ss.flatMap declaredNames).all fun x => update.all fun e => !e.names.contains x
  | _ => true

def UpdatesApart (n : Node) : Prop := ∀ m ∈ n.nodes, updatesApart m = true

instance (n : Node) : Decidable (UpdatesApart n) :=
  inferInstanceAs (Decidable (∀ m ∈ n.nodes, updatesApart m = true))

lemma reading_mk (t : Tag) (s : Shape Node) : reading (.mk t s) = alg t (s.map reading) :=
  Node.fold_mk _ t s

lemma reading_mapAt (t : Tag) {s : Shape Node} {f : Step → Node → Node}
    (h : ∀ c ∈ s.steps, reading (f c.1 c.2) = reading c.2) :
    reading (.mk t (s.mapAt f)) = reading (.mk t s) := by
  rw [reading_mk, reading_mk, Shape.map, Shape.mapAt_mapAt]
  exact congrArg (alg t) (Shape.mapAt_congr h)

namespace Reading

variable (adds : Reading → Sight)

lemma after_eq (rs : List Reading) (g : Sight) : after adds rs g = after adds rs [] ++ g := by
  induction rs generalizing g with
  | nil => rfl
  | cons r rs ih =>
    rw [after, after, ih, ih (adds r ++ []), List.append_nil, List.append_assoc]

lemma after_append (rs qs : List Reading) (g : Sight) :
    after adds (rs ++ qs) g = after adds qs (after adds rs g) := by
  induction rs generalizing g with
  | nil => rfl
  | cons r rs ih => exact ih _

lemma inTurn_append (rs qs : List Reading) (g : Sight) :
    inTurn adds (rs ++ qs) g = inTurn adds rs g ++ inTurn adds qs (after adds rs g) := by
  induction rs generalizing g with
  | nil => rfl
  | cons r rs ih => simp only [List.cons_append, inTurn, after, ih, List.append_assoc]

lemma mem_after {rs : List Reading} {v : String × Nat} (h : v ∈ after adds rs []) :
    ∃ r ∈ rs, v ∈ adds r := by
  induction rs with
  | nil => cases h
  | cons r rs ih =>
    rw [after, after_eq, List.append_nil] at h
    rcases List.mem_append.mp h with h | h
    · obtain ⟨q, hq, hv⟩ := ih h
      exact ⟨q, List.mem_cons_of_mem r hq, hv⟩
    · exact ⟨r, List.mem_cons_self, h⟩

lemma inTurn_of_silent {rs : List Reading} (h : ∀ r ∈ rs, adds r = []) (g : Sight) :
    inTurn adds rs g = all rs g := by
  induction rs with
  | nil => rfl
  | cons r rs ih =>
    obtain ⟨hr, hrs⟩ := List.forall_mem_cons.mp h
    rw [inTurn, hr, List.nil_append, ih hrs]
    rfl

def Agree (names : List String) (g g' : Sight) : Prop :=
  ∀ x ∈ names, g.lookup x = g'.lookup x

def Local (names : List String) (r : Reading) : Prop :=
  ∀ g g', Agree names g g' → r.uses g = r.uses g'

variable {adds} {names : List String} {g g' : Sight}

lemma Agree.append (h : Agree names g g') (p : Sight) : Agree names (p ++ g) (p ++ g') := by
  intro x hx
  rw [List.lookup_append, List.lookup_append, h x hx]

lemma Agree.after (h : Agree names g g') (rs : List Reading) :
    Agree names (after adds rs g) (after adds rs g') := by
  rw [after_eq, after_eq adds rs g']
  exact h.append _

lemma all_local {rs : List Reading} (hrs : ∀ r ∈ rs, Local names r) (h : Agree names g g') :
    all rs g = all rs g' :=
  List.flatMap_congr fun r hr => hrs r hr g g' h

lemma inTurn_local {rs : List Reading} (hrs : ∀ r ∈ rs, Local names r) (h : Agree names g g') :
    inTurn adds rs g = inTurn adds rs g' := by
  induction rs generalizing g g' with
  | nil => rfl
  | cons r rs ih =>
    obtain ⟨hr, hrs⟩ := List.forall_mem_cons.mp hrs
    rw [inTurn, inTurn, hr g g' h, ih hrs (h.append _)]

lemma alg_local {t : Tag} {s : Shape Reading} (hname : ∀ x, s = .ident x → x ∈ names)
    (hchildren : ∀ r ∈ s.children, Local names r) : Local names (alg t s) := by
  intro g g' h
  have hparts : ∀ p ∈ s.parts, ∀ r ∈ p.2.toList, Local names r :=
    fun p hp r hr => hchildren r (List.mem_flatMap.mpr ⟨p, hp, hr⟩)
  cases s with
  | ident x => simp only [alg, h x (hname x rfl)]
  | parameter | fieldDecl | initBlock | methodDecl | constructorDecl => rfl
  | declarator x d init =>
    exact all_local (hparts ("init", .optional init) (by simp [Shape.parts])) h
  | localVar mods type ds =>
    exact inTurn_local (hparts ("declarators", .many ds) (by simp [Shape.parts])) h
  | block ss => exact inTurn_local (hparts ("statements", .many ss) (by simp [Shape.parts])) h
  | catchClause mods x types body =>
    have hbody := hparts ("body", .one body) (by simp [Shape.parts]) body List.mem_cons_self
    exact hbody _ _ (h.append [_])
  | forLoop init cond update body =>
    have hinit := hparts ("init", .many init) (by simp [Shape.parts])
    have hrest : ∀ r ∈ cond.toList ++ body :: update, Local names r :=
      List.forall_mem_append.mpr ⟨hparts ("cond", .optional cond) (by simp [Shape.parts]),
        List.forall_mem_cons.mpr
          ⟨hparts ("body", .one body) (by simp [Shape.parts]) body List.mem_cons_self,
            hparts ("update", .many update) (by simp [Shape.parts])⟩⟩
    exact congrArg₂ (· ++ ·) (inTurn_local hinit h) (all_local hrest (h.after init))
  | forEach var iterable body =>
    have hiterable := hparts ("iterable", .one iterable) (by simp [Shape.parts]) iterable
      List.mem_cons_self
    have hbody := hparts ("body", .one body) (by simp [Shape.parts]) body List.mem_cons_self
    exact congrArg₂ (· ++ ·) (hiterable g g' h) (hbody _ _ (h.append var.declared))
  | classDecl mods kw n tps ex im members =>
    have hmembers := hparts ("members", .many members) (by simp [Shape.parts])
    exact congrArg (inside t) (all_local hmembers h)
  | _ => exact all_local hchildren h

structure Silent (r : Reading) : Prop where
  introduced : r.introduced = []
  declared : r.declared = []

lemma Silent.eq {r : Reading} (h : Silent r) : ({ uses := all [r] } : Reading) = r := by
  obtain ⟨introduced, declared, uses⟩ := r
  obtain ⟨rfl, rfl⟩ := h
  congr 1
  exact funext fun g => List.append_nil _

end Reading

lemma reading_local (n : Node) : Local n.names (reading n) := by
  induction n using Node.children_induction with
  | h t s ih =>
    rw [reading_mk]
    refine alg_local (fun x hx => ?_) fun r hr => ?_
    · cases s <;> cases hx
      exact List.mem_singleton_self x
    · rw [Shape.children_map] at hr
      obtain ⟨c, hc, rfl⟩ := List.mem_map.mp hr
      exact fun g g' h => ih c hc g g' fun x hx => h x (Node.names_subset hc hx)

lemma declared_of_not_declaration {n : Node} (h : n.shape.isDeclaration = false) :
    (reading n).declared = [] := by
  obtain ⟨t, s⟩ := n
  cases s <;> first | rfl | cases h

section

variable (g : Sight)

lemma single_declarators (rs : List Reading) :
    inTurn declared (rs.map fun r => { declared := r.introduced, uses := all [r] }) g =
        inTurn introduced rs g ∧
      after declared (rs.map fun r => { declared := r.introduced, uses := all [r] }) g =
        after introduced rs g := by
  induction rs generalizing g with
  | nil => exact ⟨rfl, rfl⟩
  | cons r rs ih =>
    obtain ⟨huses, hafter⟩ := ih (r.introduced ++ g)
    exact ⟨by simp [inTurn, all, huses], hafter⟩

lemma statementsOf_reading (n : Node) :
    inTurn declared ((statementsOf n).map reading) g = (reading n).uses g ∧
      after declared ((statementsOf n).map reading) g = (reading n).declared ++ g := by
  cases h : n.shape.isDeclaration with
  | false =>
    rw [statementsOf_of_not_declaration h, declared_of_not_declaration h]
    exact ⟨by simp [Node.plain, reading_mk, Shape.map, Shape.mapAt, alg, inTurn, all,
      Shape.children, Shape.parts, Part.toList], rfl⟩
  | true =>
    obtain ⟨t, s⟩ := n
    cases s with
    | localVar mods type ds =>
      have hsingle : (statementsOf (.mk t (.localVar mods type ds))).map reading =
          (ds.map reading).map fun r => { declared := r.introduced, uses := all [r] } := by
        refine List.ext_getElem (by simp [statementsOf]) fun i hi hi' => ?_
        simp [statementsOf, Node.plain, reading_mk, Shape.map, Shape.mapAt, alg, after, inTurn]
        exact funext fun g => (List.append_nil _).symm
      have hreading : reading (.mk t (.localVar mods type ds)) =
          { declared := after introduced (ds.map reading) [],
            uses := inTurn introduced (ds.map reading) } := by
        simp [reading_mk, Shape.map, Shape.mapAt, alg, mapIdx_const]
      rw [hsingle, hreading, ← after_eq]
      exact single_declarators g _
    | _ => cases h

lemma init_reading (init : List Node) :
    inTurn declared ((init.flatMap statementsOf).map reading) g =
        inTurn declared (init.map reading) g ∧
      after declared ((init.flatMap statementsOf).map reading) g =
        after declared (init.map reading) g := by
  induction init generalizing g with
  | nil => exact ⟨rfl, rfl⟩
  | cons n init ih =>
    obtain ⟨huses, hafter⟩ := statementsOf_reading g n
    rw [List.flatMap_cons, List.map_append, inTurn_append, after_append, huses, hafter, (ih _).1,
      (ih _).2]
    exact ⟨rfl, rfl⟩

lemma updates_reading (update : List Node) :
    inTurn declared ((update.map fun e => Node.plain (.exprStmt e)).map reading) g =
      all (update.map reading) g := by
  rw [inTurn_of_silent]
  · simp [all, List.flatMap_map, Node.plain, reading_mk, Shape.map, Shape.mapAt, alg,
      Shape.children, Shape.parts, Part.toList]
  · simp only [List.map_map, List.forall_mem_map]
    exact fun e _ => rfl

end

lemma reading_block (t : Tag) (ss : List Node) :
    reading (.mk t (.block ss)) = { uses := inTurn declared (ss.map reading) } := by
  simp [reading_mk, Shape.map, Shape.mapAt, alg, mapIdx_const]

lemma reading_labeled (t : Tag) (l : String) (n : Node) :
    reading (.mk t (.labeled l n)) = { uses := all [reading n] } := rfl

lemma silent_block (t : Tag) (ss : List Node) : Silent (reading (.mk t (.block ss))) :=
  ⟨by rw [reading_block], by rw [reading_block]⟩

lemma reading_relabel (labels : List String) {n : Node} (h : Silent (reading n)) :
    reading (relabel labels n) = reading n := by
  induction labels with
  | nil => rfl
  | cons l labels ih =>
    rw [relabel, List.foldr_cons, ← relabel, Node.plain, reading_labeled, ih, h.eq]

lemma reading_underLabels_congr (labels : List (Tag × String)) {n new : Node}
    (h : reading new = reading n) :
    reading (underLabels labels new) = reading (underLabels labels n) := by
  induction labels with
  | nil => exact h
  | cons l labels ih =>
    rw [underLabels_cons, underLabels_cons, reading_labeled, reading_labeled, ih]

lemma reading_underLabels (labels : List (Tag × String)) {n : Node} (h : Silent (reading n)) :
    reading (underLabels labels n) = reading n := by
  induction labels with
  | nil => rfl
  | cons l labels ih => rw [underLabels_cons, reading_labeled, ih, h.eq]

lemma reading_retarget (ls : List String) (target : String) (n : Node) (nested : Bool) :
    reading (retarget ls target n nested) = reading n := by
  induction n using Node.children_induction generalizing nested with
  | h t s ih =>
    by_cases hs : ∃ l, s = .continueStmt l
    · obtain ⟨l, rfl⟩ := hs
      rw [retarget_continue]
      split <;> rfl
    · rw [retarget_mk ls target fun l hl => hs ⟨l, hl⟩]
      exact reading_mapAt t fun c hc => ih c.2 (Shape.mem_children.mpr ⟨c.1, hc⟩) _

def keptReadings (n : Node) : List Reading := (keptBlock n).2.map reading

lemma keptBlock_of_not_block {t : Tag} {s : Shape Node} (h : ∀ ss, s ≠ .block ss) :
    keptBlock (.mk t s) = ({}, [.mk t s]) := by
  cases s with
  | block ss => exact absurd rfl (h ss)
  | _ => rfl

lemma uses_eq_kept (n : Node) (g : Sight) :
    (reading n).uses g = inTurn declared (keptReadings n) g := by
  obtain ⟨t, s⟩ := n
  by_cases hs : ∃ ss, s = .block ss
  · obtain ⟨ss, rfl⟩ := hs
    cases h : t.synthetic <;> simp [keptReadings, keptBlock, h, reading_block, inTurn]
  · rw [keptReadings, keptBlock_of_not_block fun ss h => hs ⟨ss, h⟩]
    exact (List.append_nil _).symm

lemma keptReadings_mapAt (t : Tag) {s : Shape Node} {f : Step → Node → Node}
    (h : ∀ c ∈ s.steps, reading (f c.1 c.2) = reading c.2) :
    keptReadings (.mk t (s.mapAt f)) = keptReadings (.mk t s) := by
  have hsame := reading_mapAt t h
  cases s with
  | block ss =>
    cases hsynthetic : t.synthetic with
    | true => simpa [keptReadings, keptBlock, hsynthetic, Shape.mapAt] using hsame
    | false =>
      simp only [keptReadings, keptBlock, hsynthetic, Shape.mapAt]
      refine List.ext_getElem (by simp) fun i hi hi' => ?_
      have hi : i < ss.length := by simpa using hi'
      have := h (⟨"statements", some i⟩, ss[i]) (by
        simp only [Shape.steps, Shape.parts, Part.steps, List.flatMap_cons, List.flatMap_nil,
          List.append_nil]
        exact List.mem_mapIdx.mpr ⟨i, hi, rfl⟩)
      simpa using this
  | _ => exact congrArg (fun r => [r]) hsame

def Uncaptured (update : List Node) (body : Node) : Prop :=
  ∀ v ∈ after declared (keptReadings body) [], ∀ e ∈ update, v.1 ∉ e.names

lemma uncaptured_of_apart {t : Tag} {init update : List Node} {cond : Option Node} {body : Node}
    (hblock : declaresInBlock (.mk t (.forLoop init cond update body)) = true)
    (hapart : updatesApart (.mk t (.forLoop init cond update body)) = true) :
    Uncaptured update body := by
  intro v hafter e he
  obtain ⟨r, hr, hv⟩ := mem_after _ hafter
  obtain ⟨tb, s⟩ := body
  by_cases hs : ∃ ss, s = .block ss
  · obtain ⟨ss, rfl⟩ := hs
    cases hsynthetic : tb.synthetic with
    | true =>
      simp only [keptReadings, keptBlock, hsynthetic, if_true, List.map_singleton,
        List.mem_singleton] at hr
      rw [hr, (silent_block tb ss).declared] at hv
      cases hv
    | false =>
      simp only [keptReadings, keptBlock, hsynthetic, if_false, List.mem_map,
        Bool.false_eq_true] at hr
      obtain ⟨d, hd, rfl⟩ := hr
      have hnames : v.1 ∈ ss.flatMap declaredNames :=
        List.mem_flatMap.mpr ⟨d, hd, List.mem_map_of_mem hv⟩
      have := List.all_eq_true.mp (List.all_eq_true.mp hapart v.1 hnames) e he
      simpa using this
  · rw [keptReadings, keptBlock_of_not_block fun ss h => hs ⟨ss, h⟩] at hr
    obtain rfl := List.mem_singleton.mp hr
    have hbody : (Node.mk tb s).shape.isDeclaration = false := by
      simpa [declaresInBlock, Shape.bodies] using hblock
    rw [declared_of_not_declaration hbody] at hv
    cases hv

lemma Uncaptured.all_eq {update : List Node} {body : Node} (h : Uncaptured update body)
    (g : Sight) :
    all (update.map reading) (after declared (keptReadings body) g) =
      all (update.map reading) g := by
  simp only [all, List.flatMap_map]
  refine List.flatMap_congr fun e he => reading_local e _ _ fun x hx => ?_
  rw [after_eq, List.lookup_append, Option.or_eq_right_of_none]
  refine List.lookup_eq_none_iff.mpr fun v hv => ?_
  rw [bne_iff_ne]
  rintro rfl
  exact h v hv e he hx

structure ReadsAlike (n new : Node) : Prop where
  same : reading new = reading n
  kept : keptReadings new = keptReadings n

lemma reading_whileBlock (labels : List String) (line : Option Nat) (before : List Node)
    (cond body : Node) :
    reading (whileBlock labels line before cond body) =
      { uses := fun g => inTurn declared (before.map reading) g ++
          all [reading cond, reading body] (after declared (before.map reading) g) } := by
  have hwhile : Silent (reading (Node.plain (.whileLoop cond body))) := ⟨rfl, rfl⟩
  rw [whileBlock, reading_block, List.map_append, List.map_singleton, reading_relabel labels hwhile]
  congr 1
  funext g
  rw [inTurn_append]
  refine congrArg _ ?_
  simp [inTurn, Node.plain, reading_mk, Shape.map, Shape.mapAt, alg, Shape.children, Shape.parts,
    Part.toList]

lemma reading_forLoop (t : Tag) (init update : List Node) (cond : Option Node) (body : Node) :
    reading (.mk t (.forLoop init cond update body)) =
      { uses := fun g => inTurn declared (init.map reading) g ++
          all (cond.toList.map reading ++ reading body :: update.map reading)
            (after declared (init.map reading) g) } := by
  cases cond <;> simp [reading_mk, Shape.map, Shape.mapAt, alg, mapIdx_const]

lemma uses_extendedBody {kept : Tag} {update : List Node} {body new : Node}
    (h : ReadsAlike body new) (huncaptured : Uncaptured update body) (g : Sight) :
    (reading (.mk kept (.block ((keptBlock new).2 ++
        update.map fun e => .plain (.exprStmt e))))).uses g =
      (reading body).uses g ++ all (update.map reading) g := by
  have hkept : (keptBlock new).2.map reading = keptReadings body := h.kept
  rw [reading_block, List.map_append]
  simp only [inTurn_append, updates_reading, hkept, huncaptured.all_eq, ← uses_eq_kept]

lemma uses_labelledBody {kept : Tag} {update : List Node} {body new : Node}
    (h : ReadsAlike body new) (ls : List String) (target : String) (g : Sight) :
    (reading (.plain (.block (.plain (.labeled target (.mk kept (.block
        ((keptBlock new).2.map (retarget ls target · false))))) ::
        update.map fun e => .plain (.exprStmt e))))).uses g =
      (reading body).uses g ++ all (update.map reading) g := by
  have hkept : ((keptBlock new).2.map (retarget ls target · false)).map reading =
      keptReadings body := by
    rw [List.map_map, ← h.kept]
    exact List.map_congr_left fun n _ => reading_retarget ls target n false
  rw [Node.plain, reading_block, List.map_cons]
  have hupdates := updates_reading g update
  simp only [Node.plain] at hupdates
  simp only [inTurn, hupdates, Node.plain, reading_labeled, reading_block, hkept, all,
    uses_eq_kept body, List.flatMap_cons, List.flatMap_nil, List.append_nil, List.nil_append]

lemma readsAlike_forAsWhile {t : Tag} {init update : List Node} {cond : Option Node}
    {body new : Node} (h : ReadsAlike body new) (huncaptured : Uncaptured update body)
    (labels : List (Tag × String)) (next : Nat) :
    ReadsAlike (underLabels labels (.mk t (.forLoop init cond update body)))
      (forAsWhile (labels.map (·.2)) (.mk t (.forLoop init cond update new)) next).1 := by
  have hfor : Silent (reading (.mk t (.forLoop init cond update body))) :=
    ⟨by rw [reading_forLoop], by rw [reading_forLoop]⟩
  have hcond : ∀ g, (reading (cond.getD (.plain (.literal (.bool true) .boolean)))).uses g =
      all (cond.toList.map reading) g := by
    intro g
    cases cond with
    | none => rfl
    | some e => exact (List.append_nil _).symm
  -- A `while` loop whose body uses what the old body and the updates use.
  have hloop : ∀ (line : Option Nat) (block : Node),
      (∀ g, (reading block).uses g = (reading body).uses g ++ all (update.map reading) g) →
      ReadsAlike (underLabels labels (.mk t (.forLoop init cond update body)))
        (whileBlock (labels.map (·.2)) line (init.flatMap statementsOf)
          (cond.getD (.plain (.literal (.bool true) .boolean))) block) := by
    intro line block hblock
    have hsame : reading (whileBlock (labels.map (·.2)) line (init.flatMap statementsOf)
        (cond.getD (.plain (.literal (.bool true) .boolean))) block) =
        reading (underLabels labels (.mk t (.forLoop init cond update body))) := by
      rw [reading_underLabels labels hfor, reading_forLoop, reading_whileBlock]
      congr 1
      funext g
      rw [(init_reading g init).1, (init_reading g init).2]
      refine congrArg _ ?_
      simp [all, hcond, hblock]
    refine ⟨hsame, ?_⟩
    have hold : keptReadings (underLabels labels (.mk t (.forLoop init cond update body))) =
        [reading (underLabels labels (.mk t (.forLoop init cond update body)))] := by
      cases labels <;> rfl
    rw [hold, ← hsame]
    rfl
  by_cases hneeds : NeedsLabel (labels.map (·.2)) update new
  · rw [forAsWhile_needsLabel _ t init update cond new next hneeds]
    exact hloop t.line _ (uses_labelledBody h _ _)
  · rw [forAsWhile_plain _ t init update cond new next hneeds]
    exact hloop t.line _ (uses_extendedBody h huncaptured)

lemma readsAlike_underLabels {n new : Node} (h : ReadsAlike n new) (labels : List (Tag × String)) :
    ReadsAlike (underLabels labels n) (underLabels labels new) := by
  cases labels with
  | nil => exact h
  | cons l labels =>
    have hsame := reading_underLabels_congr (l :: labels) h.same
    exact ⟨hsame, congrArg (fun r => [r]) hsame⟩

lemma readsAlike_forsOf {n : Node} (h : n.WellPlaced) (labels : List (Tag × String)) (next : Nat)
    (hblocks : DeclaresInBlocks n) (hapart : UpdatesApart n) :
    ReadsAlike (underLabels labels n) (forsOf n labels next).1 := by
  induction h generalizing labels next with
  | @mk t s head phrases bodies ih =>
    obtain ⟨hblock, hblocks⟩ := Node.forall_nodes_mk.mp hblocks
    obtain ⟨hupdates, hapart⟩ := Node.forall_nodes_mk.mp hapart
    have hbody : ∀ c ∈ s.bodies, ∀ labels next,
        ReadsAlike (underLabels labels c) (forsOf c labels next).1 := by
      intro c hc labels next
      have hmem := Shape.mem_children_iff.mpr (.inr hc)
      exact ih c hc labels next (hblocks c hmem) (hapart c hmem)
    cases hs : labeledBody? s with
    | some p =>
      obtain rfl := labeledBody?_eq_some.mp hs
      have hlabels : underLabels labels (.mk t (.labeled p.1 p.2)) =
          underLabels (labels ++ [(t, p.1)]) p.2 := (underLabels_append labels [(t, p.1)] p.2).symm
      rw [hlabels, forsOf_labeled]
      exact hbody _ List.mem_cons_self _ _
    | none =>
      cases hfor : isForLoop s with
      | true =>
        cases s with
        | forLoop init cond update body =>
          rw [forsOf_forLoop phrases]
          exact readsAlike_forAsWhile (hbody body List.mem_cons_self [] next)
            (uncaptured_of_apart hblock hupdates) labels _
        | _ => cases hfor
      | false =>
        rw [forsOf_mk hs hfor]
        have hchildren : ∀ c ∈ s.steps, reading (((fromLast (s.steps.map fun c =>
            (c.1, forsOf c.2 []))) next).1.lookup c.1 |>.getD default) =
              reading c.2 := by
          intro c hc
          obtain ⟨k, hk⟩ := lookup_fromLast (forsOf · []) (Shape.nodup_steps s) next hc
          rw [hk, Option.getD_some]
          rcases Shape.mem_children_iff.mp (Shape.mem_children.mpr ⟨c.1, hc⟩) with hc | hc
          · rw [forsOf_of_quiet (phrases c.2 hc)]
            rfl
          · exact (hbody c.2 hc [] k).same
        exact readsAlike_underLabels
          ⟨reading_mapAt t hchildren, keptReadings_mapAt t hchildren⟩ labels

lemma isDeclaration_copy (n : Node) : n.copy.shape.isDeclaration = n.shape.isDeclaration := by
  obtain ⟨t, s⟩ := n
  cases s <;> rfl

lemma isTypeRef_of_copy {n : Node} (h : n.copy.IsTypeRef) : n.IsTypeRef := by
  obtain ⟨t, s⟩ := n
  obtain ⟨_, _, _, _, hn⟩ := h
  rw [Node.copy_mk] at hn
  cases s with
  | typeRef name d args => exact ⟨t, name, d, args, rfl⟩
  | _ => cases (Node.mk.inj hn).2

lemma isElement_of_copy {n : Node} (h : n.copy.IsElement) : n.IsElement := by
  obtain ⟨t, s⟩ := n
  obtain ⟨_, _, _, _, x, htype, hn⟩ := h
  rw [Node.copy_mk] at hn
  cases s with
  | localVar mods type ds =>
    simp only [Shape.map, Shape.mapAt, mapIdx_const] at hn
    obtain ⟨-, hs⟩ := Node.mk.inj hn
    obtain ⟨-, rfl, hds⟩ := Shape.localVar.inj hs
    obtain ⟨⟨td, d⟩, rfl, hd⟩ := List.map_eq_singleton_iff.mp hds
    rw [Node.copy_mk] at hd
    cases d with
    | declarator name dims init =>
      obtain ⟨rfl, rfl, hinit⟩ := Shape.declarator.inj (Node.mk.inj hd).2
      obtain rfl := Option.map_eq_none_iff.mp hinit
      exact ⟨t, mods, type, td, name, isTypeRef_of_copy htype, rfl⟩
    | _ => cases (Node.mk.inj hd).2
  | _ => cases (Node.mk.inj hn).2

lemma wellPlaced_of_copy {n : Node} (h : n.copy.WellPlaced) : n.WellPlaced := by
  induction n using Node.children_induction with
  | h t s ih =>
    rw [Node.copy_mk] at h
    obtain ⟨head, phrases, bodies⟩ := h
    refine .mk ?_ (fun c hc => ?_) fun c hc => ?_
    · cases s with
      | forLoop init cond update body =>
        intro e he
        have hmem : e.copy ∈ update.mapIdx fun _ => Node.copy := by
          rw [mapIdx_const]
          exact List.mem_map_of_mem he
        rw [← isDeclaration_copy]
        exact head e.copy hmem
      | forEach var iterable body => exact isElement_of_copy head
      | _ => trivial
    · rw [← Node.quiet_copy]
      apply phrases
      rw [Shape.phrases_map]
      exact List.mem_map_of_mem hc
    · apply ih c (Shape.mem_children_iff.mpr (.inr hc))
      apply bodies
      rw [Shape.bodies_map]
      exact List.mem_map_of_mem hc

end Loops

namespace Lowering

open Loops

/-- On what is read from a text, whatever the identities of the nodes: if declarations of variables
stand only in blocks and in the heads of loops, and the updates of a loop use no name that the block
of its body declares, then every name of the tree stands for the same variable as before, those in
the heads of the loops included. -/
theorem uses_forLoops {k : TextKind} {source : String} {tree : Node}
    (h : parse k source = .ok tree.copy) (hblocks : DeclaresInBlocks tree)
    (hapart : UpdatesApart tree) : uses (forLoops tree) = uses tree := by
  have hplaced := wellPlaced_of_copy (wellPlaced_of_parse h)
  rw [forLoops_eq_forsOf hplaced]
  have hreads := readsAlike_forsOf hplaced [] 0 hblocks hapart
  exact congrArg (fun r => r.uses []) hreads.same

theorem uses_forLoops_nested : ∃ tree,
    parse .statement
      "for (int i = 0; i < x; x++) { int y = i; for (;;) for (int x = y; ; x++) i++; }" =
        .ok tree.copy ∧
      DeclaresInBlocks tree ∧ UpdatesApart tree ∧
        (uses tree).map (·.declaration) =
          [some 4, none, some 4, some 14, some 4, some 20, none] ∧
        uses (forLoops tree) = uses tree := by
  have hread : ((parse .statement
      "for (int i = 0; i < x; x++) { int y = i; for (;;) for (int x = y; ; x++) i++; }"
        ).toOption.any fun tree => decide (DeclaresInBlocks (tree.number 1)) &&
          decide (UpdatesApart (tree.number 1)) &&
          decide ((uses (tree.number 1)).map (·.declaration) =
            [some 4, none, some 4, some 14, some 4, some 20, none])) = true := by
    decide +kernel
  obtain ⟨tree, htree, hrules⟩ := (Option.any_eq_true _ _).mp hread
  simp only [Bool.and_eq_true, decide_eq_true_eq] at hrules
  obtain ⟨⟨hblocks, hapart⟩, hdeclarations⟩ := hrules
  have hparse := eq_ok_of_toOption htree
  have hcopy : (tree.number 1).copy = tree :=
    (Node.copy_number 1 tree).trans (Workspace.copy_of_untold (Workspace.untold_of_parse hparse))
  rw [← hcopy] at hparse
  exact ⟨_, hparse, hblocks, hapart, hdeclarations, uses_forLoops hparse hblocks hapart⟩

/-- The update of a field is put in the block of the body, which declares a variable of that name.
No two local variables have one name. -/
theorem uses_forLoops_captured : ∃ tree,
    parse .statement "for (int i = 0; i < 3; x++) { int x = 5; i++; }" = .ok tree.copy ∧
      DeclaresInBlocks tree ∧ (tree.nodes.flatMap declaredNames).Nodup ∧
        uses (forLoops tree) ≠ uses tree := by
  have hread : ((parse .statement "for (int i = 0; i < 3; x++) { int x = 5; i++; }"
        ).toOption.any fun tree => decide (DeclaresInBlocks (tree.number 1)) &&
            decide (((tree.number 1).nodes.flatMap declaredNames).Nodup) &&
            decide (uses (forLoops (tree.number 1)) ≠ uses (tree.number 1))) = true := by
    decide +kernel
  obtain ⟨tree, htree, hrules⟩ := (Option.any_eq_true _ _).mp hread
  simp only [Bool.and_eq_true, decide_eq_true_eq] at hrules
  obtain ⟨⟨hblocks, hnodup⟩, hne⟩ := hrules
  have hparse := eq_ok_of_toOption htree
  have hcopy : (tree.number 1).copy = tree :=
    (Node.copy_number 1 tree).trans (Workspace.copy_of_untold (Workspace.untold_of_parse hparse))
  rw [← hcopy] at hparse
  exact ⟨_, hparse, hblocks, hnodup, hne⟩

end Lowering

end LoopLowering
