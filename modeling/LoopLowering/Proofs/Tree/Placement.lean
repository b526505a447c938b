import LoopLowering.Proofs.Tree.Path

/-! Where statements stand in a tree: in the bodies of other statements and of declarations, and
nowhere inside expressions, types and the heads of statements. -/

namespace LoopLowering

namespace Shape

variable {α β : Type}

def isStatement : Shape α → Bool
  | .block .. | .exprStmt .. | .ifElse .. | .whileLoop .. | .doWhile .. | .forLoop ..
  | .forEach .. | .returnStmt .. | .breakStmt .. | .continueStmt .. | .throwStmt .. | .tryStmt ..
  | .catchClause .. | .labeled .. | .emptyStmt => true
  | _ => false

def isDeclaration : Shape α → Bool
  | .localVar .. => true
  | _ => false

def bodies : Shape α → List α
  | .unit _ _ types => types
  | .classDecl _ _ _ _ _ _ members => members
  | .methodDecl _ _ _ _ _ _ body => body.toList
  | .constructorDecl _ _ _ _ body => [body]
  | .initBlock _ body => [body]
  | .block statements => statements
  | .ifElse _ thenStmt elseStmt => thenStmt :: elseStmt.toList
  | .whileLoop _ body => [body]
  | .doWhile body _ => [body]
  | .forLoop _ _ _ body => [body]
  | .forEach _ _ body => [body]
  | .tryStmt body catches finallyBlock => body :: (catches ++ finallyBlock.toList)
  | .catchClause _ _ _ body => [body]
  | .labeled _ body => [body]
  | _ => []

def phrases : Shape α → List α
  | .unit _ imports _ => imports
  | .classDecl _ _ _ _ extended implemented _ => extended ++ implemented
  | .methodDecl _ _ _ type params throws _ => type :: (params ++ throws)
  | .constructorDecl _ _ params throws _ => params ++ throws
  | .initBlock .. | .block .. | .tryStmt .. | .labeled .. => []
  | .ifElse cond _ _ => [cond]
  | .whileLoop cond _ => [cond]
  | .doWhile _ cond => [cond]
  | .forLoop init cond update _ => init ++ cond.toList ++ update
  | .forEach var iterable _ => [var, iterable]
  | .catchClause _ _ types _ => types
  | s => s.children

attribute [local simp] parts children mapAt map phrases bodies Part.toList mapIdx_const

lemma mem_children_iff {s : Shape α} {c : α} : c ∈ s.children ↔ c ∈ s.phrases ∨ c ∈ s.bodies := by
  cases s <;> simp <;> tauto

lemma phrases_map (f : α → β) (s : Shape α) : (s.map f).phrases = s.phrases.map f := by
  cases s with
  | typeRef name d args => cases args <;> simp
  | _ => simp [Option.toList_map]

lemma bodies_map (f : α → β) (s : Shape α) : (s.map f).bodies = s.bodies.map f := by
  cases s <;> simp [Option.toList_map]

def placed (s : Shape α) : Shape (Step × α) := s.mapAt fun st c => (st, c)

lemma map_placed (f : Step → α → β) (s : Shape α) :
    s.placed.map (fun c => f c.1 c.2) = s.mapAt f := by
  rw [placed, map, mapAt_mapAt]

lemma map_snd_placed (s : Shape α) : s.placed.map (·.2) = s := by
  rw [map_placed fun _ c => c, mapAt_id]

lemma mem_children_placed {s : Shape α} {c : Step × α} (h : c ∈ s.placed.children) :
    c ∈ s.steps := by
  obtain ⟨st, hst⟩ := mem_children.mp h
  rw [placed, steps_mapAt] at hst
  obtain ⟨d, hd, heq⟩ := List.mem_map.mp hst
  obtain ⟨-, rfl⟩ := Prod.mk.inj heq
  exact hd

lemma mem_phrases_mapAt {f : Step → α → β} {s : Shape α} {x : β} (h : x ∈ (s.mapAt f).phrases) :
    ∃ c ∈ s.steps, c.2 ∈ s.phrases ∧ x = f c.1 c.2 := by
  rw [← map_placed, phrases_map] at h
  obtain ⟨c, hc, rfl⟩ := List.mem_map.mp h
  refine ⟨c, mem_children_placed (mem_children_iff.mpr (.inl hc)), ?_, rfl⟩
  rw [← map_snd_placed s, phrases_map]
  exact List.mem_map_of_mem hc

lemma mem_bodies_mapAt {f : Step → α → β} {s : Shape α} {x : β} (h : x ∈ (s.mapAt f).bodies) :
    ∃ c ∈ s.steps, c.2 ∈ s.bodies ∧ x = f c.1 c.2 := by
  rw [← map_placed, bodies_map] at h
  obtain ⟨c, hc, rfl⟩ := List.mem_map.mp h
  refine ⟨c, mem_children_placed (mem_children_iff.mpr (.inr hc)), ?_, rfl⟩
  rw [← map_snd_placed s, bodies_map]
  exact List.mem_map_of_mem hc

end Shape

namespace Node

def quiet : Node → Bool := fold fun _ s => !s.isStatement && s.children.all id

lemma isStatement_map {α β : Type} (f : α → β) (s : Shape α) :
    (s.map f).isStatement = s.isStatement := by
  cases s <;> rfl

lemma quiet_mk (t : Tag) (s : Shape Node) :
    quiet (mk t s) = (!s.isStatement && s.children.all quiet) := by
  simp [quiet, fold_mk, isStatement_map, Shape.children_map]

def allQuiet (ns : List Node) : Prop := ∀ n ∈ ns, n.quiet = true

@[simp] lemma allQuiet_nil : allQuiet [] := by simp [allQuiet]

@[simp] lemma allQuiet_cons {n : Node} {ns : List Node} :
    allQuiet (n :: ns) ↔ n.quiet = true ∧ allQuiet ns := List.forall_mem_cons

@[simp] lemma allQuiet_append {ns ms : List Node} :
    allQuiet (ns ++ ms) ↔ allQuiet ns ∧ allQuiet ms := List.forall_mem_append

@[simp] lemma allQuiet_toList {n : Option Node} :
    allQuiet n.toList ↔ ∀ c, n = some c → c.quiet = true := by
  cases n <;> simp [allQuiet]

lemma quiet_mk_iff {t : Tag} {s : Shape Node} :
    quiet (mk t s) = true ↔ s.isStatement = false ∧ allQuiet s.children := by
  simp [quiet_mk, allQuiet]

lemma quiet_plain_iff {s : Shape Node} :
    quiet (plain s) = true ↔ s.isStatement = false ∧ allQuiet s.children :=
  quiet_mk_iff

def IsTypeRef (n : Node) : Prop := ∃ t name d args, n = mk t (.typeRef name d args)

def IsElement (n : Node) : Prop :=
  ∃ t mods type td x, IsTypeRef type ∧ n = mk t (.localVar mods type [mk td (.declarator x 0 none)])

def HeadPlaced : Shape Node → Prop
  | .forLoop _ _ update _ => ∀ e ∈ update, e.shape.isDeclaration = false
  | .forEach var _ _ => IsElement var
  | _ => True

inductive WellPlaced : Node → Prop
  | mk {t : Tag} {s : Shape Node} (head : HeadPlaced s) (phrases : ∀ c ∈ s.phrases, c.quiet = true)
      (bodies : ∀ c ∈ s.bodies, WellPlaced c) : WellPlaced (mk t s)

def AllWellPlaced (ns : List Node) : Prop := ∀ n ∈ ns, WellPlaced n

@[simp] lemma allWellPlaced_nil : AllWellPlaced [] := by simp [AllWellPlaced]

@[simp] lemma allWellPlaced_cons {n : Node} {ns : List Node} :
    AllWellPlaced (n :: ns) ↔ WellPlaced n ∧ AllWellPlaced ns := List.forall_mem_cons

@[simp] lemma allWellPlaced_append {ns ms : List Node} :
    AllWellPlaced (ns ++ ms) ↔ AllWellPlaced ns ∧ AllWellPlaced ms := List.forall_mem_append

@[simp] lemma allWellPlaced_toList {n : Option Node} :
    AllWellPlaced n.toList ↔ ∀ c, n = some c → WellPlaced c := by
  cases n <;> simp [AllWellPlaced]

lemma wellPlaced_plain {s : Shape Node} (head : HeadPlaced s) (phrases : allQuiet s.phrases)
    (bodies : AllWellPlaced s.bodies) : WellPlaced (plain s) := .mk head phrases bodies

lemma wellPlaced_of_quiet {n : Node} (h : n.quiet = true) : WellPlaced n := by
  induction n using children_induction with
  | h t s ih =>
    obtain ⟨hs, hc⟩ := quiet_mk_iff.mp h
    refine .mk ?_ (fun c hm => hc c (Shape.mem_children_iff.mpr (.inl hm))) fun c hm => ?_
    · cases s <;> first | exact trivial | cases hs
    · have hmem := Shape.mem_children_iff.mpr (.inr hm)
      exact ih c hmem (hc c hmem)

lemma headPlaced_mapAt {f : Step → Node → Node} {s : Shape Node} (head : HeadPlaced s)
    (phrases : allQuiet s.phrases) (hf : ∀ c ∈ s.steps, c.2.quiet = true → f c.1 c.2 = c.2) :
    HeadPlaced (s.mapAt f) := by
  cases s with
  | forLoop init cond update body =>
    intro e he
    obtain ⟨i, hi, rfl⟩ := List.mem_mapIdx.mp he
    have hmem : update[i] ∈ update := List.getElem_mem hi
    have hsteps : (⟨"update", some i⟩, update[i]) ∈ (Shape.forLoop init cond update body).steps := by
      simp only [Shape.steps, Shape.parts, List.flatMap_cons, List.mem_append]
      exact .inr (.inr (.inl (List.mem_mapIdx.mpr ⟨i, hi, rfl⟩)))
    rw [hf _ hsteps (phrases _ (by simp [Shape.phrases, hmem]))]
    exact head _ hmem
  | forEach var iterable body =>
    have hvar : f ⟨"var", none⟩ var = var :=
      hf (⟨"var", none⟩, var) List.mem_cons_self (phrases var List.mem_cons_self)
    simpa [HeadPlaced, Shape.mapAt, hvar] using head
  | _ => exact trivial

lemma wellPlaced_mapAt {f : Step → Node → Node} {s : Shape Node} (t : Tag) (head : HeadPlaced s)
    (phrases : allQuiet s.phrases) (hquiet : ∀ c ∈ s.steps, c.2.quiet = true → f c.1 c.2 = c.2)
    (hbodies : ∀ c ∈ s.steps, c.2 ∈ s.bodies → WellPlaced (f c.1 c.2)) :
    WellPlaced (mk t (s.mapAt f)) := by
  refine .mk (headPlaced_mapAt head phrases hquiet) (fun x hx => ?_) fun x hx => ?_
  · obtain ⟨c, hc, hphrase, rfl⟩ := Shape.mem_phrases_mapAt hx
    rw [hquiet c hc (phrases _ hphrase)]
    exact phrases _ hphrase
  · obtain ⟨c, hc, hbody, rfl⟩ := Shape.mem_bodies_mapAt hx
    exact hbodies c hc hbody

end Node

end LoopLowering
