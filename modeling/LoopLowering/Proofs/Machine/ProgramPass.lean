import LoopLowering.Proofs.Loops.Syntax
import LoopLowering.Proofs.Machine.Phrase

/-! What the passes make of a program: its classes have the members of the old ones, with lowered
bodies. -/

namespace LoopLowering

namespace Machine

open Loops

def Hereditary (H : Node → Prop) : Prop :=
  ∀ t s, s.isStatement = false → H (.mk t s) → ∀ c ∈ s.bodies, H c

lemma hereditary_wellPlaced : Hereditary Node.WellPlaced := by
  rintro t s - ⟨-, -, bodies⟩
  exact bodies

lemma hereditary_nodes (Q : Node → Prop) : Hereditary fun n => ∀ m ∈ n.nodes, Q m :=
  fun _ _ _ h c hc => (Node.forall_nodes_mk.mp h).2 c (Shape.mem_children_iff.mpr (.inr hc))

lemma Hereditary.and {H H' : Node → Prop} (h : Hereditary H) (h' : Hereditary H') :
    Hereditary fun n => H n ∧ H' n :=
  fun t s hs hn c hc => ⟨h t s hs hn.1 c hc, h' t s hs hn.2 c hc⟩

lemma hereditary_size (size : Nat) : Hereditary fun n => n.size ≤ size :=
  fun _ _ _ h _ hc =>
    (Node.size_lt_of_mem (Shape.mem_children_iff.mpr (.inr hc))).le.trans h

structure ClassPassed (R : Node → Node → Prop) (H : Node → Prop) (c c' : ClassInfo) : Prop where
  name : c'.name = c.name
  members : List.Forall₂ (fun n m => n.shape.isStatement = false ∧ H n ∧ R n m)
    c.members c'.members

section

variable {R : Node → Node → Prop} {H : Node → Prop} {P : Tag → Shape Node → Prop} {t : Tag}
  {s : Shape Node} {n m : Node}

lemma Passing.parts (hR : Passing R) (hs : s.isStatement = false) (hm : R (.mk t s) m) :
    ∃ (q : Shape (Step × Node)) (g : Step × Node → Node), s = q.map (·.2) ∧ m = .mk t (q.map g) ∧
      ∀ c ∈ q.children, R c.2 (g c) := by
  obtain ⟨f, rfl, hf⟩ := hR.inside hm hs
  refine ⟨s.placed, fun c => f c.1 c.2, s.map_snd_placed.symm, ?_, fun c hc => ?_⟩
  · rw [Shape.map_placed]
  · exact hf c (Shape.mem_children_placed hc)

lemma not_statement_of_memberTree {x : String} (h : MemberTree P x n) :
    n.shape.isStatement = false := by
  cases h <;> rfl

lemma classesIn_eq (ds : List Node) : classesIn ds = ds.flatMap classesOf := by
  induction ds with
  | nil => rfl
  | cons d ds ih => rw [classesIn, ih, List.flatMap_cons]

lemma classes_passed (hR : Passing R) (hH : Hereditary H) {x : String} (h : MemberTree P x n)
    (hn : H n) (hm : R n m) : List.Forall₂ (ClassPassed R H) (classesOf n) (classesOf m) := by
  induction h generalizing m with
  | @classDecl c t mods tps k x exts imps ms _ _ _ _ _ _ members _ ih =>
    obtain ⟨q, g, hq, rfl, hg⟩ := Passing.parts hR rfl hm
    cases q with
    | classDecl mods' k' x' tps' exts' imps' ms' =>
      simp only [Shape.map, Shape.mapAt, mapIdx_const] at hq ⊢
      obtain ⟨rfl, rfl, rfl, rfl, rfl, rfl, rfl⟩ := Shape.classDecl.inj hq
      have hmem : ∀ c ∈ ms', H c.2 ∧ R c.2 (g c) := fun c hc =>
        ⟨hH _ _ rfl hn c.2 (List.mem_map_of_mem hc), hg c (Shape.mem_children_iff.mpr (.inr hc))⟩
      have hclasses : ∀ c ∈ ms', List.Forall₂ (ClassPassed R H) (classesOf c.2) (classesOf (g c)) :=
        fun c hc => ih c.2 (List.mem_map_of_mem hc) (hmem c hc).1 (hmem c hc).2
      rw [classesOf, classesOfShape, classesOf, classesOfShape]
      refine .cons ⟨rfl, ?_⟩ ?_
      · rw [List.forall₂_map_left_iff, List.forall₂_map_right_iff, List.forall₂_same]
        intro c hc
        exact ⟨not_statement_of_memberTree (members c.2 (List.mem_map_of_mem hc)), hmem c hc⟩
      · rw [classesIn_eq, classesIn_eq, List.flatMap_map, List.flatMap_map]
        exact List.rel_flatMap (List.forall₂_same.mpr hclasses) fun _ _ h => h
    | _ => cases hq
  | _ =>
    obtain ⟨q, g, hq, rfl, -⟩ := Passing.parts hR rfl hm
    cases q <;> first | exact .nil | cases hq

lemma forall₂_putClass {c c' : ClassInfo} {cs cs' : List ClassInfo} (hc : ClassPassed R H c c')
    (h : List.Forall₂ (ClassPassed R H) cs cs') :
    List.Forall₂ (ClassPassed R H) (putClass c cs) (putClass c' cs') := by
  induction h with
  | nil => exact .cons hc .nil
  | @cons d d' ds ds' hd hds ih =>
    rw [putClass, putClass, hc.name, hd.name]
    split
    · exact .cons hc hds
    · exact .cons hd ih

lemma forall₂_foldl_putClass {cs cs' ds ds' : List ClassInfo}
    (hd : List.Forall₂ (ClassPassed R H) ds ds') (h : List.Forall₂ (ClassPassed R H) cs cs') :
    List.Forall₂ (ClassPassed R H) (ds.foldl (fun cs c => putClass c cs) cs)
      (ds'.foldl (fun cs c => putClass c cs) cs') := by
  induction hd generalizing cs cs' with
  | nil => exact h
  | cons hc _ ih => exact ih (forall₂_putClass hc h)

lemma program_passed (hR : Passing R) (hH : Hereditary H) (h : UnitTree P n) (hn : H n)
    (hm : R n m) : ∃ p p', Program.ofTree n = .ok p ∧ Program.ofTree m = .ok p' ∧
      List.Forall₂ (ClassPassed R H) p.classes p'.classes := by
  obtain ⟨-, -, types, -, -⟩ := h
  rename_i t package is ds
  obtain ⟨q, g, hq, rfl, hg⟩ := Passing.parts hR rfl hm
  cases q with
  | unit package' is' ds' =>
    simp only [Shape.map, Shape.mapAt, mapIdx_const] at hq ⊢
    obtain ⟨rfl, rfl, rfl⟩ := Shape.unit.inj hq
    refine ⟨_, _, rfl, rfl, forall₂_foldl_putClass ?_ .nil⟩
    rw [classesIn_eq, classesIn_eq, List.flatMap_map, List.flatMap_map]
    refine List.rel_flatMap (List.forall₂_same.mpr fun c hc => ?_) fun _ _ h => h
    have hbody : c.2 ∈ ds'.map (·.2) := List.mem_map_of_mem hc
    exact classes_passed hR hH (types _ hbody) (hH _ _ rfl hn _ hbody)
      (hg c (Shape.mem_children_iff.mpr (.inr hc)))
  | _ => cases hq

lemma member_map {S : Setting} {β : Type} {q : Shape β} {a b : β → Node}
    (hphrases : ∀ c ∈ q.phrases, b c = a c)
    (hbodies : isMember (q.map a) = true → ∀ c ∈ q.bodies, BodyLowers S (a c) (b c)) :
    MemberLowers S (.mk t (q.map a)) (.mk t (q.map b)) := by
  cases q with
  | fieldDecl mods type ds =>
    have htype : b type = a type := hphrases type (by simp [Shape.phrases, Shape.children,
      Shape.parts, Part.toList])
    have hds : ds.map b = ds.map a := List.map_congr_left fun d hd => hphrases d (by
      simp [Shape.phrases, Shape.children, Shape.parts, Part.toList, hd])
    simp only [Shape.map, Shape.mapAt, mapIdx_const, htype, hds]
    exact .field
  | initBlock static body => exact .initBlock (hbodies rfl body List.mem_cons_self)
  | methodDecl mods tps name type params throws body =>
    have hparams : params.map b = params.map a := List.map_congr_left fun d hd => hphrases d (by
      simp [Shape.phrases, hd])
    have hbody : Option.Rel (BodyLowers S) (body.map a) (body.map b) := by
      cases body with
      | none => exact .none
      | some c => exact .some (hbodies rfl c (by simp [Shape.bodies]))
    simp only [Shape.map, Shape.mapAt, mapIdx_const, hparams]
    exact .method hbody
  | constructorDecl mods name params throws body =>
    have hparams : params.map b = params.map a := List.map_congr_left fun d hd => hphrases d (by
      simp [Shape.phrases, hd])
    simp only [Shape.map, Shape.mapAt, mapIdx_const, hparams]
    exact .constructor (hbodies rfl body List.mem_cons_self)
  | _ => exact .other rfl rfl

/-- The bodies of the routines and initializers of a member. -/
def memberBodies (n : Node) : List Node := if isMember n.shape then n.shape.bodies else []

lemma member_lowers {S : Setting} (hR : Passing R) (hs : n.shape.isStatement = false)
    (hplaced : n.WellPlaced) (hH : Hereditary H) (hn : H n) (hm : R n m)
    (hbodies : ∀ b ∈ memberBodies n, H b → ∀ b', R b b' → BodyLowers S b b') :
    MemberLowers S n m := by
  obtain ⟨t, s⟩ := n
  obtain ⟨q, g, rfl, rfl, hg⟩ := Passing.parts hR hs hm
  cases hplaced with
  | mk _ phrases _ =>
    refine member_map (fun c hc => ?_) fun hmember c hc => ?_
    · refine hR.quiet (hg c (Shape.mem_children_iff.mpr (.inl hc))) (phrases c.2 ?_)
      rw [Shape.phrases_map]
      exact List.mem_map_of_mem hc
    · have hmem : c.2 ∈ (q.map (·.2)).bodies := by
        rw [Shape.bodies_map]
        exact List.mem_map_of_mem hc
      refine hbodies c.2 ?_ (hH t _ hs hn c.2 hmem) (g c)
        (hg c (Shape.mem_children_iff.mpr (.inr hc)))
      rw [memberBodies, Node.shape_mk, if_pos hmember]
      exact hmem

lemma program_lowers {S : Setting} (hR : Passing R) (hH : Hereditary H)
    (hplaced : ∀ n, H n → n.WellPlaced) {p p' : Program}
    (h : List.Forall₂ (ClassPassed R H) p.classes p'.classes)
    (hbodies : ∀ n, H n → ∀ b ∈ memberBodies n, H b → ∀ b', R b b' → BodyLowers S b b') :
    ProgramLowers S p p' := by
  refine h.imp fun c c' hc => ⟨hc.name, hc.members.imp fun n m ⟨hs, hn, hm⟩ => ?_⟩
  exact member_lowers hR hs (hplaced n hn) hH hn hm (hbodies n hn)

end

end Machine

end LoopLowering
