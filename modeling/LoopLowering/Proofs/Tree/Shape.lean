import LoopLowering.Tree.Node
import Mathlib.Data.List.Nodup

/-! The places of the children of a node: each occurs once, and a change of all children keeps
them. -/

namespace LoopLowering

lemma mapIdx_const {α β : Type} (f : α → β) (l : List α) : (l.mapIdx fun _ => f) = l.map f := by
  apply List.ext_getElem <;> simp

namespace Part

variable {α β : Type}

def mapAt (f : Step → α → β) (field : String) : Part α → Part β
  | one a => one (f ⟨field, none⟩ a)
  | optional a => optional (a.map (f ⟨field, none⟩))
  | many as => many (as.mapIdx fun i => f ⟨field, some i⟩)

attribute [local simp] mapAt steps toList

lemma steps_mapAt (f : Step → α → β) (field : String) (p : Part α) :
    (p.mapAt f field).steps field = (p.steps field).map fun c => (c.1, f c.1 c.2) := by
  cases p with
  | one a => rfl
  | optional a => cases a <;> rfl
  | many as =>
    apply List.ext_getElem
    · simp
    · simp

lemma mapAt_congr {f g : Step → α → β} {field : String} {p : Part α}
    (h : ∀ c ∈ p.steps field, f c.1 c.2 = g c.1 c.2) : p.mapAt f field = p.mapAt g field := by
  cases p with
  | one a => simpa using h
  | optional a =>
    cases a with
    | none => rfl
    | some a => simpa using h
  | many as =>
    simp only [mapAt, many.injEq, List.mapIdx_eq_mapIdx_iff]
    intro i hi
    exact h (⟨field, some i⟩, as[i]) (List.mem_mapIdx.mpr ⟨i, hi, rfl⟩)

lemma field_of_mem_steps {field : String} {p : Part α} {c : Step × α} (h : c ∈ p.steps field) :
    c.1.field = field := by
  cases p with
  | one a => simp_all
  | optional a => cases a <;> simp_all
  | many as =>
    obtain ⟨i, _, rfl⟩ := List.mem_mapIdx.mp h
    rfl

lemma map_snd_steps (field : String) (p : Part α) :
    (p.steps field).map (·.2) = p.toList := by
  cases p with
  | one a => rfl
  | optional a => cases a <;> rfl
  | many as =>
    apply List.ext_getElem
    · simp
    · simp

lemma nodup_steps (field : String) (p : Part α) :
    ((p.steps field).map (·.1)).Nodup := by
  cases p with
  | one a => simp
  | optional a => cases a <;> simp
  | many as =>
    rw [List.nodup_iff_pairwise_ne, List.pairwise_iff_getElem]
    intro i j _ _ hij h
    simp only [steps, List.getElem_map, List.getElem_mapIdx, Step.mk.injEq, Option.some.injEq,
      true_and] at h
    omega

end Part

namespace Shape

variable {α β γ : Type}

lemma parts_mapAt (f : Step → α → β) (s : Shape α) :
    (s.mapAt f).parts = s.parts.map fun p => (p.1, p.2.mapAt f p.1) := by
  cases s with
  | typeRef name d args => cases args <;> rfl
  | _ => rfl

lemma steps_mapAt (f : Step → α → β) (s : Shape α) :
    (s.mapAt f).steps = s.steps.map fun c => (c.1, f c.1 c.2) := by
  simp [steps, parts_mapAt, List.flatMap_map, List.map_flatMap, Part.steps_mapAt]

attribute [local simp] parts mapAt Part.mapAt

lemma mapAt_congr_parts {f g : Step → α → β} {s : Shape α}
    (h : ∀ p ∈ s.parts, p.2.mapAt f p.1 = p.2.mapAt g p.1) : s.mapAt f = s.mapAt g := by
  cases s with
  | typeRef name d args => cases args <;> simp_all
  | _ => simp_all

lemma mapAt_congr {f g : Step → α → β} {s : Shape α}
    (h : ∀ c ∈ s.steps, f c.1 c.2 = g c.1 c.2) : s.mapAt f = s.mapAt g := by
  refine mapAt_congr_parts fun p hp => Part.mapAt_congr fun c hc => h c ?_
  exact List.mem_flatMap.mpr ⟨p, hp, hc⟩

lemma mapAt_mapAt (g : Step → β → γ) (f : Step → α → β) (s : Shape α) :
    (s.mapAt f).mapAt g = s.mapAt fun st c => g st (f st c) := by
  cases s <;> simp [Function.comp_def, List.mapIdx_mapIdx]

lemma mapAt_id (s : Shape α) : (s.mapAt fun _ c => c) = s := by
  cases s <;> simp [mapIdx_const]

lemma mapAt_eq_self {f : Step → α → α} {s : Shape α} (h : ∀ c ∈ s.steps, f c.1 c.2 = c.2) :
    s.mapAt f = s := by
  exact (mapAt_congr (g := fun _ c => c) h).trans (mapAt_id s)

lemma map_snd_steps (s : Shape α) : s.steps.map (·.2) = s.children := by
  simp [steps, children, List.map_flatMap, Part.map_snd_steps]

lemma mem_children {s : Shape α} {c : α} : c ∈ s.children ↔ ∃ st, (st, c) ∈ s.steps := by
  simp [← map_snd_steps]

lemma nodup_fields (s : Shape α) : (s.parts.map (·.1)).Nodup := by
  cases s with
  | typeRef name d args => cases args <;> simp
  | _ => simp

lemma nodup_steps (s : Shape α) : (s.steps.map (·.1)).Nodup := by
  rw [steps, List.map_flatMap, List.nodup_flatMap]
  refine ⟨fun p _ => Part.nodup_steps p.1 p.2, ?_⟩
  refine ((List.pairwise_map.mp (nodup_fields s))).imp ?_
  intro p q hpq st hp hq
  obtain ⟨c, hc, rfl⟩ := List.mem_map.mp hp
  obtain ⟨d, hd, hcd⟩ := List.mem_map.mp hq
  apply hpq
  rw [← Part.field_of_mem_steps hc, ← Part.field_of_mem_steps hd, hcd]

end Shape

end LoopLowering
