import LoopLowering.Machine.ListMethod
import Mathlib.Data.List.Perm.Subperm
import Mathlib.Data.List.Nodup
import Mathlib.Data.List.Range
import Mathlib.Logic.Relation

/-! Objects that contain themselves. Texts of lists and comparisons of arrays go down through their
elements, at most as deep as there are objects; only a cycle leads deeper. -/

namespace LoopLowering.Machine

variable {α β : Type}

namespace Object

def listed : Object → List Value
  | .list items _ => items.toList
  | _ => []

def arrayed : Object → List Value
  | .array items => items.toList
  | _ => []

end Object

namespace Heap

def Holds (parts : Object → List Value) (h : Heap) (i j : Nat) : Prop :=
  ∃ o, h.objects[i]? = some o ∧ .ref (.object j) ∈ parts o

/-- A list contains itself through lists, or an array through arrays. -/
def Cyclic (h : Heap) : Prop :=
  ∃ i, Relation.TransGen (h.Holds Object.listed) i i ∨ Relation.TransGen (h.Holds Object.arrayed) i i

inductive Nests (parts : Object → List Value) (h : Heap) : Nat → Value → Prop
  | zero (v : Value) : Nests parts h 0 v
  | succ {i n : Nat} {o : Object} {x : Value} (ho : h.objects[i]? = some o) (hx : x ∈ parts o)
    (hnests : Nests parts h n x) : Nests parts h (n + 1) (.ref (.object i))

variable {parts : Object → List Value} {h : Heap} {n : Nat} {v : Value}

lemma Nests.exists_path (hv : h.Nests parts n v) : ∃ path : List Nat, path.length = n ∧
    path.IsChain (h.Holds parts) ∧ (∀ i ∈ path, i < h.objects.size) ∧
      ∀ i ∈ path.head?, v = .ref (.object i) := by
  induction hv with
  | zero v => exact ⟨[], rfl, .nil, by simp, by simp⟩
  | @succ i n o x ho hx hnests ih =>
    obtain ⟨path, hlength, hchain, hbound, hhead⟩ := ih
    have hi : i < h.objects.size := (Array.getElem?_eq_some_iff.mp ho).1
    refine ⟨i :: path, by rw [List.length_cons, hlength], ?_, ?_, by simp⟩
    · refine List.isChain_cons.mpr ⟨fun j hj => ?_, hchain⟩
      exact ⟨o, ho, hhead j hj ▸ hx⟩
    · exact List.forall_mem_cons.mpr ⟨hi, hbound⟩

/-- A path with more steps than there are objects comes back to one of them. -/
lemma Nests.exists_cycle (hv : h.Nests parts n v) (hn : h.objects.size < n) :
    ∃ i, Relation.TransGen (h.Holds parts) i i := by
  obtain ⟨path, hlength, hchain, hbound, -⟩ := hv.exists_path
  by_contra hacyclic
  have hpairs : path.Pairwise (Relation.TransGen (h.Holds parts)) :=
    List.isChain_iff_pairwise.mp (hchain.imp fun _ _ hij => .single hij)
  have hnodup : path.Nodup := by
    refine hpairs.imp fun {i j} hij => ?_
    rintro rfl
    exact hacyclic ⟨i, hij⟩
  have hsub : path ⊆ List.range h.objects.size := fun i hi => List.mem_range.mpr (hbound i hi)
  have hle := (List.subperm_of_subset hnodup hsub).length_le
  rw [List.length_range] at hle
  omega

end Heap

lemma exists_of_mapM_eq_none {f : α → Option β} {xs : List α} (h : xs.mapM f = none) :
    ∃ x ∈ xs, f x = none := by
  by_contra hall
  have hsome : ∀ x ∈ xs, ∃ y, f x = some y := fun x hx =>
    Option.ne_none_iff_exists'.mp fun hnone => hall ⟨x, hx, hnone⟩
  clear hall
  induction xs with
  | nil => cases h
  | cons x xs ih =>
    obtain ⟨⟨y, hy⟩, hsome⟩ := List.forall_mem_cons.mp hsome
    cases htail : xs.mapM f with
    | none => exact ih htail hsome
    | some ys => simp [hy, htail] at h

lemma exists_of_allM_eq_none {p : α → Option Bool} {xs : List α} (h : xs.allM p = none) :
    ∃ x ∈ xs, p x = none := by
  induction xs with
  | nil => cases h
  | cons x xs ih =>
    cases hx : p x with
    | none => exact ⟨x, List.mem_cons_self, hx⟩
    | some b =>
      cases b with
      | false => simp [List.allM, hx] at h
      | true =>
        obtain ⟨y, hy, hnone⟩ := ih (by simpa [List.allM, hx] using h)
        exact ⟨y, List.mem_cons_of_mem _ hy, hnone⟩

lemma exists_of_findM?_eq_none {p : α → Option Bool} {xs : List α} (h : xs.findM? p = none) :
    ∃ x ∈ xs, p x = none := by
  induction xs with
  | nil => cases h
  | cons x xs ih =>
    cases hx : p x with
    | none => exact ⟨x, List.mem_cons_self, hx⟩
    | some b =>
      cases b with
      | true => simp [List.findM?, hx] at h
      | false =>
        obtain ⟨y, hy, hnone⟩ := ih (by simpa [List.findM?, hx] using h)
        exact ⟨y, List.mem_cons_of_mem _ hy, hnone⟩

lemma mem_of_findM?_eq_some {p : α → Option Bool} {xs : List α} {x : α}
    (h : xs.findM? p = some (some x)) : x ∈ xs := by
  induction xs with
  | nil => cases h
  | cons y ys ih =>
    cases hy : p y with
    | none => simp [List.findM?, hy] at h
    | some b =>
      cases b with
      | true =>
        obtain rfl : y = x := by simpa [List.findM?, hy] using h
        exact List.mem_cons_self
      | false => exact List.mem_cons_of_mem _ (ih (by simpa [List.findM?, hy] using h))

variable {h : Heap} {v a b : Value}

lemma nests_of_displayAt {d : Nat} (hv : displayAt h d v = none) :
    h.Nests Object.listed d v := by
  induction d generalizing v with
  | zero => exact .zero v
  | succ d ih =>
    cases v with
    | ref x =>
      unfold displayAt at hv
      split at hv
      · rename_i items immutable hx
        cases x with
        | object i =>
          cases hitems : items.toList.mapM (displayAt h d) with
          | none =>
            obtain ⟨y, hy, hnone⟩ := exists_of_mapM_eq_none hitems
            exact .succ hx hy (ih hnone)
          | some texts => simp [hitems] at hv
        | iterator i =>
          obtain ⟨c, -, hc⟩ := Option.map_eq_some_iff.mp hx
          cases hc
        | complex i => cases hx
      · cases hv
    | _ => cases hv

lemma cyclic_of_display? (hv : display? h v = none) : h.Cyclic := by
  obtain ⟨i, hi⟩ := (nests_of_displayAt hv).exists_cycle (Nat.lt_succ_self _)
  exact ⟨i, .inl hi⟩

lemma nests_of_array {xs : Array Value} {x : Value} {n : Nat} (ha : a.array? h = some xs)
    (hx : x ∈ xs.toList) (hnests : h.Nests Object.arrayed n x) :
    h.Nests Object.arrayed (n + 1) a := by
  cases a with
  | ref y =>
    cases y with
    | object i => exact .succ (Value.objects_of_array? ha) hx hnests
    | iterator i =>
      unfold Value.array? at ha
      split at ha
      · rename_i hi
        obtain ⟨c, -, hc⟩ := Option.map_eq_some_iff.mp hi
        cases hc
      · cases ha
    | complex i => cases ha
  | _ => cases ha

lemma nests_of_equalAt {d : Nat} (hab : equalAt h d a b = none) :
    h.Nests Object.arrayed d a := by
  induction d generalizing a b with
  | zero => exact .zero a
  | succ d ih =>
    unfold equalAt at hab
    split at hab
    · cases hab
    split at hab
    · cases hab
    split at hab
    · cases hab
    · split at hab
      · cases hab
      split at hab
      · rename_i xs ys hxs hys
        split at hab
        · obtain ⟨p, hp, hnone⟩ := exists_of_allM_eq_none hab
          split at hnone
          · cases hnone
          · exact nests_of_array hxs (List.of_mem_zip hp).1 (ih hnone)
        · cases hab
      · cases hab
    · cases hab

lemma cyclic_of_equal? (hab : equal? h a b = none) : h.Cyclic := by
  obtain ⟨i, hi⟩ := (nests_of_equalAt hab).exists_cycle (by omega)
  exact ⟨i, .inr hi⟩

lemma cyclic_of_sameElement? (hab : sameElement? h a b = none) : h.Cyclic := by
  unfold sameElement? at hab
  split at hab
  · cases hab
  · exact cyclic_of_equal? hab

lemma nests_of_compareAt {c : Comparison} {d : Nat} (hab : compareAt h c d a b = none) :
    h.Cyclic ∨ h.Nests Object.arrayed d a := by
  induction d generalizing a b with
  | zero => exact .inr (.zero a)
  | succ d ih =>
    unfold compareAt at hab
    split at hab
    · cases hab
    split at hab
    · cases hab
    split at hab
    · rename_i xs ys hxs hys
      cases hfind : (xs.toList.zip ys.toList).findM? fun p => (!·) <$> sameElement? h p.1 p.2 with
      | none =>
        obtain ⟨p, -, hnone⟩ := exists_of_findM?_eq_none hfind
        exact .inl (cyclic_of_sameElement? (Option.map_eq_none_iff.mp hnone))
      | some r =>
        rw [hfind] at hab
        cases r with
        | none => cases hab
        | some p =>
          have hp := (List.of_mem_zip (mem_of_findM?_eq_some hfind)).1
          exact (ih hab).imp_right fun hnests => nests_of_array hxs hp hnests
    · cases hab

lemma cyclic_of_compareValues? {c : Comparison} (hab : compareValues? h c a b = none) :
    h.Cyclic := by
  rcases nests_of_compareAt hab with hcyclic | hnests
  · exact hcyclic
  · obtain ⟨i, hi⟩ := hnests.exists_cycle (by omega)
    exact ⟨i, .inr hi⟩

lemma cyclic_of_sameItems? {xs ys : Array Value} (hxs : ListCell.sameItems? h xs ys = none) :
    h.Cyclic := by
  unfold ListCell.sameItems? at hxs
  split at hxs
  · obtain ⟨p, -, hnone⟩ := exists_of_allM_eq_none hxs
    exact cyclic_of_sameElement? hnone
  · cases hxs

end LoopLowering.Machine
