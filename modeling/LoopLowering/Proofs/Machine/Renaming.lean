import LoopLowering.Machine.Convert
import Mathlib.Data.List.Forall2
import Mathlib.Data.List.Nodup
import Mathlib.Data.Option.Basic
import Mathlib.Order.Basic

/-! Two stores that differ in their iterators only. The second store may hold iterators of its own,
so those of the first have other addresses there; what programs can see is the same. -/

namespace LoopLowering.Machine

section

variable {α β : Type} {R : α → β → Prop}

lemma option_cases {a : Option α} {b : Option β} (h : Option.Rel R a b) :
    a = none ∧ b = none ∨ ∃ x y, a = some x ∧ b = some y ∧ R x y := by
  cases h with
  | none => exact .inl ⟨rfl, rfl⟩
  | some h => exact .inr ⟨_, _, rfl, rfl, h⟩

lemma option_isSome {a : Option α} {b : Option β} (h : Option.Rel R a b) :
    b.isSome = a.isSome := by
  cases h <;> rfl

lemma forall₂_getElem? {xs : List α} {ys : List β} (h : List.Forall₂ R xs ys) (i : Nat) :
    Option.Rel R xs[i]? ys[i]? := by
  induction h generalizing i with
  | nil => exact .none
  | cons hd _ ih =>
    cases i with
    | zero => exact .some hd
    | succ i => exact ih i

lemma forall₂_set {xs : List α} {ys : List β} (h : List.Forall₂ R xs ys) (i : Nat) {x : α} {y : β}
    (hxy : R x y) : List.Forall₂ R (xs.set i x) (ys.set i y) := by
  induction h generalizing i with
  | nil => exact .nil
  | cons hd tl ih =>
    cases i with
    | zero => exact .cons hxy tl
    | succ i => exact .cons hd (ih i)

lemma forall₂_eraseIdx {xs : List α} {ys : List β} (h : List.Forall₂ R xs ys) (i : Nat) :
    List.Forall₂ R (xs.eraseIdx i) (ys.eraseIdx i) := by
  induction h generalizing i with
  | nil => exact .nil
  | cons hd tl ih =>
    cases i with
    | zero => exact tl
    | succ i => exact .cons hd (ih i)

lemma forall₂_append {xs xs₁ : List α} {ys ys₁ : List β} (h : List.Forall₂ R xs ys)
    (h₁ : List.Forall₂ R xs₁ ys₁) : List.Forall₂ R (xs ++ xs₁) (ys ++ ys₁) := List.rel_append h h₁

lemma forall₂_replicate_flatten {xs : List α} {ys : List β} (h : List.Forall₂ R xs ys) (n : Nat) :
    List.Forall₂ R (List.replicate n xs).flatten (List.replicate n ys).flatten := by
  induction n with
  | zero => exact .nil
  | succ n ih => exact forall₂_append h ih

end

/-- How two stores correspond: `image` gives the second address of each iterator of the first store,
`pinned` iterators exist in the second store only and do not move, and `lists` are addresses of
lists. -/
structure World where
  image : List Nat := []
  pinned : List (Nat × Cursor) := []
  lists : List Nat := []

namespace World

instance : Preorder World where
  le w w₁ := w.image <+: w₁.image ∧ w.pinned = w₁.pinned ∧ w.lists = w₁.lists
  le_refl w := ⟨List.prefix_rfl, rfl, rfl⟩
  le_trans _ _ _ h₁ h₂ := ⟨h₁.1.trans h₂.1, h₁.2.1.trans h₂.2.1, h₁.2.2.trans h₂.2.2⟩

lemma image_extend {w w₁ : World} (h : w.image <+: w₁.image) {i j : Nat}
    (hi : w.image[i]? = some j) : w₁.image[i]? = some j := by
  obtain ⟨rest, heq⟩ := h
  rw [← heq, List.getElem?_append_left (List.getElem?_eq_some_iff.mp hi).1]
  exact hi

end World

namespace Value

def isIterator : Value → Bool
  | ref (.iterator _) => true
  | _ => false

inductive Rel (w : World) : Value → Value → Prop
  | same {v : Value} (h : v.isIterator = false) : Rel w v v
  | iterator {i j : Nat} (h : w.image[i]? = some j) :
    Rel w (ref (.iterator i)) (ref (.iterator j))

namespace Rel

variable {w w₁ : World} {v v' : Value}

lemma extend (hw : w.image <+: w₁.image) (h : Rel w v v') : Rel w₁ v v' := by
  cases h with
  | same h => exact .same h
  | iterator h => exact .iterator (World.image_extend hw h)

lemma mono (hw : w ≤ w₁) (h : Rel w v v') : Rel w₁ v v' := h.extend hw.1

lemma text? (h : Rel w v v') : v'.text? = v.text? := by cases h <;> rfl

lemma isNumeric (h : Rel w v v') : v'.isNumeric = v.isNumeric := by cases h <;> rfl

lemma isChar (h : Rel w v v') : v'.isChar = v.isChar := by cases h <;> rfl

lemma isPlain (h : Rel w v v') : v'.isPlain = v.isPlain := by cases h <;> rfl

lemma plain (h : Rel w v v') : v'.plain = v.plain := by cases h <;> rfl

lemma num? (h : Rel w v v') : v'.num? = v.num? := by cases h <;> rfl

lemma isUndefined (h : Rel w v v') : v'.isUndefined = v.isUndefined := by cases h <;> rfl

end Rel

end Value

def Items (w : World) (xs ys : Array Value) : Prop :=
  List.Forall₂ (Value.Rel w) xs.toList ys.toList

namespace Items

variable {w w₁ : World} {xs ys xs₁ ys₁ : Array Value} {v v' : Value}

lemma extend (hw : w.image <+: w₁.image) (h : Items w xs ys) : Items w₁ xs ys :=
  List.Forall₂.imp (fun _ _ => .extend hw) h

lemma size (h : Items w xs ys) : ys.size = xs.size := (List.Forall₂.length_eq h).symm

lemma isEmpty (h : Items w xs ys) : ys.isEmpty = xs.isEmpty := by
  simp [Array.isEmpty, h.size]

lemma getElem? (h : Items w xs ys) (i : Nat) : Option.Rel (Value.Rel w) xs[i]? ys[i]? := by
  simpa using forall₂_getElem? h i

lemma push (h : Items w xs ys) (hv : Value.Rel w v v') : Items w (xs.push v) (ys.push v') := by
  simpa [Items] using forall₂_append h (.cons hv .nil)

lemma append (h : Items w xs ys) (h₁ : Items w xs₁ ys₁) : Items w (xs ++ xs₁) (ys ++ ys₁) := by
  simpa [Items] using forall₂_append h h₁

lemma setIfInBounds (h : Items w xs ys) (i : Nat) (hv : Value.Rel w v v') :
    Items w (xs.setIfInBounds i v) (ys.setIfInBounds i v') := by
  simpa [Items] using forall₂_set h i hv

lemma eraseIdxIfInBounds (h : Items w xs ys) (i : Nat) :
    Items w (xs.eraseIdxIfInBounds i) (ys.eraseIdxIfInBounds i) := by
  simpa [Items] using forall₂_eraseIdx h i

lemma repeated (h : Items w xs ys) (n : Nat) :
    Items w (List.replicate n xs).toArray.flatten (List.replicate n ys).toArray.flatten := by
  simpa [Items] using forall₂_replicate_flatten h n

end Items

namespace Bindings

def Rel (w : World) : Bindings → Bindings → Prop :=
  List.Forall₂ fun b b' => b.name = b'.name ∧ Value.Rel w b.value b'.value

variable {w w₁ : World} {bs bs' : Bindings} {v v' : Value}

lemma Rel.extend (hw : w.image <+: w₁.image) (h : Rel w bs bs') : Rel w₁ bs bs' :=
  List.Forall₂.imp (fun _ _ hb => ⟨hb.1, hb.2.extend hw⟩) h

lemma Rel.lookup (h : Rel w bs bs') (name : String) :
    Option.Rel (Value.Rel w) (bs.lookup name) (bs'.lookup name) := by
  induction h with
  | nil => exact .none
  | cons hb _ ih =>
    simp only [Bindings.lookup, ← hb.1]
    split
    · exact .some hb.2
    · exact ih

lemma Rel.put (h : Rel w bs bs') (name : String) (hv : Value.Rel w v v') (origin origin' : Origin) :
    Rel w (bs.put name v origin) (bs'.put name v' origin') := by
  induction h with
  | nil => exact .cons ⟨by simp, by simpa using hv⟩ .nil
  | cons hb tl ih =>
    simp only [Bindings.put, ← hb.1]
    split
    · exact .cons ⟨by simpa using hb.1, by simpa using hv⟩ tl
    · exact .cons hb ih

end Bindings

inductive Object.Rel (w : World) : Object → Object → Prop
  | array {xs ys : Array Value} (h : Items w xs ys) : Rel w (.array xs) (.array ys)
  | list {xs ys : Array Value} (h : Items w xs ys) (immutable : Bool) :
    Rel w (.list xs immutable) (.list ys immutable)
  | record (name : String) {bs bs' : Bindings} (h : Bindings.Rel w bs bs') :
    Rel w (.record name bs) (.record name bs')
  | iterator (list position : Nat) : Rel w (.iterator list position) (.iterator list position)
  | builder (text : String) : Rel w (.builder text) (.builder text)
  | exception (name : String) (message : Option String) :
    Rel w (.exception name message) (.exception name message)
  | classRef (name : String) : Rel w (.classRef name) (.classRef name)
  | stream (toErrors : Bool) : Rel w (.stream toErrors) (.stream toErrors)

lemma Object.Rel.extend {w w₁ : World} (hw : w.image <+: w₁.image) {o o' : Object}
    (h : Object.Rel w o o') : Object.Rel w₁ o o' := by
  cases h with
  | array h => exact .array (h.extend hw)
  | list h b => exact .list (h.extend hw) b
  | record c h => exact .record c (h.extend hw)
  | iterator l p => exact .iterator l p
  | builder s => exact .builder s
  | exception n m => exact .exception n m
  | classRef n => exact .classRef n
  | stream b => exact .stream b

def Object.isList : Object → Bool
  | .list .. => true
  | _ => false

structure Heap.Rel (w : World) (h h' : Heap) : Prop where
  objects : List.Forall₂ (Object.Rel w) h.objects.toList h'.objects.toList
  complexes : h'.complexes = h.complexes
  image_length : w.image.length = h.iterators.size
  image_nodup : w.image.Nodup
  cursor : ∀ i j : Nat, w.image[i]? = some j → h'.iterators[j]? = h.iterators[i]?
  pinned : ∀ p ∈ w.pinned, h'.iterators[p.1]? = some p.2 ∧ p.1 ∉ w.image
  lists : ∀ i ∈ w.lists, (h.objects[i]?.map Object.isList).getD false = true

namespace Heap.Rel

variable {w : World} {h h' : Heap}

lemma size (hh : Heap.Rel w h h') : h'.objects.size = h.objects.size :=
  (List.Forall₂.length_eq hh.objects).symm

lemma objects_getElem? (hh : Heap.Rel w h h') (i : Nat) :
    Option.Rel (Object.Rel w) h.objects[i]? h'.objects[i]? := by
  simpa using forall₂_getElem? hh.objects i

lemma image_inj (hh : Heap.Rel w h h') {i i₁ j : Nat} (hi : w.image[i]? = some j)
    (hi₁ : w.image[i₁]? = some j) : i = i₁ :=
  (List.getElem?_inj (List.getElem?_eq_some_iff.mp hi).1 hh.image_nodup).mp (hi.trans hi₁.symm)

lemma iterators_isSome (hh : Heap.Rel w h h') {i j : Nat} (hi : w.image[i]? = some j) :
    ∃ c, h.iterators[i]? = some c := by
  have hlt : i < w.image.length := (List.getElem?_eq_some_iff.mp hi).1
  exact ⟨_, Array.getElem?_eq_getElem (hh.image_length ▸ hlt)⟩

lemma image_lt (hh : Heap.Rel w h h') {j : Nat} (hj : j ∈ w.image) : j < h'.iterators.size := by
  obtain ⟨i, hi⟩ := List.getElem?_of_mem hj
  obtain ⟨c, hc⟩ := hh.iterators_isSome hi
  exact (Array.getElem?_eq_some_iff.mp ((hh.cursor i j hi).trans hc)).1

lemma object? (hh : Heap.Rel w h h') {v v' : Value} (hv : Value.Rel w v v') :
    Option.Rel (Object.Rel w) (v.object? h) (v'.object? h') := by
  cases hv with
  | @iterator i j hi =>
    show Option.Rel _ (h.iterators[i]?.map _) (h'.iterators[j]?.map _)
    rw [hh.cursor i j hi]
    obtain ⟨c, hc⟩ := hh.iterators_isSome hi
    rw [hc]
    exact .some (.iterator c.list c.position)
  | same hv =>
    cases v with
    | ref a =>
      cases a with
      | object i => exact hh.objects_getElem? i
      | iterator i => cases hv
      | complex i => exact .none
    | _ => exact .none

lemma array? (hh : Heap.Rel w h h') {v v' : Value} (hv : Value.Rel w v v') :
    Option.Rel (Items w) (v.array? h) (v'.array? h') := by
  unfold Value.array?
  obtain ⟨ho, ho'⟩ | ⟨o, o', ho, ho', hrel⟩ := option_cases (hh.object? hv) <;> rw [ho, ho']
  · exact .none
  · cases hrel with
    | array hi => exact .some hi
    | _ => exact .none

lemma list? (hh : Heap.Rel w h h') {v v' : Value} (hv : Value.Rel w v v') :
    Option.Rel (Items w) (v.list? h) (v'.list? h') := by
  unfold Value.list?
  obtain ⟨ho, ho'⟩ | ⟨o, o', ho, ho', hrel⟩ := option_cases (hh.object? hv) <;> rw [ho, ho']
  · exact .none
  · cases hrel with
    | list hi => exact .some hi
    | _ => exact .none

lemma planar? (hh : Heap.Rel w h h') {v v' : Value} (hv : Value.Rel w v v') :
    v'.planar? h' = v.planar? h := by
  cases hv with
  | iterator hi => rfl
  | same hv => rw [Value.planar?.eq_def, Value.planar?.eq_def, hh.complexes]

end Heap.Rel

section

variable {w : World} {h h' : Heap} {a a' b b' v v' : Value}

lemma mapM_eq {β : Type} {f g : Value → Option β} {xs ys : List Value}
    (h : List.Forall₂ (Value.Rel w) xs ys) (hfg : ∀ x y, Value.Rel w x y → g y = f x) :
    ys.mapM g = xs.mapM f := by
  induction h with
  | nil => rfl
  | cons hd _ ih => rw [List.mapM_cons, List.mapM_cons, hfg _ _ hd, ih]

lemma displayObject_rel (hh : Heap.Rel w h h') {x x' : Address}
    (hx : Value.Rel w (.ref x) (.ref x')) : displayObject h' x' = displayObject h x := by
  have hshown : x'.shown = x.shown := by cases hx <;> rfl
  have hobject : Option.Rel (Object.Rel w) h[x]? h'[x']? := hh.object? hx
  unfold displayObject
  rw [hh.planar? hx, hshown]
  obtain ⟨ho, ho'⟩ | ⟨o, o', ho, ho', hrel⟩ := option_cases hobject <;> rw [ho, ho']
  cases hrel with
  | exception name message => cases message <;> rfl
  | _ => rfl

lemma displayAt_rel (hh : Heap.Rel w h h') (d : Nat) (hv : Value.Rel w v v') :
    displayAt h' d v' = displayAt h d v := by
  induction d generalizing v v' with
  | zero =>
    cases hv with
    | same hv => cases v <;> rfl
    | iterator hi => rfl
  | succ d ih =>
    have hrefs : ∀ x x', Value.Rel w (.ref x) (.ref x') →
        displayAt h' (d + 1) (.ref x') = displayAt h (d + 1) (.ref x) := by
      intro x x' hx
      have hobject : Option.Rel (Object.Rel w) h[x]? h'[x']? := hh.object? hx
      unfold displayAt
      rw [displayObject_rel hh hx]
      obtain ⟨ho, ho'⟩ | ⟨o, o', ho, ho', hrel⟩ := option_cases hobject <;> rw [ho, ho']
      cases hrel with
      | list hi =>
        dsimp only
        rw [mapM_eq hi fun x y => ih]
      | _ => rfl
    cases hv with
    | iterator hi => exact hrefs _ _ (.iterator hi)
    | same hv =>
      cases v with
      | ref x => exact hrefs _ _ (.same hv)
      | _ => rfl

lemma display?_rel (hh : Heap.Rel w h h') (hv : Value.Rel w v v') :
    display? h' v' = display? h v := by
  rw [display?, hh.size, displayAt_rel hh _ hv, display?]

lemma zip_allM_eq {p q : Value × Value → Option Bool} {xs xs₁ ys ys₁ : List Value}
    (hx : List.Forall₂ (Value.Rel w) xs xs₁) (hy : List.Forall₂ (Value.Rel w) ys ys₁)
    (hpq : ∀ x x' y y', Value.Rel w x x' → Value.Rel w y y' → q (x', y') = p (x, y)) :
    (xs₁.zip ys₁).allM q = (xs.zip ys).allM p := by
  induction hx generalizing ys ys₁ with
  | nil => rfl
  | cons hd _ ih =>
    cases hy with
    | nil => rfl
    | cons hd' tl' => simp only [List.zip_cons_cons, List.allM, hpq _ _ _ _ hd hd', ih tl']

lemma Value.Rel.ref_eq_iff (hh : Heap.Rel w h h') {x x' y y' : Address}
    (hx : Value.Rel w (.ref x) (.ref x')) (hy : Value.Rel w (.ref y) (.ref y')) :
    x' = y' ↔ x = y := by
  cases hx with
  | same hx =>
    cases hy with
    | same hy => rfl
    | iterator hj =>
      constructor
      · rintro rfl
        cases hx
      · rintro rfl
        cases hx
  | iterator hi =>
    cases hy with
    | same hy =>
      constructor
      · rintro rfl
        cases hy
      · rintro rfl
        cases hy
    | iterator hj =>
      simp only [Address.iterator.injEq]
      constructor
      · rintro rfl
        exact hh.image_inj hi hj
      · rintro rfl
        exact Option.some.inj (hi.symm.trans hj)

lemma equalPlanar_rel (hh : Heap.Rel w h h') (ha : Value.Rel w a a') (hb : Value.Rel w b b') :
    equalPlanar h' a' b' = equalPlanar h a b := by
  rw [equalPlanar, hh.planar? ha, hh.planar? hb, ha.num?, hb.num?, equalPlanar]

lemma equalAt_rel (hh : Heap.Rel w h h') (d : Nat) (ha : Value.Rel w a a')
    (hb : Value.Rel w b b') : equalAt h' d a' b' = equalAt h d a b := by
  induction d generalizing a a' b b' with
  | zero => rfl
  | succ d ih =>
    have hplanar := equalPlanar_rel hh ha hb
    have hrefs : ∀ x x' y y', Value.Rel w (.ref x) (.ref x') → Value.Rel w (.ref y) (.ref y') →
        equalAt h' (d + 1) (.ref x') (.ref y') = equalAt h (d + 1) (.ref x) (.ref y) := by
      intro x x' y y' hx hy
      have hplanar := equalPlanar_rel hh hx hy
      simp only [equalAt, Value.num?, Value.text?, hx.ref_eq_iff hh hy]
      split
      · rfl
      obtain ⟨hn, hn'⟩ | ⟨xs, xs', hxs, hxs', hitems⟩ := option_cases (hh.array? hx)
      · rw [hn, hn', hplanar]
      obtain ⟨hn, hn'⟩ | ⟨ys, ys', hys, hys', hitems'⟩ := option_cases (hh.array? hy)
      · rw [hxs, hxs', hn, hn', hplanar]
      rw [hxs, hxs', hys, hys']
      simp only [hitems.size, hitems'.size]
      rw [zip_allM_eq hitems hitems' fun x x' y y' hx hy => ?_]
      simp only [hx.isUndefined, hy.isUndefined, ih hx hy]
    cases ha with
    | iterator hi =>
      cases hb with
      | iterator hj => exact hrefs _ _ _ _ (.iterator hi) (.iterator hj)
      | same hb =>
        cases b with
        | ref y => exact hrefs _ _ _ _ (.iterator hi) (.same hb)
        | _ => simp only [equalAt, Value.num?, Value.text?, hplanar]
    | same ha =>
      cases a with
      | ref x =>
        cases hb with
        | iterator hj => exact hrefs _ _ _ _ (.same ha) (.iterator hj)
        | same hb =>
          cases b with
          | ref y => exact hrefs _ _ _ _ (.same ha) (.same hb)
          | _ => simp only [equalAt, Value.num?, Value.text?, hplanar]
      | _ =>
        cases hb with
        | iterator hj => simp only [equalAt, Value.num?, Value.text?, hplanar]
        | same hb => cases b <;> simp only [equalAt, Value.num?, Value.text?, hplanar]

lemma equal?_rel (hh : Heap.Rel w h h') (ha : Value.Rel w a a') (hb : Value.Rel w b b') :
    equal? h' a' b' = equal? h a b := by
  rw [equal?, hh.size, equalAt_rel hh _ ha hb, equal?]

lemma sameElement?_rel (hh : Heap.Rel w h h') (ha : Value.Rel w a a') (hb : Value.Rel w b b') :
    sameElement? h' a' b' = sameElement? h a b := by
  rw [sameElement?, ha.isUndefined, hb.isUndefined, equal?_rel hh ha hb, sameElement?]

lemma identical_rel (hh : Heap.Rel w h h') (ha : Value.Rel w a a') (hb : Value.Rel w b b') :
    identical a' b' = identical a b := by
  have hrefs : ∀ x x' y y', Value.Rel w (.ref x) (.ref x') → Value.Rel w (.ref y) (.ref y') →
      identical (.ref x') (.ref y') = identical (.ref x) (.ref y) :=
    fun _ _ _ _ hx hy => decide_eq_decide.mpr (hx.ref_eq_iff hh hy)
  cases ha with
  | iterator hi =>
    cases hb with
    | iterator hj => exact hrefs _ _ _ _ (.iterator hi) (.iterator hj)
    | same hb =>
      cases b with
      | ref y => exact hrefs _ _ _ _ (.iterator hi) (.same hb)
      | _ => rfl
  | same ha =>
    cases hb with
    | same hb => rfl
    | iterator hj =>
      cases a with
      | ref x => exact hrefs _ _ _ _ (.same ha) (.iterator hj)
      | _ => rfl

lemma holds_rel (hh : Heap.Rel w h h') (hv : Value.Rel w v v') : v'.holds h' = v.holds h := by
  have hrefs : ∀ x x', Value.Rel w (.ref x) (.ref x') →
      Value.holds h' (.ref x') = Value.holds h (.ref x) := by
    intro x x' hx
    unfold Value.holds
    obtain ⟨hn, hn'⟩ | ⟨xs, ys, hs, hs', hi⟩ := option_cases (hh.array? hx)
    · rw [hn, hn', hh.planar? hx]
    · simp only [hs, hs', hi.isEmpty]
  cases hv with
  | iterator hi => exact hrefs _ _ (.iterator hi)
  | same hv =>
    cases v with
    | ref x => exact hrefs _ _ (.same hv)
    | _ => rfl

lemma zip_findM?_rel {p q : Value × Value → Option Bool} {xs xs₁ ys ys₁ : List Value}
    (hx : List.Forall₂ (Value.Rel w) xs xs₁) (hy : List.Forall₂ (Value.Rel w) ys ys₁)
    (hpq : ∀ x x' y y', Value.Rel w x x' → Value.Rel w y y' → q (x', y') = p (x, y)) :
    Option.Rel (Option.Rel fun a b => Value.Rel w a.1 b.1 ∧ Value.Rel w a.2 b.2)
      ((xs.zip ys).findM? p) ((xs₁.zip ys₁).findM? q) := by
  induction hx generalizing ys ys₁ with
  | nil => exact .some .none
  | @cons x x' _ _ hd _ ih =>
    cases hy with
    | nil => exact .some .none
    | @cons y y' _ _ hd' tl' =>
      simp only [List.zip_cons_cons, List.findM?, hpq _ _ _ _ hd hd']
      cases p (x, y) with
      | none => exact .none
      | some found =>
        cases found with
        | true => exact .some (.some ⟨hd, hd'⟩)
        | false => exact ih tl'

lemma compareAt_rel (hh : Heap.Rel w h h') (c : Comparison) (d : Nat) (ha : Value.Rel w a a')
    (hb : Value.Rel w b b') : compareAt h' c d a' b' = compareAt h c d a b := by
  induction d generalizing a a' b b' with
  | zero => rfl
  | succ d ih =>
    simp only [compareAt, ha.num?, hb.num?, ha.text?, hb.text?]
    obtain ⟨hn, hn'⟩ | ⟨xs, xs', hs, hs', hx⟩ := option_cases (hh.array? ha)
    · rw [hn, hn']
    obtain ⟨hm, hm'⟩ | ⟨ys, ys', ht, ht', hy⟩ := option_cases (hh.array? hb)
    · rw [hs, hs', hm, hm']
    rw [hs, hs', ht, ht']
    have hfind := zip_findM?_rel (p := fun x => (!·) <$> sameElement? h x.1 x.2)
      (q := fun x => (!·) <$> sameElement? h' x.1 x.2) hx hy fun x x' y y' hx hy => by
        rw [sameElement?_rel hh hx hy]
    obtain ⟨hf, hf'⟩ | ⟨p, q, hf, hf', hpq⟩ := option_cases hfind
    · simp only [hf, hf']
      rfl
    obtain ⟨hn, hn'⟩ | ⟨p, q, hp, hq, hrel⟩ := option_cases hpq
    · simp only [hf, hf', hn, hn', hx.size, hy.size]
      rfl
    · simp only [hf, hf', hp, hq, Option.bind_eq_bind, Option.bind_some, ih hrel.1 hrel.2]

lemma compareValues?_rel (hh : Heap.Rel w h h') (c : Comparison) (ha : Value.Rel w a a')
    (hb : Value.Rel w b b') : compareValues? h' c a' b' = compareValues? h c a b := by
  rw [compareValues?, hh.size, compareAt_rel hh c _ ha hb, compareValues?]

lemma thrownName?_rel (hh : Heap.Rel w h h') (hv : Value.Rel w v v') :
    thrownName? h' v' = thrownName? h v := by
  unfold thrownName?
  obtain ⟨ho, ho'⟩ | ⟨o, o', ho, ho', hrel⟩ := option_cases (hh.object? hv) <;> rw [ho, ho']
  cases hrel <;> rfl

lemma catches_rel (hh : Heap.Rel w h h') (typeName : String) (hv : Value.Rel w v v') :
    catches h' typeName v' = catches h typeName v := by
  rw [catches, thrownName?_rel hh hv, catches]

lemma instanceOf_rel (hh : Heap.Rel w h h') (hv : Value.Rel w v v') (typeName : String) :
    instanceOf h' v' typeName = instanceOf h v typeName := by
  have hcatches := catches_rel hh (simpleName typeName) hv
  have hlist := option_isSome (hh.list? hv)
  have hobject := hh.object? hv
  cases hv with
  | iterator hi =>
    simp only [instanceOf, hlist, hcatches]
    obtain ⟨ho, ho'⟩ | ⟨o, o', ho, ho', hrel⟩ := option_cases hobject <;> rw [ho, ho']
    cases hrel <;> rfl
  | same hv =>
    cases v with
    | null => rfl
    | _ =>
      simp only [instanceOf, hlist, hcatches]
      obtain ⟨ho, ho'⟩ | ⟨o, o', ho, ho', hrel⟩ := option_cases hobject <;> rw [ho, ho']
      cases hrel <;> rfl

end

structure Store.Rel (w : World) (st st' : Store) : Prop where
  heap : Heap.Rel w st.heap st'.heap
  statics : List.Forall₂ (fun c c' => c.1 = c'.1 ∧ Bindings.Rel w c.2 c'.2) st.statics st'.statics
  out : st'.out = st.out
  err : st'.err = st.err

end LoopLowering.Machine
