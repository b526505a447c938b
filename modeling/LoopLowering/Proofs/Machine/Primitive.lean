import LoopLowering.Machine.StaticMethod
import LoopLowering.Proofs.Machine.Renaming

/-! Operations on corresponding stores agree: they end in the same way, with corresponding values
and stores. One rule for each way to combine operations, then one fact for each operation. -/

namespace LoopLowering.Machine

variable {α β γ δ : Type} {w : World}

inductive Failure (w : World) : Signal → Signal → Prop
  | thrown {v v' : Value} (h : Value.Rel w v v') : Failure w (.thrown v) (.thrown v')
  | failed (e : RunError) : Failure w (.failed e) (.failed e)
  | fault (f : Fault) : Failure w (.fault f) (.fault f)

inductive Ends (w : World) (Q : α → β → Prop) :
    EStateM.Result Signal Store α → EStateM.Result Signal Store β → Prop
  | ok {a : α} {b : β} {st st' : Store} (hst : Store.Rel w st st') (h : Q a b) :
    Ends w Q (.ok a st) (.ok b st')
  | error {e e' : Signal} {st st' : Store} (hst : Store.Rel w st st') (h : Failure w e e') :
    Ends w Q (.error e st) (.error e' st')
  | exhausted {st st' : Store} : Ends w Q (.error .exhausted st) (.error .exhausted st')

def Agree (w : World) (Q : α → β → Prop) (c : StoreM α) (c' : StoreM β) : Prop :=
  ∀ st st', Store.Rel w st st' → Ends w Q (c st) (c' st')

namespace Agree

variable {Q : α → β → Prop} {R : γ → δ → Prop}

lemma pure {a : α} {b : β} (h : Q a b) : Agree w Q (pure a) (pure b) :=
  fun _ _ hst => .ok hst h

lemma bind {c : StoreM α} {c' : StoreM β} {f : α → StoreM γ} {f' : β → StoreM δ}
    (h : Agree w Q c c') (hf : ∀ a b, Q a b → Agree w R (f a) (f' b)) :
    Agree w R (c >>= f) (c' >>= f') := by
  intro st st' hst
  show Ends w R (EStateM.bind c f st) (EStateM.bind c' f' st')
  unfold EStateM.bind
  have hends := h st st' hst
  generalize c st = r at hends ⊢
  generalize c' st' = r' at hends ⊢
  cases hends with
  | ok hst h => exact hf _ _ h _ _ hst
  | error hst h => exact .error hst h
  | exhausted => exact .exhausted

lemma throw {e e' : Signal} (h : Failure w e e') :
    Agree w Q (throw e : StoreM α) (throw e' : StoreM β) :=
  fun _ _ hst => .error hst h

lemma raise (f : Fault) : Agree w Q (raise f : StoreM α) (Machine.raise f : StoreM β) :=
  .throw (.fault f)

lemma fail (e : RunError) : Agree w Q (fail e : StoreM α) (Machine.fail e : StoreM β) :=
  .throw (.failed e)

lemma ite {p : Prop} [Decidable p] {c d : StoreM α} {c' d' : StoreM β} (hc : p → Agree w Q c c')
    (hd : ¬ p → Agree w Q d d') : Agree w Q (if p then c else d) (if p then c' else d') := by
  split
  · exact hc ‹_›
  · exact hd ‹_›

lemma orRaise (f : Fault) {a : Option α} {b : Option β} (h : Option.Rel Q a b) :
    Agree w Q (orRaise f a) (Machine.orRaise f b) := by
  cases h with
  | none => exact .raise f
  | some h => exact .pure h

lemma finite (r : Option α) : Agree w Eq (finite r) (Machine.finite r) := by
  cases r with
  | none => exact fun _ _ _ => .exhausted
  | some a => exact .pure rfl

lemma same {a : Option α} (f : Fault) :
    Agree w Eq (Machine.orRaise f a) (Machine.orRaise f a) := by
  cases a with
  | none => exact .raise f
  | some a => exact .pure rfl

end Agree

inductive Attempt (Q : α → β → Prop) : Except Fault α → Except Fault β → Prop
  | ok {a : α} {b : β} (h : Q a b) : Attempt Q (.ok a) (.ok b)
  | error (f : Fault) : Attempt Q (.error f) (.error f)

namespace Attempt

variable {Q : α → β → Prop} {R : γ → δ → Prop}

lemma bind {r : Except Fault α} {r' : Except Fault β} {f : α → Except Fault γ}
    {f' : β → Except Fault δ} (h : Attempt Q r r') (hf : ∀ a b, Q a b → Attempt R (f a) (f' b)) :
    Attempt R (r >>= f) (r' >>= f') := by
  cases h with
  | ok h => exact hf _ _ h
  | error f => exact .error f

lemma refl (r : Except Fault α) : Attempt Eq r r := by
  cases r with
  | ok a => exact .ok rfl
  | error f => exact .error f

lemma faultless {r : Except Fault α} {r' : Except Fault β} (h : Attempt Q r r') :
    Agree w Q (faultless r) (Machine.faultless r') := by
  cases h with
  | ok h => exact .pure h
  | error f => exact .raise f

end Attempt

lemma agree_faultless (r : Except Fault α) : Agree w Eq (faultless r) (faultless r) :=
  (Attempt.refl r).faultless

section

variable {v v' a a' b b' : Value} {args args' : List Value}

lemma agree_heap : Agree w (Heap.Rel w) heap heap := fun _ _ hst => .ok hst hst.heap

lemma agree_shown (hv : Value.Rel w v v') : Agree w Eq (shown v) (shown v') := by
  refine agree_heap.bind fun h h' hh => ?_
  rw [display?_rel hh hv]
  exact .finite _

lemma Heap.Rel.push {h h' : Heap} (hh : Heap.Rel w h h') {o o' : Object} (ho : Object.Rel w o o') :
    Heap.Rel w { h with objects := h.objects.push o } { h' with objects := h'.objects.push o' } where
  __ := hh
  objects := by simpa using forall₂_append hh.objects (.cons ho .nil)
  lists := by
    intro i hi
    have hlist := hh.lists i hi
    have hlt : i < h.objects.size := by
      by_contra hge
      rw [Array.getElem?_eq_none (by omega)] at hlist
      cases hlist
    simpa [Array.getElem?_push, Nat.ne_of_lt hlt] using hlist

lemma agree_allocIndex {o o' : Object} (ho : Object.Rel w o o') :
    Agree w Eq (allocIndex o) (allocIndex o') := by
  intro st st' hst
  unfold allocIndex
  rw [hst.heap.size]
  exact .ok { hst with heap := hst.heap.push ho } rfl

lemma agree_alloc {o o' : Object} (ho : Object.Rel w o o') :
    Agree w (Value.Rel w) (alloc o) (alloc o') :=
  (agree_allocIndex ho).bind fun _ _ hi => .pure (hi ▸ .same rfl)

lemma Heap.Rel.set {h h' : Heap} (hh : Heap.Rel w h h') {i : Nat} {o o' : Object}
    (ho : Object.Rel w o o') (hi : i ∉ w.lists ∨ o.isList = true) :
    Heap.Rel w { h with objects := h.objects.setIfInBounds i o }
      { h' with objects := h'.objects.setIfInBounds i o' } where
  __ := hh
  objects := by simpa using forall₂_set hh.objects i ho
  lists := by
    intro k hk
    have hlist := hh.lists k hk
    by_cases hik : i = k
    · subst hik
      have hlt : i < h.objects.size := by
        by_contra hge
        rw [Array.getElem?_eq_none (by omega)] at hlist
        cases hlist
      have ho : o.isList = true := hi.resolve_left (not_not_intro hk)
      simp [hlt, ho]
    · simpa [Array.getElem?_setIfInBounds_ne hik] using hlist

lemma agree_store {i : Nat} {o o' : Object} (ho : Object.Rel w o o')
    (hi : i ∉ w.lists ∨ o.isList = true) : Agree w Eq (store i o) (store i o') :=
  fun _ _ hst => .ok { hst with heap := hst.heap.set ho hi } rfl

lemma Heap.Rel.not_mem_lists {h h' : Heap} (hh : Heap.Rel w h h') {i : Nat} {o : Object}
    (ho : h.objects[i]? = some o) (hlist : o.isList = false) : i ∉ w.lists := by
  intro hi
  have := hh.lists i hi
  rw [ho] at this
  simp [hlist] at this

lemma Heap.Rel.move {h h' : Heap} (hh : Heap.Rel w h h') {i j : Nat} (hij : w.image[i]? = some j)
    (c : Cursor) : Heap.Rel w { h with iterators := h.iterators.setIfInBounds i c }
      { h' with iterators := h'.iterators.setIfInBounds j c } where
  __ := hh
  image_length := by simpa using hh.image_length
  cursor := by
    intro k l hkl
    have hcursor := hh.cursor k l hkl
    obtain ⟨x, hx⟩ := hh.iterators_isSome hkl
    by_cases hik : i = k
    · subst hik
      obtain rfl : j = l := Option.some.inj (hij.symm.trans hkl)
      rw [hx] at hcursor
      simp [(Array.getElem?_eq_some_iff.mp hx).1, (Array.getElem?_eq_some_iff.mp hcursor).1]
    · have hjl : j ≠ l := fun h => hik (hh.image_inj hij (h ▸ hkl))
      simpa [Array.getElem?_setIfInBounds_ne hik, Array.getElem?_setIfInBounds_ne hjl] using hcursor
  pinned := by
    intro p hp
    obtain ⟨hcursor, hmem⟩ := hh.pinned p hp
    have hjp : j ≠ p.1 := fun h => hmem (h ▸ List.mem_of_getElem? hij)
    exact ⟨by simpa [Array.getElem?_setIfInBounds_ne hjp] using hcursor, hmem⟩

lemma agree_allocPlanar (z : Number.Planar) :
    Agree w (Value.Rel w) (allocPlanar z) (allocPlanar z) := by
  intro st st' hst
  unfold allocPlanar
  rw [hst.heap.complexes]
  exact .ok { hst with heap := { hst.heap with complexes := rfl } } (.same rfl)

lemma agree_storeIterator {i j : Nat} (hij : w.image[i]? = some j) (c : Cursor) :
    Agree w Eq (storeIterator i c) (storeIterator j c) :=
  fun _ _ hst => .ok { hst with heap := hst.heap.move hij c } rfl

lemma agree_throwException {Q : α → β → Prop} (name : String) (message : Option String) :
    Agree w Q (throwException name message : StoreM α) (throwException name message : StoreM β) :=
  (agree_alloc (.exception name message)).bind fun _ _ hv => .throw (.thrown hv)

lemma agree_print (toErrors : Bool) (text : String) :
    Agree w Eq (print toErrors text) (print toErrors text) := by
  intro st st' hst
  refine .ok ?_ rfl
  cases toErrors with
  | true => exact { hst with err := congrArg (· ++ text) hst.err }
  | false => exact { hst with out := congrArg (· ++ text) hst.out }

lemma Attempt.scalar (f : α → Value) (hf : ∀ a, (f a).isIterator = false) (r : Except Fault α) :
    Attempt (Value.Rel w) (do return f (← r)) (do return f (← r)) := by
  refine (Attempt.refl r).bind fun a b hab => ?_
  subst hab
  exact .ok (.same (hf a))

lemma toInteger_rel (hv : Value.Rel w v v') : toInteger v' = toInteger v := by cases hv <;> rfl

lemma indexOf?_rel (hv : Value.Rel w v v') : indexOf? v' = indexOf? v := by cases hv <;> rfl

lemma isNull_rel (hv : Value.Rel w v v') : isNull v' = isNull v := by cases hv <;> rfl

lemma realOf_rel (hv : Value.Rel w v v') : realOf v' = realOf v := by
  rw [realOf, hv.num?, realOf]

lemma toFloating_rel (hv : Value.Rel w v v') : toFloating v' = toFloating v := by
  rw [toFloating, hv.num?, hv.text?, toFloating]

lemma widen_rel (hv : Value.Rel w v v') : Attempt (Value.Rel w) (widen v) (widen v') := by
  cases hv with
  | iterator hi => exact .ok (.iterator hi)
  | same hv =>
    cases v with
    | char s => exact .scalar Value.int (fun _ => rfl) (codeOf s)
    | _ => exact .ok (.same hv)

lemma charOf_rel (n : Int) : Attempt (Value.Rel w) (charOf n) (charOf n) := by
  unfold charOf
  split
  · exact .error _
  split
  · exact .error _
  split
  · exact .ok (.same rfl)
  · exact .ok (.same rfl)

lemma coerce_rel (t : TypeInfo) (hv : Value.Rel w v v') :
    Attempt (Value.Rel w) (t.coerce v) (t.coerce v') := by
  simp only [TypeInfo.coerce, hv.isNumeric, hv.isChar]
  split
  · exact .ok hv
  split
  · refine (widen_rel hv).bind fun x y hxy => ?_
    rw [realOf_rel hxy]
    exact .scalar _ (fun _ => rfl) _
  split
  · exact widen_rel hv
  · exact .ok hv

lemma cast_rel (t : TypeInfo) (hv : Value.Rel w v v') :
    Attempt (Value.Rel w) (t.cast v) (t.cast v') := by
  simp only [TypeInfo.cast, hv.isChar, toInteger_rel hv]
  split
  · exact .ok hv
  split
  · refine (widen_rel hv).bind fun x y hxy => ?_
    rw [toInteger_rel hxy]
    exact .scalar _ (fun _ => rfl) _
  split
  · refine (widen_rel hv).bind fun x y hxy => ?_
    rw [toFloating_rel hxy]
    exact .scalar _ (fun _ => rfl) _
  split
  · split
    · exact .ok hv
    · refine (Attempt.refl _).bind fun n m hnm => ?_
      subst hnm
      exact charOf_rel n
  · exact .ok hv

lemma agree_nullPointer {Q : α → β → Prop} : Agree w Q (nullPointer : StoreM α) nullPointer :=
  agree_throwException _ _

lemma agree_equalValues (ha : Value.Rel w a a') (hb : Value.Rel w b b') :
    Agree w Eq (equalValues a b) (equalValues a' b') := by
  refine agree_heap.bind fun h h' hh => ?_
  rw [equal?_rel hh ha hb]
  exact .finite _

lemma agree_equalOperands (ha : Value.Rel w a a') (hb : Value.Rel w b b') :
    Agree w Eq (equalOperands a b) (equalOperands a' b') := by
  unfold equalOperands
  rw [ha.isNumeric, hb.isNumeric, ha.isPlain, hb.isPlain]
  refine .ite (fun _ => ?_) fun _ => .ite (fun _ => ?_) fun _ => ?_
  · refine (widen_rel ha).faultless.bind fun x x' hx => ?_
    exact (widen_rel hb).faultless.bind fun y y' hy => agree_equalValues hx hy
  · exact agree_equalValues ha hb
  · exact fun st st' hst => .ok hst (identical_rel hst.heap ha hb).symm

lemma arithmetic_rel (f : Int → Int → Int) (g : Float → Float → Float) (ha : Value.Rel w a a')
    (hb : Value.Rel w b b') :
    Attempt (Value.Rel w) (arithmetic f g a b) (arithmetic f g a' b') := by
  unfold arithmetic
  rw [ha.num?, hb.num?]
  split
  · exact .ok (.same rfl)
  · rename_i x y _ _ _
    refine (Attempt.refl x.toFloat).bind fun p q hpq => ?_
    subst hpq
    exact .scalar _ (fun _ => rfl) _
  · exact .error _

lemma repeatText_rel (s : String) (n : Int) :
    Attempt (Value.Rel w) (repeatText s n) (repeatText s n) :=
  .scalar _ (fun _ => rfl) _

lemma agree_repeatArray {xs ys : Array Value} (h : Items w xs ys) (n : Int) :
    Agree w (Value.Rel w) (repeatArray xs n) (repeatArray ys n) := by
  unfold repeatArray
  rw [h.size]
  refine (agree_faultless _).bind fun k k' hk => ?_
  subst hk
  exact agree_alloc (.array (h.repeated k))

lemma agree_add (ha : Value.Rel w a a') (hb : Value.Rel w b b') :
    Agree w (Value.Rel w) (add a b) (add a' b') := by
  refine agree_heap.bind fun h h' hh => agree_heap.bind fun h₁ h₁' hh₁ => ?_
  obtain ⟨hn, hn'⟩ | ⟨xs, xs', hs, hs', hx⟩ := option_cases (hh.array? ha)
  · simp only [hn, hn']
    exact (arithmetic_rel _ _ ha hb).faultless
  obtain ⟨hm, hm'⟩ | ⟨ys, ys', ht, ht', hy⟩ := option_cases (hh₁.array? hb)
  · simp only [hs, hs', hm, hm']
    exact (arithmetic_rel _ _ ha hb).faultless
  · simp only [hs, hs', ht, ht']
    exact agree_alloc (.array (hx.append hy))

lemma agree_multiplyItems (ha : Value.Rel w a a') (hb : Value.Rel w b b') :
    Agree w (Value.Rel w) (multiplyItems a b) (multiplyItems a' b') := by
  refine agree_heap.bind fun h h' hh => ?_
  rw [indexOf?_rel ha, indexOf?_rel hb]
  obtain ⟨hn, hn'⟩ | ⟨xs, xs', hs, hs', hx⟩ := option_cases (hh.array? ha)
  · obtain ⟨hm, hm'⟩ | ⟨ys, ys', ht, ht', hy⟩ := option_cases (hh.array? hb)
    · simp only [hn, hn', hm, hm']
      exact (arithmetic_rel _ _ ha hb).faultless
    · simp only [hn, hn', ht, ht']
      exact (Agree.same _).bind fun k _ hk => hk ▸ agree_repeatArray hy k
  · simp only [hs, hs']
    exact (Agree.same _).bind fun k _ hk => hk ▸ agree_repeatArray hx k

lemma agree_repeatTextBy (s : String) (hv : Value.Rel w v v') : Agree w (Value.Rel w)
    (do faultless (repeatText s (← orRaise .wrongKind (indexOf? v))))
    (do faultless (repeatText s (← orRaise .wrongKind (indexOf? v')))) := by
  rw [indexOf?_rel hv]
  exact (Agree.same _).bind fun k _ hk => hk ▸ (repeatText_rel s k).faultless

lemma agree_multiply (ha : Value.Rel w a a') (hb : Value.Rel w b b') :
    Agree w (Value.Rel w) (multiply a b) (multiply a' b') := by
  have hdefault := agree_multiplyItems ha hb
  have hleft := fun s => agree_repeatTextBy s hb
  have hright := fun s => agree_repeatTextBy s ha
  cases ha with
  | iterator hi =>
    cases hb with
    | iterator hj => exact hdefault
    | same hb =>
      cases b with
      | text s => exact hright s
      | _ => exact hdefault
  | same ha =>
    cases a with
    | text s => exact hleft s
    | _ =>
      cases hb with
      | iterator hj => exact hdefault
      | same hb =>
        cases b with
        | text s => exact hright s
        | _ => exact hdefault

lemma divideByZero_rel (ha : Value.Rel w a a') (z : Num) :
    Attempt (Value.Rel w) (divideByZero a z) (divideByZero a' z) := by
  unfold divideByZero
  rw [ha.num?, ha.isUndefined]
  split
  · exact .error _
  split
  · exact .ok (.same rfl)
  · rename_i x _ _
    refine (Attempt.refl x.toFloat).bind fun p q hpq => ?_
    subst hpq
    exact .scalar _ (fun _ => rfl) _

lemma divideFloat_rel (ha : Value.Rel w a a') (hb : Value.Rel w b b') :
    Attempt (Value.Rel w) (divideFloat a b) (divideFloat a' b') := by
  unfold divideFloat
  rw [hb.num?]
  split
  · split
    · exact divideByZero_rel ha _
    · exact arithmetic_rel _ _ ha hb
  · exact .error _

lemma remainderFloat_rel (ha : Value.Rel w a a') (hb : Value.Rel w b b') :
    Attempt (Value.Rel w) (remainderFloat a b) (remainderFloat a' b') := by
  unfold remainderFloat
  rw [realOf_rel ha, realOf_rel hb]
  refine (Attempt.refl _).bind fun x x' hx => (Attempt.refl _).bind fun y y' hy => ?_
  subst hx hy
  split
  · exact .ok (.same rfl)
  · exact .error _

lemma agree_divide (f : Int → Int → Int) {g : Value → Value → Except Fault Value}
    (hg : Attempt (Value.Rel w) (g a b) (g a' b')) (ha : Value.Rel w a a')
    (hb : Value.Rel w b b') : Agree w (Value.Rel w) (divide f g a b) (divide f g a' b') := by
  unfold divide
  rw [indexOf?_rel ha, indexOf?_rel hb]
  split
  · split
    · exact agree_throwException _ _
    · exact .pure (.same rfl)
  · exact hg.faultless

lemma onIntegers_rel (f : Int → Int → Int) (ha : Value.Rel w a a') (hb : Value.Rel w b b') :
    Attempt (Value.Rel w) (onIntegers f a b) (onIntegers f a' b') := by
  unfold onIntegers
  rw [indexOf?_rel ha, indexOf?_rel hb]
  split
  · exact .ok (.same rfl)
  · exact .error _

lemma agree_compareValues (c : Comparison) (ha : Value.Rel w a a') (hb : Value.Rel w b b') :
    Agree w Eq (compareValues c a b) (compareValues c a' b') := by
  refine agree_heap.bind fun h h' hh => ?_
  rw [compareValues?_rel hh c ha hb]
  exact (Agree.finite _).bind fun r _ hr => hr ▸ agree_faultless r

lemma agree_compareOperands (c : Comparison) (ha : Value.Rel w a a') (hb : Value.Rel w b b') :
    Agree w (Value.Rel w) (compareOperands c a b) (compareOperands c a' b') := by
  exact (agree_compareValues c ha hb).bind fun _ _ h => h ▸ .pure (.same rfl)

lemma agree_applyReal (op : BinaryOp) (ha : Value.Rel w a a') (hb : Value.Rel w b b') :
    Agree w (Value.Rel w) (applyReal op a b) (applyReal op a' b') := by
  cases op with
  | add => exact agree_add ha hb
  | sub => exact (arithmetic_rel _ _ ha hb).faultless
  | mul => exact agree_multiply ha hb
  | div => exact agree_divide _ (divideFloat_rel ha hb) ha hb
  | rem => exact agree_divide _ (remainderFloat_rel ha hb) ha hb
  | lt | gt | le | ge => exact agree_compareOperands _ ha hb
  | bitAnd | bitOr | bitXor | shiftLeft | shiftRight | shiftRightUnsigned =>
    exact (onIntegers_rel _ ha hb).faultless
  | _ => exact .fail _

lemma planarOperands?_rel {h h' : Heap} (hh : Heap.Rel w h h') (ha : Value.Rel w a a')
    (hb : Value.Rel w b b') : planarOperands? h' a' b' = planarOperands? h a b := by
  have hplanar : ∀ {x x' : Value}, Value.Rel w x x' → x'.toPlanar? h' = x.toPlanar? h := by
    intro x x' hx
    rw [Value.toPlanar?, hh.planar? hx, hx.num?, Value.toPlanar?]
  rw [planarOperands?, hh.planar? ha, hh.planar? hb, hplanar ha, hplanar hb, planarOperands?]

lemma agree_dividePlanar (z u : Number.Planar) :
    Agree w (Value.Rel w) (dividePlanar z u) (dividePlanar z u) := by
  unfold dividePlanar
  split
  · split
    · exact .pure (.same rfl)
    · exact .raise _
  · exact (agree_faultless _).bind fun _ _ h => h ▸ agree_allocPlanar _

lemma agree_planarOperator {op : BinaryOp} {f : Number.Planar → Number.Planar → StoreM Value}
    (hf : planarOperator? op = some f) (z u : Number.Planar) :
    Agree w (Value.Rel w) (f z u) (f z u) := by
  unfold planarOperator? at hf
  split at hf
  iterate 3
    cases hf
    exact agree_allocPlanar _
  · cases hf
    exact agree_dividePlanar z u
  · cases hf

lemma agree_applyStrict (op : BinaryOp) (ha : Value.Rel w a a') (hb : Value.Rel w b b') :
    Agree w (Value.Rel w) (applyStrict op a b) (applyStrict op a' b') := by
  refine agree_heap.bind fun h h' hh => ?_
  rw [planarOperands?_rel hh ha hb]
  split
  · rename_i f operands hf _
    exact (agree_faultless operands).bind fun x _ hx => hx ▸ agree_planarOperator hf x.1 x.2
  · exact agree_applyReal op ha hb

lemma agree_applyWidened (op : BinaryOp) (ha : Value.Rel w a a') (hb : Value.Rel w b b') :
    Agree w (Value.Rel w) (applyWidened op a b) (applyWidened op a' b') := by
  refine (widen_rel ha).faultless.bind fun x x' hx => ?_
  refine (widen_rel hb).faultless.bind fun y y' hy => ?_
  rw [isNull_rel hx, isNull_rel hy]
  exact .ite (fun _ => agree_nullPointer) fun _ => agree_applyStrict op hx hy

lemma agree_concat (hb : Value.Rel w b b') (f : String → String) :
    Agree w (Value.Rel w) (do return .text (f (← shown b))) (do return .text (f (← shown b'))) :=
  (agree_shown hb).bind fun _ _ h => h ▸ .pure (.same rfl)

lemma agree_applyBinary (op : BinaryOp) (ha : Value.Rel w a a') (hb : Value.Rel w b b') :
    Agree w (Value.Rel w) (applyBinary op a b) (applyBinary op a' b') := by
  have hdefault := agree_applyWidened op ha hb
  have hshown := agree_concat hb
  have hshown' := agree_concat ha
  have hequal := agree_equalOperands ha hb
  cases op with
  | add =>
    cases ha with
    | iterator hi =>
      cases hb with
      | iterator hj => exact hdefault
      | same hb =>
        cases b with
        | text s => exact hshown' (· ++ s)
        | _ => exact hdefault
    | same ha =>
      cases a with
      | text s => exact hshown (s ++ ·)
      | _ =>
        cases hb with
        | iterator hj => exact hdefault
        | same hb =>
          cases b with
          | text s => exact hshown' (· ++ s)
          | _ => exact hdefault
  | eq => exact hequal.bind fun _ _ h => h ▸ .pure (.same rfl)
  | ne => exact hequal.bind fun _ _ h => h ▸ .pure (.same rfl)
  | bitAnd =>
    cases ha with
    | iterator hi => exact hdefault
    | same ha =>
      cases a with
      | bool x =>
        cases x with
        | true => exact .pure hb
        | false => exact .pure (.same rfl)
      | _ => exact hdefault
  | bitOr =>
    cases ha with
    | iterator hi => exact hdefault
    | same ha =>
      cases a with
      | bool x =>
        cases x with
        | true => exact .pure (.same rfl)
        | false => exact .pure hb
      | _ => exact hdefault
  | bitXor =>
    cases ha with
    | iterator hi => exact hdefault
    | same ha =>
      cases a with
      | bool x =>
        exact (agree_equalValues (.same rfl) hb).bind fun _ _ h => h ▸ .pure (.same rfl)
      | _ => exact hdefault
  | _ => exact hdefault

lemma stepReal_rel (up : Bool) (hv : Value.Rel w v v') :
    Attempt (Value.Rel w) (stepReal up v) (stepReal up v') := by
  refine (widen_rel hv).bind fun x x' hx => ?_
  refine (arithmetic_rel _ _ hx (.same rfl)).bind fun y y' hy => ?_
  cases hv with
  | iterator hi => exact .ok hy
  | same hv =>
    cases v with
    | char s =>
      cases hy with
      | iterator hj => exact .ok (.iterator hj)
      | same hy =>
        cases y with
        | int n => exact charOf_rel n
        | _ => exact .ok (.same hy)
    | _ => exact .ok hy

lemma agree_step (up : Bool) (hv : Value.Rel w v v') :
    Agree w (Value.Rel w) (step up v) (step up v') := by
  refine agree_heap.bind fun h h' hh => ?_
  rw [hh.planar? hv]
  split
  · exact agree_allocPlanar _
  · exact (stepReal_rel up hv).faultless

lemma negate_rel (hv : Value.Rel w v v') : Attempt (Value.Rel w) (negate v) (negate v') := by
  refine (widen_rel hv).bind fun x x' hx => ?_
  rw [hx.num?]
  split
  · exact .ok (.same rfl)
  · exact .ok (.same rfl)
  · exact .error _

lemma agree_applyUnary (op : UnaryOp) (hv : Value.Rel w v v') :
    Agree w (Value.Rel w) (applyUnary op v) (applyUnary op v') := by
  cases op with
  | not =>
    refine agree_heap.bind fun h h' hh => ?_
    rw [holds_rel hh hv]
    exact .pure (.same rfl)
  | minus =>
    refine agree_heap.bind fun h h' hh => ?_
    rw [hh.planar? hv]
    split
    · exact agree_allocPlanar _
    · exact (negate_rel hv).faultless
  | plus => exact (widen_rel hv).faultless
  | complement =>
    refine Attempt.faultless ((widen_rel hv).bind fun x x' hx => ?_)
    rw [indexOf?_rel hx]
    split
    · exact .ok (.same rfl)
    · exact .error _
  | _ => exact .fail _

lemma fitCompound_rel (ha : Value.Rel w a a') (hb : Value.Rel w b b') :
    Attempt (Value.Rel w) (fitCompound a b) (fitCompound a' b') := by
  cases ha with
  | iterator hi => exact .ok hb
  | same ha =>
    cases a with
    | int m =>
      cases hb with
      | iterator hj => exact .ok (.iterator hj)
      | same hb =>
        cases b with
        | float x => exact .scalar _ (fun _ => rfl) _
        | _ => exact .ok (.same hb)
    | char s =>
      cases hb with
      | iterator hj => exact .ok (.iterator hj)
      | same hb =>
        cases b with
        | int n => exact charOf_rel n
        | bool x => exact charOf_rel _
        | _ => exact .ok (.same hb)
    | _ => exact .ok hb

lemma agree_positionOf (size : Nat) (hv : Value.Rel w v v') :
    Agree w Eq (positionOf size v) (positionOf size v') := by
  unfold positionOf
  rw [indexOf?_rel hv]
  exact (Agree.same _).bind fun i _ h => h ▸ .same _

lemma agree_checkedPosition (size : Nat) (hv : Value.Rel w v v') {c c' : StoreM Unit}
    (hc : Agree w Eq c c') : Agree w Eq (checkedPosition size v c) (checkedPosition size v' c') := by
  have hbounds : Agree w Eq (inBounds size v) (inBounds size v') := by
    unfold inBounds
    rw [hv.num?]
    split
    · exact .pure rfl
    · exact .raise _
  unfold checkedPosition
  refine hbounds.bind fun x x' hx => ?_
  subst hx
  rw [indexOf?_rel hv]
  have hlast : Agree w Eq (do return (← orRaise .wrongKind (indexOf? v)).toNat)
      (do return (← orRaise .wrongKind (indexOf? v)).toNat) :=
    (Agree.same _).bind fun _ _ h => h ▸ .pure rfl
  cases x with
  | true => exact hlast
  | false => exact hc.bind fun _ _ _ => hlast

lemma agree_outOfBounds (name : String) (size : Nat) (hv : Value.Rel w v v') :
    Agree w Eq (outOfBounds name size v) (outOfBounds name size v') := by
  unfold outOfBounds
  rw [hv.plain]
  exact agree_throwException _ _

lemma cutAt_rel (size absent : Nat) (hv : Value.Rel w v v') :
    cutAt size absent v' = cutAt size absent v := by
  cases hv <;> rfl

lemma wordIndex_rel (hv : Value.Rel w v v') : wordIndex v' = wordIndex v := by
  rw [wordIndex, indexOf?_rel hv, wordIndex]

lemma agree_argument (hargs : List.Forall₂ (Value.Rel w) args args') (i : Nat) :
    Agree w (Value.Rel w) (argument args i) (argument args' i) :=
  .orRaise _ (forall₂_getElem? hargs i)

end

end LoopLowering.Machine
