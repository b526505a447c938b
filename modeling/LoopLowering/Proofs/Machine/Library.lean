import LoopLowering.Machine.Expression
import LoopLowering.Machine.Run
import LoopLowering.Proofs.Machine.Primitive
import LoopLowering.Proofs.Machine.Storage

/-! The methods and classes that every program has agree on corresponding stores. -/

namespace LoopLowering.Machine

variable {α β : Type} {w : World} {v v' a a' b b' : Value} {args args' : List Value}

structure ListCell.Rel (w : World) (l l' : ListCell) : Prop where
  index : l'.index = l.index
  items : Items w l.items l'.items
  immutable : l'.immutable = l.immutable

namespace ListCell

variable {l l' : ListCell}

lemma agree_put (hl : l.Rel w l') {xs ys : Array Value} (h : Items w xs ys) :
    Agree w Eq (l.put xs) (l'.put ys) := by
  unfold put
  rw [hl.index, hl.immutable]
  exact agree_store (.list h _) (.inr rfl)

lemma agree_add (hl : l.Rel w l') (hargs : List.Forall₂ (Value.Rel w) args args') :
    Agree w (Value.Rel w) (l.add args) (l'.add args') := by
  have hlast : ∀ {xs ys : Array Value}, Items w xs ys → Agree w (Value.Rel w)
      (do l.put xs; return .bool true) (do l'.put ys; return .bool true) :=
    fun h => (agree_put hl h).bind fun _ _ _ => .pure (.same rfl)
  have hone : Agree w (Value.Rel w)
      (do l.put (l.items.push (← argument args 0)); return .bool true)
      (do l'.put (l'.items.push (← argument args' 0)); return .bool true) :=
    (agree_argument hargs 0).bind fun _ _ hv => hlast (hl.items.push hv)
  cases hargs with
  | nil => exact hone
  | cons hi tl =>
    cases tl with
    | nil => exact hone
    | cons hv tl =>
      cases tl with
      | cons _ _ => exact hone
      | nil =>
        dsimp only [add]
        rw [wordIndex_rel hi, hl.items.size]
        refine (agree_faultless _).bind fun k _ hk => ?_
        subst hk
        refine hlast ?_
        refine forall₂_append (List.forall₂_take _ hl.items) ?_
        exact .cons hv (List.forall₂_drop _ hl.items)

lemma agree_get (hl : l.Rel w l') (hargs : List.Forall₂ (Value.Rel w) args args') :
    Agree w (Value.Rel w) (l.get args) (l'.get args') := by
  refine (agree_argument hargs 0).bind fun i i' hi => ?_
  simp only [hl.items.size]
  refine (agree_checkedPosition _ hi (agree_outOfBounds _ _ hi)).bind fun p _ hp => ?_
  subst hp
  exact .orRaise _ (hl.items.getElem? p)

lemma agree_set (hl : l.Rel w l') (hargs : List.Forall₂ (Value.Rel w) args args') :
    Agree w (Value.Rel w) (l.set args) (l'.set args') := by
  refine (agree_argument hargs 0).bind fun i i' hi => ?_
  rw [hl.items.size]
  refine (agree_positionOf _ hi).bind fun p _ hp => ?_
  subst hp
  refine (Agree.orRaise _ (hl.items.getElem? p)).bind fun x x' hx => ?_
  refine (agree_argument hargs 1).bind fun y y' hy => ?_
  exact (agree_put hl (hl.items.setIfInBounds p hy)).bind fun _ _ _ => .pure hx

lemma agree_search (hargs : List.Forall₂ (Value.Rel w) args args') {xs ys : List Value}
    (h : List.Forall₂ (Value.Rel w) xs ys) (i : Nat) :
    Agree w Eq (search args xs i) (search args' ys i) := by
  induction h generalizing i with
  | nil => exact .pure rfl
  | cons hd _ ih =>
    refine (agree_argument hargs 0).bind fun x x' hx => ?_
    refine (agree_equalOperands hd hx).bind fun b _ hb => ?_
    subst hb
    exact .ite (fun _ => .pure rfl) fun _ => ih (i + 1)

lemma agree_indexOf (hl : l.Rel w l') (hargs : List.Forall₂ (Value.Rel w) args args') :
    Agree w Eq (l.indexOf args) (l'.indexOf args') := agree_search hargs hl.items 0

lemma agree_removeAt (hl : l.Rel w l') (hv : Value.Rel w v v') :
    Agree w (Value.Rel w) (l.removeAt v) (l'.removeAt v') := by
  unfold removeAt
  rw [wordIndex_rel hv, hl.items.size]
  refine (agree_faultless _).bind fun i _ hi => ?_
  subst hi
  refine (Agree.same _).bind fun p _ hp => ?_
  subst hp
  refine (Agree.orRaise _ (hl.items.getElem? p)).bind fun x x' hx => ?_
  exact (agree_put hl (hl.items.eraseIdxIfInBounds p)).bind fun _ _ _ => .pure hx

lemma agree_remove (hl : l.Rel w l') (hargs : List.Forall₂ (Value.Rel w) args args') :
    Agree w (Value.Rel w) (l.remove args) (l'.remove args') := by
  refine (agree_argument hargs 0).bind fun x x' hx => ?_
  rw [hx.isNumeric, hx.isChar]
  refine .ite (fun _ => agree_removeAt hl hx) fun _ => ?_
  refine (agree_indexOf hl hargs).bind fun p _ hp => ?_
  subst hp
  cases p with
  | none => exact .pure (.same rfl)
  | some p =>
    exact (agree_put hl (hl.items.eraseIdxIfInBounds p)).bind fun _ _ _ => .pure (.same rfl)

lemma agree_sameItems {xs xs' ys ys' : Array Value} (hx : Items w xs xs') (hy : Items w ys ys') :
    Agree w Eq (sameItems xs ys) (sameItems xs' ys') := by
  refine agree_heap.bind fun h h' hh => ?_
  have hsame : sameItems? h' xs' ys' = sameItems? h xs ys := by
    rw [sameItems?, sameItems?, hx.size, hy.size, zip_allM_eq
      (p := fun p => sameElement? h p.1 p.2) hx hy fun _ _ _ _ hx hy => sameElement?_rel hh hx hy]
  rw [hsame]
  exact .finite _

lemma agree_equals (hl : l.Rel w l') (hargs : List.Forall₂ (Value.Rel w) args args') :
    Agree w (Value.Rel w) (l.equals args) (l'.equals args') := by
  refine (agree_argument hargs 0).bind fun x x' hx => agree_heap.bind fun h h' hh => ?_
  obtain ⟨hn, hn'⟩ | ⟨ys, ys', hs, hs', hy⟩ := option_cases (hh.list? hx)
  · rw [hn, hn']
    exact .pure (.same rfl)
  · rw [hs, hs']
    exact (agree_sameItems hl.items hy).bind fun _ _ h => h ▸ .pure (.same rfl)

lemma agree_guarded {Q : α → β → Prop} {p : Bool} {name : String} {c : StoreM α} {c' : StoreM β}
    (h : Agree w Q c c') :
    Agree w Q (if p then throwException name none >>= fun _ : PUnit => c else c)
      (if p then throwException name none >>= fun _ : PUnit => c' else c') := by
  refine .ite (fun _ => ?_) fun _ => h
  exact (agree_throwException (Q := Eq) name none).bind fun _ _ _ => h

lemma agree_call (hl : l.Rel w l') (hargs : List.Forall₂ (Value.Rel w) args args') {name : String}
    (hname : name ≠ "iterator") : Agree w (Value.Rel w) (l.call name args) (l'.call name args') := by
  have hindexOf := agree_indexOf hl hargs
  unfold call
  rw [hl.immutable]
  split <;> refine agree_guarded ?_
  · exact agree_add hl hargs
  · exact agree_get hl hargs
  · exact agree_set hl hargs
  · rw [hl.items.size]
    exact .pure (.same rfl)
  · rw [hl.items.isEmpty]
    exact .pure (.same rfl)
  · exact hindexOf.bind fun _ _ h => h ▸ .pure (.same rfl)
  · exact hindexOf.bind fun _ _ h => h ▸ .pure (.same rfl)
  · exact agree_remove hl hargs
  · exact (agree_put hl .nil).bind fun _ _ _ => .pure (.same rfl)
  · exact absurd rfl hname
  · rw [hl.index]
    exact (agree_shown (.same rfl)).bind fun _ _ h => h ▸ .pure (.same rfl)
  · exact agree_equals hl hargs
  · exact .fail _

end ListCell

namespace TextMethod

variable (s : String)

lemma agree_charAt (hargs : List.Forall₂ (Value.Rel w) args args') :
    Agree w (Value.Rel w) (charAt s args) (charAt s args') := by
  refine (agree_argument hargs 0).bind fun i i' hi => ?_
  refine (agree_checkedPosition _ hi (agree_throwException _ _)).bind fun p _ hp => ?_
  subst hp
  exact (Agree.same _).bind fun _ _ h => h ▸ .pure (.same rfl)

lemma agree_equals (hargs : List.Forall₂ (Value.Rel w) args args') :
    Agree w (Value.Rel w) (equals s args) (equals s args') := by
  refine (agree_argument hargs 0).bind fun x x' hx => ?_
  rw [hx.text?]
  exact .pure (.same rfl)

lemma agree_equalsIgnoreCase (hargs : List.Forall₂ (Value.Rel w) args args') :
    Agree w (Value.Rel w) (equalsIgnoreCase s args) (equalsIgnoreCase s args') := by
  refine (agree_argument hargs 0).bind fun x x' hx => ?_
  rw [hx.text?]
  exact .pure (.same rfl)

lemma agree_substring (hargs : List.Forall₂ (Value.Rel w) args args') :
    Agree w (Value.Rel w) (substring s args) (substring s args') := by
  refine (agree_argument hargs 0).bind fun x x' hx => ?_
  rw [cutAt_rel _ _ hx]
  refine (agree_faultless _).bind fun start _ hstart => ?_
  subst hstart
  have hlast : ∀ stop : Nat, Agree w (Value.Rel w)
      (Pure.pure (Value.text (String.ofList (cut s.toList start stop))) : StoreM Value)
      (Pure.pure (Value.text (String.ofList (cut s.toList start stop))) : StoreM Value) :=
    fun _ => .pure (.same rfl)
  cases hargs with
  | nil => exact hlast _
  | cons _ tl =>
    cases tl with
    | nil => exact hlast _
    | cons hb tl =>
      cases tl with
      | nil =>
        dsimp only
        rw [cutAt_rel _ _ hb]
        exact (agree_faultless _).bind fun _ _ h => h ▸ hlast _
      | cons _ _ => exact hlast _

lemma agree_occurrence (hargs : List.Forall₂ (Value.Rel w) args args') :
    Agree w Eq (occurrence s args) (occurrence s args') := by
  refine (agree_argument hargs 0).bind fun x x' hx => ?_
  exact (agree_shown hx).bind fun _ _ h => h ▸ .pure rfl

lemma agree_textArgument (hargs : List.Forall₂ (Value.Rel w) args args') :
    Agree w Eq (textArgument args) (textArgument args') := by
  refine (agree_argument hargs 0).bind fun x x' hx => ?_
  rw [hx.text?]
  exact .same _

lemma agree_call (hargs : List.Forall₂ (Value.Rel w) args args') (name : String) :
    Agree w (Value.Rel w) (call s name args) (call s name args') := by
  have hoccurrence := agree_occurrence s hargs
  have htext := agree_textArgument hargs
  unfold call
  split
  · exact .pure (.same rfl)
  · exact agree_charAt s hargs
  · exact agree_equals s hargs
  · exact agree_equalsIgnoreCase s hargs
  · exact .pure (.same rfl)
  · exact agree_substring s hargs
  · exact .pure (.same rfl)
  · exact .pure (.same rfl)
  · exact .pure (.same rfl)
  · exact hoccurrence.bind fun _ _ h => h ▸ .pure (.same rfl)
  · exact hoccurrence.bind fun _ _ h => h ▸ .pure (.same rfl)
  · exact htext.bind fun _ _ h => h ▸ .pure (.same rfl)
  · exact htext.bind fun _ _ h => h ▸ .pure (.same rfl)
  · exact htext.bind fun _ _ h => h ▸ .pure (.same rfl)
  · exact (agree_argument hargs 0).bind fun x x' hx => agree_repeatTextBy s hx
  · exact htext.bind fun _ _ h => h ▸ .pure (.same rfl)
  · exact .pure (.same rfl)
  · exact .pure (.same rfl)
  · exact .fail _

end TextMethod

lemma agree_hashCode (hv : Value.Rel w v v') :
    Agree w (Value.Rel w) (hashCode v) (hashCode v') := by
  have hrefs : ∀ x x' : Address, x'.code = x.code → Value.Rel w (.ref x) (.ref x') →
      Agree w (Value.Rel w) (hashCode (.ref x)) (hashCode (.ref x')) := by
    intro x x' hcode hx
    refine agree_heap.bind fun h h' hh => ?_
    obtain ⟨hn, hn'⟩ | ⟨ys, ys', hs, hs', -⟩ := option_cases (hh.array? hx)
    · rw [hn, hn', hcode, hh.planar? hx]
      cases Value.planar? h (.ref x) <;> exact .pure (.same rfl)
    · rw [hs, hs']
      exact .raise _
  cases hv with
  | iterator hi => exact hrefs _ _ rfl (.iterator hi)
  | same hv =>
    cases v with
    | ref x => exact hrefs _ _ rfl (.same hv)
    | _ => exact .pure (.same rfl)

lemma agree_callCommon (hv : Value.Rel w v v') (hargs : List.Forall₂ (Value.Rel w) args args')
    (name : String) : Agree w (Value.Rel w) (callCommon v name args) (callCommon v' name args') := by
  unfold callCommon
  split
  · exact (agree_shown hv).bind fun _ _ h => h ▸ .pure (.same rfl)
  · refine (agree_argument hargs 0).bind fun x x' hx => ?_
    exact (agree_equalOperands hv hx).bind fun _ _ h => h ▸ .pure (.same rfl)
  · exact agree_hashCode hv
  · refine agree_heap.bind fun h h' hh => ?_
    obtain ⟨hn, hn'⟩ | ⟨ys, ys', hs, hs', -⟩ := option_cases (hh.array? hv)
    · rw [hn, hn']
      exact .fail _
    · rw [hs, hs']
      exact .fail _

lemma agree_callIterator {i j : Nat} (hij : w.image[i]? = some j) (c : Cursor)
    (hargs : List.Forall₂ (Value.Rel w) args args') (name : String) :
    Agree w (Value.Rel w) (callIterator i c name args) (callIterator j c name args') := by
  refine agree_heap.bind fun h h' hh => ?_
  have hitems : Items w (((Value.ref (.object c.list)).list? h).getD #[])
      (((Value.ref (.object c.list)).list? h').getD #[]) := by
    have hrel : Value.Rel w (.ref (.object c.list)) (.ref (.object c.list)) := .same rfl
    obtain ⟨hn, hn'⟩ | ⟨ys, ys', hs, hs', hy⟩ := option_cases (hh.list? hrel)
    · rw [hn, hn']
      exact .nil
    · rw [hs, hs']
      exact hy
  generalize ((Value.ref (.object c.list)).list? h).getD #[] = xs at hitems ⊢
  generalize ((Value.ref (.object c.list)).list? h').getD #[] = ys at hitems ⊢
  dsimp only
  split
  · rw [hitems.size]
    exact .pure (.same rfl)
  · obtain ⟨hn, hn'⟩ | ⟨x, x', hx, hx', hrel⟩ := option_cases (hitems.getElem? c.position)
    · rw [hn, hn']
      exact agree_throwException _ _
    · rw [hx, hx']
      exact (agree_storeIterator hij _).bind fun _ _ _ => .pure hrel
  · exact agree_callCommon (.iterator hij) hargs _

lemma agree_callBuilder {i : Nat} (hi : i ∉ w.lists) (text : String)
    (hargs : List.Forall₂ (Value.Rel w) args args') (name : String) :
    Agree w (Value.Rel w) (callBuilder i text name args) (callBuilder i text name args') := by
  unfold callBuilder
  split
  · refine (agree_argument hargs 0).bind fun x x' hx => ?_
    refine (agree_shown hx).bind fun t _ ht => ?_
    subst ht
    exact (agree_store (.builder _) (.inl hi)).bind fun _ _ _ => .pure (.same rfl)
  · exact .pure (.same rfl)
  · exact .pure (.same rfl)
  · exact (agree_store (.builder _) (.inl hi)).bind fun _ _ _ => .pure (.same rfl)
  · refine (agree_argument hargs 0).bind fun x x' hx => ?_
    refine (agree_positionOf _ hx).bind fun p _ hp => ?_
    subst hp
    exact (Agree.same _).bind fun _ _ h => h ▸ .pure (.same rfl)
  · exact agree_callCommon (.same rfl) hargs _

lemma agree_callStream (i : Nat) (toErrors : Bool)
    (hargs : List.Forall₂ (Value.Rel w) args args') (name : String) :
    Agree w (Value.Rel w) (callStream i toErrors name args)
      (callStream i toErrors name args') := by
  have hprint (text : String) : Agree w (Value.Rel w) (do print toErrors text; return .null)
      (do print toErrors text; return .null) :=
    (agree_print _ _).bind fun _ _ _ => .pure (.same rfl)
  unfold callStream
  cases hargs with
  | nil =>
    dsimp only
    split
    · exact hprint _
    · exact hprint _
    · exact agree_callCommon (.same rfl) .nil _
  | cons hd hrest =>
    refine (agree_shown hd).bind fun text _ h => ?_
    subst h
    split
    · exact hprint _
    · exact hprint _
    · exact agree_callCommon (.same rfl) (.cons hd hrest) _

lemma agree_callException (i : Nat) (message : Option String)
    (hargs : List.Forall₂ (Value.Rel w) args args') (name : String) :
    Agree w (Value.Rel w) (callException i message name args)
      (callException i message name args') := by
  unfold callException
  split
  · cases message <;> exact .pure (.same rfl)
  · exact agree_callCommon (.same rfl) hargs _

def MakesIterator (h : Heap) (v : Value) (name : String) : Prop :=
  name = "iterator" ∧ (v.list? h).isSome = true

lemma agree_callObject {h h' : Heap} (hh : Heap.Rel w h h') {i : Nat} {o o' : Object}
    (hi : h.objects[i]? = some o) (ho : Object.Rel w o o')
    (hargs : List.Forall₂ (Value.Rel w) args args') {name : String}
    (hname : o.isList = true → name ≠ "iterator") :
    Agree w (Value.Rel w) (callObject i o name args) (callObject i o' name args') := by
  cases ho with
  | @list xs ys hx b =>
    have hl : ListCell.Rel w ⟨i, xs, b⟩ ⟨i, ys, b⟩ := ⟨rfl, hx, rfl⟩
    exact ListCell.agree_call hl hargs (hname rfl)
  | builder s => exact agree_callBuilder (hh.not_mem_lists hi rfl) s hargs name
  | stream b => exact agree_callStream i b hargs name
  | exception _ m => exact agree_callException i m hargs name
  | _ => exact agree_callCommon (.same rfl) hargs name

lemma agree_callMethod {name : String} (hv : Value.Rel w v v')
    (hargs : List.Forall₂ (Value.Rel w) args args') {st st' : Store} (hst : Store.Rel w st st')
    (hname : ¬ MakesIterator st.heap v name) :
    Ends w (Value.Rel w) (callMethod v name args st) (callMethod v' name args' st') := by
  cases hv with
  | @iterator i j hij =>
    obtain ⟨c, hc⟩ := hst.heap.iterators_isSome hij
    have hc' : st'.heap.iterators[j]? = some c := (hst.heap.cursor i j hij).trans hc
    simp only [callMethod, heap_bind, hc, hc']
    exact agree_callIterator hij c hargs name st st' hst
  | same hv =>
    cases v with
    | text s => exact TextMethod.agree_call s hargs name st st' hst
    | ref x =>
      cases x with
      | iterator i => cases hv
      | complex i => exact agree_callCommon (.same hv) hargs name st st' hst
      | object i =>
        simp only [callMethod, heap_bind]
        obtain ⟨hn, hn'⟩ | ⟨o, o', ho, ho', hrel⟩ := option_cases (hst.heap.objects_getElem? i)
        · rw [hn, hn']
          exact agree_callCommon (.same hv) hargs name st st' hst
        · rw [ho, ho']
          refine agree_callObject hst.heap ho hrel hargs (fun hlist heq => hname ⟨heq, ?_⟩) st st' hst
          cases hrel with
          | list hx b =>
            have hobject : (Value.ref (.object i)).object? st.heap = some _ := ho
            rw [Value.list?, hobject]
            rfl
          | _ => cases hlist
    | _ => exact agree_callCommon (.same rfl) hargs name st st' hst

lemma agree_callEquals (hv : Value.Rel w v v') (hargs : List.Forall₂ (Value.Rel w) args args') :
    Agree w (Value.Rel w) (callMethod v "equals" args) (callMethod v' "equals" args') :=
  fun _ _ hst => agree_callMethod hv hargs hst fun h => absurd h.1 (by decide)

lemma agree_libraryField (className name : String) :
    Agree w (Value.Rel w) (libraryField className name) (libraryField className name) := by
  unfold libraryField
  split
  · exact agree_alloc (.stream _)
  · exact agree_alloc (.stream _)
  · exact .pure (.same rfl)
  · exact .pure (.same rfl)
  · exact .pure (.same rfl)
  · exact .pure (.same rfl)
  · exact .fail _

lemma agree_listOf (immutable : Bool) (hargs : List.Forall₂ (Value.Rel w) args args') :
    Agree w (Value.Rel w) (listOf immutable args) (listOf immutable args') := by
  refine agree_heap.bind fun h h' hh => agree_alloc (.list ?_ immutable)
  have hall : Items w args.toArray args'.toArray := by simpa [Items] using hargs
  cases hargs with
  | nil => exact hall
  | cons hd tl =>
    cases tl with
    | cons _ _ => exact hall
    | nil =>
      obtain ⟨hn, hn'⟩ | ⟨xs, xs', hs, hs', hx⟩ := option_cases (hh.array? hd)
      · simp only [hn, hn']
        exact hall
      · simp only [hs, hs']
        exact hx

lemma agree_choose (c : Comparison) (hargs : List.Forall₂ (Value.Rel w) args args') :
    Agree w (Value.Rel w) (choose c args) (choose c args') := by
  refine (agree_argument hargs 0).bind fun x x' hx => ?_
  refine (agree_argument hargs 1).bind fun y y' hy => ?_
  refine (agree_compareValues c hy hx).bind fun b _ hb => ?_
  subst hb
  exact .ite (fun _ => .pure hy) fun _ => .pure hx

lemma absolute_rel {h h' : Heap} (hh : Heap.Rel w h h') (hv : Value.Rel w v v') :
    Attempt (Value.Rel w) (absolute h v) (absolute h' v') := by
  unfold absolute
  rw [hh.planar? hv, hv.num?]
  split
  · exact .scalar _ (fun _ => rfl) _
  · exact .ok (.same rfl)
  · exact .ok (.same rfl)
  · exact .error _

lemma agree_float {r : Except Fault Float} {r' : Except Fault Float} (h : Attempt Eq r r') :
    Agree w (Value.Rel w) (do return .float (← faultless r)) (do return .float (← faultless r')) :=
  h.faultless.bind fun _ _ h => h ▸ .pure (.same rfl)

lemma agree_raiseTo (base : Float) (hv : Value.Rel w v v') :
    Agree w (Value.Rel w) (raiseTo base v) (raiseTo base v') := by
  refine agree_heap.bind fun h h' hh => ?_
  rw [hh.planar? hv, realOf_rel hv]
  split
  · exact (agree_faultless _).bind fun _ _ h => h ▸ agree_allocPlanar _
  · refine (agree_faultless _).bind fun r _ hr => ?_
    subst hr
    cases r with
    | inl x => exact .pure (.same rfl)
    | inr z => exact agree_allocPlanar z

lemma agree_powerOf (hargs : List.Forall₂ (Value.Rel w) args args') :
    Agree w (Value.Rel w) (powerOf args) (powerOf args') := by
  refine (agree_argument hargs 0).bind fun x x' hx => ?_
  have hbase : Attempt Eq (do toFloating (← widen x)) (do toFloating (← widen x')) :=
    (widen_rel hx).bind fun y y' hy => toFloating_rel hy ▸ .refl _
  refine hbase.faultless.bind fun base _ hb => ?_
  subst hb
  refine (agree_argument hargs 1).bind fun z z' hz => ?_
  exact (widen_rel hz).faultless.bind fun y y' hy => agree_raiseTo base hy

lemma agree_parseInteger (hargs : List.Forall₂ (Value.Rel w) args args') :
    Agree w (Value.Rel w) (parseInteger args) (parseInteger args') := by
  refine (agree_argument hargs 0).bind fun x x' hx => ?_
  rw [toInteger_rel hx, hx.plain]
  split
  · exact .pure (.same rfl)
  · exact agree_throwException _ _
  · exact .raise _

lemma agree_allOf (p : Char → Bool) (hargs : List.Forall₂ (Value.Rel w) args args') :
    Agree w (Value.Rel w) (allOf p args) (allOf p args') := by
  refine (agree_argument hargs 0).bind fun x x' hx => ?_
  rw [hx.text?]
  exact (Agree.same _).bind fun _ _ h => h ▸ .pure (.same rfl)

lemma agree_equalObjects (hargs : List.Forall₂ (Value.Rel w) args args') :
    Agree w (Value.Rel w) (equalObjects args) (equalObjects args') := by
  refine (agree_argument hargs 0).bind fun x x' hx => ?_
  refine (agree_argument hargs 1).bind fun y y' hy => ?_
  rw [isNull_rel hx, isNull_rel hy]
  exact .ite (fun _ => .pure (.same rfl)) fun _ => agree_callEquals hx (.cons hy .nil)

lemma agree_libraryCall (className name : String) (hargs : List.Forall₂ (Value.Rel w) args args') :
    Agree w (Value.Rel w) (libraryCall className name args) (libraryCall className name args') := by
  have hparse := agree_parseInteger hargs
  have hshown : Agree w (Value.Rel w) (do return .text (← shown (← argument args 0)))
      (do return .text (← shown (← argument args' 0))) :=
    (agree_argument hargs 0).bind fun x x' hx =>
      (agree_shown hx).bind fun _ _ h => h ▸ .pure (.same rfl)
  unfold libraryCall
  split
  · exact agree_listOf true hargs
  · exact agree_listOf false hargs
  · exact agree_choose .gt hargs
  · exact agree_choose .lt hargs
  · exact agree_heap.bind fun h h' hh =>
      (agree_argument hargs 0).bind fun x x' hx => (absolute_rel hh hx).faultless
  · exact agree_powerOf hargs
  · refine (agree_argument hargs 0).bind fun x x' hx => agree_float ?_
    refine (widen_rel hx).bind fun y y' hy => ?_
    rw [realOf_rel hy]
    exact .refl _
  · exact hparse
  · exact hparse
  · exact hparse
  · refine (agree_argument hargs 0).bind fun x x' hx => ?_
    rw [toFloating_rel hx]
    exact agree_float (.refl _)
  · exact hshown
  · exact hshown
  · exact hshown
  · exact agree_equalObjects hargs
  · exact agree_allOf _ hargs
  · exact agree_allOf _ hargs
  · exact .fail _

lemma statics_put {all all' : List (String × Bindings)} (className name : String)
    (h : List.Forall₂ (fun c c' => c.1 = c'.1 ∧ Bindings.Rel w c.2 c'.2) all all')
    (hv : Value.Rel w v v') (origin origin' : Origin) :
    List.Forall₂ (fun c c' => c.1 = c'.1 ∧ Bindings.Rel w c.2 c'.2)
      (putStatics all className name v origin) (putStatics all' className name v' origin') := by
  induction h with
  | nil => exact .cons ⟨rfl, .cons ⟨by simp, by simpa using hv⟩ .nil⟩ .nil
  | cons hd tl ih =>
    simp only [putStatics, ← hd.1]
    split
    · exact .cons ⟨rfl, hd.2.put name hv origin origin'⟩ tl
    · exact .cons hd ih

lemma agree_setStatic (className name : String) (hv : Value.Rel w v v')
    (origin origin' : Origin) :
    Agree w Eq (setStatic className name v origin) (setStatic className name v' origin') :=
  fun _ _ hst =>
    .ok { hst with statics := statics_put className name hst.statics hv origin origin' } rfl

lemma Store.Rel.statics? {st st' : Store} (hst : Store.Rel w st st') (className : String) :
    Bindings.Rel w (st.statics? className) (st'.statics? className) := by
  have hlookup : ∀ {all all' : List (String × Bindings)},
      List.Forall₂ (fun c c' => c.1 = c'.1 ∧ Bindings.Rel w c.2 c'.2) all all' →
      Bindings.Rel w ((all.lookup className).getD []) ((all'.lookup className).getD []) := by
    intro all all' h
    induction h with
    | nil => exact .nil
    | @cons c c' _ _ hd _ ih =>
      obtain ⟨n, bs⟩ := c
      obtain ⟨n', bs'⟩ := c'
      obtain ⟨rfl, hbs⟩ := hd
      rw [List.lookup_cons, List.lookup_cons]
      cases className == n with
      | true => exact hbs
      | false => exact ih
  exact hlookup hst.statics

lemma Store.Rel.fields {st st' : Store} (hst : Store.Rel w st st') (i : Nat) :
    Bindings.Rel w (st.fields i) (st'.fields i) := by
  unfold Store.fields
  obtain ⟨hn, hn'⟩ | ⟨o, o', ho, ho', hrel⟩ := option_cases (hst.heap.objects_getElem? i)
  · rw [hn, hn']
    exact .nil
  · rw [ho, ho']
    cases hrel with
    | record c hbs => exact hbs
    | _ => exact .nil

lemma agree_setField (i : Nat) (name : String) (hv : Value.Rel w v v') (origin origin' : Origin) :
    Agree w Eq (setField i name v origin) (setField i name v' origin') := by
  refine agree_heap.bind fun h h' hh => ?_
  obtain ⟨hn, hn'⟩ | ⟨o, o', ho, ho', hrel⟩ := option_cases (hh.objects_getElem? i)
  · rw [hn, hn']
    exact .pure rfl
  · rw [ho, ho']
    cases hrel with
    | record c hbs =>
      exact agree_store (.record c (hbs.put name hv origin origin')) (.inl (hh.not_mem_lists ho rfl))
    | _ => exact .pure rfl

lemma agree_staticField (className name : String) :
    Agree w (Value.Rel w) (Evaluator.staticField className name)
      (Evaluator.staticField className name) := by
  refine Agree.bind (fun st st' hst => .ok hst hst) fun s s' hs => ?_
  obtain ⟨hn, hn'⟩ | ⟨x, x', hx, hx', hrel⟩ := option_cases ((hs.statics? className).lookup name)
  · rw [hn, hn']
    exact agree_libraryField className name
  · rw [hx, hx']
    exact .pure hrel

lemma agree_fieldOf (hv : Value.Rel w v v') (name : String) :
    Agree w (Value.Rel w) (Evaluator.fieldOf v name) (Evaluator.fieldOf v' name) := by
  have hdefault : Agree w (Value.Rel w)
      (if isNull v then nullPointer else fail (.unknownField name) : StoreM Value)
      (if isNull v' then nullPointer else fail (.unknownField name) : StoreM Value) := by
    rw [isNull_rel hv]
    exact .ite (fun _ => agree_nullPointer) fun _ => .fail _
  refine agree_heap.bind fun h h' hh => ?_
  obtain ⟨hn, hn'⟩ | ⟨o, o', ho, ho', hrel⟩ := option_cases (hh.object? hv)
  · rw [hn, hn']
    exact hdefault
  · rw [ho, ho']
    cases hrel with
    | classRef c => exact agree_staticField c name
    | record c hbs =>
      obtain ⟨hn, hn'⟩ | ⟨x, x', hx, hx', hrel⟩ := option_cases (hbs.lookup name)
      · simp only [hn, hn']
        exact .fail _
      · simp only [hx, hx']
        exact .pure hrel
    | array hx =>
      simp only [hx.size]
      exact .ite (fun _ => .pure (.same rfl)) fun _ => .fail _
    | _ => exact hdefault

lemma agree_elementPosition (ha : Value.Rel w a a') (hb : Value.Rel w b b') :
    Agree w Eq (elementPosition a b) (elementPosition a' b') := by
  have hrest : Agree w Eq
      (do
        let size ← orRaise .wrongKind (sizeOf? (← heap) a)
        checkedPosition size b (outOfBounds "ArrayIndexOutOfBoundsException" size b))
      (do
        let size ← orRaise .wrongKind (sizeOf? (← heap) a')
        checkedPosition size b' (outOfBounds "ArrayIndexOutOfBoundsException" size b')) := by
    refine agree_heap.bind fun h h' hh => ?_
    have hsize : sizeOf? h' a' = sizeOf? h a := by
      unfold sizeOf?
      rw [ha.text?]
      obtain ⟨hn, hn'⟩ | ⟨xs, xs', hs, hs', hx⟩ := option_cases (hh.array? ha)
      · rw [hn, hn']
      · rw [hs, hs']
        cases a.text? with
        | some s => rfl
        | none => exact congrArg some hx.size
    rw [hsize]
    refine (Agree.same _).bind fun n _ hn => ?_
    subst hn
    exact agree_checkedPosition n hb (agree_outOfBounds _ n hb)
  unfold elementPosition
  rw [isNull_rel ha]
  refine .ite (fun _ => ?_) fun _ => hrest
  exact (agree_nullPointer (Q := Eq)).bind fun _ _ _ => hrest

lemma agree_elementAt (ha : Value.Rel w a a') (hb : Value.Rel w b b') :
    Agree w (Value.Rel w) (elementAt a b) (elementAt a' b') := by
  refine (agree_elementPosition ha hb).bind fun p _ hp => ?_
  subst hp
  refine agree_heap.bind fun h h' hh => ?_
  rw [ha.text?]
  cases a.text? with
  | some s => exact (Agree.same _).bind fun _ _ h => h ▸ .pure (.same rfl)
  | none =>
    obtain ⟨hn, hn'⟩ | ⟨xs, xs', hs, hs', hx⟩ := option_cases (hh.array? ha)
    · rw [hn, hn']
      exact .raise _
    · rw [hs, hs']
      exact .orRaise _ (hx.getElem? p)

lemma agree_setElement (ha : Value.Rel w a a') (hb : Value.Rel w b b') (hv : Value.Rel w v v') :
    Agree w Eq (setElement a b v) (setElement a' b' v') := by
  refine (agree_elementPosition ha hb).bind fun p _ hp => ?_
  subst hp
  refine agree_heap.bind fun h h' hh => ?_
  cases ha with
  | iterator hij => exact .raise _
  | same ha =>
    cases a with
    | ref x =>
      cases x with
      | iterator i => cases ha
      | complex i => exact .raise _
      | object i =>
        obtain ⟨hn, hn'⟩ | ⟨xs, xs', hs, hs', hx⟩ := option_cases (hh.array? (.same ha))
        · rw [hn, hn']
          exact .raise _
        · rw [hs, hs']
          refine agree_store (.array (hx.setIfInBounds p hv)) (.inl ?_)
          exact hh.not_mem_lists (Value.objects_of_array? hs) rfl
    | _ => exact .raise _

lemma agree_extent (hv : Value.Rel w v v') : Agree w Eq (extent v) (extent v') := by
  unfold extent
  rw [indexOf?_rel hv]
  exact (Agree.same _).bind fun _ _ h => h ▸ .pure rfl

lemma agree_times {c : StoreM Value} {c' : StoreM Value} (hc : Agree w (Value.Rel w) c c')
    (n : Nat) : Agree w (List.Forall₂ (Value.Rel w)) (times c n) (times c' n) := by
  induction n with
  | zero => exact .pure .nil
  | succ n ih => exact hc.bind fun _ _ hv => ih.bind fun _ _ hvs => .pure (.cons hv hvs)

lemma agree_newArray {c : StoreM Value} {c' : StoreM Value} (hc : Agree w (Value.Rel w) c c')
    (hargs : List.Forall₂ (Value.Rel w) args args') :
    Agree w (Value.Rel w) (newArray c args) (newArray c' args') := by
  have hlevel : ∀ {c c' : StoreM Value} {v v' : Value}, Agree w (Value.Rel w) c c' →
      Value.Rel w v v' → Agree w (Value.Rel w)
        (do alloc (.array (← times c (← extent v)).toArray))
        (do alloc (.array (← times c' (← extent v')).toArray)) := by
    intro c c' v v' hc hv
    refine (agree_extent hv).bind fun n _ hn => ?_
    subst hn
    refine (agree_times hc n).bind fun xs ys hx => agree_alloc (.array ?_)
    simpa [Items] using hx
  induction hargs with
  | nil => exact .raise _
  | cons hd tl ih =>
    cases tl with
    | nil => exact hlevel hc hd
    | cons _ _ => exact hlevel ih hd

lemma agree_emptyElement (extraDims : Nat) (type : Node) :
    Agree w (Value.Rel w) (Evaluator.emptyElement extraDims type)
      (Evaluator.emptyElement extraDims type) := by
  have hdefault : ∀ t : TypeInfo, t.default.isIterator = false := by
    intro t
    unfold TypeInfo.default
    repeat' split
    all_goals rfl
  refine .ite (fun _ => ?_) fun _ => .pure (.same rfl)
  exact (agree_faultless _).bind fun t _ h => h ▸ .pure (.same (hdefault t))

lemma agree_coerceTo (type : Node) (hv : Value.Rel w v v') :
    Agree w (Value.Rel w) (coerceTo type v) (coerceTo type v') :=
  Attempt.faultless ((Attempt.refl _).bind fun t _ h => h ▸ coerce_rel t hv)

lemma agree_collect (hargs : List.Forall₂ (Value.Rel w) args args') :
    Agree w (Value.Rel w) (collect args) (collect args') := by
  have hall : Items w args.toArray args'.toArray := by simpa [Items] using hargs
  refine agree_heap.bind fun h h' hh => ?_
  cases hargs with
  | nil => exact agree_alloc (.array hall)
  | cons hd tl =>
    cases tl with
    | cons _ _ => exact agree_alloc (.array hall)
    | nil =>
      simp only [option_isSome (hh.array? hd)]
      exact .ite (fun _ => .pure hd) fun _ => agree_alloc (.array hall)

lemma agree_createLibrary (typeName : String) (hargs : List.Forall₂ (Value.Rel w) args args') :
    Agree w (Value.Rel w) (createLibrary typeName args) (createLibrary typeName args') := by
  refine .ite (fun _ => ?_) fun _ => .ite (fun _ => ?_) fun _ => .ite (fun _ => ?_) fun _ =>
    .ite (fun _ => ?_) fun _ => .fail _
  · refine agree_heap.bind fun h h' hh => agree_alloc (.list ?_ false)
    cases hargs with
    | nil => exact .nil
    | cons hd _ =>
      simp only [initialItems]
      obtain ⟨hn, hn'⟩ | ⟨xs, xs', hs, hs', hx⟩ := option_cases (hh.list? hd)
      · rw [hn, hn']
        exact .nil
      · rw [hs, hs']
        exact hx
  · cases hargs with
    | nil => exact agree_alloc (.builder _)
    | cons hd _ =>
      simp only [List.head?_cons, Option.bind_some, hd.text?]
      exact agree_alloc (.builder _)
  · exact agree_alloc (.record _ .nil)
  · cases hargs with
    | nil => exact agree_alloc (.exception _ _)
    | cons hd _ => exact (agree_shown hd).bind fun _ _ h => h ▸ agree_alloc (.exception _ _)

lemma agree_elements (hv : Value.Rel w v v') :
    Agree w (Items w) (Evaluator.elements v) (Evaluator.elements v') := by
  refine agree_heap.bind fun h h' hh => ?_
  obtain ⟨hn, hn'⟩ | ⟨xs, xs', hs, hs', hx⟩ := option_cases (hh.list? hv)
  · obtain ⟨hm, hm'⟩ | ⟨ys, ys', ht, ht', hy⟩ := option_cases (hh.array? hv)
    · simp only [hn, hn', hm, hm', isNull_rel hv]
      exact .ite (fun _ => agree_nullPointer) fun _ => .fail _
    · simp only [hn, hn', ht, ht']
      exact .pure hy
  · simp only [hs, hs']
    exact .pure hx

lemma agree_loopVariable (n : Node) :
    Agree w Eq (Evaluator.loopVariable n) (Evaluator.loopVariable n) := by
  unfold Evaluator.loopVariable
  split
  · exact (Agree.same _).bind fun _ _ h => h ▸ .pure rfl
  · exact (Agree.same _).bind fun _ _ h => h ▸ .pure rfl
  · exact .raise _

lemma agree_variableType (type : Node) (dims : Nat) :
    Agree w Eq (Evaluator.variableType type dims) (Evaluator.variableType type dims) := by
  refine .ite (fun _ => .pure rfl) fun _ => ?_
  split
  · exact .pure rfl
  · exact .raise _

lemma agree_anyCatches (hv : Value.Rel w v v') (types : List Node) :
    Agree w Eq (Evaluator.anyCatches v types) (Evaluator.anyCatches v' types) := by
  induction types with
  | nil => exact .pure rfl
  | cons t ts ih =>
    refine (agree_faultless _).bind fun name _ hname => ?_
    subst hname
    refine agree_heap.bind fun h h' hh => ?_
    rw [catches_rel hh name hv]
    exact .ite (fun _ => .pure rfl) fun _ => ih

end LoopLowering.Machine
