import LoopLowering.Proofs.Machine.Phrase

/-! Expressions in two runs, one rule for each form. -/

namespace LoopLowering.Machine

lemma Store.Rel.addIterator {w : World} {st st' : Store} (h : Store.Rel w st st') (c : Cursor) :
    Store.Rel { w with image := w.image ++ [st'.heap.iterators.size] }
      { st with heap := { st.heap with iterators := st.heap.iterators.push c } }
      { st' with heap := { st'.heap with iterators := st'.heap.iterators.push c } } := by
  have hw : w ≤ { w with image := w.image ++ [st'.heap.iterators.size] } :=
    ⟨List.prefix_append _ _, rfl, rfl⟩
  have hlt : ∀ j ∈ w.image, j < st'.heap.iterators.size := fun _ hj => h.heap.image_lt hj
  refine ⟨⟨h.heap.objects.imp fun _ _ => .extend hw.1, h.heap.complexes, ?_, ?_, ?_, ?_,
    h.heap.lists⟩,
    h.statics.imp fun _ _ hc => ⟨hc.1, hc.2.extend hw.1⟩, h.out, h.err⟩
  · simpa using h.heap.image_length
  · refine List.nodup_append.mpr ⟨h.heap.image_nodup, List.nodup_singleton _, ?_⟩
    intro j hj k hk
    rw [List.mem_singleton.mp hk]
    exact (hlt j hj).ne
  · intro i j hij
    have hlen := h.heap.image_length
    dsimp only at hij ⊢
    rcases Nat.lt_or_ge i w.image.length with hi | hi
    · rw [List.getElem?_append_left hi] at hij
      have hj := hlt j (List.mem_of_getElem? hij)
      rw [Array.getElem?_push, Array.getElem?_push, if_neg hj.ne, if_neg (by omega)]
      exact h.heap.cursor i j hij
    · rw [List.getElem?_append_right hi, List.getElem?_singleton] at hij
      split at hij
      · obtain rfl := Option.some.inj hij
        rw [Array.getElem?_push, Array.getElem?_push, if_pos rfl, if_pos (by omega)]
      · cases hij
  · intro p hp
    obtain ⟨hcursor, hmem⟩ := h.heap.pinned p hp
    have hp' : p.1 < st'.heap.iterators.size := (Array.getElem?_eq_some_iff.mp hcursor).1
    refine ⟨?_, ?_⟩
    · dsimp only
      rw [Array.getElem?_push, if_neg hp'.ne]
      exact hcursor
    · dsimp only
      rw [List.mem_append, List.mem_singleton]
      exact not_or_intro hmem hp'.ne

lemma names_unwrap (n : Node) : (unwrap n).names ⊆ n.names := by
  induction n using Node.children_induction with
  | _ t s ih =>
    cases s with
    | parens e =>
      have he : e ∈ (Shape.parens e).children := by simp [Shape.children, Shape.parts, Part.toList]
      exact List.Subset.trans (ih e he) (Node.names_subset he)
    | _ => exact List.Subset.refl _

variable {S : Setting} {w : World} {links : List Link} {routes : Routes}

lemma Paid.allocIterator {pre : Credit} (list : Nat) : Paid S w links routes pre pre Value.Rel
    (liftM (allocIterator list) : Exec Value) (liftM (Machine.allocIterator list) : Exec Value) := by
  intro k s s' hs
  have hw : w ≤ { w with image := w.image ++ [s'.heap.iterators.size] } :=
    ⟨List.prefix_append _ _, rfl, rfl⟩
  refine .ok ⟨_, hw, hs.withStore hw (hs.store.addIterator ⟨list, 0⟩), .iterator ?_⟩
  rw [← hs.store.heap.image_length]
  simp

lemma callMethod_iterator {st : Store} {v : Value} (h : (v.list? st.heap).isSome = true)
    (args : List Value) : ∃ a, v = .ref (.object a) ∧
      callMethod v "iterator" args st = allocIterator a st := by
  unfold Value.list? at h
  cases v with
  | ref x =>
    cases x with
    | iterator i =>
      have hobject : (Value.ref (.iterator i)).object? st.heap =
        st.heap.iterators[i]?.map fun c => .iterator c.list c.position := rfl
      rw [hobject] at h
      cases hc : st.heap.iterators[i]? with
      | none => simp [hc] at h
      | some c => simp [hc] at h
    | complex i => cases h
    | object a =>
      refine ⟨a, rfl, ?_⟩
      simp only [callMethod, heap_bind]
      have hobject : (Value.ref (.object a)).object? st.heap = st.heap.objects[a]? := rfl
      rw [hobject] at h
      cases ho : st.heap.objects[a]? with
      | none => simp [ho] at h
      | some o =>
        rw [ho] at h
        cases o with
        | list items b => simp [callObject, ListCell.call, ListCell.changes]
        | _ => cases h
  | _ => cases h

lemma Paid.callMethod {pre : Credit} {v v' : Value} {args args' : List Value}
    (hv : Value.Rel w v v') (name : String) (hargs : Values w args args') :
    Paid S w links routes pre pre Value.Rel (liftM (callMethod v name args) : Exec Value)
      (liftM (Machine.callMethod v' name args') : Exec Value) := by
  intro k s s' hs
  by_cases hname : MakesIterator s.heap v name
  · obtain ⟨rfl, hlist⟩ := hname
    have hlist' : (v'.list? s'.heap).isSome = true := by
      rw [option_isSome (hs.store.heap.list? hv), hlist]
    obtain ⟨a, rfl, ha⟩ := callMethod_iterator hlist args
    obtain ⟨a', rfl, ha'⟩ := callMethod_iterator hlist' args'
    have haa : a' = a := by cases hv; rfl
    rw [liftM_apply, liftM_apply, ha, ha', haa]
    exact Paid.allocIterator a k s s' hs
  · exact hs.lift (agree_callMethod hv hargs hs.store hname)

namespace Matches

variable {ev ev' : Evaluator} {args args' : List Value} {v v' : Value}

lemma classRef (hm : Matches S ev ev') (name : String) :
    Sim S w links routes Value.Rel (ev.classRef name) (ev'.classRef name) := by
  unfold Evaluator.classRef
  rw [declares_lowers hm.program]
  exact .ite (fun _ => .lift (agree_alloc (.classRef name))) fun _ => .lift (.fail _)

lemma evalName (hm : Matches S ev ev') {name : String} (hn : ¬ Link.hides name links) :
    Sim S w links routes Value.Rel (ev.evalName name) (ev'.evalName name) := by
  intro k s s' hs
  obtain ⟨hr, hr'⟩ | ⟨x, x', hr, hr', hx⟩ := option_cases (value_rel hs hn)
  · rw [ev.evalName_of_none hr, ev'.evalName_of_none hr']
    exact hm.classRef name k s s' hs
  · rw [ev.evalName_of_value hr, ev'.evalName_of_value hr']
    exact .ok ⟨w, le_rfl, hs, hx⟩

lemma evalThis : Sim S w links routes Value.Rel Evaluator.evalThis Evaluator.evalThis := by
  refine Paid.getFrame.bind fun w₁ f f' _ hf => .pure ?_
  rw [hf.this]
  exact .same (by cases f.this <;> rfl)

lemma evalIndex (hm : Matches S ev ev') {target index : Node} (ht : Visible links target)
    (hi : Visible links index) [ev.Steady] [ev'.Steady] :
    Sim S w links S.leaves (fun w p p' => Value.Rel w p.1 p'.1 ∧ Value.Rel w p.2 p'.2)
      (ev.evalIndex target index) (ev'.evalIndex target index) := by
  refine (hm.eval ht w).bind fun w₁ t t' _ htt => (hm.eval hi w₁).bind fun w₂ i i' hw₂ hii => ?_
  refine (Paid.lift (Q := Value.Rel) (widen_rel hii).faultless).bind fun w₃ j j' hw₃ hj => ?_
  exact .pure ⟨(htt.mono hw₂).mono hw₃, hj⟩

lemma evalField (hm : Matches S ev ev') {target : Node} (ht : Visible links target)
    (name : String) :
    Sim S w links S.leaves Value.Rel (ev.evalField name target) (ev'.evalField name target) :=
  (hm.eval ht w).bind fun _ _ _ _ hv => .lift (agree_fieldOf hv name)

lemma declared? (hm : Matches S ev ev') (className name : String) (count : Nat) :
    Option.Rel (RoutineLowers S) (ev.declared? className name count)
      (ev'.declared? className name count) := by
  unfold Evaluator.declared?
  obtain ⟨hc, hc'⟩ | ⟨c, c', hc, hc', h⟩ := option_cases (class?_lowers hm.program className)
  · rw [hc, hc']
    exact .none
  · rw [hc, hc']
    exact h.findMethod? name count

lemma putField (hm : Matches S ev ev') {h h' : Heap} (hh : Heap.Rel w h h') {t t' : Value}
    (ht : Value.Rel w t t') (name : String) (hv : Value.Rel w v v') (origin origin' : Origin) :
    Agree w Eq (ev.putField h t name v origin) (ev'.putField h' t' name v' origin') := by
  unfold Evaluator.putField
  have hfail : Agree w Eq (fail (.badFieldTarget name) : StoreM Unit)
      (fail (.badFieldTarget name)) := .fail _
  obtain ⟨ho, ho'⟩ | ⟨o, o', ho, ho', hrel⟩ := option_cases (hh.object? ht)
  · rw [ho, ho']
    cases ht with
    | iterator _ => exact hfail
    | same _ => cases t <;> exact hfail
  rw [ho, ho']
  cases hrel with
  | classRef c =>
    dsimp only
    rw [declares_lowers hm.program]
    exact .ite (fun _ => agree_setStatic c name hv origin origin') fun _ => hfail
  | record c hb =>
    cases ht with
    | iterator _ => exact hfail
    | @same t _ =>
      cases t with
      | ref x =>
        cases x with
        | object a => exact agree_setField a name hv origin origin'
        | _ => exact hfail
      | _ => exact hfail
  | _ =>
    cases ht with
    | iterator _ => exact hfail
    | same _ => cases t <;> exact hfail

lemma assignField (hm : Matches S ev ev') (name : String) {target : Node}
    (ht : Visible links target) (hv : Value.Rel w v v') (origin origin' : Origin) :
    Sim S w links S.leaves Done (ev.assignField name target v origin)
      (ev'.assignField name target v' origin') := by
  refine (hm.eval ht w).bind fun w₁ t t' hw₁ htt => ?_
  refine (Paid.lift (Q := Heap.Rel) agree_heap).bind fun w₂ h h' hw₂ hh => ?_
  have hput := hm.putField hh (htt.mono hw₂) name ((hv.mono hw₁).mono hw₂) origin origin'
  exact (Paid.lift (Q := fun _ => Eq) hput).done

lemma evalCast (hm : Matches S ev ev') (type : Node) {e : Node} (he : Visible links e) :
    Sim S w links S.leaves Value.Rel (ev.evalCast type e) (ev'.evalCast type e) := by
  refine (hm.eval he w).bind fun w₁ x x' _ hx => ?_
  exact .lift (Attempt.faultless ((Attempt.refl _).bind fun t _ h => h ▸ cast_rel t hx))

lemma evalInstanceOf (hm : Matches S ev ev') (type : Node) {e : Node} (he : Visible links e) :
    Sim S w links S.leaves Value.Rel (ev.evalInstanceOf e type) (ev'.evalInstanceOf e type) := by
  refine (hm.eval he w).bind fun w₁ x x' _ hx => ?_
  refine (Paid.lift (Q := fun _ => Eq) (agree_faultless (nameOf type))).bind
    fun w₂ n _ hw₂ hn => ?_
  subst hn
  refine (Paid.lift (Q := Heap.Rel) agree_heap).bind fun w₃ h h' hw₃ hh => .pure ?_
  rw [instanceOf_rel hh ((hx.mono hw₂).mono hw₃)]
  exact .same rfl

variable [ev.Steady] [ev'.Steady]

lemma evalElement (hm : Matches S ev ev') {target index : Node} (ht : Visible links target)
    (hi : Visible links index) :
    Sim S w links S.leaves Value.Rel (ev.evalElement target index)
      (ev'.evalElement target index) :=
  (hm.evalIndex ht hi).bind fun _ _ _ _ hp => .lift (agree_elementAt hp.1 hp.2)

lemma callThis (hm : Matches S ev ev') (hargs : Values w args args') :
    Sim S w links S.leaves Value.Rel (ev.callThis args) (ev'.callThis args') := by
  refine Paid.bind (p := fun c => ?_) (q := fun c => ?_) hm.currentClass fun w₁ c c' hw₁ hc => ?_
  · split <;> infer_instance
  · split <;> infer_instance
  rw [← List.Forall₂.length_eq hargs]
  obtain ⟨hr, hr'⟩ | ⟨r, r', hr, hr', h⟩ := option_cases (hc.findConstructor? args.length)
  · rw [hr, hr']
    exact .lift (.fail _)
  · rw [hr, hr', hc.name]
    refine Paid.getFrame.bind fun w₂ f f' hw₂ hf => ?_
    rw [hf.this]
    exact hm.invoke c.name h f.this ((hargs.mono hw₁).mono hw₂)

lemma callUnqualified (hm : Matches S ev ev') (name : String) (hargs : Values w args args') :
    Sim S w links S.leaves Value.Rel (ev.callUnqualified name args)
      (ev'.callUnqualified name args') := by
  unfold Evaluator.callUnqualified
  refine .ite (fun _ => .pure (.same rfl)) fun _ => ?_
  refine .ite (fun _ => hm.callThis hargs) fun _ => ?_
  refine Paid.bind (p := fun c => ?_) (q := fun c => ?_) hm.currentClass fun w₁ c c' hw₁ hc => ?_
  · split <;> infer_instance
  · split <;> infer_instance
  rw [← List.Forall₂.length_eq hargs]
  obtain ⟨hr, hr'⟩ | ⟨r, r', hr, hr', h⟩ := option_cases (hc.findMethod? name args.length)
  · rw [hr, hr']
    exact .lift (.fail _)
  · rw [hr, hr', hc.name]
    refine Paid.getFrame.bind fun w₂ f f' hw₂ hf => ?_
    rw [hf.this, h.isStatic]
    exact hm.invoke c.name h _ ((hargs.mono hw₁).mono hw₂)

lemma callStatic (hm : Matches S ev ev') (className name : String) (hargs : Values w args args') :
    Sim S w links S.leaves Value.Rel (ev.callStatic className name args)
      (ev'.callStatic className name args') := by
  unfold Evaluator.callStatic
  rw [← List.Forall₂.length_eq hargs]
  obtain ⟨hc, hc'⟩ | ⟨c, c', hc, hc', h⟩ := option_cases (class?_lowers hm.program className)
  · rw [hc, hc']
    exact .lift (agree_libraryCall className name hargs)
  · rw [hc, hc']
    dsimp only
    obtain ⟨hr, hr'⟩ | ⟨r, r', hr, hr', h⟩ := option_cases (h.findMethod? name args.length)
    · rw [hr, hr']
      exact .lift (.fail _)
    · rw [hr, hr']
      exact hm.invoke className h none hargs

lemma callFound (hm : Matches S ev ev') {h h' : Heap} (hh : Heap.Rel w h h')
    (hv : Value.Rel w v v') (name : String) (hargs : Values w args args') :
    Sim S w links S.leaves Value.Rel
      (ev.callFound h v name args) (ev'.callFound h' v' name args') := by
  unfold Evaluator.callFound
  rw [← List.Forall₂.length_eq hargs]
  have hmethod : Sim S w links S.leaves Value.Rel (liftM (callMethod v name args) : Exec Value)
      (liftM (callMethod v' name args') : Exec Value) := .callMethod hv name hargs
  obtain ⟨ho, ho'⟩ | ⟨o, o', ho, ho', hrel⟩ := option_cases (hh.object? hv)
  · rw [ho, ho']
    cases hv with
    | iterator _ => exact hmethod
    | same _ => cases v <;> exact hmethod
  rw [ho, ho']
  cases hrel with
  | classRef c => exact hm.callStatic c name hargs
  | record c hb =>
    cases hv with
    | iterator _ => exact hmethod
    | @same v _ =>
      cases v with
      | ref x =>
        cases x with
        | iterator i => exact hmethod
        | complex i => exact hmethod
        | object a =>
          dsimp only
          obtain ⟨hr, hr'⟩ | ⟨r, r', hr, hr', h⟩ := option_cases
            (hm.declared? c name args.length)
          · rw [hr, hr']
            exact hmethod
          · rw [hr, hr']
            exact hm.invoke c h (some a) hargs
      | _ => exact hmethod
  | _ =>
    cases hv with
    | iterator _ => exact hmethod
    | same _ => cases v <;> exact hmethod

lemma callOn (hm : Matches S ev ev') (hv : Value.Rel w v v') (name : String)
    (hargs : Values w args args') :
    Sim S w links S.leaves Value.Rel (ev.callOn v name args) (ev'.callOn v' name args') := by
  unfold Evaluator.callOn
  rw [isNull_rel hv]
  refine .ite (fun _ => .lift agree_nullPointer) fun _ => ?_
  refine (Paid.lift (Q := Heap.Rel) agree_heap).bind fun w₁ h h' hw hh => ?_
  exact hm.callFound hh (hv.mono hw) name (hargs.mono hw)

lemma evalCall (hm : Matches S ev ev') (name : String) {target : Option Node} {es : List Node}
    (ht : ∀ t, target = some t → Visible links t) (hes : ∀ e ∈ es, Visible links e) :
    Sim S w links S.leaves Value.Rel (ev.evalCall name target es)
      (ev'.evalCall name target es) := by
  refine Paid.bind (p := fun _ => ?_) (q := fun _ => ?_) (hm.evalAll hes w)
    fun w₁ vs vs' _ hvs => ?_
  · split <;> infer_instance
  · split <;> infer_instance
  cases target with
  | none => exact hm.callUnqualified name hvs
  | some t =>
    refine .ite (fun _ => .pure (.same rfl)) fun _ => ?_
    exact (hm.eval (ht t rfl) w₁).bind fun w₂ x x' hw hx => hm.callOn hx name (hvs.mono hw)

lemma evalCreation (hm : Matches S ev ev') (type : Node) {es : List Node}
    (hes : ∀ e ∈ es, Visible links e) :
    Sim S w links S.leaves Value.Rel (ev.evalCreation type es) (ev'.evalCreation type es) :=
  (hm.evalAll hes w).bind fun _ _ _ _ hvs => hm.create type hvs

lemma evalSizes (hm : Matches S ev ev') {es : List Node} (hes : ∀ e ∈ es, Visible links e)
    (w : World) : Sim S w links S.leaves Values (ev.evalSizes es) (ev'.evalSizes es) := by
  induction es generalizing w with
  | nil => exact .pure .nil
  | cons e es ih =>
    refine (hm.eval (hes e List.mem_cons_self) w).bind fun w₁ v v' _ hv => ?_
    refine (Paid.lift (Q := Value.Rel) (widen_rel hv).faultless).bind fun w₂ x x' hw₂ hx => ?_
    refine (ih (fun e he => hes e (List.mem_cons_of_mem _ he)) w₂).bind fun w₃ vs vs' hw₃ hvs => ?_
    exact .pure (.cons (hx.mono hw₃) hvs)

lemma evalArrayCreation (hm : Matches S ev ev') (extraDims : Nat) (type : Node) {sizes : List Node}
    {init : Option Node} (hsizes : ∀ e ∈ sizes, Visible links e)
    (hinit : ∀ e, init = some e → Visible links e) :
    Sim S w links S.leaves Value.Rel (ev.evalArrayCreation extraDims type sizes init)
      (ev'.evalArrayCreation extraDims type sizes init) := by
  cases init with
  | some e => exact hm.eval (hinit e rfl) w
  | none =>
    refine (hm.evalSizes hsizes w).bind fun w₁ ds ds' _ hds => ?_
    have hnew : ∀ w₂, w₁ ≤ w₂ → Sim S w₂ links S.leaves Value.Rel
        (liftM (newArray (Evaluator.emptyElement extraDims type) ds) : Exec Value)
        (liftM (newArray (Evaluator.emptyElement extraDims type) ds') : Exec Value) :=
      fun w₂ hw => .lift (agree_newArray (agree_emptyElement extraDims type) (hds.mono hw))
    refine .ite (fun _ => hnew w₁ le_rfl) fun _ => ?_
    refine (Paid.lift (Q := fun _ => Eq) (agree_faultless (nameOf type))).bind
      fun w₂ _ _ hw _ => hnew w₂ hw

lemma evalArrayInit (hm : Matches S ev ev') {es : List Node} (hes : ∀ e ∈ es, Visible links e) :
    Sim S w links S.leaves Value.Rel (ev.evalArrayInit es) (ev'.evalArrayInit es) := by
  refine (hm.evalAll hes w).bind fun w₁ vs vs' _ hvs => .lift (agree_alloc (.array ?_))
  simpa [Items, Values] using hvs

lemma assign (hm : Matches S ev ev') {target : Node} (ht : Visible links target)
    (hv : Value.Rel w v v') (origin origin' : Origin) :
    Sim S w links S.leaves Done (ev.assign target v origin) (ev'.assign target v' origin') := by
  have ht : Visible links (unwrap target) := fun n hn => ht n (names_unwrap target hn)
  unfold Evaluator.assign
  generalize unwrap target = place at ht ⊢
  obtain ⟨t, sh⟩ := place
  cases sh with
  | ident name => exact .assignName (ht name (by simp [Node.names_ident])) hv origin origin'
  | fieldAccess name e =>
    exact hm.assignField name
      (ht.child (by simp [Shape.children, Shape.parts, Part.toList])) hv origin origin'
  | arrayAccess e i =>
    refine (hm.evalIndex (ht.child (by simp [Shape.children, Shape.parts, Part.toList]))
      (ht.child (by simp [Shape.children, Shape.parts, Part.toList]))).bind fun w₁ p p' hw hp => ?_
    exact (Paid.lift (Q := fun _ => Eq) (agree_setElement hp.1 hp.2 (hv.mono hw))).done
  | _ => exact .lift (.fail _)

lemma assignedValue (hm : Matches S ev ev') (op : AssignOp) {target e : Node}
    (ht : Visible links target) (he : Visible links e) :
    Sim S w links S.leaves (fun w r r' => Value.Rel w r.1 r'.1) (ev.assignedValue op target e)
      (ev'.assignedValue op target e) := by
  unfold Evaluator.assignedValue
  split
  · exact (hm.eval he w).bind fun w₁ x x' _ hx => .pure hx
  · refine (hm.eval ht w).bind fun w₁ old old' _ hold => ?_
    refine (hm.eval he w₁).bind fun w₂ x x' hw₂ hx => ?_
    refine (Paid.lift (Q := Value.Rel) (agree_applyBinary _ (hold.mono hw₂) hx)).bind
      fun w₃ new new' hw₃ hnew => ?_
    exact (Paid.lift (Q := Value.Rel)
      (fitCompound_rel ((hold.mono hw₂).mono hw₃) hnew).faultless).bind
        fun w₄ y y' _ hy => .pure hy

lemma evalAssign (hm : Matches S ev ev') (op : AssignOp) {target e : Node}
    (ht : Visible links target) (he : Visible links e) :
    Sim S w links S.leaves Value.Rel (ev.evalAssign op target e) (ev'.evalAssign op target e) :=
  (hm.assignedValue op ht he).bind fun _ _ _ _ hx =>
    (hm.assign ht hx _ _).bind fun _ _ _ hw _ => .pure (hx.mono hw)

lemma evalBinary (hm : Matches S ev ev') (op : BinaryOp) {a b : Node} (ha : Visible links a)
    (hb : Visible links b) :
    Sim S w links S.leaves Value.Rel (ev.evalBinary op a b) (ev'.evalBinary op a b) := by
  unfold Evaluator.evalBinary
  split
  · refine (hm.truth ha w).bind fun w₁ x _ _ hx => ?_
    subst hx
    refine .ite (fun _ => ?_) fun _ => .pure (.same rfl)
    refine (hm.truth hb w₁).bind fun w₂ y _ _ hy => ?_
    subst hy
    exact .pure (.same rfl)
  · refine (hm.truth ha w).bind fun w₁ x _ _ hx => ?_
    subst hx
    refine .ite (fun _ => .pure (.same rfl)) fun _ => ?_
    refine (hm.truth hb w₁).bind fun w₂ y _ _ hy => ?_
    subst hy
    exact .pure (.same rfl)
  · refine (hm.eval ha w).bind fun w₁ x x' _ hx => (hm.eval hb w₁).bind fun w₂ y y' hw hy => ?_
    exact .lift (agree_applyBinary op (hx.mono hw) hy)

lemma evalStep (hm : Matches S ev ev') (up after : Bool) {target : Node}
    (ht : Visible links target) :
    Sim S w links S.leaves Value.Rel (ev.evalStep up after target)
      (ev'.evalStep up after target) := by
  refine (hm.eval ht w).bind fun w₁ old old' _ hold => ?_
  refine (Paid.lift (Q := Value.Rel) (agree_step up hold)).bind
    fun w₂ new new' hw₂ hnew => ?_
  refine (hm.assign ht hnew _ _).bind fun w₃ _ _ hw₃ _ => .pure ?_
  split
  · exact (hold.mono hw₂).mono hw₃
  · exact hnew.mono hw₃

lemma evalUnary (hm : Matches S ev ev') (op : UnaryOp) (after : Bool) {e : Node}
    (he : Visible links e) :
    Sim S w links S.leaves Value.Rel (ev.evalUnary op after e) (ev'.evalUnary op after e) := by
  unfold Evaluator.evalUnary
  split
  · exact hm.evalStep true after he
  · exact hm.evalStep false after he
  · exact (hm.eval he w).bind fun _ _ _ _ hx => .lift (agree_applyUnary op hx)

lemma evalConditional (hm : Matches S ev ev') {cond a b : Node} (hc : Visible links cond)
    (ha : Visible links a) (hb : Visible links b) :
    Sim S w links S.leaves Value.Rel (ev.evalConditional cond a b)
      (ev'.evalConditional cond a b) := by
  refine (hm.truth hc w).bind fun w₁ x _ _ hx => ?_
  subst hx
  exact .ite (fun _ => hm.eval ha w₁) fun _ => hm.eval hb w₁

lemma expression (hm : Matches S ev ev') {e : Node} (he : Visible links e) (w : World) :
    Sim S w links S.leaves Value.Rel (ev.expression e) (ev'.expression e) := by
  obtain ⟨t, sh⟩ := e
  have hsub : ∀ c ∈ sh.children, Visible links c := fun _ hc => he.child hc
  cases sh with
  | literal value kind =>
    refine .pure (.same ?_)
    cases kind <;> cases value <;> rfl
  | ident name => exact hm.evalName (he name (by simp [Node.names_ident]))
  | thisExpr => exact evalThis
  | parens e => exact hm.eval (hsub _ (by simp [Shape.children, Shape.parts, Part.toList])) w
  | fieldAccess name target =>
    exact hm.evalField
      (hsub _ (by simp [Shape.children, Shape.parts, Part.toList])) name
  | arrayAccess target index =>
    exact hm.evalElement (hsub _ (by simp [Shape.children, Shape.parts, Part.toList]))
      (hsub _ (by simp [Shape.children, Shape.parts, Part.toList]))
  | methodCall name target args =>
    refine hm.evalCall name (fun t ht => hsub t ?_) fun e he => hsub e ?_
    · simp [Shape.children, Shape.parts, Part.toList, ht]
    · simp [Shape.children, Shape.parts, Part.toList, he]
  | objectCreation type args =>
    exact hm.evalCreation type fun e he => hsub e (by simp [Shape.children, Shape.parts, Part.toList, he])
  | arrayCreation extraDims type sizes init =>
    refine hm.evalArrayCreation extraDims type (fun e he => hsub e ?_) fun e he => hsub e ?_
    · simp [Shape.children, Shape.parts, Part.toList, he]
    · simp [Shape.children, Shape.parts, Part.toList, he]
  | arrayInit values =>
    exact hm.evalArrayInit fun e he => hsub e
      (by simp [Shape.children, Shape.parts, Part.toList, he])
  | assign op target e =>
    exact hm.evalAssign op (hsub _ (by simp [Shape.children, Shape.parts, Part.toList]))
      (hsub _ (by simp [Shape.children, Shape.parts, Part.toList]))
  | binary op a b =>
    exact hm.evalBinary op (hsub _ (by simp [Shape.children, Shape.parts, Part.toList]))
      (hsub _ (by simp [Shape.children, Shape.parts, Part.toList]))
  | unary op after e =>
    exact hm.evalUnary op after
      (hsub _ (by simp [Shape.children, Shape.parts, Part.toList]))
  | conditional c a b =>
    exact hm.evalConditional (hsub _ (by simp [Shape.children, Shape.parts, Part.toList]))
      (hsub _ (by simp [Shape.children, Shape.parts, Part.toList]))
      (hsub _ (by simp [Shape.children, Shape.parts, Part.toList]))
  | cast type e => exact hm.evalCast type (hsub _ (by simp [Shape.children, Shape.parts, Part.toList]))
  | instanceOf e type =>
    exact hm.evalInstanceOf type
      (hsub _ (by simp [Shape.children, Shape.parts, Part.toList]))
  | _ => exact .lift (.fail _)

end Matches

end LoopLowering.Machine
