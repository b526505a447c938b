import LoopLowering.Proofs.Machine.Lowers

/-! Expressions and calls in two runs of programs whose bodies are lowered forms of each other. The
rules for expressions are the same in both runs, so each of them needs only that the parts of an
expression are simulated. -/

namespace LoopLowering.Machine

def BodyLowers (S : Setting) (n n' : Node) : Prop :=
  ∃ bound, Lowers S bound S.leaves (fun _ => True) [] n n'

def isMember : Shape Node → Bool
  | .fieldDecl .. | .initBlock .. | .methodDecl .. | .constructorDecl .. => true
  | _ => false

inductive MemberLowers (S : Setting) : Node → Node → Prop
  | field {t t' mods type ds} :
    MemberLowers S (.mk t (.fieldDecl mods type ds)) (.mk t' (.fieldDecl mods type ds))
  | initBlock {t t' static b b'} (h : BodyLowers S b b') :
    MemberLowers S (.mk t (.initBlock static b)) (.mk t' (.initBlock static b'))
  | method {t t' mods tps name type type' params throws throws' b b'}
      (h : Option.Rel (BodyLowers S) b b') :
    MemberLowers S (.mk t (.methodDecl mods tps name type params throws b))
      (.mk t' (.methodDecl mods tps name type' params throws' b'))
  | constructor {t t' mods name params throws throws' b b'} (h : BodyLowers S b b') :
    MemberLowers S (.mk t (.constructorDecl mods name params throws b))
      (.mk t' (.constructorDecl mods name params throws' b'))
  | other {n n' : Node} (h : isMember n.shape = false) (h' : isMember n'.shape = false) :
    MemberLowers S n n'

structure ClassLowers (S : Setting) (c c' : ClassInfo) : Prop where
  name : c'.name = c.name
  members : List.Forall₂ (MemberLowers S) c.members c'.members

def ProgramLowers (S : Setting) (p p' : Program) : Prop :=
  List.Forall₂ (ClassLowers S) p.classes p'.classes

structure RoutineLowers (S : Setting) (r r' : Routine) : Prop where
  name : r'.name = r.name
  isStatic : r'.isStatic = r.isStatic
  params : r'.params = r.params
  body : Option.Rel (BodyLowers S) r.body r'.body

section

variable {α β : Type} {R : α → β → Prop}

lemma forall₂_find? {p : α → Bool} {q : β → Bool} {xs : List α} {ys : List β}
    (h : List.Forall₂ R xs ys) (hpq : ∀ a b, R a b → q b = p a) :
    Option.Rel R (xs.find? p) (ys.find? q) := by
  induction h with
  | nil => exact .none
  | @cons a b _ _ hd _ ih =>
    rw [List.find?_cons, List.find?_cons, hpq a b hd]
    cases p a with
    | true => exact .some hd
    | false => exact ih

end

section

variable {S : Setting} {c c' : ClassInfo} {p p' : Program}

lemma method?_lowers {n n' : Node} (h : MemberLowers S n n') :
    Option.Rel (RoutineLowers S) (method? n) (method? n') := by
  cases h with
  | method h => exact .some ⟨rfl, rfl, rfl, h⟩
  | @other n n' h h' =>
    obtain ⟨t, s⟩ := n
    obtain ⟨t', s'⟩ := n'
    have hn : method? (.mk t s) = none := by cases s <;> first | rfl | cases h
    have hn' : method? (.mk t' s') = none := by cases s' <;> first | rfl | cases h'
    rw [hn, hn']
    exact .none
  | _ => exact .none

lemma constructor?_lowers {n n' : Node} (h : MemberLowers S n n') :
    Option.Rel (RoutineLowers S) (constructor? n) (constructor? n') := by
  cases h with
  | constructor h => exact .some ⟨rfl, rfl, rfl, .some h⟩
  | @other n n' h h' =>
    obtain ⟨t, s⟩ := n
    obtain ⟨t', s'⟩ := n'
    have hn : constructor? (.mk t s) = none := by cases s <;> first | rfl | cases h
    have hn' : constructor? (.mk t' s') = none := by cases s' <;> first | rfl | cases h'
    rw [hn, hn']
    exact .none
  | _ => exact .none

namespace ClassLowers

lemma methods (h : ClassLowers S c c') :
    List.Forall₂ (RoutineLowers S) c.methods c'.methods :=
  List.rel_filterMap (fun _ _ hm => method?_lowers hm) h.members

lemma firstMethod? (h : ClassLowers S c c') (name : String) :
    Option.Rel (RoutineLowers S) (c.firstMethod? name) (c'.firstMethod? name) :=
  forall₂_find? h.methods fun _ _ hr => by rw [hr.name]

lemma findMethod? (h : ClassLowers S c c') (name : String) (count : Nat) :
    Option.Rel (RoutineLowers S) (c.findMethod? name count) (c'.findMethod? name count) :=
  forall₂_find? h.methods fun _ _ hr => by rw [hr.name, hr.params]

lemma findConstructor? (h : ClassLowers S c c') (count : Nat) :
    Option.Rel (RoutineLowers S) (c.findConstructor? count) (c'.findConstructor? count) :=
  forall₂_find? (List.rel_filterMap (fun _ _ hm => constructor?_lowers hm) h.members)
    fun _ _ hr => by rw [hr.params]

end ClassLowers

lemma class?_lowers (h : ProgramLowers S p p') (name : String) :
    Option.Rel (ClassLowers S) (p.class? name) (p'.class? name) :=
  forall₂_find? h fun _ _ hc => by rw [hc.name]

lemma declares_lowers (h : ProgramLowers S p p') (name : String) :
    p'.declares name = p.declares name := option_isSome (class?_lowers h name)

end

def Visible (links : List Link) (e : Node) : Prop := ∀ n ∈ e.names, ¬ Link.hides n links

lemma Visible.child {links : List Link} {t : Tag} {s : Shape Node} (h : Visible links (.mk t s))
    {c : Node} (hc : c ∈ s.children) : Visible links c := fun n hn => h n (Node.names_subset hc hn)

structure Fits (S : Setting) (routes : Routes) (names : String → Prop) (links : List Link) :
    Prop where
  leaves : S.leaves ≤ routes
  admits : ∀ x, names x → Link.admits x links
  reserved : ∀ x, Link.hides x links → S.reserved x

lemma Fits.visible {S : Setting} {routes : Routes} {names : String → Prop} {links : List Link}
    (h : Fits S routes names links) {e : Node} (he : Avoids S e) : Visible links e :=
  fun n hn hx => he n hn (h.reserved n hx)

structure Matches (S : Setting) (ev ev' : Evaluator) : Prop where
  limit : ev.limit = S.limit
  limit' : ev'.limit = S.limit'
  program : ProgramLowers S ev.program ev'.program
  eval : ∀ {links e}, Visible links e → ∀ w,
    Sim S w links S.leaves Value.Rel (ev.eval e) (ev'.eval e)
  exec : ∀ {bound routes names labels n n' links}, Lowers S bound routes names labels n n' →
    Fits S routes names links → ∀ w,
    Sim S w links routes Done (ev.exec labels n) (ev'.exec labels n')

def Values (w : World) (vs vs' : List Value) : Prop := List.Forall₂ (Value.Rel w) vs vs'

lemma Values.mono {w w₁ : World} (hw : w ≤ w₁) {vs vs' : List Value} (h : Values w vs vs') :
    Values w₁ vs vs' := List.Forall₂.imp (fun _ _ => .mono hw) h

section

variable {S : Setting} {w : World} {links : List Link} {routes : Routes} {k : Credit}
  {s s' : State} {name : String} {v v' : Value}

lemma resolve_none (h : Related S w links k s s') (hn : ¬ Link.hides name links)
    (hnone : scopesValue s.frame.scopes name = none) :
    (s.resolve name = none ∧ s'.resolve name = none) ∨
    (∃ a, s.resolve name = some (.field a) ∧ s'.resolve name = some (.field a)) ∨
    ∃ c, s.resolve name = some (.static c) ∧ s'.resolve name = some (.static c) := by
  have hnone' : scopesValue s'.frame.scopes name = none := by
    obtain ⟨-, h⟩ | ⟨x, x', hx, -, -⟩ := option_cases (h.frame.scopes.value hn)
    · exact h
    · rw [hnone] at hx
      cases hx
  have hidx : (s.frame.scopes.findIdx? fun bs => (bs.lookup name).isSome) = none := by
    rw [← Option.not_isSome_iff_eq_none, findIdx?_isSome, hnone]
    simp
  have hidx' : (s'.frame.scopes.findIdx? fun bs => (bs.lookup name).isSome) = none := by
    rw [← Option.not_isSome_iff_eq_none, findIdx?_isSome, hnone']
    simp
  have hfields : ∀ a, ((s'.fields a).lookup name).isSome = ((s.fields a).lookup name).isSome :=
    fun a => option_isSome ((h.store.fields a).lookup name)
  have hstatics : ∀ c, ((s'.statics? c).lookup name).isSome = ((s.statics? c).lookup name).isSome :=
    fun c => option_isSome ((h.store.statics? c).lookup name)
  simp only [State.resolve, hidx, hidx', hfields, h.frame.this, hstatics, h.frame.className]
  cases s.frame.this.filter fun a => ((s.fields a).lookup name).isSome with
  | some a => exact .inr (.inl ⟨a, rfl, rfl⟩)
  | none =>
    dsimp only
    split
    · exact .inr (.inr ⟨_, rfl, rfl⟩)
    · exact .inl ⟨rfl, rfl⟩

lemma resolve_some (h : Related S w links k s s') (hn : ¬ Link.hides name links)
    (hsome : (scopesValue s.frame.scopes name).isSome = true) :
    ∃ d d', s.resolve name = some (.scope d) ∧ s'.resolve name = some (.scope d') ∧
      (s.frame.scopes.findIdx? fun bs => (bs.lookup name).isSome) = some d ∧
      (s'.frame.scopes.findIdx? fun bs => (bs.lookup name).isSome) = some d' := by
  have hsome' : (scopesValue s'.frame.scopes name).isSome = true := by
    rw [option_isSome (h.frame.scopes.value hn), hsome]
  rw [← findIdx?_isSome] at hsome hsome'
  obtain ⟨d, hd⟩ := Option.isSome_iff_exists.mp hsome
  obtain ⟨d', hd'⟩ := Option.isSome_iff_exists.mp hsome'
  exact ⟨d, d', by rw [State.resolve, hd], by rw [State.resolve, hd'], hd, hd'⟩

lemma value_rel (h : Related S w links k s s') (hn : ¬ Link.hides name links) :
    Option.Rel (Value.Rel w) ((s.resolve name).bind (s.valueOf name))
      ((s'.resolve name).bind (s'.valueOf name)) := by
  cases hv : scopesValue s.frame.scopes name with
  | some x =>
    obtain ⟨d, d', hr, hr', hd, hd'⟩ := resolve_some h hn (by rw [hv]; rfl)
    have hvalue := h.frame.scopes.value hn
    rw [← scopesValue_eq, ← scopesValue_eq, hd, hd'] at hvalue
    rw [hr, hr']
    exact hvalue
  | none =>
    obtain ⟨hr, hr'⟩ | ⟨a, hr, hr'⟩ | ⟨c, hr, hr'⟩ := resolve_none h hn hv
    · rw [hr, hr']
      exact .none
    · rw [hr, hr']
      exact (h.store.fields a).lookup name
    · rw [hr, hr']
      exact (h.store.statics? c).lookup name

lemma Paid.assignName {pre : Credit} (hn : ¬ Link.hides name links) (hv : Value.Rel w v v')
    (origin origin' : Origin) : Paid S w links routes pre pre Done (assignName name v origin)
      (Machine.assignName name v' origin') := by
  intro k s s' hs
  unfold Machine.assignName
  rw [get_bind, get_bind]
  cases hval : scopesValue s.frame.scopes name with
  | some x =>
    obtain ⟨d, d', hr, hr', hd, hd'⟩ := resolve_some hs hn (by rw [hval]; rfl)
    rw [hr, hr']
    refine .ok ⟨w, le_rfl, hs.withScopes ?_, trivial⟩
    rw [modify_eq_assignScopes hd, modify_eq_assignScopes hd']
    exact hs.frame.scopes.assign hn hv origin origin'
  | none =>
    obtain ⟨hr, hr'⟩ | ⟨a, hr, hr'⟩ | ⟨c, hr, hr'⟩ := resolve_none hs hn hval
    · rw [hr, hr']
      exact (Paid.lift (Q := Done) (.fail _)) k s s' hs
    · rw [hr, hr']
      exact (Paid.lift (Q := fun _ => Eq) (agree_setField a name hv origin origin')).done k s s' hs
    · rw [hr, hr']
      exact (Paid.lift (Q := fun _ => Eq) (agree_setStatic c name hv origin origin')).done k s s' hs

end

abbrev fresh : List Link := [.both fun _ => True]

lemma aligned_fresh {w : World} : Aligned w fresh [[]] [[]] := .both .nil (by simp) .nil

lemma admits_fresh (n : String) : Link.admits n fresh := trivial

lemma visible_fresh (e : Node) : Visible fresh e := fun _ _ h => h

lemma Paid.bindParameters {S : Setting} {routes : Routes} (ps : List Node) {w : World}
    {args args' : List Value} (hargs : Values w args args') :
    Sim S w fresh routes Done (bindParameters ps args) (Machine.bindParameters ps args') := by
  induction ps generalizing args args' w with
  | nil => exact .pure trivial
  | cons p ps ih =>
    unfold Machine.bindParameters
    split
    · refine .ite (fun _ => ?_) fun _ => ?_
      · refine (Paid.lift (agree_collect hargs)).bind fun w₁ x x' _ hx => ?_
        exact .declare (admits_fresh _) hx _ _
      · cases hargs with
        | nil => exact .lift (.raise _)
        | cons hd tl =>
          refine (Paid.lift (agree_coerceTo _ hd)).bind fun w₁ x x' hw hx => ?_
          refine (Paid.declare (admits_fresh _) hx _ _).bind fun w₂ _ _ hw₂ _ => ?_
          exact ih (Values.mono (hw.trans hw₂) tl)
    · exact .lift (.raise _)

namespace Matches

variable {S : Setting} {ev ev' : Evaluator} {w : World} {links : List Link} {routes : Routes}
  {args args' : List Value} {v v' : Value}

lemma tick (hm : Matches S ev ev') {pre : Credit} :
    Paid S w links routes pre pre Done ev.tick ev'.tick := by
  unfold Evaluator.tick
  rw [hm.limit, hm.limit']
  exact .tick

lemma truth (hm : Matches S ev ev') {e : Node} (h : Visible links e) (w : World) :
    Sim S w links S.leaves (fun _ => Eq) (ev.truth e) (ev'.truth e) := by
  refine Paid.bind (p := fun v => ?_) (q := fun v => ?_) (hm.eval h w) fun w₁ v v' _ hv => ?_
  · split <;> infer_instance
  · split <;> infer_instance
  cases hv with
  | iterator hi => exact .lift (.fail _)
  | same hv =>
    cases v with
    | bool b => exact .pure rfl
    | _ => exact .lift (.fail _)

lemma currentClass (hm : Matches S ev ev') :
    Sim S w links routes (fun _ => ClassLowers S) ev.currentClass ev'.currentClass := by
  refine Paid.getFrame.bind fun w₁ f f' _ hf => .pure ?_
  rw [hf.className]
  obtain ⟨hn, hn'⟩ | ⟨c, c', hc, hc', h⟩ := option_cases (class?_lowers hm.program f.className)
  · rw [hn, hn']
    exact ⟨rfl, .nil⟩
  · rw [hc, hc']
    exact h

lemma execBody (hm : Matches S ev ev') {b b' : Option Node} (h : Option.Rel (BodyLowers S) b b')
    (w : World) : Sim S w fresh S.leaves Done (ev.execBody b) (ev'.execBody b') := by
  cases h with
  | none => exact .pure trivial
  | some h =>
    obtain ⟨bound, h⟩ := h
    exact hm.exec h ⟨le_rfl, fun x _ => admits_fresh x, fun _ h => h.elim⟩ w

lemma catchReturn (hm : Matches S ev ev') {b b' : Option Node} (h : Option.Rel (BodyLowers S) b b')
    (w : World) : Sim S w fresh S.leaves Value.Rel (catchReturn (ev.execBody b))
      (Machine.catchReturn (ev'.execBody b')) := by
  rw [catchReturn_eq, catchReturn_eq]
  refine Paid.onEnd (hm.execBody h w)
    (fun w₁ _ _ _ _ => .pure (.same rfl)) (fun w₁ e e' _ he => ?_) rfl rfl
  cases he with
  | breakTo h => exact .throw (.breakTo h)
  | continueTo h => exact .throw (.continueTo h)
  | turned h => exact .throw (.turned h)
  | returned h => exact .pure h
  | failure h =>
    have hthrow : Sim S w₁ fresh S.leaves Value.Rel (throw e : Exec Value)
        (throw e' : Exec Value) := .throw (.failure h)
    cases h <;> exact hthrow

lemma initialValue (hm : Matches S ev ev') (type : Except Fault TypeInfo) {init : Option Node}
    (h : ∀ e, init = some e → Visible links e) (w : World) :
    Sim S w links S.leaves Value.Rel (ev.initialValue type init) (ev'.initialValue type init) := by
  cases init with
  | none =>
    have hdefault : ∀ t : TypeInfo, t.default.isIterator = false := by
      intro t
      unfold TypeInfo.default
      repeat' split
      all_goals rfl
    refine (Paid.lift (Q := fun _ => Eq) (agree_faultless type)).bind fun w₁ t _ _ ht => ?_
    subst ht
    exact .pure (.same (hdefault t))
  | some e =>
    refine (hm.eval (h e rfl) w).bind fun w₁ x x' _ hx => .ite (fun _ => .pure hx) fun _ => ?_
    exact .lift (Attempt.faultless ((Attempt.refl _).bind fun t _ h => h ▸ coerce_rel t hx))

variable [ev.Steady] [ev'.Steady]

lemma evalAll (hm : Matches S ev ev') {es : List Node} (h : ∀ e ∈ es, Visible links e) (w : World) :
    Sim S w links S.leaves Values (ev.evalAll es) (ev'.evalAll es) := by
  induction es generalizing w with
  | nil => exact .pure .nil
  | cons e es ih =>
    refine (hm.eval (h e List.mem_cons_self) w).bind fun w₁ v v' _ hv => ?_
    refine (ih (fun e he => h e (List.mem_cons_of_mem _ he)) w₁).bind fun w₂ vs vs' hw hvs => ?_
    exact .pure (.cons (hv.mono hw) hvs)

lemma invoke (hm : Matches S ev ev') (className : String) {r r' : Routine}
    (hr : RoutineLowers S r r') (this : Option Nat) (hargs : Values w args args') :
    Sim S w links S.leaves Value.Rel (ev.invoke className r this args)
      (ev'.invoke className r' this args') := by
  refine hm.tick.bind fun w₁ _ _ hw₁ _ => Paid.getFrame.bind fun w₂ f f' hw₂ hf => ?_
  intro k s s' hs
  have hnew : Related S w₂ fresh (k + 0) { s with frame := { className, this } }
      { s' with frame := { className, this } } := hs.withFrame ⟨rfl, rfl, aligned_fresh⟩
  show Meets S _ _
    ((do noting .brokenBinding (bindParameters r.params args)
         ensuring (Machine.catchReturn (ev.execBody r.body)) (setFrame f) : Exec Value)
      { s with frame := { className, this } })
    ((do noting .brokenBinding (bindParameters r'.params args')
         ensuring (Machine.catchReturn (ev'.execBody r'.body)) (setFrame f') : Exec Value)
      { s' with frame := { className, this } })
  rw [bind_eq_onEnd, bind_eq_onEnd, hr.params]
  have hbind : Sim S w₂ fresh S.leaves Done (bindParameters r.params args)
      (bindParameters r.params args') := .bindParameters r.params ((hargs.mono hw₁).mono hw₂)
  refine Meets.onEnd ((hbind k _ _ hnew).noting S.forbids_binding) ?_
    (fun _ _ _ _ h => h.elim) inferInstance inferInstance inferInstance inferInstance
    (passes_of_eq rfl) (passes_of_eq rfl)
  rintro _ t _ t' ⟨w₃, hw₃, ht, -⟩
  exact ((hm.catchReturn hr.body w₃ k t t' ht).restore (hf.mono hw₃)).earlier hw₃

lemma initFields (hm : Matches S ev ev') (type : Node)
    {put : String → Value → Origin → StoreM Unit}
    [∀ name v origin, Confined .all (put name v origin)]
    (hput : ∀ w name v v' origin, Value.Rel w v v' →
      Agree w Eq (put name v origin) (put name v' origin))
    (ds : List Node) (w : World) :
    Sim S w fresh S.leaves Done (ev.initFields type put ds) (ev'.initFields type put ds) := by
  induction ds generalizing w with
  | nil => exact .pure trivial
  | cons d ds ih =>
    unfold Evaluator.initFields
    split
    · rename_i name _ init _
      refine (hm.initialValue _ (fun e _ => visible_fresh e) w).bind fun w₁ x x' _ hx => ?_
      exact (Paid.lift (Q := fun _ => Eq) (hput w₁ name x x' _ hx)).bind fun w₂ _ _ _ _ => ih w₂
    · exact .lift (.raise _)

lemma initMembers (hm : Matches S ev ev') (static : Bool)
    {put : String → Value → Origin → StoreM Unit}
    [∀ name v origin, Confined .all (put name v origin)]
    (hput : ∀ w name v v' origin, Value.Rel w v v' →
      Agree w Eq (put name v origin) (put name v' origin))
    {ms ms' : List Node} (h : List.Forall₂ (MemberLowers S) ms ms') (w : World) :
    Sim S w fresh S.leaves Done (ev.initMembers static put ms) (ev'.initMembers static put ms') := by
  induction h generalizing w with
  | nil => exact .pure trivial
  | @cons m m' ms ms' hd _ ih =>
    have hskip : Sim S w fresh S.leaves Done (do pure (); ev.initMembers static put ms)
        (do pure (); ev'.initMembers static put ms') := ih w
    cases hd with
    | @field t t' mods type ds =>
      show Sim S w fresh S.leaves Done
        (if isStatic mods = static then do
          ev.initFields type put ds; ev.initMembers static put ms
          else ev.initMembers static put ms)
        (if isStatic mods = static then do
          ev'.initFields type put ds; ev'.initMembers static put ms'
          else ev'.initMembers static put ms')
      refine .ite (fun _ => ?_) fun _ => ih w
      exact (hm.initFields type hput ds w).bind fun w₁ _ _ _ _ => ih w₁
    | @initBlock t t' st b b' hb =>
      show Sim S w fresh S.leaves Done
        (if st = static then do ev.exec [] b; ev.initMembers static put ms
          else ev.initMembers static put ms)
        (if st = static then do ev'.exec [] b'; ev'.initMembers static put ms'
          else ev'.initMembers static put ms')
      refine .ite (fun _ => ?_) fun _ => ih w
      exact (hm.execBody (.some hb) w).bind fun w₁ _ _ _ _ => ih w₁
    | method _ => exact ih w
    | constructor _ => exact ih w
    | @other _ _ h h' =>
      obtain ⟨t, sh⟩ := m
      obtain ⟨t', sh'⟩ := m'
      have hn : ev.initMembers static put (.mk t sh :: ms) = ev.initMembers static put ms := by
        cases sh <;> first | rfl | cases h
      have hn' : ev'.initMembers static put (.mk t' sh' :: ms') =
          ev'.initMembers static put ms' := by
        cases sh' <;> first | rfl | cases h'
      rw [hn, hn']
      exact ih w

lemma inFrame {f : Frame} {c c' : Exec Unit} [Steady c] [Steady c'] {i : Incident}
    (hi : S.forbidden i = true) (hf : ∀ w, Frame.Rel w fresh f f)
    (h : ∀ w, Sim S w fresh S.leaves Done c c') (w : World) :
    Sim S w links S.leaves Done (noting i (Evaluator.inFrame f c))
      (noting i (Evaluator.inFrame f c')) := by
  intro k s s' hs
  have hbody := h w k _ _ (hs.withFrame (hf w))
  have hframe := hs.frame
  have hin : Meets S (Returns S w links (k + 0) Done) (fun _ _ _ _ => True)
      (Evaluator.inFrame f c s) (Evaluator.inFrame f c' s') := by
    show Meets S _ _ ((do c; setFrame s.frame : Exec Unit) { s with frame := f })
      ((do c'; setFrame s'.frame : Exec Unit) { s' with frame := f })
    rw [bind_eq_onEnd, bind_eq_onEnd]
    refine hbody.onEnd ?_ (fun _ _ _ _ _ => .error trivial) inferInstance inferInstance
      inferInstance inferInstance (passes_of_eq rfl) (passes_of_eq rfl)
    rintro _ t _ t' ⟨w₁, hw, ht, -⟩
    exact .ok ⟨w₁, hw, ht.withFrame (hframe.mono hw), trivial⟩
  exact (hin.noting hi).imp (fun _ _ _ _ h => h) fun _ _ _ _ h => h.elim

lemma construct (hm : Matches S ev ev') {c c' : ClassInfo} (hc : ClassLowers S c c') (index : Nat)
    (hargs : Values w args args') :
    Sim S w links S.leaves Done (ev.construct c index args) (ev'.construct c' index args') := by
  unfold Evaluator.construct
  rw [hc.name, ← List.Forall₂.length_eq hargs]
  obtain ⟨hn, hn'⟩ | ⟨r, r', hr, hr', h⟩ := option_cases (hc.findConstructor? args.length)
  · rw [hn, hn']
    have hempty : args'.isEmpty = args.isEmpty := by cases hargs <;> rfl
    rw [hempty]
    exact .ite (fun _ => .pure trivial) fun _ => .lift (.fail _)
  · rw [hr, hr']
    exact (hm.invoke c.name h (some index) hargs).discard

lemma instantiate (hm : Matches S ev ev') {c c' : ClassInfo} (hc : ClassLowers S c c')
    (hargs : Values w args args') :
    Sim S w links S.leaves (fun _ => Eq) (ev.instantiate c args) (ev'.instantiate c' args') := by
  unfold Evaluator.instantiate
  rw [hc.name]
  refine (Paid.lift (Q := fun _ => Eq) (agree_allocIndex (.record c.name .nil))).bind
    fun w₁ index _ hw₁ hindex => ?_
  subst hindex
  have hmembers : ∀ w, Sim S w fresh S.leaves Done
      (ev.initMembers false (setField index) c.members)
      (ev'.initMembers false (setField index) c'.members) :=
    hm.initMembers false (fun _ name _ _ origin h => agree_setField index name h origin origin)
      hc.members
  refine (inFrame S.forbids_creation (fun _ => ⟨rfl, rfl, aligned_fresh⟩) hmembers w₁).bind
    fun w₂ _ _ hw₂ _ => ?_
  refine (hm.construct hc index ((hargs.mono hw₁).mono hw₂)).bind fun w₃ _ _ _ _ => ?_
  exact .pure rfl

lemma create (hm : Matches S ev ev') (type : Node) (hargs : Values w args args') :
    Sim S w links S.leaves Value.Rel (ev.create type args) (ev'.create type args') := by
  refine Paid.bind (p := fun v => ?_) (q := fun v => ?_)
    (Paid.lift (Q := fun _ => Eq) (agree_faultless (nameOf type))) fun w₁ n _ hw hn => ?_
  · split <;> infer_instance
  · split <;> infer_instance
  subst hn
  obtain ⟨hn, hn'⟩ | ⟨c, c', hc, hc', h⟩ := option_cases (class?_lowers hm.program (simpleName n))
  · rw [hn, hn']
    exact .lift (agree_createLibrary n (hargs.mono hw))
  · rw [hc, hc']
    refine (hm.instantiate h (hargs.mono hw)).bind fun w₂ i _ _ hi => ?_
    subst hi
    exact .pure (.same rfl)

end Matches

end LoopLowering.Machine
