import LoopLowering.Proofs.Machine.ForEach
namespace LoopLowering.Machine
open Loops
variable {α β : Type} {S : Setting} {w : World} {links : List Link} {routes : Routes}

section

variable {p p' : Program}

lemma ticks_then (limit : Int) (m n : Nat) (c : Exec α) :
    (do ticks limit m; ticks limit n; c) = (do ticks limit (m + n); c) := by
  rw [← bind_assoc, ticks_add]

lemma bodyThen_next (p : Program) (limit : Int) (d : Nat) (labels : List String) (mods : List Word)
    (type : Node) (x : String) (tk : Tag) (ss : List Node) :
    (evaluatorAt p limit (d + 2)).bodyThen labels (pure ())
        (.mk tk (.block (nextElement mods type x 0 :: ss))) = (do
      ticks limit 2
      inScope [] (onEnd ((evaluatorAt p limit d).execLocalVar type
          [.plain (.declarator x 0 (some (iteratorCall x "next")))])
        (fun _ => onEnd ((evaluatorAt p limit (d + 1)).execAll ss)
          (fun _ => goOn (pure ()) false) (roundEnd labels (pure ())))
        (roundEnd labels (pure ())))) := by
  have hfailed := (neutral_roundEnd labels).failed
  have hblock := block_append (evaluatorAt p limit (d + 1)) tk [nextElement mods type x 0] ss labels
  rw [execAll_singleton, nextElement, Node.plain, exec_succ, onEnd_ticks _ _ _ _ hfailed,
    inScope_ticks] at hblock
  rw [Evaluator.bodyThen, exec_succ, onEnd_ticks _ _ _ _ hfailed]
  have hcons : nextElement mods type x 0 :: ss = [nextElement mods type x 0] ++ ss := rfl
  rw [hcons]
  refine (congrArg (fun c => (do ticks limit 1; c : Exec Bool)) hblock).trans ?_
  exact ticks_then limit 1 1 _

lemma elementOf_rel (type : Node) {v v' : Value} (h : Value.Rel w v v') :
    Attempt (Value.Rel w) (elementOf type v) (elementOf type v') :=
  (Attempt.refl _).bind fun t _ ht => ht ▸ coerce_rel t h

def iteratorVariable (x : String) (j : Nat) : Variable :=
  ⟨iteratorName x, .ref (.iterator j), some ⟨"java.util.Iterator", 0⟩, false⟩

abbrev withIterator (x : String) (j : Nat) (links : List Link) : List Link :=
  .hidden [iteratorVariable x j] :: links

lemma Related.iterator {k : Credit} {s s' : State} {x : String} {j : Nat}
    (h : Related S w (withIterator x j links) k s s') :
    scopesValue s'.frame.scopes (iteratorName x) = some (.ref (.iterator j)) := by
  have hscopes := h.frame.scopes
  generalize s.frame.scopes = ss at hscopes
  generalize s'.frame.scopes = ss' at hscopes
  cases hscopes with
  | hidden _ =>
    have hname : (iteratorVariable x j).name = iteratorName x := rfl
    rw [scopesValue, List.findSome?_cons, lookup_cons, if_pos hname]
    rfl

lemma Fits.iterator {names : String → Prop} {x : String} (h : Fits S routes names links)
    (hx : S.reserved (iteratorName x)) (j : Nat) :
    Fits S routes (fun _ => False) (withIterator x j links) where
  leaves := h.leaves
  admits _ h := h.elim
  reserved n hn := by
    rcases hn with hn | hn
    · obtain ⟨v, hv⟩ := Option.isSome_iff_exists.mp hn
      obtain ⟨b, hb, rfl⟩ := mem_keys_of_lookup hv
      obtain rfl := List.mem_singleton.mp hb
      exact hx
    · exact h.reserved n hn

lemma Fits.under {names : String → Prop} (h : Fits S routes names links) (labels : List String) :
    Fits S (routes.under labels) names links where
  __ := h
  leaves := ⟨fun l hl => .inr (h.leaves.1 l hl), h.leaves.2⟩

lemma Fits.merged {names : String → Prop} (h : Fits S routes names links) :
    Fits S routes (fun _ => True) (.merged :: links) where
  leaves := h.leaves
  admits _ _ := trivial
  reserved := h.reserved

/-- The body of a loop over elements. The first run has a scope for the variable and, if the body is
a block, one for the block; the second run has one scope for both. -/
lemma Paid.elementBody {bound names : String → Prop} {labels : List String} {ss ss' : List Node}
    {body : Node} {m d : Nat} (hb : Below S p p' (m + 1)) (hdeep : S.strict = true → 6 * m ≤ d)
    (keeps : ss = [body] ∨ ∃ tb, body = .mk tb (.block ss))
    (h : List.Forall₂ (Lowers S bound (routes.loop labels) (fun _ => True) []) ss ss')
    (hf : Fits S routes names links) (type : Node) (x : String) {v v' : Value}
    (hv : Value.Rel w v v') : Paid S w links routes (0, 1) 0 (fun _ => Eq)
      (Machine.inScope [elementVariable type x v]
        ((evaluatorAt p S.limit m).bodyThen labels (Pure.pure ()) body))
      (Machine.inScope [elementVariable type x v'] (Machine.onEnd ((evaluatorAt p' S.limit' d).execAll ss')
        (fun _ => goOn (Pure.pure ()) false) (roundEnd labels (Pure.pure ())))) := by
  have hneutral := neutral_roundEnd labels
  have hscope : Bindings.Rel w [elementVariable type x v] [elementVariable type x v'] :=
    .cons ⟨rfl, hv⟩ .nil
  -- What ends the statements of the body.
  have hend : ∀ {w links}, Paid S w links routes 0 0 (fun _ => Eq)
      (goOn (Pure.pure ()) false) (goOn (Pure.pure ()) false) := .pure rfl
  have hfail : ∀ {w links e e'}, Signal.Rel (routes.loop labels) w e e' →
      Sim S w links routes (fun _ => Eq) (roundEnd labels (Pure.pure ()) e)
        (roundEnd labels (Pure.pure ()) e') := fun he =>
    Paid.bind (.bodyEnd he) fun w₁ b _ _ hb => by
      subst hb
      cases b <;> exact .pure rfl
  rcases keeps with rfl | ⟨tb, rfl⟩
  · obtain ⟨body', rfl⟩ : ∃ body', ss' = [body'] := by
      rcases h with _ | ⟨_, h⟩
      cases h
      exact ⟨_, rfl⟩
    have hm := hb m (Nat.lt_succ_self m) d hdeep
    have hbody := hm.exec (List.forall₂_cons.mp h).1 ((hf.opened fun _ => True).loop labels) w
    rw [execAll_singleton]
    refine Paid.weaken ?_ zero_le le_rfl
    refine .inScope (fun _ => True) hscope (fun _ _ => trivial) ?_
    exact hbody.onEnd (fun _ _ _ _ _ => hend) (fun _ _ _ _ he => hfail he) rfl rfl
  · cases m with
    | zero =>
      exact fun _ _ _ _ => .first (.inl rfl)
    | succ m =>
      have hm := hb m (by omega) d fun hs => by have := hdeep hs; omega
      have hfirst : (evaluatorAt p S.limit (m + 1)).bodyThen labels (Pure.pure ())
          (.mk tb (.block ss)) = (do
            Machine.ticks S.limit 1
            Machine.inScope [] (Machine.onEnd ((evaluatorAt p S.limit m).execAll ss)
              (fun _ => goOn (Pure.pure ()) false) (roundEnd labels (Pure.pure ())))) := by
        rw [Evaluator.bodyThen, exec_succ, onEnd_ticks _ _ _ _ hneutral.failed]
        exact congrArg (fun c => (do Machine.ticks S.limit 1; c : Exec Bool))
          (onEnd_inScope [] _ (fun _ => true) hneutral)
      rw [hfirst, inScope_ticks]
      refine .countedFirst 0 1 (zero_le) (fun _ => le_rfl) fun w₁ hw => ?_
      refine .inMerged (hscope.extend hw.1) ?_
      refine (hm.execAll h (hf.merged.loop labels) w₁).onEnd (fun _ _ _ _ _ => hend)
        (fun _ _ _ _ he => hfail he) rfl rfl

def InRound (S : Setting) (w : World) (links : List Link) (k : Credit) (j a i : Nat)
    (s s' : State) : Prop :=
  ∃ w₁, w ≤ w₁ ∧ Related S (w₁.withCursor j a i) links k s s'

section

variable {bound : String → Prop} {labels : List String} {ss ss' : List Node} {body : Node}
  {m m' : Nat} {x : String} {j a : Nat} {k : Credit} {s s' : State}

lemma Meets.eachRound (hb : Below S p p' (m + 1)) (hdeep : S.strict = true → 6 * m + 4 ≤ m')
    (hfactor : 3 ≤ S.factor) (keeps : ss = [body] ∨ ∃ tb, body = .mk tb (.block ss))
    (h : List.Forall₂ (Lowers S bound (routes.loop labels) (fun _ => True) []) ss ss')
    (hf : Fits S routes (fun _ => False) (withIterator x j links))
    (hpinned : ∀ y ∈ w.pinned, y.1 ≠ j) (mods : List Word) (type : Node) (td tk : Tag) {i : Nat}
    (hs : InRound S w (withIterator x j links) k j a i s s') :
    Meets S (fun b t b' t' => b' = b ∧
        if b then InRound S w (withIterator x j links) k j a (i + 1) t t'
        else ∃ w₁, w ≤ w₁ ∧ Related S w₁ (withIterator x j links) k t t')
      (Fails S w (withIterator x j links) k routes)
      ((evaluatorAt p S.limit m).forEachRound labels type (.mk td (.declarator x 0 none))
        (.ref (.object a)) body i s)
      ((evaluatorAt p' S.limit' m').whileRound labels (iteratorCall x "hasNext")
        (.mk tk (.block (nextElement mods type x 0 :: ss'))) s') := by
  obtain ⟨w₁, hw₁, hs⟩ := hs
  obtain ⟨hcursor, -, xs, ys, hxs, hys, hitems⟩ := hs.cursor
  rw [forEachRound_apply _ _ _ _ _ _ hxs, Evaluator.whileRound_eq]
  show Meets S _ _ _ (EStateM.bind ((evaluatorAt p' S.limit' m').truth _) _ s')
  rw [EStateM.bind, truth_hasNext p' S.limit' hs.iterator hcursor hys]
  by_cases hdepth : m' < 2
  · rw [if_pos hdepth]
    exact .second (Bool.eq_false_iff.mpr fun hstrict => by have := hdeep hstrict; omega) (.inl rfl)
  rw [if_neg hdepth]
  obtain ⟨hy, hy'⟩ | ⟨y, y', hy, hy', hrel⟩ := option_cases (hitems.getElem? i)
  · have hsize : ¬ i < ys.size := by simpa using hy'
    rw [hy, decide_eq_false hsize]
    exact .ok ⟨rfl, w₁, hw₁, hs.forget⟩
  · have hsize : i < ys.size := (Array.getElem?_eq_some_iff.mp hy').1
    obtain ⟨d, rfl⟩ : ∃ d, m' = d + 2 := ⟨m' - 2, by omega⟩
    rw [hy, decide_eq_true hsize]
    dsimp only
    rw [if_pos rfl, evaluatorAt_tick, evaluatorAt_tick, bodyThen_next, ticks_then]
    refine Meets.counted 1 3 0 (0, 1) hs (by simp; omega) (fun _ => by simp) fun hs₁ => ?_
    rw [inScope_next p' S.limit' hs₁.iterator hs₁.cursor.1 hys hy' d type _
      (neutral_roundEnd labels)]
    by_cases hd : d < 2
    · rw [if_pos hd]
      refine .second (Bool.eq_false_iff.mpr fun hstrict => ?_) (.inl rfl)
      have := hdeep hstrict
      omega
    rw [if_neg hd]
    have hmoved := hs₁.move fun y hy => hpinned y (hw₁.2.1 ▸ hy)
    have helement := elementOf_rel type hrel
    generalize elementOf type y = r at helement ⊢
    generalize elementOf type y' = r' at helement ⊢
    cases helement with
    | error f =>
      exact .error ⟨w₁, hw₁, hmoved.forget.credit le_self_add, .failure (.fault f)⟩
    | @ok v v' hv =>
      have hsame : w₁.image <+: (w₁.withCursor j a (i + 1)).image := List.prefix_rfl
      have hdepth : S.strict = true → 6 * m ≤ d + 1 := fun hs => by have := hdeep hs; omega
      have hbody := Paid.elementBody hb hdepth keeps h hf type x (hv.extend hsame)
      refine (hbody k _ _ hmoved).imp ?_ ?_
      · rintro b t b' t' ⟨w₂, hw₂, ht, rfl⟩
        obtain ⟨w₃, hw₃, rfl⟩ := World.le_withCursor hw₂
        refine ⟨rfl, ?_⟩
        split
        · exact ⟨w₃, hw₁.trans hw₃, ht⟩
        · exact ⟨w₃, hw₁.trans hw₃, ht.forget⟩
      · rintro e t e' t' ⟨w₂, hw₂, ht, he⟩
        obtain ⟨w₃, hw₃, rfl⟩ := World.le_withCursor hw₂
        have hsame : (w₃.withCursor j a (i + 1)).image <+: w₃.image := List.prefix_rfl
        exact ⟨w₃, hw₁.trans hw₃, ht.forget, he.extend hsame⟩

lemma Meets.eachLoop {ls : List (Tag × String)} (hb : Below S p p' (m + 1))
    (hdeep : S.strict = true → 6 * m + 5 + ls.length ≤ m') (hfactor : 3 ≤ S.factor)
    (keeps : ss = [body] ∨ ∃ tb, body = .mk tb (.block ss))
    (h : List.Forall₂ (Lowers S bound ((routes.under (ls.map (·.2))).loop (ls.map (·.2)))
      (fun _ => True) []) ss ss') (hturns : ∀ l ∈ ls, ∀ c, ¬ routes.turns c l.2)
    (hf : Fits S (routes.under (ls.map (·.2))) (fun _ => False) (withIterator x j links))
    (hpinned : ∀ y ∈ w.pinned, y.1 ≠ j) (mods : List Word) (type : Node) (td tk : Tag)
    (hs : Related S (w.withCursor j a 0) (withIterator x j links) (k + (ls.length + 1, 0)) s s') :
    Meets S (Returns S w (withIterator x j links) k Done)
      (Fails S w (withIterator x j links) k routes)
      (catchLabels (ls.map (·.2)) ((evaluatorAt p S.limit m).rounds
        ((evaluatorAt p S.limit m).forEachRound (ls.map (·.2)) type (.mk td (.declarator x 0 none))
          (.ref (.object a)) body)) s)
      ((evaluatorAt p' S.limit' m').exec [] (relabel (ls.map (·.2)) (.plain (.whileLoop
        (iteratorCall x "hasNext") (.mk tk (.block (nextElement mods type x 0 :: ss')))))) s') := by
  rw [relabel_eq_underLabels]
  by_cases hshallow : m' ≤ ls.length
  · refine .second (Bool.eq_false_iff.mpr fun hstrict => by have := hdeep hstrict; omega) ?_
    exact exec_shallow p' S.limit' _ (by simpa using hshallow) [] _ s'
  obtain ⟨d, rfl⟩ : ∃ d, m' = d + 1 + ls.length := ⟨m' - 1 - ls.length, by omega⟩
  have hunder := exec_underLabels p' S.limit' ((ls.map (·.2)).map fun l => ({}, l)) d []
    (.plain (.whileLoop (iteratorCall x "hasNext")
      (.mk tk (.block (nextElement mods type x 0 :: ss')))))
  rw [map_snd_plain, List.length_map, List.length_map] at hunder
  rw [hunder]
  show Meets S _ _ ((do ticks S.limit 0; catchLabels _ _ : Exec Unit) s) _
  refine Meets.counted 0 (ls.length + 1) (ls.length + 1, 0) 0 hs (by simp) (by simp) fun hs₁ => ?_
  have hrounds : Meets S
      (fun _ t _ t' => ∃ w₁, w ≤ w₁ ∧ Related S w₁ (withIterator x j links) k t t')
      (Fails S w (withIterator x j links) k (routes.under (ls.map (·.2))))
      ((evaluatorAt p S.limit m).rounds ((evaluatorAt p S.limit m).forEachRound (ls.map (·.2)) type
        (.mk td (.declarator x 0 none)) (.ref (.object a)) body) (s.counted 0))
      ((evaluatorAt p' S.limit' d).execWhile (ls.map (·.2)) (iteratorCall x "hasNext")
        (.mk tk (.block (nextElement mods type x 0 :: ss'))) (s'.counted (ls.length + 1))) := by
    have hm := hb m (Nat.lt_succ_self m) d fun hs => by have := hdeep hs; omega
    unfold Evaluator.execWhile Evaluator.rounds
    rw [hm.limit, hm.limit']
    have hdepth : S.strict = true → 6 * m + 4 ≤ d := fun hs => by have := hdeep hs; omega
    have hround := fun i t t' (ht : InRound S w (withIterator x j links) k j a i t t') =>
      Meets.eachRound hb hdepth hfactor keeps h hf hpinned mods type td tk ht
    exact Meets.repeatFrom hround 0 (fun hs => S.rounds_le hs) ⟨w, le_rfl, hs₁⟩
  refine hrounds.onEnd ?_ ?_ inferInstance inferInstance inferInstance inferInstance
    (passes_of_eq rfl) (passes_of_eq rfl)
  · rintro _ t _ t' ⟨w₁, hw₁, ht⟩
    exact .ok ⟨w₁, hw₁, ht, trivial⟩
  · rintro e t e' t' ⟨w₁, hw₁, ht, he⟩
    refine ((Paid.labelsEnd he ?_) k t t' ht).earlier hw₁
    intro l hl
    obtain ⟨y, hy, rfl⟩ := List.mem_map.mp hl
    exact hturns y hy

def declareIterator (ev : Evaluator) (element : Node) (x : String) (v : Value) : Exec Unit := do
  let v ← ev.callOn v "iterator" []
  let v ← faultless (elementOf (iteratorType element) v)
  declare (iteratorName x) v (some ⟨"java.util.Iterator", 0⟩)

instance instSteadyDeclareIterator (ev : Evaluator) [ev.Steady] (element : Node) (x : String)
    (v : Value) : Steady (declareIterator ev element x v) := by
  unfold declareIterator
  infer_instance

lemma execLocalVar_iterator (p : Program) (limit : Int) (d : Nat) (element : Node) {iterable : Node}
    (h : Evaluator.isSuper iterable = false) (x : String) :
    (evaluatorAt p limit (d + 1)).execLocalVar (iteratorType element)
      [.plain (.declarator (iteratorName x) 0
        (some (.plain (.methodCall "iterator" (some iterable) []))))] =
    (do
      let v ← (evaluatorAt p limit d).eval iterable
      declareIterator (evaluatorAt p limit d) element x v) := by
  have heval : (evaluatorAt p limit (d + 1)).eval
      (.plain (.methodCall "iterator" (some iterable) [])) = (do
        let v ← (evaluatorAt p limit d).eval iterable
        (evaluatorAt p limit d).callOn v "iterator" []) := by
    show (evaluatorAt p limit d).evalCall "iterator" (some iterable) [] = _
    simp only [Evaluator.evalCall, h]
    rfl
  have hinit : ∀ ev : Evaluator, ev.execLocalVar (iteratorType element) [.plain (.declarator
      (iteratorName x) 0 (some (.plain (.methodCall "iterator" (some iterable) []))))] = (do
      let v ← ev.eval (.plain (.methodCall "iterator" (some iterable) []))
      let v ← faultless (elementOf (iteratorType element) v)
      declare (iteratorName x) v (some ⟨"java.util.Iterator", 0⟩)) := by
    intro ev
    show (do
      let v ← (do
        let v ← ev.eval (.plain (.methodCall "iterator" (some iterable) []))
        faultless (elementOf (iteratorType element) v) : Exec Value)
      declare (iteratorName x) v (some ⟨"java.util.Iterator", 0⟩)
      pure ()) = _
    rw [bind_assoc]
    simp only [bind_pure_unit]
  rw [hinit, heval, bind_assoc]
  rfl

lemma Aligned.hide {ss₁ ss₁' : List Bindings} {bs : Bindings} (bs₁ : Bindings)
    (h : Aligned w (.hidden bs :: links) ss₁ ss₁') : ∃ tl, ss₁' = bs :: tl ∧
      Aligned w (.hidden bs₁ :: links) ss₁ (bs₁ :: tl) := by
  cases h with
  | hidden rest => exact ⟨_, rfl, .hidden rest⟩

lemma declareIterator_list (ev : Evaluator) (element : Node) (x : String) {a : Nat} {st : State}
    {ys : Array Value} (hys : (Value.ref (.object a)).list? st.heap = some ys)
    {tl : List Bindings} (hss : st.frame.scopes = [] :: tl) :
    declareIterator ev element x (.ref (.object a)) st = .ok () { st with
      heap := { st.heap with iterators := st.heap.iterators.push ⟨a, 0⟩ }
      frame := { st.frame with
        scopes := [iteratorVariable x st.heap.iterators.size] :: tl } } := by
  have hsome : ((Value.ref (.object a)).list? st.toStore.heap).isSome = true := by
    rw [hys]
    rfl
  obtain ⟨a', ha, hcall⟩ := callMethod_iterator hsome []
  obtain rfl : a = a' := by cases ha; rfl
  have hfound : ev.callFound st.heap (.ref (.object a)) "iterator" [] =
      liftM (callMethod (.ref (.object a)) "iterator" []) := by
    unfold Evaluator.callFound
    unfold Value.list? at hys
    split at hys
    · rename_i hobject
      rw [hobject]
    · cases hys
  have hcreated : ev.callOn (.ref (.object a)) "iterator" [] st =
      .ok (.ref (.iterator st.heap.iterators.size)) { st with
        heap := { st.heap with iterators := st.heap.iterators.push ⟨a, 0⟩ } } := by
    show ev.callFound st.heap (.ref (.object a)) "iterator" [] st = _
    rw [hfound, liftM_apply, hcall]
    rfl
  have helement : ∀ j, elementOf (iteratorType element) (.ref (.iterator j)) =
      .ok (.ref (.iterator j)) := by
    intro j
    simp [elementOf, typeInfo, iteratorType, Node.plain, Node.shape, TypeInfo.coerce,
      Value.isNumeric, Value.isChar]
    rfl
  have hscopes : ({ st with heap := { st.heap with
      iterators := st.heap.iterators.push ⟨a, 0⟩ } } : State).frame.scopes = [] :: tl := hss
  show EStateM.bind (ev.callOn (.ref (.object a)) "iterator" []) _ st = _
  rw [EStateM.bind, hcreated]
  dsimp only
  rw [helement]
  exact declare_apply hscopes _ _ _

lemma Related.pushIterator {a : Nat} {xs : Array Value}
    (h : Related S w (.hidden [] :: links) k s s')
    (hlist : (Value.ref (.object a)).list? s.heap = some xs) (x : String) :
    ∃ tl, s'.frame.scopes = [] :: tl ∧ (∀ y ∈ w.pinned, y.1 ≠ s'.heap.iterators.size) ∧
      Related S (w.withCursor s'.heap.iterators.size a 0)
        (withIterator x s'.heap.iterators.size links) k s { s' with
          heap := { s'.heap with iterators := s'.heap.iterators.push ⟨a, 0⟩ }
          frame := { s'.frame with
            scopes := [iteratorVariable x s'.heap.iterators.size] :: tl } } := by
  obtain ⟨tl, htl, hscopes⟩ :=
    h.frame.scopes.hide [iteratorVariable x s'.heap.iterators.size]
  have hpush : ∀ (j : Nat) (c : Cursor), s'.heap.iterators[j]? = some c →
      (s'.heap.iterators.push ⟨a, 0⟩)[j]? = some c := by
    intro j c hj
    rw [Array.getElem?_push, if_neg (Array.getElem?_eq_some_iff.mp hj).1.ne]
    exact hj
  have hpushed : Related S w (withIterator x s'.heap.iterators.size links) k s { s' with
      heap := { s'.heap with iterators := s'.heap.iterators.push ⟨a, 0⟩ }
      frame := { s'.frame with
        scopes := [iteratorVariable x s'.heap.iterators.size] :: tl } } := by
    refine ⟨⟨⟨h.store.heap.objects, h.store.heap.complexes, h.store.heap.image_length,
      h.store.heap.image_nodup, ?_, ?_, h.store.heap.lists⟩, h.store.statics, h.store.out, h.store.err⟩,
      ⟨h.frame.className, h.frame.this, hscopes⟩, h.upper, h.lower, h.intact⟩
    · intro i j hij
      obtain ⟨c, hc⟩ := h.store.heap.iterators_isSome hij
      rw [hc]
      exact hpush j c ((h.store.heap.cursor i j hij).trans hc)
    · intro y hy
      obtain ⟨hold, hmem⟩ := h.store.heap.pinned y hy
      exact ⟨hpush y.1 y.2 hold, hmem⟩
  refine ⟨tl, htl, fun y hy => ?_, hpushed.repin rfl (fun y hy => ?_) fun i hi => ?_⟩
  · exact (Array.getElem?_eq_some_iff.mp (h.store.heap.pinned y hy).1).1.ne
  · rcases List.mem_cons.mp hy with rfl | hy
    · refine ⟨?_, fun hmem => (h.store.heap.image_lt hmem).false⟩
      show (s'.heap.iterators.push ⟨a, 0⟩)[s'.heap.iterators.size]? = _
      simp
    · exact hpushed.store.heap.pinned y hy
  · rcases List.mem_cons.mp hi with rfl | hi
    · have hobject : (Value.ref (.object i)).object? s.heap = s.heap.objects[i]? := rfl
      rw [Value.list?, hobject] at hlist
      cases ho : s.heap.objects[i]? with
      | none => simp [ho] at hlist
      | some o =>
        rw [ho] at hlist
        cases o with
        | list items b => rfl
        | _ => cases hlist
    · exact h.store.heap.lists i hi

end

lemma stopped_ticks {lost : State → Prop} {limit : Int} (hlost : ∀ st, spent limit st → lost st)
    {c : Exec α} (n : Nat) {st : State} (h : ∀ st, Stopped lost (c st)) :
    Stopped lost ((do ticks limit n; c) st) := by
  obtain ⟨-, heq⟩ | ⟨m, hm, -, hlt, heq⟩ := ticks_cases limit n st
  · rw [ticks_bind heq]
    exact h _
  · exact ticks_bind_stopped heq (hlost _ ⟨Nat.add_pos_right _ hm, hlt⟩) c

lemma stopped_note {i : Incident} (hi : S.forbidden i = true) (c : Exec α) [h : Steady c]
    (st : State) : Stopped S.Lost ((do note i; c) st) := by
  show Stopped S.Lost (c { st with incidents := i :: st.incidents })
  exact .of_lost (S.lost_mono (h.trace_le _) (.inr ⟨i, List.mem_cons_self, hi⟩))

lemma exec_iteratorBlock (p : Program) (limit : Int) (d : Nat) (labels : List String)
    (line : Option Nat) (element : Node) {iterable : Node}
    (h : Evaluator.isSuper iterable = false) (x : String) (cond body : Node) :
    (do
      ticks limit 1
      (evaluatorAt p limit (d + 2)).statement []
        (whileBlock labels line [iteratorDecl element iterable x] cond body)) = (do
      ticks limit 2
      inScope [] (do
        let v ← (evaluatorAt p limit d).eval iterable
        declareIterator (evaluatorAt p limit d) element x v
        (evaluatorAt p limit (d + 2)).exec []
          (relabel labels (.plain (.whileLoop cond body))))) := by
  have hblock : (evaluatorAt p limit (d + 2)).statement []
      (whileBlock labels line [iteratorDecl element iterable x] cond body) = inScope [] (do
        (evaluatorAt p limit (d + 2)).exec [] (iteratorDecl element iterable x)
        (evaluatorAt p limit (d + 2)).exec []
          (relabel labels (.plain (.whileLoop cond body)))) := by
    show inScope [] ((evaluatorAt p limit (d + 2)).execAll
      ([iteratorDecl element iterable x] ++ [relabel labels (.plain (.whileLoop cond body))])) = _
    rw [execAll_append, execAll_singleton, execAll_singleton]
  have hdecl : (evaluatorAt p limit (d + 2)).exec [] (iteratorDecl element iterable x) = (do
      ticks limit 1
      let v ← (evaluatorAt p limit d).eval iterable
      declareIterator (evaluatorAt p limit d) element x v) := by
    rw [iteratorDecl, exec_succ, ← execLocalVar_iterator p limit d element h x]
    rfl
  rw [hblock, hdecl]
  simp only [bind_assoc]
  rw [inScope_ticks, ticks_then]

lemma iteratorBlock_shallow (p : Program) (limit : Int) {d : Nat} (hd : d < 2)
    (labels : List String) (line : Option Nat) (element iterable : Node) (x : String)
    (cond body : Node) (st : State) :
    Stopped (spent limit) ((do
      ticks limit 1
      (evaluatorAt p limit d).statement []
        (whileBlock labels line [iteratorDecl element iterable x] cond body)) st) := by
  refine stopped_ticks (fun _ h => h) 1 fun st => ?_
  show Stopped _ (inScope [] ((evaluatorAt p limit d).execAll
      ([iteratorDecl element iterable x] ++ [relabel labels (.plain (.whileLoop cond body))])) st)
  rw [execAll_append, execAll_singleton]
  rcases d with _ | _ | d
  · exact .inl rfl
  · rw [iteratorDecl, exec_succ, bind_assoc, inScope_ticks]
    exact stopped_ticks (fun _ h => h) 1 fun _ => .inl rfl
  · omega

lemma EachHead.fails {bound names : String → Prop} {ls : List (Tag × String)} {x : String}
    {iterable : Node} (head : EachHead S bound routes ls x iterable)
    (hf : Fits S routes names links)
    {pre k : Credit} {bs : Bindings} {e e' : Signal} {s s' : State}
    (h : Fails S w (.hidden bs :: links) (k + pre) S.leaves e s e' s') :
    Meets S (fun a t b t' => ∃ bs, Returns S w (.hidden bs :: links) k Done a t b t')
      (fun e t e' t' => ∃ bs, Fails S w (.hidden bs :: links) k routes e t e' t')
      (Machine.labelsEnd (ls.map (·.2)) e s) ((throw e' : Exec Unit) s') := by
  obtain ⟨w₁, hw, hs, he⟩ := h
  have hpass : Machine.labelsEnd (ls.map (·.2)) e = throw e := by
    cases he with
    | @breakTo b hb =>
      cases b with
      | none => rfl
      | some b =>
        refine if_neg fun hmem => ?_
        obtain ⟨l, hl, rfl⟩ := List.mem_map.mp (List.contains_iff_mem.mp hmem)
        exact head.breaks l hl hb
    | failure h => cases h <;> rfl
    | _ => rfl
  rw [hpass]
  exact .error ⟨bs, w₁, hw, hs.credit le_self_add, he.mono hf.leaves⟩

lemma noteForeign_apply (v : Value) (s : State) : Evaluator.noteForeign v s =
    if (v.list? s.heap).isSome || isNull v then .ok () s
    else .ok () { s with incidents := .foreignIteration :: s.incidents } := by
  show (if (!((v.list? s.heap).isSome || isNull v)) = true then note .foreignIteration
    else (Pure.pure () : Exec Unit)) s = _
  cases (v.list? s.heap).isSome || isNull v <;> rfl

lemma noteForeign_elements_list {v : Value} {s : State} {xs : Array Value}
    (hx : v.list? s.heap = some xs) (c : Exec α) :
    (do
      Evaluator.noteForeign v
      let _ ← Evaluator.elements v
      c) s = c s := by
  have hnote : Evaluator.noteForeign v s = .ok () s := by
    rw [noteForeign_apply, hx]
    rfl
  have helements : Evaluator.elements v s.toStore = .ok xs s.toStore := by
    unfold Evaluator.elements
    rw [heap_bind, hx]
    rfl
  show EStateM.bind (Evaluator.noteForeign _) _ s = _
  rw [EStateM.bind, hnote]
  show EStateM.bind (liftM (Evaluator.elements _)) _ s = _
  rw [EStateM.bind, liftM_apply, helements]

lemma noteForeign_elements_null (s : State) (c : Array Value → Exec α) :
    (do
      Evaluator.noteForeign .null
      let xs ← Evaluator.elements .null
      c xs) s = (liftM (nullPointer : StoreM α) : Exec α) s := by
  show EStateM.bind (Evaluator.noteForeign _) _ s = _
  rw [EStateM.bind, noteForeign_apply]
  rfl

lemma stopped_noteForeign {v : Value} {s : State} (hforbidden : S.forbidden .foreignIteration = true)
    (hlist : v.list? s.heap = none) (hnull : ¬ isNull v = true) (c : Exec α) [Steady c] :
    Stopped S.Lost ((do Evaluator.noteForeign v; c) s) := by
  have hlost : Stopped S.Lost (Evaluator.noteForeign v s) := by
    rw [noteForeign_apply, hlist, Option.isSome_none, Bool.false_or, if_neg hnull]
    exact .inr ⟨_, List.mem_cons_self, hforbidden⟩
  rw [bind_eq_onEnd]
  exact hlost.onEnd (fun _ _ => S.lost_mono) (fun _ => inferInstance) inferInstance
    (passes_of_eq rfl)

lemma Meets.eachValue {bound names : String → Prop} {ls : List (Tag × String)} {ss ss' : List Node}
    {body : Node} {x : String} {m d : Nat} {k : Credit} {s s' : State} (hb : Below S p p' (m + 1))
    (hdeep : S.strict = true → 6 * m + 3 + ls.length ≤ d)
    {iterable : Node} (head : EachHead S bound routes ls x iterable)
    (keeps : ss = [body] ∨ ∃ tb, body = .mk tb (.block ss))
    (h : List.Forall₂ (Lowers S bound ((routes.under (ls.map (·.2))).loop (ls.map (·.2)))
      (fun _ => True) []) ss ss')
    (hf : Fits S routes names links) (mods : List Word)
    (type element : Node) (tv td tk : Tag) {v v' : Value} (hv : Value.Rel w v v')
    (hs : Related S w (.hidden [] :: links) (k + (ls.length + 1, 0)) s s') :
    Meets S (fun a t b t' => ∃ bs, Returns S w (.hidden bs :: links) k Done a t b t')
      (fun e t e' t' => ∃ bs, Fails S w (.hidden bs :: links) k routes e t e' t')
      (catchLabels (ls.map (·.2)) (do
        Evaluator.noteForeign v
        let _ ← Evaluator.elements v
        let q ← Evaluator.loopVariable
          (.mk tv (.localVar mods type [.mk td (.declarator x 0 none)]))
        (evaluatorAt p S.limit m).rounds
          ((evaluatorAt p S.limit m).forEachRound (ls.map (·.2)) q.1 q.2 v body)) s)
      ((do
        declareIterator (evaluatorAt p' S.limit' d) element x v'
        (evaluatorAt p' S.limit' (d + 2)).exec [] (relabel (ls.map (·.2)) (.plain (.whileLoop
          (iteratorCall x "hasNext") (.mk tk (.block (nextElement mods type x 0 :: ss')))))) :
            Exec Unit) s') := by
  cases hx : v.list? s.heap with
  | some xs =>
    obtain ⟨a, rfl, -⟩ := callMethod_iterator (Option.isSome_iff_exists.mpr ⟨xs, hx⟩) []
    obtain rfl : v' = .ref (.object a) := by
      cases hv
      rfl
    obtain ⟨hn, -⟩ | ⟨_, ys, -, hys, -⟩ := option_cases (hs.store.heap.list? hv)
    · rw [hx] at hn
      cases hn
    obtain ⟨tl, htl, hpinned, hpushed⟩ := hs.pushIterator hx x
    unfold catchLabels Machine.onEnd
    rw [noteForeign_elements_list hx]
    show Meets S _ _ _ (EStateM.bind (declareIterator _ element x _) _ s')
    rw [EStateM.bind, declareIterator_list _ element x hys htl]
    have hfits := (hf.under (ls.map (·.2))).iterator head.reserved s'.heap.iterators.size
    have hdepth : S.strict = true → 6 * m + 5 + ls.length ≤ d + 2 := fun hs => by
      have := hdeep hs
      omega
    exact (Meets.eachLoop hb hdepth head.factor keeps h head.turns hfits hpinned mods type td tk
      hpushed).imp (fun _ _ _ _ h => ⟨_, h⟩) fun _ _ _ _ h => ⟨_, h⟩
  | none =>
    by_cases hnull : isNull v = true
    · obtain rfl : v = .null := by
        cases v <;> first | rfl | cases hnull
      obtain rfl : v' = .null := by
        cases hv
        rfl
      have hpointer : Sim S w (.hidden [] :: links) routes Done
          (liftM (nullPointer : StoreM Unit) : Exec Unit)
          (liftM (nullPointer : StoreM Unit) : Exec Unit) := .lift agree_nullPointer
      unfold catchLabels Machine.onEnd
      rw [noteForeign_elements_null]
      exact (hpointer k s s' (hs.credit (by simp))).imp (fun _ _ _ _ h => ⟨[], h⟩)
        fun _ _ _ _ h => ⟨[], h⟩
    · refine .first ?_
      have hpasses : Passes (Machine.labelsEnd (ls.map (·.2))) := passes_of_eq rfl
      exact (stopped_noteForeign head.foreign hx hnull _).onEnd (fun _ _ => S.lost_mono)
        (fun _ => inferInstance) (fun _ => inferInstance) hpasses

lemma Paid.loweredForEach {bound names : String → Prop} {ls : List (Tag × String)}
    {ss ss' : List Node} {body iterable : Node} {x : String} {d d' : Nat} (hb : Below S p p' d)
    (hdeep : Deep S d d') (head : EachHead S bound routes ls x iterable)
    (keeps : ss = [body] ∨ ∃ tb, body = .mk tb (.block ss))
    (h : List.Forall₂ (Lowers S bound ((routes.under (ls.map (·.2))).loop (ls.map (·.2)))
      (fun _ => True) []) ss ss') (hf : Fits S routes names links) (mods : List Word)
    (type element : Node) (t tv td tk : Tag) (line : Option Nat) (w : World) :
    Sim S w links routes Done
      ((evaluatorAt p S.limit d).exec [] (underLabels ls (.mk t (.forEach
        (.mk tv (.localVar mods type [.mk td (.declarator x 0 none)])) iterable body))))
      ((evaluatorAt p' S.limit' d').exec [] (whileBlock (ls.map (·.2)) line
        [iteratorDecl element iterable x] (iteratorCall x "hasNext")
        (.mk tk (.block (nextElement mods type x 0 :: ss'))))) := by
  have hfactor := head.factor
  refine .underLabelsFirst fun m hm => .execSecond (fun hs => by have := hdeep hs; omega)
    fun i hi => ?_
  by_cases hshallow : i < 2
  · intro k s s' _
    refine .second (Bool.eq_false_iff.mpr fun hs => by have := hdeep hs; omega) ?_
    exact iteratorBlock_shallow p' S.limit' hshallow _ line element iterable x _ _ s'
  obtain ⟨j, rfl⟩ : ∃ j, i = j + 2 := ⟨i - 2, by omega⟩
  cases hsuper : Evaluator.isSuper iterable with
  | true =>
    intro k s s' _
    refine .first (stopped_ticks (fun _ => .inl) _ fun st => ?_)
    have hfirst : ∀ c : Exec Unit, Steady c → Stopped S.Lost ((do
        if Evaluator.isSuper iterable then Machine.note .foreignIteration
        c : Exec Unit) st) := by
      intro c hc
      rw [if_pos hsuper]
      exact stopped_note head.foreign c st
    have hpasses : Passes (Machine.labelsEnd (ls.map (·.2))) := passes_of_eq rfl
    exact (hfirst _ inferInstance).onEnd (fun _ _ => S.lost_mono) (fun _ => inferInstance)
      (fun _ => inferInstance) hpasses
  | false =>
    rw [exec_iteratorBlock p' S.limit' j _ line element hsuper]
    have hmul : 3 * (ls.length + 1) ≤ S.factor * (ls.length + 1) := Nat.mul_le_mul_right _ hfactor
    refine .counted (ls.length + 1, 0) _ _ (by simp only; omega) (fun ht => ?_) fun w₁ _ => ?_
    · have := head.single ht
      simp only
      omega
    intro k s s' hs
    have hs₁ : Related S w₁ (.hidden [] :: links) (k + (ls.length + 1, 0)) s
        { s' with frame := { s'.frame with scopes := [] :: s'.frame.scopes } } :=
      hs.withScopes (.hidden hs.frame.scopes)
    have hvisible : Visible (.hidden [] :: links) iterable := fun n hn hhides =>
      hf.visible head.avoids n hn (hhides.resolve_left (by rintro ⟨⟩))
    have hm := hb m (by omega) j fun hs => by have := hdeep hs; omega
    have heval := hm.eval hvisible w₁ (k + (ls.length + 1, 0)) _ _ hs₁
    have hfirst : (evaluatorAt p S.limit m).statement (ls.map (·.2)) (.mk t (.forEach
        (.mk tv (.localVar mods type [.mk td (.declarator x 0 none)])) iterable body)) = (do
          let v ← (evaluatorAt p S.limit m).eval iterable
          Evaluator.noteForeign v
          let _ ← Evaluator.elements v
          let q ← Evaluator.loopVariable
            (.mk tv (.localVar mods type [.mk td (.declarator x 0 none)]))
          (evaluatorAt p S.limit m).rounds
            ((evaluatorAt p S.limit m).forEachRound (ls.map (·.2)) q.1 q.2 v body)) :=
      if_neg (Bool.eq_false_iff.mp hsuper)
    rw [hfirst, catchLabels, onEnd_bind]
    refine Meets.popHidden ?_
    rw [bind_eq_onEnd]
    refine heval.onEnd ?_ ?_ (fun _ => inferInstance) (fun _ => inferInstance) inferInstance
      inferInstance (passes_of_eq rfl) (passes_of_eq rfl)
    · rintro v t v' t' ⟨w₂, hw₂, ht, hv⟩
      have hdepth : S.strict = true → 6 * m + 3 + ls.length ≤ j := fun hs => by
        have := hdeep hs
        omega
      have hvalue := Meets.eachValue (fun i hi => hb i (by omega)) hdepth head keeps h hf mods type
        element tv td tk hv ht
      refine hvalue.imp ?_ ?_
      · rintro _ _ _ _ ⟨bs, w₃, hw₃, hend⟩
        exact ⟨bs, w₃, hw₂.trans hw₃, hend⟩
      · rintro _ _ _ _ ⟨bs, w₃, hw₃, hend⟩
        exact ⟨bs, w₃, hw₂.trans hw₃, hend⟩
    · exact fun _ _ _ _ hfail => head.fails hf hfail

end

end LoopLowering.Machine
