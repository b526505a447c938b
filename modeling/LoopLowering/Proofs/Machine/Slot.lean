import LoopLowering.Proofs.Machine.Growth
import LoopLowering.Proofs.Machine.Scope
import LoopLowering.Proofs.Machine.Storage

/-! The places in which running code keeps values: variables, fields and elements of arrays. New
objects leave them all as they are, and what is written to one of them is found there again. -/

namespace LoopLowering.Machine

variable {ε σ α β : Type}

lemma bind_of_ok {c : EStateM ε σ α} {f : α → EStateM ε σ β} {s t : σ} {a : α}
    (h : c s = .ok a t) : (c >>= f) s = f a t := by
  show EStateM.bind c f s = f a t
  unfold EStateM.bind
  rw [h]

lemma bind_of_error {c : EStateM ε σ α} {f : α → EStateM ε σ β} {s t : σ} {e : ε}
    (h : c s = .error e t) : (c >>= f) s = .error e t := by
  show EStateM.bind c f s = .error e t
  unfold EStateM.bind
  rw [h]

inductive Slot where
  | bound (binding : Binding) (name : String)
  | element (array position : Nat)
  deriving DecidableEq, Repr

lemma statics_setStatic (all : List (String × Bindings)) (c name : String) (v : Value)
    (origin : Origin) :
    ((putStatics all c name v origin).lookup c).getD [] =
      ((all.lookup c).getD []).put name v origin := by
  induction all with
  | nil => simp [putStatics, Bindings.put]
  | cons d ds ih =>
    unfold putStatics
    split
    · rename_i hd
      obtain ⟨k, bs⟩ := d
      obtain rfl : k = c := hd
      rw [List.lookup_cons_self, List.lookup_cons_self]
      rfl
    · rename_i hd
      rw [List.lookup_cons, List.lookup_cons, beq_false_of_ne (Ne.symm hd)]
      exact ih

namespace State

def content? (st : State) (name : String) : Option Value :=
  (st.resolve name).bind (st.valueOf name)

def slot? (st : State) : Slot → Option Value
  | .bound b name => st.valueOf name b
  | .element a i =>
    match st.heap.objects[a]? with
    | some (.array items) => items[i]?
    | _ => none

def withObject (st : State) (index : Nat) (o : Object) : State :=
  { st with heap := { st.heap with objects := st.heap.objects.setIfInBounds index o } }

def put (st : State) (v : Value) (origin : Origin) : Slot → State
  | .bound (.scope d) name =>
    { st with frame := { st.frame with
      scopes := st.frame.scopes.modify d (·.put name v origin) } }
  | .bound (.field a) name =>
    match st.heap.objects[a]? with
    | some (.record c fields) => st.withObject a (.record c (fields.put name v origin))
    | _ => st
  | .bound (.static c) name => { st with statics := putStatics st.statics c name v origin }
  | .element a i =>
    match st.heap.objects[a]? with
    | some (.array items) => st.withObject a (.array (items.setIfInBounds i v))
    | _ => st

variable {st u w : State} {v old : Value} {origin : Origin} {x name : String} {a i : Nat} {s : Slot}

lemma slot?_field : st.slot? (.bound (.field a) name) = some v ↔
    ∃ c fields, st.heap.objects[a]? = some (.record c fields) ∧ fields.lookup name = some v := by
  show ((match st.heap.objects[a]? with
    | some (.record _ fields) => fields
    | _ => []) : Bindings).lookup name = some v ↔ _
  constructor
  · intro h
    split at h
    · rename_i c fields hrecord
      exact ⟨c, fields, hrecord, h⟩
    · cases h
  · rintro ⟨c, fields, hrecord, h⟩
    rw [hrecord]
    exact h

lemma slot?_element : st.slot? (.element a i) = some v ↔
    ∃ items, st.heap.objects[a]? = some (.array items) ∧ items[i]? = some v := by
  show (match st.heap.objects[a]? with
    | some (.array items) => items[i]?
    | _ => none) = some v ↔ _
  constructor
  · intro h
    split at h
    · rename_i items harray
      exact ⟨items, harray, h⟩
    · cases h
  · rintro ⟨items, harray, h⟩
    rw [harray]
    exact h

lemma slot?_put_self (h : st.slot? s = some old) : (st.put v origin s).slot? s = some v := by
  cases s with
  | element a i =>
    obtain ⟨items, harray, hi⟩ := slot?_element.mp h
    have ha := (Array.getElem?_eq_some_iff.mp harray).1
    have hi := (Array.getElem?_eq_some_iff.mp hi).1
    refine slot?_element.mpr ⟨items.setIfInBounds i v, ?_, ?_⟩
    · simp only [put, harray, withObject, Array.getElem?_setIfInBounds_self_of_lt ha]
    · exact Array.getElem?_setIfInBounds_self_of_lt hi
  | bound b name =>
    cases b with
    | scope d =>
      obtain ⟨bs, hbs, -⟩ := Option.bind_eq_some_iff.mp h
      show ((st.frame.scopes.modify d (·.put name v origin))[d]?).bind (·.lookup name) = some v
      rw [List.getElem?_modify_eq, hbs]
      show (bs.put name v origin).lookup name = some v
      rw [lookup_put, if_pos rfl]
    | field a =>
      obtain ⟨c, fields, hrecord, -⟩ := slot?_field.mp h
      have ha := (Array.getElem?_eq_some_iff.mp hrecord).1
      refine slot?_field.mpr ⟨c, fields.put name v origin, ?_, ?_⟩
      · simp only [put, hrecord, withObject, Array.getElem?_setIfInBounds_self_of_lt ha]
      · rw [lookup_put, if_pos rfl]
    | static c =>
      show (((putStatics st.statics c name v origin).lookup c).getD []).lookup name = some v
      rw [statics_setStatic, lookup_put, if_pos rfl]

end State

section

variable {st : State} {s : Store} {a k : Nat} {items : Array Value} {x : String} {v : Value}

lemma fieldOf_object (a : Nat) (x : String) (s : Store) :
    Evaluator.fieldOf (.ref (.object a)) x s =
      (match s.heap.objects[a]? with
      | some (.classRef c) => Evaluator.staticField c x
      | some (.record _ fields) =>
        match fields.lookup x with
        | some v => pure v
        | none => fail (.unknownField x)
      | some (.array items) =>
        if x = "length" then pure (.int items.size) else fail (.unknownField x)
      | _ => fail (.unknownField x)) s := rfl

lemma fieldOf_record {c : String} {fields : Bindings}
    (ha : s.heap.objects[a]? = some (.record c fields)) (hx : fields.lookup x = some v) :
    Evaluator.fieldOf (.ref (.object a)) x s = .ok v s := by
  rw [fieldOf_object, ha]
  dsimp only
  rw [hx]
  rfl

lemma fieldOf_length (ha : s.heap.objects[a]? = some (.array items)) :
    Evaluator.fieldOf (.ref (.object a)) "length" s = .ok (.int items.size) s := by
  rw [fieldOf_object, ha]
  rfl

lemma fieldOf_class {c : String} (ha : s.heap.objects[a]? = some (.classRef c))
    (hx : (s.statics? c).lookup x = some v) :
    Evaluator.fieldOf (.ref (.object a)) x s = .ok v s := by
  rw [fieldOf_object, ha]
  show (match (s.statics? c).lookup x with
    | some v => pure v
    | none => libraryField c x : StoreM Value) s = _
  rw [hx]
  rfl

lemma setField_put (a : Nat) (name : String) (v : Value) (origin : Origin) (st : State) :
    (liftM (setField a name v origin) : Exec Unit) st =
      .ok () (st.put v origin (.bound (.field a) name)) := by
  have hset : setField a name v origin st.toStore = (match st.heap.objects[a]? with
    | some (.record c fields) => store a (.record c (fields.put name v origin))
    | _ => pure ()) st.toStore := rfl
  rw [liftM_apply, hset]
  simp only [State.put]
  cases st.heap.objects[a]? with
  | none => rfl
  | some o => cases o <;> rfl

lemma assignName_resolved {b : Binding} (h : st.resolve x = some b) (v : Value) (origin : Origin) :
    assignName x v origin st = .ok () (st.put v origin (.bound b x)) := by
  unfold assignName
  rw [get_bind, h]
  cases b with
  | scope d => rfl
  | static c => rfl
  | field a => exact setField_put a x v origin st

lemma putField_record (ev : Evaluator) (origin : Origin) {h : Heap} {c : String} {fields : Bindings}
    (ha : h.objects[a]? = some (.record c fields)) :
    ev.putField h (.ref (.object a)) x v origin = setField a x v origin := by
  have hobject : (Value.ref (.object a)).object? h = some (.record c fields) := ha
  unfold Evaluator.putField
  rw [hobject]

lemma putField_class (ev : Evaluator) (origin : Origin) {h : Heap} {c : String}
    (ha : h.objects[a]? = some (.classRef c)) (hc : ev.program.declares c = true) :
    ev.putField h (.ref (.object a)) x v origin = setStatic c x v origin := by
  have hobject : (Value.ref (.object a)).object? h = some (.classRef c) := ha
  unfold Evaluator.putField
  rw [hobject]
  exact if_pos hc

lemma array?_of_objects (ha : s.heap.objects[a]? = some (.array items)) :
    (Value.ref (.object a)).array? s.heap = some items := by
  have hobject : (Value.ref (.object a)).object? s.heap = some (.array items) := ha
  rw [Value.array?, hobject]

lemma inBounds_of_lt {size : Nat} (hk : k < size) : inBounds size (.int k) s = .ok true s := by
  have hlow : (Num.int k).compare (.int 0) = some .eq ∨
      (Num.int k).compare (.int 0) = some .gt := by
    rcases Nat.eq_zero_or_pos k with rfl | hpos
    · exact .inl rfl
    · exact .inr (congrArg some (compare_gt_iff_gt.mpr (by omega)))
  have hhigh : (Num.int k).compare (.int size) = some .lt :=
    congrArg some (compare_lt_iff_lt.mpr (by omega))
  have hnum : (Value.int k).num? = some (.int k) := rfl
  unfold inBounds
  rw [hnum]
  dsimp only
  rw [hhigh]
  rcases hlow with h | h
  · rw [h]
    rfl
  · rw [h]
    rfl

lemma checkedPosition_of_lt {size : Nat} (hk : k < size) (outside : StoreM Unit) :
    checkedPosition size (.int k) outside s = .ok k s := by
  unfold checkedPosition
  rw [bind_of_ok (inBounds_of_lt hk)]
  rfl

lemma elementPosition_of_lt (ha : s.heap.objects[a]? = some (.array items)) (hk : k < items.size) :
    elementPosition (.ref (.object a)) (.int k) s = .ok k s := by
  have hsize : sizeOf? s.heap (.ref (.object a)) = some items.size := by
    unfold sizeOf?
    rw [array?_of_objects ha]
    rfl
  show EStateM.bind (orRaise .wrongKind (sizeOf? s.heap (.ref (.object a)))) _ s = _
  rw [hsize]
  exact checkedPosition_of_lt hk _

lemma elementAt_of_lt (ha : s.heap.objects[a]? = some (.array items)) (hk : items[k]? = some v) :
    elementAt (.ref (.object a)) (.int k) s = .ok v s := by
  have hlt := (Array.getElem?_eq_some_iff.mp hk).1
  unfold elementAt
  rw [bind_of_ok (elementPosition_of_lt ha hlt), heap_bind, array?_of_objects ha]
  show orRaise .badIndex items[k]? s = _
  rw [hk]
  rfl

lemma setElement_put (ha : st.heap.objects[a]? = some (.array items)) (hk : k < items.size)
    (v : Value) (origin : Origin) :
    (liftM (setElement (.ref (.object a)) (.int k) v) : Exec Unit) st =
      .ok () (st.put v origin (.element a k)) := by
  have hset : setElement (.ref (.object a)) (.int k) v st.toStore =
      store a (.array (items.setIfInBounds k v)) st.toStore := by
    unfold setElement
    rw [bind_of_ok (elementPosition_of_lt ha hk), heap_bind, array?_of_objects ha]
  rw [liftM_apply, hset]
  simp only [State.put, ha]
  rfl

end

def Object.isRecord : Object → Bool
  | .record .. => true
  | _ => false

namespace Store

def extend (s : Store) (more : Array Object) (numbers : Array Number.Planar := #[]) : Store :=
  { s with heap := { s.heap with
      objects := s.heap.objects ++ more
      complexes := s.heap.complexes ++ numbers } }

/-- The same store, except for new objects, which have no fields. -/
def Grown (s t : Store) : Prop :=
  ∃ more numbers, (∀ o ∈ more, o.isRecord = false) ∧ t = s.extend more numbers

namespace Grown

variable {s t u : Store}

lemma refl (s : Store) : s.Grown s :=
  ⟨#[], #[], by simp, by simp [extend]⟩

lemma trans (h : s.Grown t) (h' : t.Grown u) : s.Grown u := by
  obtain ⟨more, numbers, hmore, rfl⟩ := h
  obtain ⟨rest, others, hrest, rfl⟩ := h'
  refine ⟨more ++ rest, numbers ++ others, fun o ho => ?_, ?_⟩
  · exact (Array.mem_append.mp ho).elim (hmore o) (hrest o)
  · simp [extend, Array.append_assoc]

lemma push (s : Store) {o : Object} (ho : o.isRecord = false) :
    s.Grown { s with heap := { s.heap with objects := s.heap.objects.push o } } :=
  ⟨#[o], #[], by simpa using ho, by rw [extend, Array.append_singleton, Array.append_empty]⟩

lemma pushPlanar (s : Store) (z : Number.Planar) :
    s.Grown { s with heap := { s.heap with complexes := s.heap.complexes.push z } } :=
  ⟨#[], #[z], by simp, by rw [extend, Array.append_singleton, Array.append_empty]⟩

lemma objects (h : s.Grown t) {i : Nat} {o : Object} (ho : s.heap.objects[i]? = some o) :
    t.heap.objects[i]? = some o := by
  obtain ⟨more, numbers, -, rfl⟩ := h
  show (s.heap.objects ++ more)[i]? = some o
  rw [Array.getElem?_append_left (Array.getElem?_eq_some_iff.mp ho).1, ho]

lemma fields (h : s.Grown t) (a : Nat) : t.fields a = s.fields a := by
  obtain ⟨more, numbers, hmore, rfl⟩ := h
  show (match (s.heap.objects ++ more)[a]? with
    | some (.record _ fields) => fields
    | _ => []) = match s.heap.objects[a]? with
    | some (.record _ fields) => fields
    | _ => []
  by_cases ha : a < s.heap.objects.size
  · rw [Array.getElem?_append_left ha]
  · rw [Array.getElem?_append, if_neg ha, Array.getElem?_eq_none (Nat.not_lt.mp ha)]
    split
    · rename_i c fields hrecord
      cases hmore _ (Array.mem_of_getElem? hrecord)
    · rfl

lemma statics (h : s.Grown t) : t.statics = s.statics := by
  obtain ⟨more, numbers, -, rfl⟩ := h
  rfl

end Grown

end Store

lemma alloc_apply (o : Object) (s : Store) :
    alloc o s = .ok (.ref (.object s.heap.objects.size)) (s.extend #[o]) := by
  rw [Store.extend, Array.append_singleton, Array.append_empty]
  rfl

namespace State

/-- The same state, except for new objects, which have no fields. -/
def Grown (st u : State) : Prop := ∃ t, st.toStore.Grown t ∧ u = { st with toStore := t }

namespace Grown

variable {st u w : State} {v old : Value} {s : Slot}

lemma refl (st : State) : st.Grown st := ⟨st.toStore, .refl _, rfl⟩

lemma trans (h : st.Grown u) (h' : u.Grown w) : st.Grown w := by
  obtain ⟨t, ht, rfl⟩ := h
  obtain ⟨t', ht', rfl⟩ := h'
  exact ⟨t', ht.trans ht', rfl⟩

lemma toStore (h : st.Grown u) : st.toStore.Grown u.toStore := by
  obtain ⟨t, ht, rfl⟩ := h
  exact ht

lemma objects (h : st.Grown u) {i : Nat} {o : Object} (ho : st.heap.objects[i]? = some o) :
    u.heap.objects[i]? = some o := by
  obtain ⟨t, ht, rfl⟩ := h
  exact ht.objects ho

lemma frame (h : st.Grown u) : u.frame = st.frame := by
  obtain ⟨t, -, rfl⟩ := h
  rfl

lemma resolve (h : st.Grown u) (x : String) : u.resolve x = st.resolve x := by
  obtain ⟨t, ht, rfl⟩ := h
  unfold State.resolve
  simp only [ht.fields, Store.statics?, ht.statics]
  rfl

lemma valueOf (h : st.Grown u) (x : String) (b : Binding) : u.valueOf x b = st.valueOf x b := by
  obtain ⟨t, ht, rfl⟩ := h
  cases b with
  | scope d => rfl
  | field a => exact congrArg (Bindings.lookup · x) (ht.fields a)
  | static c => simp only [State.valueOf, Store.statics?, ht.statics]

lemma content? (h : st.Grown u) (x : String) : u.content? x = st.content? x := by
  rw [State.content?, State.content?, h.resolve]
  exact congrArg _ (funext fun b => h.valueOf x b)

lemma slot? (h : st.Grown u) (hs : st.slot? s = some v) : u.slot? s = some v := by
  cases s with
  | bound b name => exact (h.valueOf name b).trans hs
  | element a i =>
    obtain ⟨items, harray, hi⟩ := slot?_element.mp hs
    exact slot?_element.mpr ⟨items, h.objects harray, hi⟩

lemma withObject (h : st.Grown u) {i : Nat} (hi : i < st.heap.objects.size) (o : Object) :
    (st.withObject i o).Grown (u.withObject i o) := by
  obtain ⟨_, ⟨more, numbers, hmore, rfl⟩, rfl⟩ := h
  refine ⟨_, ⟨more, numbers, hmore, rfl⟩, ?_⟩
  simp only [State.withObject, Store.extend, Array.setIfInBounds_append_left hi]

lemma put (h : st.Grown u) (hs : st.slot? s = some old) (v : Value) (origin : Origin) :
    (st.put v origin s).Grown (u.put v origin s) := by
  cases s with
  | element a i =>
    obtain ⟨items, harray, -⟩ := slot?_element.mp hs
    simp only [State.put, harray, h.objects harray]
    exact h.withObject (Array.getElem?_eq_some_iff.mp harray).1 _
  | bound b name =>
    cases b with
    | field a =>
      obtain ⟨c, fields, hrecord, -⟩ := slot?_field.mp hs
      simp only [State.put, hrecord, h.objects hrecord]
      exact h.withObject (Array.getElem?_eq_some_iff.mp hrecord).1 _
    | scope d =>
      obtain ⟨t, ht, rfl⟩ := h
      exact ⟨t, ht, rfl⟩
    | static c =>
      obtain ⟨_, ⟨more, numbers, hmore, rfl⟩, rfl⟩ := h
      exact ⟨_, ⟨more, numbers, hmore, rfl⟩, rfl⟩

end Grown

end State

class Creating (c : StoreM α) : Prop where
  grown : ∀ s a t, c s = .ok a t → s.Grown t

namespace Creating

instance (e : RunError) : Looking (fail e : StoreM α) := Looking.instThrow _

instance (f : Fault) : Looking (raise f : StoreM α) := Looking.instThrow _

instance instLooking {c : StoreM α} [hc : Looking c] : Creating c :=
  ⟨fun s a t h => hc.eq s a t h ▸ .refl s⟩

instance instBind {c : StoreM α} {f : α → StoreM β} [hc : Creating c]
    [hf : ∀ a, Creating (f a)] : Creating (c >>= f) where
  grown s b t h := by
    change EStateM.bind c f s = .ok b t at h
    unfold EStateM.bind at h
    cases hs : c s with
    | ok a s' =>
      rw [hs] at h
      exact (hc.grown s a s' hs).trans ((hf a).grown s' b t h)
    | error e s' =>
      rw [hs] at h
      cases h

instance instIte {p : Prop} [Decidable p] {c d : StoreM α} [Creating c] [Creating d] :
    Creating (if p then c else d) := by
  split <;> infer_instance

instance instThrowException (name : String) (message : Option String) :
    Creating (throwException name message : StoreM α) :=
  ⟨fun _ _ _ h => by cases h⟩

instance instNullPointer : Creating (nullPointer : StoreM α) := instThrowException _ _

lemma alloc {o : Object} (ho : o.isRecord = false) : Creating (alloc o) where
  grown s v t h := by
    cases h
    exact .push s ho

instance instAllocPlanar (z : Number.Planar) : Creating (allocPlanar z) where
  grown s v t h := by
    cases h
    exact .pushPlanar s z

instance (items : Array Value) (count : Int) : Creating (repeatArray items count) :=
  @instBind _ _ _ _ inferInstance fun _ => alloc rfl

instance (a b : Value) : Creating (add a b) := by
  refine @instBind _ _ _ _ inferInstance fun h => @instBind _ _ _ _ inferInstance fun h' => ?_
  split
  · exact alloc rfl
  · infer_instance

instance (a b : Value) : Creating (multiplyItems a b) := by
  refine @instBind _ _ _ _ inferInstance fun h => ?_
  split <;> infer_instance

instance (a b : Value) : Creating (multiply a b) := by
  unfold multiply
  split <;> infer_instance

instance (onInt : Int → Int → Int) (onFloat : Value → Value → Except Fault Value) (a b : Value) :
    Creating (divide onInt onFloat a b) := by
  unfold divide
  split <;> infer_instance

instance (c : Comparison) (a b : Value) : Looking (compareOperands c a b) := by
  unfold compareOperands compareValues
  infer_instance

instance (op : BinaryOp) (a b : Value) : Creating (applyReal op a b) := by
  unfold applyReal
  split <;> infer_instance

instance (z w : Number.Planar) : Creating (dividePlanar z w) := by
  unfold dividePlanar
  split <;> infer_instance

lemma planarOperator? {op : BinaryOp} {f : Number.Planar → Number.Planar → StoreM Value}
    (h : planarOperator? op = some f) (z w : Number.Planar) : Creating (f z w) := by
  unfold Machine.planarOperator? at h
  split at h
  all_goals cases h
  all_goals infer_instance

instance (op : BinaryOp) (a b : Value) : Creating (applyStrict op a b) := by
  refine @instBind _ _ _ _ inferInstance fun h => ?_
  split
  · exact @instBind _ _ _ _ inferInstance fun operands => planarOperator? ‹_› _ _
  · infer_instance

instance (op : BinaryOp) (a b : Value) : Creating (applyWidened op a b) := by
  unfold applyWidened
  infer_instance

instance (op : BinaryOp) (a b : Value) : Creating (applyBinary op a b) := by
  unfold applyBinary
  split <;> infer_instance

instance (up : Bool) (v : Value) : Creating (step up v) := by
  refine @instBind _ _ _ _ inferInstance fun h => ?_
  split <;> infer_instance

end Creating

end LoopLowering.Machine
