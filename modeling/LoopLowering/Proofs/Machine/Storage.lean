import LoopLowering.Machine.Run
import Mathlib.Data.Set.Insert
import Mathlib.Order.Basic
import Mathlib.Tactic.Common

/-! What happens to objects while code runs. Objects are never taken away and keep their kind: an
array keeps its length and an immutable list its elements. Texts are only added to what was
printed. A method of a value changes no object but this one, and no field of any object. -/

namespace LoopLowering.Machine

variable {α β : Type}

structure Access where
  objects : Set Nat
  fields : Prop

namespace Access

abbrev everyObject (fields : Prop) : Access := ⟨Set.univ, fields⟩

abbrev all : Access := .everyObject True

abbrev values : Access := .everyObject False

end Access

inductive Object.Becomes (free : Access) : Object → Object → Prop
  | same (o : Object) : Becomes free o o
  | array {xs ys : Array Value} (h : ys.size = xs.size) : Becomes free (.array xs) (.array ys)
  | list (xs ys : Array Value) : Becomes free (.list xs false) (.list ys false)
  | builder (s t : String) : Becomes free (.builder s) (.builder t)
  | record (h : free.fields) (className : String) (fs gs : Bindings) :
    Becomes free (.record className fs) (.record className gs)

lemma Object.Becomes.trans {free : Access} {a b c : Object} (h : a.Becomes free b)
    (h' : b.Becomes free c) : a.Becomes free c := by
  cases h with
  | same => exact h'
  | array h =>
    cases h' with
    | same => exact .array h
    | array h' => exact .array (h'.trans h)
  | list xs ys => cases h' <;> exact .list ..
  | builder s t => cases h' <;> exact .builder ..
  | record h c fs gs => cases h' <;> exact .record h ..

class Object.Fresh (o : Object) : Prop where
  fields_eq_nil : ∀ c fs, o = .record c fs → fs = []

namespace Object.Fresh

instance (xs : Array Value) : Fresh (.array xs) where
  fields_eq_nil _ _ h := by cases h

instance (xs : Array Value) (immutable : Bool) : Fresh (.list xs immutable) where
  fields_eq_nil _ _ h := by cases h

instance (text : String) : Fresh (.builder text) where
  fields_eq_nil _ _ h := by cases h

instance (name : String) (message : Option String) : Fresh (.exception name message) where
  fields_eq_nil _ _ h := by cases h

instance (className : String) : Fresh (.record className []) where
  fields_eq_nil _ _ h := by
    cases h
    rfl

instance (name : String) : Fresh (.classRef name) where
  fields_eq_nil _ _ h := by cases h

instance (toErrors : Bool) : Fresh (.stream toErrors) where
  fields_eq_nil _ _ h := by cases h

end Object.Fresh

def Continues (s t : String) : Prop := ∃ more, t = s ++ more

namespace Continues

lemma refl (s : String) : Continues s s := ⟨"", by simp⟩

lemma trans {s t u : String} (h : Continues s t) (h' : Continues t u) : Continues s u := by
  obtain ⟨a, rfl⟩ := h
  obtain ⟨b, rfl⟩ := h'
  exact ⟨a ++ b, by rw [String.append_assoc]⟩

end Continues

structure Store.After (free : Access) (s t : Store) : Prop where
  objects (i : Nat) (o : Object) (h : s.heap.objects[i]? = some o) :
    ∃ p, t.heap.objects[i]? = some p ∧ o.Becomes free p ∧ (i ∉ free.objects → p = o)
  records (hfree : ¬ free.fields) (i : Nat) (c : String) (fs : Bindings)
    (h : t.heap.objects[i]? = some (.record c fs)) :
    fs = [] ∨ s.heap.objects[i]? = some (.record c fs)
  statics (hfree : ¬ free.fields) : t.statics = s.statics
  out : Continues s.out t.out
  err : Continues s.err t.err

namespace Store

variable {free : Access} {s t u : Store}

namespace After

lemma of_eq (hobjects : t.heap.objects = s.heap.objects) (hstatics : t.statics = s.statics)
    (hout : t.out = s.out) (herr : t.err = s.err) : After free s t where
  objects _ o h := ⟨o, hobjects ▸ h, .same o, fun _ => rfl⟩
  records _ _ _ _ h := .inr (hobjects ▸ h)
  statics _ := hstatics
  out := hout ▸ .refl _
  err := herr ▸ .refl _

lemma refl (s : Store) : After free s s := of_eq rfl rfl rfl rfl

lemma trans (h : After free s t) (h' : After free t u) : After free s u where
  objects i o ho := by
    obtain ⟨p, hp, hop, hfp⟩ := h.objects i o ho
    obtain ⟨q, hq, hpq, hfq⟩ := h'.objects i p hp
    exact ⟨q, hq, hop.trans hpq, fun hi => (hfq hi).trans (hfp hi)⟩
  records hfree i c fs hi := (h'.records hfree i c fs hi).elim .inl (h.records hfree i c fs)
  statics hfree := (h'.statics hfree).trans (h.statics hfree)
  out := h.out.trans h'.out
  err := h.err.trans h'.err

lemma push (s : Store) (o : Object) [ho : o.Fresh] :
    After free s { s with heap := { s.heap with objects := s.heap.objects.push o } } where
  objects i p hp := by
    obtain ⟨hlt, -⟩ := Array.getElem?_eq_some_iff.mp hp
    refine ⟨p, ?_, .same p, fun _ => rfl⟩
    rw [Array.getElem?_push_lt hlt, ← hp, Array.getElem?_eq_getElem hlt]
  records _ i c fs hi := by
    rw [Array.getElem?_push] at hi
    split at hi
    · exact .inl (ho.fields_eq_nil c fs (Option.some.inj hi))
    · exact .inr hi
  statics _ := rfl
  out := .refl _
  err := .refl _

lemma set {i : Nat} {o p : Object} (ho : s.heap.objects[i]? = some o) (hi : i ∈ free.objects)
    (hp : o.Becomes free p) :
    After free s { s with heap := { s.heap with objects := s.heap.objects.setIfInBounds i p } } where
  objects k q hq := by
    by_cases hik : i = k
    · subst hik
      obtain rfl := Option.some.inj (ho.symm.trans hq)
      exact ⟨p, by simp [(Array.getElem?_eq_some_iff.mp ho).1], hp, fun h => absurd hi h⟩
    · exact ⟨q, by simpa [Array.getElem?_setIfInBounds_ne hik] using hq, .same q, fun _ => rfl⟩
  records hfree k c fs hk := by
    by_cases hik : i = k
    · subst hik
      rw [Array.getElem?_setIfInBounds_self_of_lt (Array.getElem?_eq_some_iff.mp ho).1] at hk
      cases hp with
      | same => exact .inr (ho.trans hk)
      | record hfields => exact absurd hfields hfree
      | _ => cases hk
    · exact .inr (by simpa [Array.getElem?_setIfInBounds_ne hik] using hk)
  statics _ := rfl
  out := .refl _
  err := .refl _

end After

instance : Preorder Store where
  le := After .all
  le_refl := .refl
  le_trans _ _ _ := .trans

end Store

def finalStore : EStateM.Result Signal Store α → Store
  | .ok _ st => st
  | .error _ st => st

lemma heap_bind (f : Heap → StoreM α) (st : Store) : (heap >>= f) st = f st.heap st := rfl

def ConfinedFrom (free : Access) (st : Store) (c : StoreM α) : Prop :=
  st.After free (finalStore (c st))

class Confined (free : Access) (c : StoreM α) : Prop where
  confinedFrom : ∀ st, ConfinedFrom free st c

class Looking (c : StoreM α) : Prop where
  eq : ∀ st a st', c st = .ok a st' → st' = st

namespace ConfinedFrom

variable {free : Access} {st : Store}

lemma pure (a : α) : ConfinedFrom free st (pure a) := .refl st

lemma throw (e : Signal) : ConfinedFrom free st (throw e : StoreM α) := .refl st

lemma bind {c : StoreM α} {f : α → StoreM β} (hc : ConfinedFrom free st c)
    (hf : ∀ a t, c st = .ok a t → ConfinedFrom free t (f a)) :
    ConfinedFrom free st (c >>= f) := by
  show st.After free (finalStore (EStateM.bind c f st))
  unfold ConfinedFrom at hc
  unfold EStateM.bind
  cases h : c st with
  | ok a t =>
    rw [h] at hc
    exact hc.trans (hf a t h)
  | error e t =>
    rw [h] at hc
    exact hc

lemma look {c : StoreM α} {f : α → StoreM β} [hl : Looking c] [hc : Confined free c]
    (hf : ∀ a, ConfinedFrom free st (f a)) : ConfinedFrom free st (c >>= f) :=
  (hc.confinedFrom st).bind fun a t h => by
    obtain rfl := hl.eq st a t h
    exact hf a

lemma ofHeap {f : Heap → StoreM α} (h : ConfinedFrom free st (f st.heap)) :
    ConfinedFrom free st (heap >>= f) := h

lemma store {i : Nat} {o p : Object} (ho : st.heap.objects[i]? = some o) (hi : i ∈ free.objects)
    (hp : o.Becomes free p) : ConfinedFrom free st (store i p) := .set ho hi hp

lemma store_return {i : Nat} {o p : Object} (ho : st.heap.objects[i]? = some o) (hi : i ∈ free.objects)
    (hp : o.Becomes free p) (a : α) :
    ConfinedFrom free st (do Machine.store i p; return a : StoreM α) :=
  (store ho hi hp).bind fun _ _ _ => .pure a

end ConfinedFrom

namespace Confined

variable {free : Access}

lemma of_eq {c : StoreM α} (h : ∀ st, finalStore (c st) = st) : Confined free c :=
  ⟨fun st => .of_eq (by rw [h]) (by rw [h]) (by rw [h]) (by rw [h])⟩

instance instPure (a : α) : Confined free (pure a) := ⟨fun _ => .pure a⟩

instance instThrow (e : Signal) : Confined free (throw e : StoreM α) := ⟨fun _ => .throw e⟩

instance instBind {c : StoreM α} {f : α → StoreM β} [hc : Confined free c]
    [hf : ∀ a, Confined free (f a)] : Confined free (c >>= f) :=
  ⟨fun st => (hc.confinedFrom st).bind fun a t _ => (hf a).confinedFrom t⟩

instance instIte {p : Prop} [Decidable p] {c d : StoreM α} [Confined free c] [Confined free d] :
    Confined free (if p then c else d) := by
  split <;> infer_instance

instance instGet : Confined free (get : StoreM Store) := of_eq fun _ => rfl

instance instHeap : Confined free heap :=
  inferInstanceAs (Confined free (get >>= fun st => pure st.heap))

instance instRaise (f : Fault) : Confined free (raise f : StoreM α) := instThrow _

instance instFail (e : RunError) : Confined free (fail e : StoreM α) := instThrow _

instance instFaultless (r : Except Fault α) : Confined free (faultless r) := by
  unfold faultless
  split <;> infer_instance

instance instOrRaise (f : Fault) (a : Option α) : Confined free (orRaise f a) := by
  unfold orRaise
  split <;> infer_instance

instance instFinite (a : Option α) : Confined free (finite a) := by
  unfold finite
  split <;> infer_instance

instance instAllocIndex (o : Object) [o.Fresh] : Confined free (allocIndex o) :=
  ⟨fun st => .push st o⟩

instance instAlloc (o : Object) [o.Fresh] : Confined free (alloc o) := instBind

instance instAllocPlanar (z : Number.Planar) : Confined free (allocPlanar z) :=
  ⟨fun _ => .of_eq rfl rfl rfl rfl⟩

instance instAllocIterator (list : Nat) : Confined free (allocIterator list) :=
  ⟨fun _ => .of_eq rfl rfl rfl rfl⟩

instance instStoreIterator (index : Nat) (c : Cursor) : Confined free (storeIterator index c) :=
  ⟨fun _ => .of_eq rfl rfl rfl rfl⟩

instance instShown (v : Value) : Confined free (shown v) :=
  inferInstanceAs (Confined free (heap >>= fun h => finite (display? h v)))

instance instThrowException (name : String) (message : Option String) :
    Confined free (throwException name message : StoreM α) :=
  @instBind _ _ _ _ _ (instAlloc _) fun _ => instThrow _

instance instNullPointer : Confined free (nullPointer : StoreM α) := instThrowException _ _

instance instPrint (toErrors : Bool) (text : String) : Confined free (print toErrors text) where
  confinedFrom st := by
    cases toErrors with
    | true =>
      exact ⟨fun _ o h => ⟨o, h, .same o, fun _ => rfl⟩, fun _ _ _ _ h => .inr h, fun _ => rfl,
        .refl _, text, rfl⟩
    | false =>
      exact ⟨fun _ o h => ⟨o, h, .same o, fun _ => rfl⟩, fun _ _ _ _ h => .inr h, fun _ => rfl,
        ⟨text, rfl⟩, .refl _⟩

instance instSetStatic (className name : String) (v : Value) (origin : Origin) :
    Confined .all (setStatic className name v origin) where
  confinedFrom _ := ⟨fun _ o h => ⟨o, h, .same o, fun _ => rfl⟩, fun hfree => absurd trivial hfree,
    fun hfree => absurd trivial hfree, .refl _, .refl _⟩

instance instSetField (index : Nat) (name : String) (v : Value) (origin : Origin) :
    Confined .all (setField index name v origin) where
  confinedFrom st := by
    refine .ofHeap ?_
    split
    · rename_i c fields hrecord
      exact .store hrecord (Set.mem_univ _) (.record trivial c _ _)
    · exact .pure _

end Confined

namespace Looking

instance instPure (a : α) : Looking (pure a) := ⟨fun _ _ _ h => by cases h; rfl⟩

instance instThrow (e : Signal) : Looking (throw e : StoreM α) := ⟨fun _ _ _ h => by cases h⟩

instance instHeap : Looking heap := ⟨fun _ _ _ h => by cases h; rfl⟩

instance instBind {c : StoreM α} {f : α → StoreM β} [hc : Looking c] [hf : ∀ a, Looking (f a)] :
    Looking (c >>= f) where
  eq st b t h := by
    change EStateM.bind c f st = .ok b t at h
    unfold EStateM.bind at h
    cases hs : c st with
    | ok a s =>
      rw [hs] at h
      exact ((hf a).eq s b t h).trans (hc.eq st a s hs)
    | error e s =>
      rw [hs] at h
      cases h

instance instIte {p : Prop} [Decidable p] {c d : StoreM α} [Looking c] [Looking d] :
    Looking (if p then c else d) := by
  split <;> infer_instance

instance instFaultless (r : Except Fault α) : Looking (faultless r) := by
  unfold faultless
  split
  · exact instPure _
  · exact instThrow _

instance instOrRaise (f : Fault) (a : Option α) : Looking (orRaise f a) := by
  unfold orRaise
  split
  · exact instPure _
  · exact instThrow _

instance instFinite (a : Option α) : Looking (finite a) := by
  unfold finite
  split
  · exact instPure _
  · exact instThrow _

instance instEqualValues (a b : Value) : Looking (equalValues a b) :=
  inferInstanceAs (Looking (heap >>= fun h => finite (equal? h a b)))

instance instEqualOperands (a b : Value) : Looking (equalOperands a b) := by
  unfold equalOperands
  infer_instance

instance instArgument (args : List Value) (i : Nat) : Looking (argument args i) := instOrRaise _ _

instance instPositionOf (size : Nat) (v : Value) : Looking (positionOf size v) := by
  unfold positionOf
  infer_instance

instance instSearch (args xs : List Value) (i : Nat) : Looking (ListCell.search args xs i) := by
  induction xs generalizing i with
  | nil => exact instPure _
  | cons x xs ih =>
    unfold ListCell.search
    infer_instance

instance instShown (v : Value) : Looking (shown v) := instBind (c := heap)

instance instIndexOf (l : ListCell) (args : List Value) : Looking (l.indexOf args) :=
  instSearch _ _ _

end Looking

section

variable (free : Access)

instance (a b : Value) : Confined free (equalValues a b) :=
  inferInstanceAs (Confined free (heap >>= fun h => finite (equal? h a b)))

instance (a b : Value) : Confined free (equalOperands a b) := by
  unfold equalOperands
  infer_instance

instance (items : Array Value) (count : Int) : Confined free (repeatArray items count) := by
  unfold repeatArray
  infer_instance

instance (a b : Value) : Confined free (add a b) := by
  refine @Confined.instBind _ _ _ _ _ inferInstance fun h =>
    @Confined.instBind _ _ _ _ _ inferInstance fun h' => ?_
  split <;> infer_instance

instance (a b : Value) : Confined free (multiplyItems a b) := by
  refine @Confined.instBind _ _ _ _ _ inferInstance fun h => ?_
  split <;> infer_instance

instance (a b : Value) : Confined free (multiply a b) := by
  unfold multiply
  split <;> infer_instance

instance (onInt : Int → Int → Int) (onFloat : Value → Value → Except Fault Value) (a b : Value) :
    Confined free (divide onInt onFloat a b) := by
  unfold divide
  split <;> infer_instance

instance (c : Comparison) (a b : Value) : Confined free (compareValues c a b) := by
  unfold compareValues
  infer_instance

instance (c : Comparison) (a b : Value) : Confined free (compareOperands c a b) := by
  unfold compareOperands
  infer_instance

instance (op : BinaryOp) (a b : Value) : Confined free (applyReal op a b) := by
  unfold applyReal
  split <;> infer_instance

instance (z w : Number.Planar) : Confined free (dividePlanar z w) := by
  unfold dividePlanar
  infer_instance

lemma planarOperator?_confined {op : BinaryOp} {f : Number.Planar → Number.Planar → StoreM Value}
    (hf : planarOperator? op = some f) (z w : Number.Planar) : Confined free (f z w) := by
  unfold planarOperator? at hf
  split at hf <;> cases hf <;> infer_instance

instance (op : BinaryOp) (a b : Value) : Confined free (applyStrict op a b) := by
  refine @Confined.instBind _ _ _ _ _ inferInstance fun h => ?_
  split
  · rename_i f operands hf _
    have := fun z w => planarOperator?_confined free hf z w
    infer_instance
  · infer_instance

instance (op : BinaryOp) (a b : Value) : Confined free (applyWidened op a b) := by
  unfold applyWidened
  infer_instance

instance (op : BinaryOp) (a b : Value) : Confined free (applyBinary op a b) := by
  unfold applyBinary
  split <;> infer_instance

instance (up : Bool) (v : Value) : Confined free (step up v) := by
  refine @Confined.instBind _ _ _ _ _ inferInstance fun h => ?_
  split <;> infer_instance

instance (op : UnaryOp) (v : Value) : Confined free (applyUnary op v) := by
  unfold applyUnary
  split
  · infer_instance
  · refine @Confined.instBind _ _ _ _ _ inferInstance fun h => ?_
    split <;> infer_instance
  all_goals infer_instance

instance (size : Nat) (v : Value) : Confined free (positionOf size v) := by
  unfold positionOf
  infer_instance

instance (size : Nat) (v : Value) : Confined free (inBounds size v) := by
  unfold inBounds
  split <;> infer_instance

instance (size : Nat) (v : Value) (outside : StoreM Unit) [Confined free outside] :
    Confined free (checkedPosition size v outside) := by
  unfold checkedPosition
  infer_instance

instance (className : String) (size : Nat) (v : Value) : Confined free (outOfBounds className size v) :=
  Confined.instThrowException _ _

instance (args : List Value) (i : Nat) : Confined free (argument args i) := Confined.instOrRaise _ _

namespace ListCell

variable (l : ListCell) (args : List Value)

def At (st : Store) : Prop := st.heap.objects[l.index]? = some (.list l.items l.immutable)

instance (xs : List Value) (i : Nat) : Confined free (search args xs i) := by
  induction xs generalizing i with
  | nil => exact Confined.instPure _
  | cons x xs ih =>
    unfold search
    infer_instance

instance : Confined free (l.indexOf args) :=
  inferInstanceAs (Confined free (search args l.items.toList 0))

instance : Confined free (l.get args) := by
  unfold get
  infer_instance

instance (xs ys : Array Value) : Confined free (sameItems xs ys) :=
  inferInstanceAs (Confined free (heap >>= fun h => finite (sameItems? h xs ys)))

instance : Confined free (l.equals args) := by
  refine @Confined.instBind _ _ _ _ _ inferInstance fun v =>
    @Confined.instBind _ _ _ _ _ inferInstance fun h => ?_
  split <;> infer_instance

section

variable {free l} {st : Store} (hl : l.At st) (hfree : l.index ∈ free.objects)
  (hmutable : l.immutable = false)
include hl hfree hmutable

lemma put_confined (items : Array Value) (v : Value) :
    ConfinedFrom free st (do l.put items; return v : StoreM Value) := by
  refine .store_return hl hfree ?_ v
  rw [hmutable]
  exact .list _ _

lemma add_confined : ConfinedFrom free st (l.add args) := by
  unfold add
  split
  · exact .look fun _ => put_confined hl hfree hmutable _ _
  · exact .look fun _ => put_confined hl hfree hmutable _ _

lemma set_confined : ConfinedFrom free st (l.set args) :=
  .look fun _ => .look fun _ => .look fun _ => .look fun _ => put_confined hl hfree hmutable _ _

lemma removeAt_confined (i : Value) : ConfinedFrom free st (l.removeAt i) :=
  .look fun _ => .look fun _ => .look fun _ => put_confined hl hfree hmutable _ _

lemma remove_confined : ConfinedFrom free st (l.remove args) := by
  refine .look fun v => ?_
  split
  · exact removeAt_confined hl hfree hmutable v
  · refine .look fun r => ?_
    split
    · exact put_confined hl hfree hmutable _ _
    · exact .pure _

end

variable {free l} in
lemma call_confined {st : Store} (hl : l.At st) (hfree : l.index ∈ free.objects) (name : String) :
    ConfinedFrom free st (l.call name args) := by
  unfold call
  dsimp only
  split
  · exact ConfinedFrom.bind (Confined.confinedFrom st) fun _ _ h => by cases h
  · rename_i hguard
    split
    · exact add_confined args hl hfree (by simpa [changes] using hguard)
    · exact Confined.confinedFrom st
    · exact set_confined args hl hfree (by simpa [changes] using hguard)
    · exact Confined.confinedFrom st
    · exact Confined.confinedFrom st
    · exact Confined.confinedFrom st
    · exact Confined.confinedFrom st
    · exact remove_confined args hl hfree (by simpa [changes] using hguard)
    · exact put_confined hl hfree (by simpa [changes] using hguard) _ _
    · exact Confined.confinedFrom st
    · exact Confined.confinedFrom st
    · exact Confined.confinedFrom st
    · exact Confined.confinedFrom st

end ListCell

namespace TextMethod

variable (s : String) (args : List Value)

instance : Confined free (charAt s args) := by
  unfold charAt
  infer_instance

instance : Confined free (equals s args) := by
  unfold equals
  infer_instance

instance : Confined free (equalsIgnoreCase s args) := by
  unfold equalsIgnoreCase
  infer_instance

instance : Confined free (substring s args) := by
  unfold substring
  refine @Confined.instBind _ _ _ _ _ inferInstance fun v =>
    @Confined.instBind _ _ _ _ _ inferInstance fun i => ?_
  split <;> infer_instance

instance : Confined free (occurrence s args) := by
  unfold occurrence
  infer_instance

instance : Confined free (textArgument args) := by
  unfold textArgument
  infer_instance

instance (name : String) : Confined free (call s name args) := by
  unfold call
  split <;> infer_instance

end TextMethod

instance (v : Value) : Confined free (hashCode v) := by
  unfold hashCode
  split
  all_goals try infer_instance
  refine @Confined.instBind _ _ _ _ _ inferInstance fun h => ?_
  split <;> infer_instance

section

variable (v : Value) (index : Nat) (name : String) (args : List Value)

instance : Confined free (callCommon v name args) := by
  have hother : ∀ (m : String) (h : Heap), Confined free (match v.array? h with
      | some _ => fail (.arrayMethod m)
      | none => fail (.unknownMethod m) : StoreM Value) := by
    intro m h
    split <;> infer_instance
  unfold callCommon
  split <;> infer_instance

instance (c : Cursor) : Confined free (callIterator index c name args) := by
  refine @Confined.instBind _ _ _ _ _ inferInstance fun h => ?_
  dsimp only
  split
  · infer_instance
  · split <;> infer_instance
  · infer_instance

instance (toErrors : Bool) : Confined free (callStream index toErrors name args) := by
  unfold callStream
  dsimp only
  split
  all_goals
    refine @Confined.instBind _ _ _ _ _ inferInstance fun text => ?_
    split <;> infer_instance

instance (message : Option String) : Confined free (callException index message name args) := by
  unfold callException
  split <;> infer_instance

variable {free index} {st : Store}

lemma callBuilder_confined {text : String} (h : st.heap.objects[index]? = some (.builder text))
    (hfree : index ∈ free.objects) : ConfinedFrom free st (callBuilder index text name args) := by
  unfold callBuilder
  split
  · refine .look fun _ => .look fun added => ?_
    exact .store_return h hfree (.builder _ _) _
  · exact Confined.confinedFrom st
  · exact Confined.confinedFrom st
  · exact .store_return h hfree (.builder _ _) _
  · exact Confined.confinedFrom st
  · exact Confined.confinedFrom st

lemma callObject_confined {o : Object} (h : st.heap.objects[index]? = some o)
    (hfree : index ∈ free.objects) : ConfinedFrom free st (callObject index o name args) := by
  unfold callObject
  split
  · rename_i items immutable
    exact ListCell.call_confined (l := ⟨index, items, immutable⟩) args h hfree name
  · exact callBuilder_confined name args h hfree
  · exact Confined.confinedFrom st
  · exact Confined.confinedFrom st
  · exact Confined.confinedFrom st

lemma callMethod_confined {v : Value} (hfree : ∀ i, v = .ref (.object i) → i ∈ free.objects) :
    Confined free (callMethod v name args) where
  confinedFrom st := by
    unfold callMethod
    split
    · exact Confined.confinedFrom st
    · rename_i i
      refine .ofHeap ?_
      split
      · rename_i o ho
        exact callObject_confined name args ho (hfree i rfl)
      · exact Confined.confinedFrom st
    · refine .ofHeap ?_
      split
      · exact Confined.confinedFrom st
      · exact Confined.confinedFrom st
    · exact Confined.confinedFrom st

instance (p : Prop) : Confined (.everyObject p) (callMethod v name args) :=
  callMethod_confined name args fun i _ => Set.mem_univ i

variable (free)

instance (immutable : Bool) : Confined free (listOf immutable args) := by
  unfold listOf
  infer_instance

instance (c : Comparison) : Confined free (choose c args) := by
  unfold choose
  infer_instance

instance (base : Float) : Confined free (raiseTo base v) := by
  refine @Confined.instBind _ _ _ _ _ inferInstance fun h => ?_
  split
  · infer_instance
  · refine @Confined.instBind _ _ _ _ _ inferInstance fun r => ?_
    split <;> infer_instance

instance : Confined free (powerOf args) := by
  unfold powerOf
  infer_instance

instance : Confined free (parseInteger args) := by
  refine @Confined.instBind _ _ _ _ _ inferInstance fun v => ?_
  split <;> infer_instance

instance (p : Char → Bool) : Confined free (allOf p args) := by
  unfold allOf
  infer_instance

instance (p : Prop) : Confined (.everyObject p) (equalObjects args) := by
  unfold equalObjects
  infer_instance

instance (className : String) : Confined free (libraryField className name) := by
  unfold libraryField
  split <;> infer_instance

instance (p : Prop) (className : String) :
    Confined (.everyObject p) (libraryCall className name args) := by
  unfold libraryCall
  split <;> infer_instance

end

section

variable (type : Node) (v a b : Value) (args : List Value)

instance : Confined free (coerceTo type v) := Confined.instFaultless _

instance : Confined free (collect args) := by
  refine @Confined.instBind _ _ _ _ _ inferInstance fun h => ?_
  split <;> infer_instance

instance (typeName : String) : Confined free (createLibrary typeName args) := by
  have hexception : Confined free (match args with
      | [] => alloc (.exception (simpleName typeName) none)
      | v :: _ => do alloc (.exception (simpleName typeName) (some (← shown v)))) := by
    split <;> infer_instance
  unfold createLibrary
  infer_instance

instance : Confined free (elementPosition a b) := by
  unfold elementPosition
  infer_instance

instance : Confined free (elementAt a b) := by
  refine @Confined.instBind _ _ _ _ _ inferInstance fun p =>
    @Confined.instBind _ _ _ _ _ inferInstance fun h => ?_
  split <;> infer_instance

variable {free} in
lemma setElement_confined {a : Value} (hfree : ∀ i, a = .ref (.object i) → i ∈ free.objects) :
    Confined free (setElement a b v) where
  confinedFrom st := by
    refine (Confined.confinedFrom st).bind fun p t _ => .ofHeap ?_
    split
    · rename_i i items _ hitems
      exact .store (Value.objects_of_array? hitems) (hfree i rfl) (.array (by simp))
    · exact Confined.confinedFrom t

instance (p : Prop) : Confined (.everyObject p) (setElement a b v) :=
  setElement_confined v b fun i _ => Set.mem_univ i

instance : Confined free (extent v) := by
  unfold extent
  infer_instance

instance (make : StoreM Value) [Confined free make] (n : Nat) : Confined free (times make n) := by
  induction n with
  | zero => exact Confined.instPure _
  | succ n ih =>
    unfold times
    infer_instance

instance (element : StoreM Value) [Confined free element] (ds : List Value) :
    Confined free (newArray element ds) := by
  induction ds with
  | nil => exact Confined.instRaise _
  | cons d ds ih =>
    cases ds with
    | nil =>
      unfold newArray
      infer_instance
    | cons =>
      unfold newArray
      infer_instance

end

namespace Evaluator

variable (ev : Evaluator) (className name : String) (type : Node) (v t : Value)

instance : Confined free (staticField className name) := by
  refine @Confined.instBind _ _ _ _ _ inferInstance fun st => ?_
  split <;> infer_instance

instance : Confined free (fieldOf v name) := by
  refine @Confined.instBind _ _ _ _ _ inferInstance fun h => ?_
  split
  · infer_instance
  · split <;> infer_instance
  · infer_instance
  · infer_instance

instance (extraDims : Nat) : Confined free (emptyElement extraDims type) := by
  unfold emptyElement
  infer_instance

instance (h : Heap) (origin : Origin) : Confined .all (ev.putField h t name v origin) := by
  unfold putField
  split <;> infer_instance

instance (dims : Nat) : Confined free (variableType type dims) := by
  have hdims : Confined free (match type.shape with
      | .typeRef name d _ => return .ok ⟨name, d + dims⟩
      | _ => raise .noSuchPart : StoreM (Except Fault TypeInfo)) := by
    split <;> infer_instance
  unfold variableType
  infer_instance

instance : Confined free (elements v) := by
  refine @Confined.instBind _ _ _ _ _ inferInstance fun h => ?_
  split <;> infer_instance

instance (n : Node) : Confined free (loopVariable n) := by
  unfold loopVariable
  split <;> infer_instance

instance (types : List Node) : Confined free (anyCatches v types) := by
  induction types with
  | nil => exact Confined.instPure _
  | cons t ts ih =>
    unfold anyCatches
    infer_instance

instance (r : Routine) (args : Option (List Value)) : Confined free (entryArguments r args) := by
  unfold entryArguments
  split <;> infer_instance

end Evaluator

end

end LoopLowering.Machine
