import LoopLowering.Proofs.Machine.Limit

/-! What stays as it was made. The main statement says that from any state of a run on, immutable
lists keep their elements and arrays their lengths, because no two objects share what they hold: an
operation on a list or array changes this one alone, and a new object changes none. -/

namespace LoopLowering.Machine

variable {α : Type}

namespace Store

variable {free : Access} {s t : Store}

/-- What is kept in a later store. -/
structure Retains (s t : Store) : Prop where
  list {i : Nat} {items : Array Value} (h : s.heap.objects[i]? = some (.list items true)) :
    t.heap.objects[i]? = some (.list items true)
  array {i : Nat} {items : Array Value} (h : s.heap.objects[i]? = some (.array items)) :
    ∃ later, t.heap.objects[i]? = some (.array later) ∧ later.size = items.size

lemma After.retains (h : s.After free t) : s.Retains t where
  list {i items} hi := by
    obtain ⟨p, hp, hbecomes, -⟩ := h.objects i _ hi
    cases hbecomes with
    | same => exact hp
  array {i items} hi := by
    obtain ⟨p, hp, hbecomes, -⟩ := h.objects i _ hi
    cases hbecomes with
    | same => exact ⟨items, hp, rfl⟩
    | array hsize => exact ⟨_, hp, hsize⟩

/-- The objects other than some are the same. -/
def Unchanged (but : Value) (s t : Store) : Prop :=
  ∀ (i : Nat) (o : Object), but ≠ .ref (.object i) → s.heap.objects[i]? = some o →
    t.heap.objects[i]? = some o

def referent (v : Value) : Access := ⟨{i | v = .ref (.object i)}, False⟩

lemma After.unchanged {but : Value} (h : s.After (referent but) t) : s.Unchanged but t := by
  intro i o hi ho
  obtain ⟨p, hp, -, hsame⟩ := h.objects i o ho
  rw [hp, hsame hi]

end Store

lemma retains_finalState (c : Exec α) [hc : Steady c] (st : State) :
    st.toStore.Retains (finalState (c st)).toStore := (hc.trace_le st).2.2.retains

/-- The elements of a list that is made of arguments. -/
def givenItems (h : Heap) : List Value → Array Value
  | [v] => (v.array? h).getD #[v]
  | args => args.toArray

lemma listOf_eq (immutable : Bool) (args : List Value) (st : Store) : listOf immutable args st =
    .ok (.ref (.object st.heap.objects.size)) { st with heap := { st.heap with
      objects := st.heap.objects.push (.list (givenItems st.heap args) immutable) } } := by
  cases args with
  | nil => rfl
  | cons v vs => cases vs <;> rfl

lemma libraryCall_listOf (args : List Value) (st : Store) : ∃ t,
    libraryCall "List" "of" args st = .ok (.ref (.object st.heap.objects.size)) t ∧
      t.heap.objects[st.heap.objects.size]? = some (.list (givenItems st.heap args) true) :=
  ⟨_, listOf_eq true args st, by simp⟩

lemma unchanged_of_confined {but : Value} (c : StoreM α)
    [hc : Confined (Store.referent but) c] (st : Store) :
    st.Unchanged but (finalStore (c st)) := (hc.confinedFrom st).unchanged

def Object.isFixedList : Object → Bool
  | .list _ immutable => immutable
  | _ => false

def Object.isArray : Object → Bool
  | .array _ => true
  | _ => false

/-- Immutable lists keep their elements and arrays their lengths, from every state on while any code
runs, and from the end of a run that is cut short to the end of a longer one. A list that `List.of`
makes is new and holds the arguments. A method of a value changes no object but this one, an
assignment to an element none but this array, and new lists and arrays change none. -/
theorem storage_retained (p : Program) (method : String) (className : Option String)
    {limit more : Int} (h : limit ≤ more) :
    (∀ depth e (st : State), st.toStore.Retains
      (finalState ((evaluatorAt p limit depth).eval e st)).toStore) ∧
    (∀ depth labels s (st : State), st.toStore.Retains
      (finalState ((evaluatorAt p limit depth).exec labels s st)).toStore) ∧
    (Setup.execute ⟨p, limit⟩ method className).state.toStore.Retains
      (Setup.execute ⟨p, more⟩ method className).state.toStore ∧
    (∀ args st, ∃ t, libraryCall "List" "of" args st = .ok (.ref (.object st.heap.objects.size)) t ∧
      t.heap.objects[st.heap.objects.size]? = some (.list (givenItems st.heap args) true)) ∧
    (∀ v name args (st : Store), st.Unchanged v (finalStore (callMethod v name args st))) ∧
    (∀ target index v (st : Store), st.Unchanged target (finalStore (setElement target index v st))) ∧
    ∀ st : Store,
      (∀ immutable args, st.Unchanged .null (finalStore (listOf immutable args st))) ∧
      (∀ typeName args, st.Unchanged .null (finalStore (createLibrary typeName args st))) ∧
      (∀ args, st.Unchanged .null (finalStore (collect args st))) ∧
      ∀ type dims sizes,
        st.Unchanged .null (finalStore (newArray (Evaluator.emptyElement dims type) sizes st)) := by
  refine ⟨fun depth e st => retains_finalState _ st, fun depth labels s st => retains_finalState _ st,
    ?_, libraryCall_listOf, fun v name args st => ?_, fun target index v st => ?_, fun st =>
    ⟨fun _ _ => unchanged_of_confined _ st, fun _ _ => unchanged_of_confined _ st,
      fun _ => unchanged_of_confined _ st, fun _ _ _ => unchanged_of_confined _ st⟩⟩
  · exact (Setup.execute_le p method className h).retains
  · have : Confined (Store.referent v) (callMethod v name args) :=
      callMethod_confined name args fun _ hi => hi
    exact unchanged_of_confined _ st
  · have : Confined (Store.referent target) (setElement target index v) :=
      setElement_confined v index fun _ hi => hi
    exact unchanged_of_confined _ st

def copyingLoop : Program.Sample fun p =>
    let objects := (Setup.execute ⟨p, 20⟩ "main" none).state.heap.objects
    objects[1]?.any Object.isFixedList && objects[2]?.any Object.isArray where
  text := "class A { static void main() { List x = List.of(7, 8); int[] a = new int[3]; List y = new ArrayList(x); while (true) { y.add(9); a[0]++; } } }"
  passes := by decide +kernel

theorem storage_retained_copied : ∃ p, Program.ofText?
      "class A { static void main() { List x = List.of(7, 8); int[] a = new int[3]; List y = new ArrayList(x); while (true) { y.add(9); a[0]++; } } }" =
        some p ∧
    (20 : Int) ≤ 60 ∧ ∃ items elements,
      (Setup.execute ⟨p, 20⟩ "main" none).state.heap.objects[1]? = some (.list items true) ∧
      (Setup.execute ⟨p, 60⟩ "main" none).state.heap.objects[1]? = some (.list items true) ∧
      (Setup.execute ⟨p, 20⟩ "main" none).state.heap.objects[2]? = some (.array elements) ∧
      ∃ later, (Setup.execute ⟨p, 60⟩ "main" none).state.heap.objects[2]? = some (.array later) ∧
        later.size = elements.size := by
  obtain ⟨p, hp, hrun⟩ := copyingLoop.exists_program
  obtain ⟨hlist, harray⟩ := Bool.and_eq_true_iff.mp hrun
  have hkept := (storage_retained p "main" none (by decide : (20 : Int) ≤ 60)).2.2.1
  obtain ⟨o, ho, hfixed⟩ := (Option.any_eq_true _ _).mp hlist
  obtain ⟨a, ha, harray⟩ := (Option.any_eq_true _ _).mp harray
  cases o with
  | list items immutable =>
    obtain rfl : immutable = true := hfixed
    cases a with
    | array elements =>
      exact ⟨p, hp, by decide, items, elements, ho, hkept.list ho, ha, hkept.array ha⟩
    | _ => cases harray
  | _ => cases hfixed

end LoopLowering.Machine
