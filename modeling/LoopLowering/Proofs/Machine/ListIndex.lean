import LoopLowering.Proofs.Machine.Catching
import LoopLowering.Proofs.Machine.Dispatch

/-! Calls on lists that take an index. Within the list each of them acts on the position of its
index alone. Outside only reading throws an exception: replacing and removing take an index below
zero from the end and fail elsewhere, and adding moves its index into the list. -/

namespace LoopLowering.Machine

inductive IndexedCall where
  | get
  | set (v : Value)
  | remove
  | add (v : Value)

inductive Reach where
  | acts (position : Nat)
  | throws
  | fails (f : Fault)
  deriving DecidableEq, Repr

def reachFromEnd (size : Nat) (i : Int) : Reach :=
  if 0 ≤ i ∧ i < size then .acts i.toNat
  else if i < 0 ∧ 0 ≤ i + size then .acts (i + size).toNat
  else .fails .badIndex

def IsWord (i : Int) : Prop := -(Number.twoTo 63 : Int) ≤ i ∧ i < Number.twoTo 63

instance (i : Int) : Decidable (IsWord i) := inferInstanceAs (Decidable (_ ∧ _))

def indexException : String := "IndexOutOfBoundsException"

def indexMessage (size : Nat) (i : Int) : String :=
  "Index " ++ (Value.int i).plain ++ " out of bounds for length " ++ toString size

namespace IndexedCall

def method : IndexedCall → String
  | get => "get"
  | set _ => "set"
  | remove => "remove"
  | add _ => "add"

def arguments (i : Int) : IndexedCall → List Value
  | get | remove => [.int i]
  | set v | add v => [.int i, v]

/-- The elements after a call on a position, the others in their order. -/
def edited (items : Array Value) (k : Nat) : IndexedCall → Array Value
  | get => items
  | set v => (items.toList.take k ++ v :: items.toList.drop (k + 1)).toArray
  | remove => (items.toList.take k ++ items.toList.drop (k + 1)).toArray
  | add v => (items.toList.take k ++ v :: items.toList.drop k).toArray

/-- The value of a call on a position: the element that stood there, or that something was added. -/
def answer (items : Array Value) (k : Nat) : IndexedCall → Value
  | get | set _ | remove => items[k]?.getD .null
  | add _ => .bool true

/-- The number of positions on which the call may act; adding may also act on the end. -/
def positions (size : Nat) : IndexedCall → Nat
  | get | set _ | remove => size
  | add _ => size + 1

def reach (size : Nat) (i : Int) : IndexedCall → Reach
  | get => if 0 ≤ i ∧ i < size then .acts i.toNat else .throws
  | set _ => reachFromEnd size i
  | remove => if IsWord i then reachFromEnd size i else .fails .overflow
  | add _ => if IsWord i then .acts (clamp size i) else .fails .overflow

/-- How the call on a list ends. -/
def ending (c : IndexedCall) (i : Int) (a : Nat) (items : Array Value) (st : State) :
    EStateM.Result Signal State Value :=
  match c.reach items.size i with
  | .acts k => .ok (c.answer items k) (st.withObject a (.list (c.edited items k) false))
  | .throws =>
    .error (.thrown (.ref (.object st.heap.objects.size)))
      { st with
        toStore := st.toStore.extend
          #[.exception indexException (some (indexMessage items.size i))] }
  | .fails f => .error (.fault f) st

end IndexedCall

section

variable {size k : Nat} {i : Int} {v : Value} {s : Store} {st : State} {items : Array Value}
  {a : Nat} {immutable : Bool}

lemma position?_eq (size : Nat) (i : Int) : position? size i =
    if 0 ≤ i ∧ i < size then some i.toNat
    else if i < 0 ∧ 0 ≤ i + size then some (i + size).toNat else none := by
  unfold position?
  by_cases hi : i < 0
  · have hlow : ¬ (0 ≤ i ∧ i < size) := by omega
    have hhigh : i + size < size := by omega
    simp [hi, hlow, hhigh]
  · simp [hi]

lemma reachFromEnd_eq (size : Nat) (i : Int) : reachFromEnd size i =
    ((position? size i).map Reach.acts).getD (.fails .badIndex) := by
  rw [position?_eq, reachFromEnd]
  by_cases hlow : 0 ≤ i ∧ i < size
  · simp only [if_pos hlow]
    rfl
  · by_cases hend : i < 0 ∧ 0 ≤ i + size
    · simp only [if_neg hlow, if_pos hend]
      rfl
    · simp only [if_neg hlow, if_neg hend]
      rfl

lemma lt_of_position? (h : position? size i = some k) : k < size := by
  rw [position?_eq] at h
  by_cases hlow : 0 ≤ i ∧ i < size
  · rw [if_pos hlow] at h
    obtain rfl := Option.some.inj h
    omega
  · rw [if_neg hlow] at h
    by_cases hend : i < 0 ∧ 0 ≤ i + size
    · rw [if_pos hend] at h
      obtain rfl := Option.some.inj h
      omega
    · rw [if_neg hend] at h
      cases h

lemma wordIndex_int (i : Int) :
    wordIndex (.int i) = if IsWord i then .ok i else .error .overflow := by
  show (if i < -(Number.twoTo 63) || Number.twoTo 63 ≤ i then .error .overflow else .ok i :
    Except Fault Int) = _
  by_cases hi : IsWord i
  · rw [if_pos hi, if_neg]
    obtain ⟨hlow, hhigh⟩ := hi
    simp only [Bool.or_eq_true, decide_eq_true_eq]
    omega
  · rw [if_neg hi, if_pos]
    simp only [Bool.or_eq_true, decide_eq_true_eq]
    unfold IsWord at hi
    omega

lemma inBounds_of_not (hi : ¬ (0 ≤ i ∧ i < size)) (s : Store) :
    inBounds size (.int i) s = .ok false s := by
  have hnum : (Value.int i).num? = some (.int i) := rfl
  unfold inBounds
  rw [hnum]
  dsimp only
  by_cases hlow : i < 0
  · have hcompare : (Num.int i).compare (.int 0) = some .lt :=
      congrArg some (compare_lt_iff_lt.mpr hlow)
    rw [hcompare]
    rfl
  · have hhigh : (Num.int i).compare (.int size) = some .eq ∨
        (Num.int i).compare (.int size) = some .gt := by
      rcases (show (size : Int) ≤ i by omega).eq_or_lt with rfl | hlt
      · exact .inl (congrArg some (compare_eq_iff_eq.mpr rfl))
      · exact .inr (congrArg some (compare_gt_iff_gt.mpr hlt))
    rcases hhigh with h | h
    · rw [h, Bool.and_false]
      rfl
    · rw [h, Bool.and_false]
      rfl

lemma State.withObject_self {o : Object} (ha : st.heap.objects[a]? = some o) :
    st.withObject a o = st := by
  obtain ⟨hlt, rfl⟩ := Array.getElem?_eq_some_iff.mp ha
  unfold State.withObject
  rw [Array.setIfInBounds_def, dif_pos hlt, Array.set_getElem_self]

namespace ListCell

lemma get_of_lt (hk : k < items.size) (s : Store) :
    ListCell.get ⟨a, items, immutable⟩ [.int k] s = .ok (items[k]?.getD .null) s := by
  unfold ListCell.get
  show (checkedPosition items.size (.int k) _ >>= fun p => orRaise .badIndex items[p]?) s = _
  rw [bind_of_ok (checkedPosition_of_lt hk _), Array.getElem?_eq_getElem hk]
  rfl

lemma get_of_not (hi : ¬ (0 ≤ i ∧ i < items.size)) (s : Store) :
    ListCell.get ⟨a, items, immutable⟩ [.int i] s =
      .error (.thrown (.ref (.object s.heap.objects.size)))
        (s.extend #[.exception indexException (some (indexMessage items.size i))]) := by
  have hthrow : outOfBounds indexException items.size (.int i) s =
      .error (.thrown (.ref (.object s.heap.objects.size)))
        (s.extend #[.exception indexException (some (indexMessage items.size i))]) := by
    unfold outOfBounds throwException
    rw [bind_of_ok (alloc_apply _ s)]
    rfl
  have hposition : checkedPosition items.size (.int i)
      (outOfBounds indexException items.size (.int i)) s =
        .error (.thrown (.ref (.object s.heap.objects.size)))
          (s.extend #[.exception indexException (some (indexMessage items.size i))]) := by
    unfold checkedPosition
    rw [bind_of_ok (inBounds_of_not hi s)]
    exact bind_of_error hthrow
  show (checkedPosition items.size (.int i)
    (outOfBounds indexException items.size (.int i)) >>= fun p => orRaise .badIndex items[p]?) s = _
  exact bind_of_error hposition

def change (l : ListCell) (i : Int) (edit : Nat → Array Value) : StoreM Value := do
  let p ← orRaise .badIndex (position? l.items.size i)
  let old ← orRaise .badIndex l.items[p]?
  l.put (edit p)
  return old

lemma set_eq (l : ListCell) (i : Int) (v : Value) :
    l.set [.int i, v] = l.change i (l.items.setIfInBounds · v) := rfl

lemma remove_eq (l : ListCell) (hi : IsWord i) :
    l.remove [.int i] = l.change i l.items.eraseIdxIfInBounds := by
  show l.removeAt (.int i) = _
  unfold ListCell.removeAt
  rw [wordIndex_int, if_pos hi]
  rfl

lemma remove_of_not_word (l : ListCell) (hi : ¬ IsWord i) :
    l.remove [.int i] = raise .overflow := by
  show l.removeAt (.int i) = _
  unfold ListCell.removeAt
  rw [wordIndex_int, if_neg hi]
  rfl

lemma change_of_some {l : ListCell} (hk : position? l.items.size i = some k)
    (edit : Nat → Array Value) (s : Store) : l.change i edit s =
      (do l.put (edit k); return l.items[k]?.getD .null : StoreM Value) s := by
  unfold change
  rw [hk]
  show (orRaise .badIndex l.items[k]? >>= fun old => do l.put (edit k); return old) s = _
  rw [Array.getElem?_eq_getElem (lt_of_position? hk)]
  rfl

lemma change_of_none {l : ListCell} (hk : position? l.items.size i = none)
    (edit : Nat → Array Value) : l.change i edit = raise .badIndex := by
  unfold change
  rw [hk]
  rfl

lemma add_eq (l : ListCell) (hi : IsWord i) (v : Value) : l.add [.int i, v] =
    (do l.put (IndexedCall.edited l.items (clamp l.items.size i) (.add v)); return .bool true) := by
  unfold ListCell.add
  dsimp only
  rw [wordIndex_int, if_pos hi]
  rfl

lemma add_of_not_word (l : ListCell) (hi : ¬ IsWord i) (v : Value) :
    l.add [.int i, v] = raise .overflow := by
  unfold ListCell.add
  dsimp only
  rw [wordIndex_int, if_neg hi]
  rfl

end ListCell

namespace IndexedCall

lemma edited_set (hk : k < items.size) (v : Value) :
    edited items k (.set v) = items.setIfInBounds k v := by
  apply Array.toList_inj.mp
  show items.toList.take k ++ v :: items.toList.drop (k + 1) = _
  rw [Array.toList_setIfInBounds, List.set_eq_take_append_cons_drop, Array.length_toList, if_pos hk]

lemma edited_remove (items : Array Value) (k : Nat) :
    edited items k .remove = items.eraseIdxIfInBounds k := by
  apply Array.toList_inj.mp
  show items.toList.take k ++ items.toList.drop (k + 1) = _
  rw [Array.toList_eraseIdxIfInBounds, List.eraseIdx_eq_take_drop_succ]

variable {c : IndexedCall}

lemma ending_acts (h : c.reach items.size i = .acts k) : c.ending i a items st =
    .ok (c.answer items k) (st.withObject a (.list (c.edited items k) false)) := by
  unfold ending
  rw [h]

lemma ending_fails {f : Fault} (h : c.reach items.size i = .fails f) :
    c.ending i a items st = .error (.fault f) st := by
  unfold ending
  rw [h]

lemma ending_get (ha : st.heap.objects[a]? = some (.list items false)) :
    (liftM (ListCell.get ⟨a, items, false⟩ [.int i]) : Exec Value) st =
      IndexedCall.get.ending i a items st := by
  by_cases hi : 0 ≤ i ∧ i < items.size
  · obtain ⟨k, rfl⟩ := Int.eq_ofNat_of_zero_le hi.1
    have hreach : reach items.size k .get = .acts k := if_pos hi
    rw [ending_acts hreach]
    show _ = EStateM.Result.ok _ (st.withObject a (.list items false))
    rw [State.withObject_self ha]
    exact liftM_of_ok (ListCell.get_of_lt (Int.ofNat_lt.mp hi.2) _)
  · have hreach : reach items.size i .get = .throws := if_neg hi
    rw [liftM_apply, ListCell.get_of_not hi, ending, hreach]

lemma ending_change {edit : Nat → Array Value}
    (hreach : c.reach items.size i = reachFromEnd items.size i)
    (hanswer : ∀ k, c.answer items k = items[k]?.getD .null)
    (hedit : ∀ k < items.size, c.edited items k = edit k) :
    (liftM (ListCell.change ⟨a, items, false⟩ i edit) : Exec Value) st = c.ending i a items st := by
  rw [reachFromEnd_eq] at hreach
  cases hk : position? items.size i with
  | some k =>
    rw [hk] at hreach
    rw [ending_acts hreach, hanswer, hedit k (lt_of_position? hk), liftM_apply,
      ListCell.change_of_some (l := ⟨a, items, false⟩) hk]
    rfl
  | none =>
    rw [hk] at hreach
    rw [ending_fails hreach, ListCell.change_of_none (l := ⟨a, items, false⟩) hk]
    rfl

lemma ending_set (v : Value) :
    (liftM (ListCell.set ⟨a, items, false⟩ [.int i, v]) : Exec Value) st =
      (IndexedCall.set v).ending i a items st := by
  rw [ListCell.set_eq]
  exact ending_change rfl (fun _ => rfl) fun k hk => edited_set hk v

lemma ending_remove : (liftM (ListCell.remove ⟨a, items, false⟩ [.int i]) : Exec Value) st =
    IndexedCall.remove.ending i a items st := by
  by_cases hi : IsWord i
  · rw [ListCell.remove_eq _ hi]
    exact ending_change (if_pos hi) (fun _ => rfl) fun k _ => edited_remove items k
  · have hreach : reach items.size i .remove = .fails .overflow := if_neg hi
    rw [ListCell.remove_of_not_word _ hi, ending_fails hreach]
    rfl

lemma ending_add (v : Value) :
    (liftM (ListCell.add ⟨a, items, false⟩ [.int i, v]) : Exec Value) st =
      (IndexedCall.add v).ending i a items st := by
  by_cases hi : IsWord i
  · have hreach : reach items.size i (.add v) = .acts (clamp items.size i) := if_pos hi
    rw [ListCell.add_eq _ hi, ending_acts hreach]
    rfl
  · have hreach : reach items.size i (.add v) = .fails .overflow := if_neg hi
    rw [ListCell.add_of_not_word _ hi, ending_fails hreach]
    rfl

def run (l : ListCell) (i : Int) : IndexedCall → StoreM Value
  | get => l.get [.int i]
  | set v => l.set [.int i, v]
  | remove => l.remove [.int i]
  | add v => l.add [.int i, v]

lemma call_eq (c : IndexedCall) (a : Nat) (items : Array Value) (i : Int) :
    ListCell.call ⟨a, items, false⟩ c.method (c.arguments i) = c.run ⟨a, items, false⟩ i := by
  cases c <;> rfl

lemma callOn_list (ev : Evaluator) (ha : st.heap.objects[a]? = some (.list items immutable))
    (name : String) (args : List Value) : ev.callOn (.ref (.object a)) name args st =
      (liftM (ListCell.call ⟨a, items, immutable⟩ name args) : Exec Value) st := by
  have hobject : (Value.ref (.object a)).object? st.heap = some (.list items immutable) := ha
  have hcall : callMethod (.ref (.object a)) name args st.toStore =
      ListCell.call ⟨a, items, immutable⟩ name args st.toStore := callMethod_object ha name args
  show ev.callFound st.heap (.ref (.object a)) name args st = _
  unfold Evaluator.callFound
  rw [hobject]
  dsimp only
  rw [liftM_apply, hcall, ← liftM_apply]

lemma callOn_eq (ev : Evaluator) (c : IndexedCall) (i : Int)
    (ha : st.heap.objects[a]? = some (.list items false)) :
    ev.callOn (.ref (.object a)) c.method (c.arguments i) st = c.ending i a items st := by
  rw [callOn_list ev ha, call_eq]
  cases c with
  | get => exact ending_get ha
  | set v => exact ending_set v
  | remove => exact ending_remove
  | add v => exact ending_add v

lemma reach_eq_throws_iff : c.reach size i = .throws ↔ c = .get ∧ ¬ (0 ≤ i ∧ i < size) := by
  have hend : reachFromEnd size i ≠ .throws := by
    rw [reachFromEnd_eq]
    cases position? size i <;> exact fun h => by cases h
  cases c with
  | get => simp [reach]
  | set v => simp [reach, hend]
  | remove =>
    simp only [reach, reduceCtorEq, false_and, iff_false]
    split
    · exact hend
    · exact fun h => by cases h
  | add v =>
    simp only [reach, reduceCtorEq, false_and, iff_false]
    split <;> exact fun h => by cases h

lemma reach_of_lt (hsize : size < Number.twoTo 63) (hlow : 0 ≤ i) (hhigh : i < c.positions size) :
    c.reach size i = .acts i.toNat := by
  have hword : IsWord i := by
    have hle : i ≤ size := by
      cases c <;> simp only [positions] at hhigh <;> omega
    constructor <;> omega
  have hend (h : i < size) : reachFromEnd size i = .acts i.toNat := if_pos ⟨hlow, h⟩
  cases c with
  | get => exact if_pos ⟨hlow, hhigh⟩
  | set v => exact hend hhigh
  | remove =>
    rw [reach, if_pos hword]
    exact hend hhigh
  | add v =>
    have hclamp : clamp size i = i.toNat := by
      unfold clamp
      rw [if_neg (Int.not_lt.mpr hlow)]
      simp only [positions] at hhigh
      omega
    rw [reach, if_pos hword, hclamp]

lemma ending_thrown {u : State} (ha : st.heap.objects[a]? = some (.list items false))
    (h : c.ending i a items st = .error (.thrown v) u) :
    u.heap.objects[a]? = some (.list items false) ∧
      ∀ T, Covers T indexException → catches u.heap T v = true := by
  unfold ending at h
  cases hreach : c.reach items.size i with
  | acts k =>
    rw [hreach] at h
    cases h
  | fails f =>
    rw [hreach] at h
    cases h
  | throws =>
    rw [hreach] at h
    cases h
    constructor
    · show (st.heap.objects ++ #[_])[a]? = _
      rw [Array.getElem?_append_left (Array.getElem?_eq_some_iff.mp ha).1, ha]
    · refine fun T hT => (catches_iff (t := .library indexException) ?_).mpr hT
      have hobject : (Value.ref (.object st.heap.objects.size)).object?
          (st.toStore.extend #[.exception indexException
            (some (indexMessage items.size i))]).heap =
          some (.exception indexException (some (indexMessage items.size i))) := by
        show (st.heap.objects ++ #[_])[st.heap.objects.size]? = _
        rw [Array.getElem?_append_right (Nat.le_refl _), Nat.sub_self]
        rfl
      unfold Value.thrown?
      rw [hobject]

end IndexedCall

end

/-- A call on a list with an index does to the list at the position it reaches what its name says,
and to no other. Within the list this is the position of the index. Outside only reading throws an
exception, for its handlers and with the list as it was: replacing and removing reach a position
from the end or fail, and adding reaches the nearest end. -/
theorem indexed_calls (ev : Evaluator) (c : IndexedCall) (i : Int) {st : State} {a : Nat}
    {items : Array Value} (ha : st.heap.objects[a]? = some (.list items false)) :
    ev.callOn (.ref (.object a)) c.method (c.arguments i) st = c.ending i a items st ∧
    (items.size < Number.twoTo 63 → 0 ≤ i → i < c.positions items.size →
      c.reach items.size i = .acts i.toNat) ∧
    (c.reach items.size i = .throws ↔ c = .get ∧ ¬ (0 ≤ i ∧ i < items.size)) ∧
    ∀ v u, c.ending i a items st = .error (.thrown v) u →
      u.heap.objects[a]? = some (.list items false) ∧
        ∀ T, Covers T indexException → catches u.heap T v = true :=
  ⟨c.callOn_eq ev i ha, IndexedCall.reach_of_lt, IndexedCall.reach_eq_throws_iff,
    fun _ _ => IndexedCall.ending_thrown ha⟩

theorem indexed_calls_set :
    let st : State := { heap := { objects := #[.list #[.int 7, .int 8] false] } }
    let c : IndexedCall := .set (.int 9)
    st.heap.objects[0]? = some (.list #[.int 7, .int 8] false) ∧ c.reach 2 1 = .acts 1 ∧
      (evaluatorAt ⟨[]⟩ 10 5).callOn (.ref (.object 0)) "set" [.int 1, .int 9] st =
        .ok (.int 8) { heap := { objects := #[.list #[.int 7, .int 9] false] } } := by
  intro st c
  have ha : st.heap.objects[0]? = some (.list #[.int 7, .int 8] false) := rfl
  obtain ⟨hcall, hreach, -⟩ := indexed_calls (evaluatorAt ⟨[]⟩ 10 5) c 1 ha
  exact ⟨ha, hreach (by decide) (by decide) (by decide), hcall⟩

/-- An index below zero replaces an element from the end, and nothing is thrown. -/
theorem negative_index_replaces :
    let st : State := { heap := { objects := #[.list #[.int 7, .int 8] false] } }
    (evaluatorAt ⟨[]⟩ 10 5).callOn (.ref (.object 0)) "set" [.int (-1), .int 9] st =
      .ok (.int 8) { heap := { objects := #[.list #[.int 7, .int 9] false] } } :=
  rfl

end LoopLowering.Machine
