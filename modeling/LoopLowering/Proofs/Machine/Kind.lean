import LoopLowering.Machine.Run
import LoopLowering.Proofs.Machine.Growth

/-! Kinds of values. A floating variable should hold no other real number than a floating one and an
integer variable no character. The conversion gives what a type admits, and the operators keep the
kind of their first operand, unless that is a boolean. -/

namespace LoopLowering.Machine

variable {ε σ α β : Type}

lemma exists_of_bind_eq_ok {x : Except ε α} {f : α → Except ε β} {b : β}
    (h : (x >>= f) = .ok b) : ∃ a, x = .ok a ∧ f a = .ok b := by
  cases x with
  | error e => cases h
  | ok a => exact ⟨a, rfl, h⟩

def Yields (Q : α → Prop) (c : EStateM ε σ α) : Prop := ∀ s a t, c s = .ok a t → Q a

namespace Yields

variable {Q : α → Prop}

lemma pure {a : α} (h : Q a) : Yields Q (pure a : EStateM ε σ α) := by
  rintro s _ t ⟨⟩
  exact h

lemma throw (e : ε) : Yields Q (throw e : EStateM ε σ α) := nofun

lemma raise (f : Fault) : Yields Q (raise f) := nofun

lemma fail (e : RunError) : Yields Q (fail e) := nofun

lemma bind {R : β → Prop} {c : EStateM ε σ β} {f : β → EStateM ε σ α} (hc : Yields R c)
    (hf : ∀ b, R b → Yields Q (f b)) : Yields Q (c >>= f) := by
  intro s a t h
  change EStateM.bind c f s = .ok a t at h
  unfold EStateM.bind at h
  cases hrun : c s with
  | ok b u =>
    rw [hrun] at h
    exact hf b (hc s b u hrun) u a t h
  | error e u =>
    rw [hrun] at h
    cases h

lemma after {c : EStateM ε σ β} {f : β → EStateM ε σ α} (hf : ∀ b, Yields Q (f b)) :
    Yields Q (c >>= f) :=
  .bind (R := fun _ => True) (fun _ _ _ _ => trivial) fun b _ => hf b

lemma faultless {r : Except Fault α} (h : ∀ a, r = .ok a → Q a) : Yields Q (faultless r) := by
  intro s a t hrun
  cases r with
  | ok b =>
    cases hrun
    exact h a rfl
  | error f => cases hrun

lemma lift {c : StoreM α} (h : Yields Q c) : Yields Q (liftM c : Exec α) := by
  intro st a t hrun
  rw [liftM_apply] at hrun
  cases hc : c st.toStore with
  | ok b s =>
    rw [hc] at hrun
    cases hrun
    exact h _ _ _ hc
  | error e s =>
    rw [hc] at hrun
    cases hrun

lemma mono {R : α → Prop} {c : EStateM ε σ α} (hc : Yields R c) (h : ∀ a, R a → Q a) :
    Yields Q c :=
  fun s a t hrun => h a (hc s a t hrun)

end Yields

structure TypeInfo.Admits (t : TypeInfo) (v : Value) : Prop where
  floating (hdims : t.dims = 0) (ht : floatingTypes.contains t.name = true)
    (hv : v.isNumeric = true) : ∃ x, v = .float x
  integer (hdims : t.dims = 0) (ht : integerTypes.contains t.name = true) : v.isChar = false

namespace TypeInfo

variable {t : TypeInfo} {v w : Value}

lemma admits_of_not_numeric (h : v.isNumeric = false) : t.Admits v where
  floating _ _ hv := by simp [h] at hv
  integer _ _ := by cases v <;> first | rfl | cases h

lemma admits_float (x : Float) : t.Admits (.float x) := ⟨fun _ _ _ => ⟨x, rfl⟩, fun _ _ => rfl⟩

lemma not_floating_of_integer (h : integerTypes.contains t.name = true) :
    floatingTypes.contains t.name = false := by
  simp only [integerTypes, floatingTypes, List.contains_eq_mem, decide_eq_true_eq,
    decide_eq_false_iff_not, List.mem_cons, List.not_mem_nil, or_false] at h ⊢
  rcases h with h | h | h | h <;> rw [h] <;> decide

lemma admits_int (n : Int) (h : floatingTypes.contains t.name = false) : t.Admits (.int n) :=
  ⟨fun _ ht _ => absurd ht (by rw [h]; decide), fun _ _ => rfl⟩

lemma admits_default (t : TypeInfo) : t.Admits t.default := by
  unfold default
  split
  · exact admits_of_not_numeric rfl
  split
  · exact admits_int 0 (not_floating_of_integer ‹_›)
  split
  · exact admits_float 0
  split
  · exact admits_of_not_numeric rfl
  split
  · exact ⟨fun _ ht => absurd ht ‹_›, fun _ ht => absurd ht ‹_›⟩
  · exact admits_of_not_numeric rfl

lemma admits_coerce (h : t.coerce v = .ok w) : t.Admits w := by
  unfold coerce at h
  split at h
  · rename_i hdims
    exact ⟨fun h => absurd h hdims, fun h => absurd h hdims⟩
  split at h
  · cases hw : widen v with
    | error f => simp [hw, bind, Except.bind] at h
    | ok x =>
      cases hx : realOf x with
      | error f => simp [hw, hx, bind, Except.bind] at h
      | ok y =>
        simp only [hw, hx, bind, Except.bind, Except.pure, Pure.pure, Except.ok.injEq] at h
        exact h ▸ admits_float y
  · rename_i hfloating
    split at h
    · rename_i hchar
      obtain ⟨hname, hchar⟩ := Bool.and_eq_true_iff.mp hchar
      have hnot := not_floating_of_integer hname
      cases v <;> try cases hchar
      obtain ⟨n, -, h⟩ := exists_of_bind_eq_ok h
      exact Except.ok.inj h ▸ admits_int n hnot
    · rename_i hinteger
      obtain rfl := Except.ok.inj h
      refine ⟨fun _ ht hv => absurd (Bool.and_eq_true_iff.mpr ⟨ht, hv⟩) hfloating, fun _ ht => ?_⟩
      rw [ht] at hinteger
      simpa using hinteger

end TypeInfo

structure Value.Follows (old new : Value) : Prop where
  plain : new.isChar = false
  numeric (h : new.isNumeric = true) : (∃ n, old = .int n) ∨ ∃ x, new = .float x

namespace Value

def isOrdinary : Value → Bool
  | .bool _ | .char _ => false
  | _ => true

variable {a b v : Value}

namespace Follows

lemma of_not_numeric (h : v.isNumeric = false) : a.Follows v where
  plain := by cases v <;> first | rfl | cases h
  numeric hv := by simp [h] at hv

lemma float (x : Float) : a.Follows (.float x) := ⟨rfl, fun _ => .inr ⟨x, rfl⟩⟩

lemma int (m n : Int) : (Value.int m).Follows (.int n) := ⟨rfl, fun _ => .inl ⟨m, rfl⟩⟩

end Follows

end Value

section

variable {a b v : Value}

open Value

lemma arithmetic_follows {onInt : Int → Int → Int} {onFloat : Float → Float → Float}
    (ha : a.isOrdinary = true) (h : arithmetic onInt onFloat a b = .ok v) : a.Follows v := by
  unfold arithmetic at h
  split at h
  · rename_i m n hm hn
    cases a with
    | int k => exact Except.ok.inj h ▸ .int k _
    | bool => cases ha
    | _ => cases hm
  · obtain ⟨x, -, h⟩ := exists_of_bind_eq_ok h
    obtain ⟨y, -, h⟩ := exists_of_bind_eq_ok h
    exact Except.ok.inj h ▸ .float _
  · cases h

lemma add_follows (ha : a.isOrdinary = true) : Yields a.Follows (add a b) := by
  refine .after fun h => .after fun h' => ?_
  split
  · exact .after fun _ => .pure (.of_not_numeric rfl)
  · exact .faultless fun v hv => arithmetic_follows ha hv

lemma repeatArray_follows (items : Array Value) (count : Int) :
    Yields a.Follows (repeatArray items count) :=
  .after fun _ => .after fun _ => .pure (.of_not_numeric rfl)

lemma repeatText_follows {s : String} {count : Int} (h : repeatText s count = .ok v) :
    a.Follows v := by
  obtain ⟨n, -, h⟩ := exists_of_bind_eq_ok h
  exact Except.ok.inj h ▸ .of_not_numeric rfl

lemma multiply_follows (ha : a.isOrdinary = true) : Yields a.Follows (multiply a b) := by
  unfold multiply
  split
  · exact .after fun n => .faultless fun v hv => repeatText_follows hv
  · exact .after fun n => .faultless fun v hv => repeatText_follows hv
  · refine .after fun h => ?_
    split
    · exact .after fun n => repeatArray_follows _ n
    · exact .after fun n => repeatArray_follows _ n
    · exact .faultless fun v hv => arithmetic_follows ha hv

lemma divideFloat_follows (ha : a.isOrdinary = true) (h : divideFloat a b = .ok v) :
    a.Follows v := by
  unfold divideFloat at h
  split at h
  · rename_i y _
    split at h
    · unfold divideByZero at h
      split at h
      · cases h
      · split at h
        · exact Except.ok.inj h ▸ .float _
        · obtain ⟨x, -, h⟩ := exists_of_bind_eq_ok h
          obtain ⟨z, -, h⟩ := exists_of_bind_eq_ok h
          exact Except.ok.inj h ▸ .float _
    · exact arithmetic_follows ha h
  · cases h

lemma remainderFloat_follows (h : remainderFloat a b = .ok v) : a.Follows v := by
  obtain ⟨x, -, h⟩ := exists_of_bind_eq_ok h
  obtain ⟨y, -, h⟩ := exists_of_bind_eq_ok h
  split at h
  · exact Except.ok.inj h ▸ .float _
  · cases h

lemma follows_of_index {m : Int} (ha : a.isOrdinary = true) (hm : indexOf? a = some m) (n : Int) :
    a.Follows (.int n) := by
  cases a with
  | int k => exact .int k n
  | bool => cases ha
  | _ => cases hm

lemma divide_follows {onInt : Int → Int → Int} {onFloat : Value → Value → Except Fault Value}
    (ha : a.isOrdinary = true) (hfloat : ∀ v, onFloat a b = .ok v → a.Follows v) :
    Yields a.Follows (divide onInt onFloat a b) := by
  unfold divide
  split
  · rename_i m n hm _
    split
    · exact .after fun _ => .throw _
    · exact .pure (follows_of_index ha hm _)
  · exact .faultless hfloat

lemma onIntegers_follows {f : Int → Int → Int} (ha : a.isOrdinary = true)
    (h : onIntegers f a b = .ok v) : a.Follows v := by
  unfold onIntegers at h
  split at h
  · rename_i m n hm _
    exact Except.ok.inj h ▸ follows_of_index ha hm _
  · cases h

lemma compareOperands_follows (c : Comparison) : Yields a.Follows (compareOperands c a b) :=
  .after fun _ => .pure (.of_not_numeric rfl)

lemma applyReal_follows (ha : a.isOrdinary = true) (op : BinaryOp) :
    Yields a.Follows (applyReal op a b) := by
  cases op with
  | add => exact add_follows ha
  | sub => exact .faultless fun v hv => arithmetic_follows ha hv
  | mul => exact multiply_follows ha
  | div => exact divide_follows ha fun v hv => divideFloat_follows ha hv
  | rem => exact divide_follows ha fun v hv => remainderFloat_follows hv
  | lt | gt | le | ge => exact compareOperands_follows _
  | bitAnd | bitOr | bitXor | shiftLeft | shiftRight | shiftRightUnsigned =>
    exact .faultless fun v hv => onIntegers_follows ha hv
  | _ => exact .fail _

lemma allocPlanar_follows (z : Number.Planar) : Yields a.Follows (allocPlanar z) := by
  rintro s _ t ⟨⟩
  exact .of_not_numeric rfl

lemma planarOperator?_follows {op : BinaryOp} {f : Number.Planar → Number.Planar → StoreM Value}
    (hf : planarOperator? op = some f) (z w : Number.Planar) : Yields a.Follows (f z w) := by
  unfold planarOperator? at hf
  split at hf
  iterate 3
    cases hf
    exact allocPlanar_follows _
  · cases hf
    unfold dividePlanar
    split
    · split
      · exact .pure (.float _)
      · exact .raise _
    · exact .after fun _ => allocPlanar_follows _
  · cases hf

lemma applyStrict_follows (ha : a.isOrdinary = true) (op : BinaryOp) :
    Yields a.Follows (applyStrict op a b) := by
  refine .after fun h => ?_
  split
  · rename_i f operands hf _
    exact .after fun operands => planarOperator?_follows hf _ _
  · exact applyReal_follows ha op

lemma applyWidened_follows (ha : a.isOrdinary = true) (op : BinaryOp) :
    Yields a.Follows (applyWidened op a b) := by
  have hwiden : widen a = .ok a := by cases a <;> first | rfl | cases ha
  unfold applyWidened
  rw [hwiden]
  refine .bind (R := fun c => c = a) (.faultless fun _ h => (Except.ok.inj h).symm) ?_
  rintro _ rfl
  refine .after fun b => ?_
  split
  · exact .after fun _ => .throw _
  · exact applyStrict_follows ha op

lemma applyBinary_follows (ha : a.isOrdinary = true) (op : BinaryOp) :
    Yields a.Follows (applyBinary op a b) := by
  unfold applyBinary
  split
  iterate 4 exact .after fun _ => .pure (.of_not_numeric rfl)
  all_goals try cases ha
  exact applyWidened_follows ha _

lemma stepReal_follows {up : Bool} (ha : a.isOrdinary = true) (h : stepReal up a = .ok v) :
    a.Follows v := by
  have hwiden : widen a = .ok a := by cases a <;> first | rfl | cases ha
  unfold stepReal at h
  rw [hwiden] at h
  obtain ⟨_, ⟨⟩, h⟩ := exists_of_bind_eq_ok h
  obtain ⟨next, hnext, h⟩ := exists_of_bind_eq_ok h
  have hfollows := arithmetic_follows ha hnext
  split at h
  · cases ha
  · exact Except.ok.inj h ▸ hfollows

lemma step_follows (up : Bool) (ha : a.isOrdinary = true) : Yields a.Follows (step up a) := by
  refine .after fun h => ?_
  split
  · exact allocPlanar_follows _
  · exact .faultless fun v hv => stepReal_follows ha hv

end

namespace TypeInfo

variable {t : TypeInfo} {old new v : Value}

lemma Admits.of_follows (h : t.Admits old) (hfollows : old.Follows new) : t.Admits new where
  floating hdims ht hv := by
    rcases hfollows.numeric hv with ⟨n, rfl⟩ | hx
    · obtain ⟨x, hx⟩ := h.floating hdims ht rfl
      cases hx
    · exact hx
  integer _ _ := hfollows.plain

lemma Admits.of_char {s : String} (h : t.Admits (.char s)) (v : Value) : t.Admits v where
  floating hdims ht _ := by
    obtain ⟨x, hx⟩ := h.floating hdims ht rfl
    cases hx
  integer hdims ht := by cases h.integer hdims ht

lemma Admits.of_ordinary (h : t.Admits old) (hbool : ∀ b, old ≠ .bool b)
    (hfollows : old.isOrdinary = true → old.Follows new) : t.Admits new := by
  cases old with
  | bool b => exact absurd rfl (hbool b)
  | char s => exact h.of_char new
  | _ => exact h.of_follows (hfollows rfl)

lemma Admits.fitCompound (h : t.Admits old) (hnew : t.Admits new)
    (hfit : Machine.fitCompound old new = .ok v) : t.Admits v := by
  unfold Machine.fitCompound at hfit
  split at hfit
  · obtain ⟨n, -, hfit⟩ := exists_of_bind_eq_ok hfit
    exact h.of_follows (Except.ok.inj hfit ▸ .int _ n)
  · exact h.of_char v
  · exact h.of_char v
  · exact Except.ok.inj hfit ▸ hnew

lemma Admits.of_alike (h : t.Admits v) (halike : old.alike v = true) : t.Admits old := by
  cases old with
  | bool => cases halike
  | int m =>
    cases v with
    | int n => exact h.of_follows (.int n m)
    | _ => cases halike
  | float x => exact admits_float x
  | char s =>
    cases v with
    | char r => exact h.of_char _
    | _ => cases halike
  | _ => exact admits_of_not_numeric rfl

end TypeInfo

lemma Value.ne_bool_of_alike {v w : Value} (h : v.alike w = true) (b : Bool) : v ≠ .bool b := by
  rintro rfl
  cases h

end LoopLowering.Machine
