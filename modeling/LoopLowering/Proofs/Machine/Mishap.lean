import LoopLowering.Machine.Run
import LoopLowering.Proofs.Machine.Cyclic

/-! Operations on the store never jump: where one does not end normally, it throws an exception,
reports an error of the program or meets a fault, or it goes round in a cycle of objects. -/

namespace LoopLowering.Machine

variable {α β : Type}

def Signal.isMishap : Signal → Bool
  | .thrown _ | .failed _ | .fault _ => true
  | _ => false

def Signal.isJump : Signal → Bool
  | .breakTo _ | .continueTo _ | .returned _ => true
  | _ => false

class Tame (c : StoreM α) : Prop where
  mishap : ∀ st e st', c st = .error e st' →
    e.isMishap = true ∨ e = .exhausted ∧ st'.heap.Cyclic

namespace Tame

lemma of_ok {c : StoreM α} (h : ∀ st, ∃ a st', c st = .ok a st') : Tame c where
  mishap st e st' he := by
    obtain ⟨a, s, ha⟩ := h st
    rw [ha] at he
    cases he

instance instPure (a : α) : Tame (pure a) := of_ok fun st => ⟨a, st, rfl⟩

lemma isJump_eq_false {c : StoreM α} [hc : Tame c] {st st' : Store} {e : Signal}
    (h : c st = .error e st') : e.isJump = false := by
  rcases hc.mishap st e st' h with he | ⟨rfl, -⟩
  · cases e <;> first | rfl | cases he
  · rfl

lemma throw {e : Signal} (h : e.isMishap = true) : Tame (throw e : StoreM α) where
  mishap _ _ _ he := by
    cases he
    exact .inl h

lemma ofHeap {f : Heap → Option α} (h : ∀ hp, f hp = none → hp.Cyclic) :
    Tame (heap >>= fun hp => finite (f hp)) where
  mishap st e st' he := by
    change finite (f st.heap) st = .error e st' at he
    cases hf : f st.heap with
    | none =>
      rw [hf] at he
      cases he
      exact .inr ⟨rfl, h _ hf⟩
    | some a =>
      rw [hf] at he
      cases he

instance instBind {c : StoreM α} {f : α → StoreM β} [hc : Tame c] [hf : ∀ a, Tame (f a)] :
    Tame (c >>= f) where
  mishap st e st' he := by
    change EStateM.bind c f st = .error e st' at he
    unfold EStateM.bind at he
    cases h : c st with
    | ok a s =>
      rw [h] at he
      exact (hf a).mishap s e st' he
    | error _ s =>
      rw [h] at he
      cases he
      exact hc.mishap st e _ h

instance instIte {p : Prop} [Decidable p] {c d : StoreM α} [Tame c] [Tame d] :
    Tame (if p then c else d) := by
  split <;> infer_instance

instance instGet : Tame (get : StoreM Store) := of_ok fun st => ⟨st, st, rfl⟩

instance instModify (f : Store → Store) : Tame (modify f : StoreM PUnit) :=
  of_ok fun st => ⟨⟨⟩, f st, rfl⟩

instance instRaise (f : Fault) : Tame (raise f : StoreM α) := throw rfl

instance instFail (e : RunError) : Tame (fail e : StoreM α) := throw rfl

instance instFaultless (r : Except Fault α) : Tame (faultless r) := by
  unfold faultless
  split <;> infer_instance

instance instOrRaise (f : Fault) (a : Option α) : Tame (orRaise f a) := by
  unfold orRaise
  split <;> infer_instance

instance instAllocIndex (o : Object) : Tame (allocIndex o) := of_ok fun _ => ⟨_, _, rfl⟩

instance instAlloc (o : Object) : Tame (alloc o) := instBind

instance instStore (index : Nat) (o : Object) : Tame (store index o) := instModify _

instance instAllocIterator (list : Nat) : Tame (allocIterator list) := of_ok fun _ => ⟨_, _, rfl⟩

instance instStoreIterator (index : Nat) (c : Cursor) : Tame (storeIterator index c) :=
  instModify _

instance instHeap : Tame heap := inferInstanceAs (Tame (get >>= fun st => pure st.heap))

instance instAllocPlanar (z : Number.Planar) : Tame (allocPlanar z) := of_ok fun _ => ⟨_, _, rfl⟩

instance instShown (v : Value) : Tame (shown v) := ofHeap fun _ => cyclic_of_display?

instance instThrowException (name : String) (message : Option String) :
    Tame (throwException name message : StoreM α) :=
  @instBind _ _ _ _ (instAlloc _) fun _ => throw rfl

instance instPrint (toErrors : Bool) (text : String) : Tame (print toErrors text) := instModify _

instance instSetStatic (className name : String) (v : Value) (origin : Origin) :
    Tame (setStatic className name v origin) :=
  instModify _

instance instSetField (index : Nat) (name : String) (v : Value) (origin : Origin) :
    Tame (setField index name v origin) := by
  refine @instBind _ _ _ _ instHeap fun h => ?_
  split <;> infer_instance

instance instNullPointer : Tame (nullPointer : StoreM α) := instThrowException _ _

end Tame

instance (a b : Value) : Tame (equalValues a b) := Tame.ofHeap fun _ => cyclic_of_equal?

instance (a b : Value) : Tame (equalOperands a b) := by
  unfold equalOperands
  infer_instance

instance (items : Array Value) (count : Int) : Tame (repeatArray items count) := by
  unfold repeatArray
  infer_instance

instance (a b : Value) : Tame (add a b) := by
  refine @Tame.instBind _ _ _ _ inferInstance fun h =>
    @Tame.instBind _ _ _ _ inferInstance fun h' => ?_
  split <;> infer_instance

instance (a b : Value) : Tame (multiplyItems a b) := by
  refine @Tame.instBind _ _ _ _ inferInstance fun h => ?_
  split <;> infer_instance

instance (a b : Value) : Tame (multiply a b) := by
  unfold multiply
  split <;> infer_instance

instance (onInt : Int → Int → Int) (onFloat : Value → Value → Except Fault Value) (a b : Value) :
    Tame (divide onInt onFloat a b) := by
  unfold divide
  split <;> infer_instance

instance (c : Comparison) (a b : Value) : Tame (compareValues c a b) := by
  have hfinite : Tame (heap >>= fun h => finite (compareValues? h c a b)) :=
    Tame.ofHeap fun _ => cyclic_of_compareValues?
  have hbind : compareValues c a b =
      (heap >>= fun h => finite (compareValues? h c a b)) >>= faultless := by
    simp [compareValues]
  rw [hbind]
  infer_instance

instance (c : Comparison) (a b : Value) : Tame (compareOperands c a b) := by
  unfold compareOperands
  infer_instance

instance (op : BinaryOp) (a b : Value) : Tame (applyReal op a b) := by
  unfold applyReal
  split <;> infer_instance

instance (z w : Number.Planar) : Tame (dividePlanar z w) := by
  unfold dividePlanar
  infer_instance

lemma planarOperator?_tame {op : BinaryOp} {f : Number.Planar → Number.Planar → StoreM Value}
    (hf : planarOperator? op = some f) (z w : Number.Planar) : Tame (f z w) := by
  unfold planarOperator? at hf
  split at hf <;> cases hf <;> infer_instance

instance (op : BinaryOp) (a b : Value) : Tame (applyStrict op a b) := by
  refine @Tame.instBind _ _ _ _ inferInstance fun h => ?_
  split
  · rename_i f operands hf _
    have := fun z w => planarOperator?_tame hf z w
    infer_instance
  · infer_instance

instance (op : BinaryOp) (a b : Value) : Tame (applyWidened op a b) := by
  unfold applyWidened
  infer_instance

instance (op : BinaryOp) (a b : Value) : Tame (applyBinary op a b) := by
  unfold applyBinary
  split <;> infer_instance

instance (up : Bool) (v : Value) : Tame (step up v) := by
  refine @Tame.instBind _ _ _ _ inferInstance fun h => ?_
  split <;> infer_instance

instance (op : UnaryOp) (v : Value) : Tame (applyUnary op v) := by
  unfold applyUnary
  split
  · infer_instance
  · refine @Tame.instBind _ _ _ _ inferInstance fun h => ?_
    split <;> infer_instance
  all_goals infer_instance

instance (size : Nat) (v : Value) : Tame (positionOf size v) := by
  unfold positionOf
  infer_instance

instance (size : Nat) (v : Value) : Tame (inBounds size v) := by
  unfold inBounds
  split <;> infer_instance

instance (size : Nat) (v : Value) (outside : StoreM Unit) [Tame outside] :
    Tame (checkedPosition size v outside) := by
  unfold checkedPosition
  infer_instance

instance (className : String) (size : Nat) (v : Value) : Tame (outOfBounds className size v) :=
  Tame.instThrowException _ _

instance (args : List Value) (i : Nat) : Tame (argument args i) := Tame.instOrRaise _ _

namespace ListCell

variable (l : ListCell) (args : List Value)

instance (items : Array Value) : Tame (l.put items) := Tame.instStore _ _

instance : Tame (l.add args) := by
  unfold add
  split <;> infer_instance

instance : Tame (l.get args) := by
  unfold get
  infer_instance

instance : Tame (l.set args) := by
  unfold set
  infer_instance

instance (xs : List Value) (i : Nat) : Tame (search args xs i) := by
  induction xs generalizing i with
  | nil => exact Tame.instPure _
  | cons x xs ih =>
    unfold search
    infer_instance

instance : Tame (l.indexOf args) := inferInstanceAs (Tame (search args l.items.toList 0))

instance (i : Value) : Tame (l.removeAt i) := by
  unfold removeAt
  infer_instance

instance : Tame (l.remove args) := by
  have hfound : ∀ r : Option Nat, Tame (match r with
      | some p => do
        l.put (l.items.eraseIdxIfInBounds p)
        return .bool true
      | none => return .bool false : StoreM Value) := by
    intro r
    split <;> infer_instance
  unfold remove
  infer_instance

instance (xs ys : Array Value) : Tame (sameItems xs ys) := Tame.ofHeap fun _ => cyclic_of_sameItems?

instance : Tame (l.equals args) := by
  refine @Tame.instBind _ _ _ _ inferInstance fun v =>
    @Tame.instBind _ _ _ _ inferInstance fun h => ?_
  split <;> infer_instance

instance (name : String) : Tame (l.call name args) := by
  unfold call
  dsimp only
  split
  · refine @Tame.instBind _ _ _ _ inferInstance fun _ => ?_
    split <;> infer_instance
  · split <;> infer_instance

end ListCell

namespace TextMethod

variable (s : String) (args : List Value)

instance : Tame (charAt s args) := by
  unfold charAt
  infer_instance

instance : Tame (equals s args) := by
  unfold equals
  infer_instance

instance : Tame (equalsIgnoreCase s args) := by
  unfold equalsIgnoreCase
  infer_instance

instance : Tame (substring s args) := by
  unfold substring
  refine @Tame.instBind _ _ _ _ inferInstance fun v =>
    @Tame.instBind _ _ _ _ inferInstance fun i => ?_
  split <;> infer_instance

instance : Tame (occurrence s args) := by
  unfold occurrence
  infer_instance

instance : Tame (textArgument args) := by
  unfold textArgument
  infer_instance

instance (name : String) : Tame (call s name args) := by
  unfold call
  split <;> infer_instance

end TextMethod

instance (v : Value) : Tame (hashCode v) := by
  unfold hashCode
  split
  all_goals try infer_instance
  refine @Tame.instBind _ _ _ _ inferInstance fun h => ?_
  split <;> infer_instance

section

variable (v : Value) (index : Nat) (name : String) (args : List Value)

instance : Tame (callCommon v name args) := by
  have hother : ∀ (m : String) (h : Heap), Tame (match v.array? h with
      | some _ => fail (.arrayMethod m)
      | none => fail (.unknownMethod m) : StoreM Value) := by
    intro m h
    split <;> infer_instance
  unfold callCommon
  split <;> infer_instance

instance (c : Cursor) : Tame (callIterator index c name args) := by
  refine @Tame.instBind _ _ _ _ inferInstance fun h => ?_
  dsimp only
  split
  · infer_instance
  · split <;> infer_instance
  · infer_instance

instance (text : String) : Tame (callBuilder index text name args) := by
  unfold callBuilder
  split <;> infer_instance

instance (toErrors : Bool) : Tame (callStream index toErrors name args) := by
  unfold callStream
  dsimp only
  split
  all_goals
    refine @Tame.instBind _ _ _ _ inferInstance fun text => ?_
    split <;> infer_instance

instance (message : Option String) : Tame (callException index message name args) := by
  unfold callException
  split <;> infer_instance

instance (o : Object) : Tame (callObject index o name args) := by
  unfold callObject
  split <;> infer_instance

instance : Tame (callMethod v name args) := by
  unfold callMethod
  split
  · infer_instance
  · refine @Tame.instBind _ _ _ _ inferInstance fun h => ?_
    split <;> infer_instance
  · refine @Tame.instBind _ _ _ _ inferInstance fun h => ?_
    split <;> infer_instance
  · infer_instance

instance (immutable : Bool) : Tame (listOf immutable args) := by
  unfold listOf
  infer_instance

instance (c : Comparison) : Tame (choose c args) := by
  unfold choose
  infer_instance

instance (base : Float) : Tame (raiseTo base v) := by
  refine @Tame.instBind _ _ _ _ inferInstance fun h => ?_
  split
  · infer_instance
  · refine @Tame.instBind _ _ _ _ inferInstance fun r => ?_
    split <;> infer_instance

instance : Tame (powerOf args) := by
  unfold powerOf
  infer_instance

instance : Tame (parseInteger args) := by
  refine @Tame.instBind _ _ _ _ inferInstance fun v => ?_
  split <;> infer_instance

instance (p : Char → Bool) : Tame (allOf p args) := by
  unfold allOf
  infer_instance

instance : Tame (equalObjects args) := by
  unfold equalObjects
  infer_instance

instance (className : String) : Tame (libraryField className name) := by
  unfold libraryField
  split <;> infer_instance

instance (className : String) : Tame (libraryCall className name args) := by
  unfold libraryCall
  split <;> infer_instance

end

section

variable (type : Node) (v a b : Value) (args : List Value)

instance : Tame (coerceTo type v) := Tame.instFaultless _

instance : Tame (collect args) := by
  refine @Tame.instBind _ _ _ _ inferInstance fun h => ?_
  split <;> infer_instance

instance (typeName : String) : Tame (createLibrary typeName args) := by
  have hexception : Tame (match args with
      | [] => alloc (.exception (simpleName typeName) none)
      | v :: _ => do alloc (.exception (simpleName typeName) (some (← shown v)))) := by
    split <;> infer_instance
  unfold createLibrary
  infer_instance

instance : Tame (elementPosition a b) := by
  unfold elementPosition
  infer_instance

instance : Tame (elementAt a b) := by
  refine @Tame.instBind _ _ _ _ inferInstance fun p =>
    @Tame.instBind _ _ _ _ inferInstance fun h => ?_
  split <;> infer_instance

instance : Tame (setElement a b v) := by
  refine @Tame.instBind _ _ _ _ inferInstance fun p =>
    @Tame.instBind _ _ _ _ inferInstance fun h => ?_
  split <;> infer_instance

instance : Tame (extent v) := by
  unfold extent
  infer_instance

instance (make : StoreM Value) [Tame make] (n : Nat) : Tame (times make n) := by
  induction n with
  | zero => exact Tame.instPure _
  | succ n ih =>
    unfold times
    infer_instance

instance (element : StoreM Value) [Tame element] (ds : List Value) :
    Tame (newArray element ds) := by
  induction ds with
  | nil => exact Tame.instRaise _
  | cons d ds ih =>
    cases ds with
    | nil =>
      unfold newArray
      infer_instance
    | cons =>
      unfold newArray
      infer_instance

end

namespace Evaluator

variable (ev : Evaluator) (className name : String) (type : Node) (v t : Value)

instance : Tame (staticField className name) := by
  refine @Tame.instBind _ _ _ _ inferInstance fun st => ?_
  split <;> infer_instance

instance : Tame (fieldOf v name) := by
  refine @Tame.instBind _ _ _ _ inferInstance fun h => ?_
  split
  · infer_instance
  · split <;> infer_instance
  · infer_instance
  · infer_instance

instance (extraDims : Nat) : Tame (emptyElement extraDims type) := by
  unfold emptyElement
  infer_instance

instance (h : Heap) (origin : Origin) : Tame (ev.putField h t name v origin) := by
  unfold putField
  split <;> infer_instance

instance (dims : Nat) : Tame (variableType type dims) := by
  have hdims : Tame (match type.shape with
      | .typeRef name d _ => return .ok ⟨name, d + dims⟩
      | _ => raise .noSuchPart : StoreM (Except Fault TypeInfo)) := by
    split <;> infer_instance
  unfold variableType
  infer_instance

instance : Tame (elements v) := by
  refine @Tame.instBind _ _ _ _ inferInstance fun h => ?_
  split <;> infer_instance

instance (n : Node) : Tame (loopVariable n) := by
  unfold loopVariable
  split <;> infer_instance

instance (types : List Node) : Tame (anyCatches v types) := by
  induction types with
  | nil => exact Tame.instPure _
  | cons t ts ih =>
    unfold anyCatches
    infer_instance

instance (r : Routine) (args : Option (List Value)) : Tame (entryArguments r args) := by
  unfold entryArguments
  split <;> infer_instance

end Evaluator

end LoopLowering.Machine
