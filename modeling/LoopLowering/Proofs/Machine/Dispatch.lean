import LoopLowering.Proofs.Machine.Target

/-! Where calls find their methods. Every form of a call takes the first method with its name and
with as many parameters as there are arguments. -/

namespace LoopLowering.Machine

inductive Receiver where
  | enclosing
  | object (index : Nat)
  | type

namespace Receiver

/-- The object on which a method is called. -/
def this (f : Frame) (r : Routine) : Receiver → Option Nat
  | enclosing => if r.isStatic then none else f.this
  | object a => some a
  | type => none

/-- What a call does that finds no method. -/
def missing (className name : String) (args : List Value) : Receiver → Exec Value
  | enclosing => fail (.unknownMethod name)
  | object a => callCommon (.ref (.object a)) name args
  | type => fail (.unknownMethodOf className name)

end Receiver

/-- The target of a call leads to a class, and to a state in which the method is looked for. -/
inductive Evaluator.Reaches (ev : Evaluator) (c : ClassInfo) (st : State) :
    Option Node → Receiver → State → Prop
  | enclosing (h : st.frame.className = c.name) : Reaches ev c st none .enclosing st
  | object {t : Node} {a : Nat} {fields : Bindings} {u : State} (hsuper : isSuper t = false)
    (h : ev.eval t st = .ok (.ref (.object a)) u)
    (ha : u.heap.objects[a]? = some (.record c.name fields)) :
    Reaches ev c st (some t) (.object a) u
  | type {t : Node} {a : Nat} {u : State} (hsuper : isSuper t = false)
    (h : ev.eval t st = .ok (.ref (.object a)) u)
    (ha : u.heap.objects[a]? = some (.classRef c.name)) : Reaches ev c st (some t) .type u

section

variable {ev : Evaluator} {c : ClassInfo} {name : String} {args : List Value} {st mid u : State}

lemma callUnqualified_eq (hc : ev.program.class? c.name = some c) (hname : name ≠ "super")
    (hname' : name ≠ "this") (hst : st.frame.className = c.name) (args : List Value) :
    ev.callUnqualified name args st =
      (match c.findMethod? name args.length with
      | some r => ev.invoke c.name r (Receiver.enclosing.this st.frame r) args
      | none => Receiver.enclosing.missing c.name name args) st := by
  have hcurrent : ev.currentClass st = .ok c st := by
    show EStateM.Result.ok ((ev.program.class? st.frame.className).getD _) st = _
    rw [hst, hc]
    rfl
  unfold Evaluator.callUnqualified
  rw [if_neg hname, if_neg hname', bind_of_ok hcurrent]
  cases c.findMethod? name args.length <;> rfl

lemma callMethod_object {s : Store} {a : Nat} {o : Object} (ha : s.heap.objects[a]? = some o)
    (name : String) (args : List Value) :
    callMethod (.ref (.object a)) name args s = callObject a o name args s := by
  unfold callMethod
  dsimp only
  rw [heap_bind, ha]

lemma callFound_record {h : Heap} {a : Nat} {fields : Bindings}
    (hc : ev.program.class? c.name = some c)
    (ha : h.objects[a]? = some (.record c.name fields)) (name : String) (args : List Value) :
    ev.callFound h (.ref (.object a)) name args =
      match c.findMethod? name args.length with
      | some r => ev.invoke c.name r (some a) args
      | none => callMethod (.ref (.object a)) name args := by
  have hobject : (Value.ref (.object a)).object? h = some (.record c.name fields) := ha
  unfold Evaluator.callFound Evaluator.declared?
  rw [hobject]
  dsimp only
  rw [hc]
  rfl

lemma callFound_class {h : Heap} {a : Nat} (hc : ev.program.class? c.name = some c)
    (ha : h.objects[a]? = some (.classRef c.name)) (name : String) (args : List Value) :
    ev.callFound h (.ref (.object a)) name args =
      match c.findMethod? name args.length with
      | some r => ev.invoke c.name r none args
      | none => fail (.unknownMethodOf c.name name) := by
  have hobject : (Value.ref (.object a)).object? h = some (.classRef c.name) := ha
  unfold Evaluator.callFound Evaluator.callStatic
  rw [hobject]
  dsimp only
  generalize ev.program.class? c.name = found at hc
  subst hc
  rfl

lemma callOn_record {a : Nat} {fields : Bindings} (hc : ev.program.class? c.name = some c)
    (ha : st.heap.objects[a]? = some (.record c.name fields)) (name : String)
    (args : List Value) : ev.callOn (.ref (.object a)) name args st =
      (match c.findMethod? name args.length with
      | some r => ev.invoke c.name r (some a) args
      | none => callCommon (.ref (.object a)) name args) st := by
  show ev.callFound st.heap (.ref (.object a)) name args st = _
  rw [callFound_record hc ha]
  cases c.findMethod? name args.length with
  | some r => rfl
  | none =>
    have hcommon : callMethod (.ref (.object a)) name args st.toStore =
        callCommon (.ref (.object a)) name args st.toStore := callMethod_object ha name args
    dsimp only
    rw [liftM_apply, liftM_apply, hcommon]

lemma callOn_class {a : Nat} (hc : ev.program.class? c.name = some c)
    (ha : st.heap.objects[a]? = some (.classRef c.name)) (name : String)
    (args : List Value) : ev.callOn (.ref (.object a)) name args st =
      (match c.findMethod? name args.length with
      | some r => ev.invoke c.name r none args
      | none => fail (.unknownMethodOf c.name name)) st := by
  show ev.callFound st.heap (.ref (.object a)) name args st = _
  rw [callFound_class hc ha]

lemma evalCall_of_reaches {nodes : List Node} {target : Option Node} {recv : Receiver}
    (hc : ev.program.class? c.name = some c) (hname : name ≠ "super") (hname' : name ≠ "this")
    (hargs : ev.evalAll nodes st = .ok args mid) (h : ev.Reaches c mid target recv u) :
    ev.evalCall name target nodes st =
      (match c.findMethod? name args.length with
      | some r => ev.invoke c.name r (recv.this u.frame r) args
      | none => recv.missing c.name name args) u := by
  unfold Evaluator.evalCall
  rw [bind_of_ok hargs]
  cases h with
  | enclosing hmid => exact callUnqualified_eq hc hname hname' hmid args
  | object hsuper ht ha =>
    dsimp only
    rw [hsuper]
    show (ev.eval _ >>= fun v => ev.callOn v name args) mid = _
    rw [bind_of_ok ht, callOn_record hc ha]
    rfl
  | type hsuper ht ha =>
    dsimp only
    rw [hsuper]
    show (ev.eval _ >>= fun v => ev.callOn v name args) mid = _
    rw [bind_of_ok ht, callOn_class hc ha]
    rfl

lemma findMethod?_of_only {r : Routine} (honly : c.methods.filter (·.name = name) = [r])
    (n : Nat) : c.findMethod? name n = if r.params.length = n then some r else none := by
  unfold ClassInfo.findMethod?
  have hfind : c.methods.find? (fun m => m.name = name && m.params.length = n) =
      (c.methods.filter (·.name = name)).find? (·.params.length = n) := by
    simp [List.find?_filter]
  rw [hfind, honly, List.find?_singleton]
  simp

end

end LoopLowering.Machine
