import LoopLowering.Proofs.Machine.Dispatch
import LoopLowering.Proofs.Machine.Kind

/-! Calls of methods whose last parameter takes all further arguments. A method that has begun binds
any number of arguments; but every form of a call looks for a method with as many parameters as
there are arguments, and so finds such a method only if exactly one argument is left for its last
parameter. -/

namespace LoopLowering.Machine

/-- Parameters of which the last one alone takes all further arguments: the names and types of those
before it, and its name. -/
inductive Variadic : List Node → List (String × Node) → String → Prop
  | rest {p : Node} {ms : List Word} {x : String} {type : Node}
    (hp : p.shape = .parameter ms x true type) : Variadic [p] [] x
  | fixed {p : Node} {ps : List Node} {fixed : List (String × Node)} {ms : List Word}
    {x rest : String} {type : Node} (hp : p.shape = .parameter ms x false type)
    (h : Variadic ps fixed rest) : Variadic (p :: ps) ((x, type) :: fixed) rest

/-- The arguments of the fixed parameters as these hold them. -/
def converted (fixed : List (String × Node)) (args : List Value) : Except Fault (List Value) :=
  (fixed.zip args).mapM fun b => do (← typeInfo b.1.2).coerce b.2

/-- What the last parameter holds, and the store with it: a single argument that is an array, else a
new array. -/
def gathered (s : Store) : List Value → Value × Store
  | [v] =>
    if (v.array? s.heap).isSome then (v, s)
    else (.ref (.object s.heap.objects.size), s.extend #[.array #[v]])
  | args => (.ref (.object s.heap.objects.size), s.extend #[.array args.toArray])

def Bindings.putAll (bs new : Bindings) : Bindings :=
  new.foldl (fun bs b => bs.put b.name b.value (.declaration b.type)) bs

/-- The fixed parameters with their values, and the last one. -/
def bound (fixed : List (String × Node)) (ws : List Value) (rest : String) (last : Value) :
    Bindings :=
  (fixed.zip ws).map (fun b => ⟨b.1.1, b.2, (typeInfo b.1.2).toOption, false⟩) ++
    [⟨rest, last, none, false⟩]

def State.withScope (st : State) (bs : Bindings) : State :=
  { st with frame := { st.frame with scopes := [bs] } }

section

variable {ps : List Node} {fixed : List (String × Node)} {rest : String} {args ws : List Value}
  {st : State} {bs : Bindings} {f : Fault}

lemma collect_eq (args : List Value) (s : Store) :
    collect args s = .ok (gathered s args).1 (gathered s args).2 := by
  rcases args with _ | ⟨v, _ | ⟨w, vs⟩⟩
  · exact alloc_apply _ s
  · show (if (v.array? s.heap).isSome then pure v else alloc (.array #[v]) : StoreM Value) s = _
    by_cases hv : (v.array? s.heap).isSome
    · simp only [gathered, if_pos hv]
      rfl
    · simp only [gathered, if_neg hv]
      exact alloc_apply _ s
  · exact alloc_apply _ s

lemma declare_of_scopes (h : st.frame.scopes = [bs]) (x : String) (v : Value)
    (type : Option TypeInfo) :
    declare x v type st = .ok () (st.withScope (bs.put x v (.declaration type))) := by
  unfold declare
  rw [h]
  rfl

lemma converted_cons (x : String) (type : Node) (v : Value) :
    converted ((x, type) :: fixed) (v :: args) =
      (do
        let w ← (do (← typeInfo type).coerce v)
        let ws ← converted fixed args
        return w :: ws) := by
  unfold converted
  rw [List.zip_cons_cons, List.mapM_cons]

namespace Variadic

lemma length (h : Variadic ps fixed rest) : ps.length = fixed.length + 1 := by
  induction h with
  | rest => rfl
  | fixed _ _ ih => simp [ih]

lemma bind_ok (h : Variadic ps fixed rest) (hlen : fixed.length ≤ args.length)
    (hws : converted fixed args = .ok ws) (hst : st.frame.scopes = [bs]) :
    bindParameters ps args st =
      let last := gathered st.toStore (args.drop fixed.length)
      .ok () ({ st with toStore := last.2 }.withScope
        (bs.putAll (bound fixed ws rest last.1))) := by
  induction h generalizing args ws st bs with
  | @rest p ms x type hp =>
    obtain rfl : [] = ws := Except.ok.inj hws
    unfold bindParameters
    rw [hp]
    show ((liftM (collect args) : Exec Value) >>= (declare x ·)) st = _
    rw [bind_of_ok (liftM_of_ok (collect_eq args st.toStore))]
    have hscopes : ({ st with toStore := (gathered st.toStore args).2 } : State).frame.scopes =
        [bs] := hst
    exact declare_of_scopes hscopes x _ none
  | @fixed p ps fixed ms x rest type hp h ih =>
    cases args with
    | nil => simp at hlen
    | cons v args =>
      rw [converted_cons] at hws
      obtain ⟨w, hw, hws⟩ := exists_of_bind_eq_ok hws
      obtain ⟨ws, hrest, hws⟩ := exists_of_bind_eq_ok hws
      obtain rfl : w :: ws = _ := Except.ok.inj hws
      unfold bindParameters
      rw [hp]
      show ((liftM (coerceTo type v) : Exec Value) >>= fun w =>
        declare x w (typeInfo type).toOption >>= fun _ =>
        bindParameters ps args) st = _
      have hcoerce : coerceTo type v st.toStore = .ok w st.toStore := by
        rw [coerceTo, hw]
        rfl
      rw [bind_of_ok (liftM_of_ok hcoerce), bind_of_ok (declare_of_scopes hst x w _)]
      exact ih (Nat.le_of_succ_le_succ hlen) hrest rfl

lemma bind_error (h : Variadic ps fixed rest) (hlen : fixed.length ≤ args.length)
    (hf : converted fixed args = .error f) (hst : st.frame.scopes = [bs]) :
    ∃ u, bindParameters ps args st = .error (.fault f) u := by
  induction h generalizing args st bs with
  | rest => cases hf
  | @fixed p ps fixed ms x rest type hp h ih =>
    cases args with
    | nil => simp at hlen
    | cons v args =>
      rw [converted_cons] at hf
      unfold bindParameters
      rw [hp]
      show ∃ u, ((liftM (coerceTo type v) : Exec Value) >>= fun w =>
        declare x w (typeInfo type).toOption >>= fun _ =>
        bindParameters ps args) st = .error (.fault f) u
      cases hw : (do (← typeInfo type).coerce v : Except Fault Value) with
      | error g =>
        rw [hw] at hf
        obtain rfl : g = f := Except.error.inj hf
        refine ⟨st, bind_of_error ?_⟩
        rw [liftM_apply, coerceTo, hw]
        rfl
      | ok w =>
        have hcoerce : coerceTo type v st.toStore = .ok w st.toStore := by
          rw [coerceTo, hw]
          rfl
        have hrest : converted fixed args = .error f := by
          rw [hw] at hf
          cases hws : converted fixed args with
          | error g =>
            rw [hws] at hf
            exact congrArg Except.error (Except.error.inj hf)
          | ok ws =>
            rw [hws] at hf
            cases hf
        rw [bind_of_ok (liftM_of_ok hcoerce), bind_of_ok (declare_of_scopes hst x w _)]
        exact ih (Nat.le_of_succ_le_succ hlen) hrest rfl

end Variadic

end

/-- The state in which the body of a method starts, with all its arguments. -/
def State.begun (st : State) (className : String) (this : Option Nat)
    (fixed : List (String × Node)) (rest : String) (ws further : List Value) : State :=
  let last := gathered st.toStore further
  { st with
    toStore := last.2
    frame := { className, this, scopes := [Bindings.putAll [] (bound fixed ws rest last.1)] }
    steps := st.steps + 1 }

section

variable {ev : Evaluator} {r : Routine} {fixed : List (String × Node)} {rest : String}
  {args ws : List Value} {st : State} {f : Fault}

lemma invoke_eq (hlimit : (st.steps : Int) < ev.limit) (className : String)
    (this : Option Nat) (args : List Value) : ev.invoke className r this args st =
      (do
        noting .brokenBinding (bindParameters r.params args)
        ensuring (catchReturn (ev.execBody r.body)) (setFrame st.frame) : Exec Value)
        { st with frame := { className, this }, steps := st.steps + 1 } := by
  have htick : ev.tick st = .ok () (st.counted 1) := by
    show tick ev.limit st = _
    rw [tick_apply, if_neg (by push_cast; omega)]
  unfold Evaluator.invoke
  rw [bind_of_ok htick]
  rfl

lemma invoke_ok (h : Variadic r.params fixed rest) (hlimit : (st.steps : Int) < ev.limit)
    (hlen : fixed.length ≤ args.length) (hws : converted fixed args = .ok ws)
    (className : String) (this : Option Nat) : ev.invoke className r this args st =
      ensuring (catchReturn (ev.execBody r.body)) (setFrame st.frame)
        (st.begun className this fixed rest ws (args.drop fixed.length)) := by
  have hbind : noting .brokenBinding (bindParameters r.params args)
      { st with frame := { className, this }, steps := st.steps + 1 } =
        .ok () (st.begun className this fixed rest ws (args.drop fixed.length)) := by
    unfold noting
    rw [h.bind_ok hlen hws rfl]
    rfl
  rw [invoke_eq hlimit, bind_of_ok hbind]

lemma invoke_error (h : Variadic r.params fixed rest) (hlimit : (st.steps : Int) < ev.limit)
    (hlen : fixed.length ≤ args.length) (hf : converted fixed args = .error f)
    (className : String) (this : Option Nat) :
    ∃ u, ev.invoke className r this args st = .error (.fault f) u := by
  have hscopes : ({ st with frame := { className, this }, steps := st.steps + 1 } :
      State).frame.scopes = [[]] := rfl
  obtain ⟨u, hu⟩ := h.bind_error hlen hf hscopes
  rw [invoke_eq hlimit]
  refine ⟨_, bind_of_error (t := { u with incidents := .brokenBinding :: u.incidents }) ?_⟩
  unfold noting
  rw [hu]

end

/-- A call of the only method of its name, whose last parameter takes all further arguments, runs
the method if one argument is left for this parameter. With more or fewer the call finds no method,
in whatever form it stands, although the method would take them: started with any number of
arguments it has the first of them, converted, in its fixed parameters and the others, or the array
that is the only other, in the last one. -/
theorem variadic_calls {ev : Evaluator} {c : ClassInfo} {r : Routine} {name rest : String}
    {fixed : List (String × Node)} {nodes : List Node} {target : Option Node} {recv : Receiver}
    {args : List Value} {st mid u : State} (hc : ev.program.class? c.name = some c)
    (honly : c.methods.filter (·.name = name) = [r]) (hname : name ≠ "super")
    (hname' : name ≠ "this") (hr : Variadic r.params fixed rest)
    (hargs : ev.evalAll nodes st = .ok args mid) (hrecv : ev.Reaches c mid target recv u)
    (hlen : fixed.length ≤ args.length) (hlimit : (u.steps : Int) < ev.limit) :
    (args.length = fixed.length + 1 → ev.evalCall name target nodes st =
      ev.invoke c.name r (recv.this u.frame r) args u) ∧
    (args.length ≠ fixed.length + 1 → ev.evalCall name target nodes st =
      recv.missing c.name name args u) ∧
    (∀ ws, converted fixed args = .ok ws → ev.invoke c.name r (recv.this u.frame r) args u =
      ensuring (catchReturn (ev.execBody r.body)) (setFrame u.frame)
        (u.begun c.name (recv.this u.frame r) fixed rest ws (args.drop fixed.length))) ∧
    ∀ f, converted fixed args = .error f →
      ∃ w, ev.invoke c.name r (recv.this u.frame r) args u = .error (.fault f) w := by
  have hcall := evalCall_of_reaches hc hname hname' hargs hrecv
  rw [findMethod?_of_only honly, hr.length] at hcall
  refine ⟨fun hone => ?_, fun hother => ?_, fun ws hws => invoke_ok hr hlimit hlen hws _ _,
    fun f hf => invoke_error hr hlimit hlen hf _ _⟩
  · rw [hcall, if_pos hone.symm]
  · rw [hcall, if_neg (Ne.symm hother)]

theorem variadic_calls_two :
    let int : Node := .plain (.typeRef "int" 0 none)
    let a : Node := .plain (.parameter [] "a" false int)
    let xs : Node := .plain (.parameter [] "xs" true int)
    let body : Node := .plain (.block [.plain (.returnStmt (some
      (.plain (.fieldAccess "length" (.plain (.ident "xs"))))))])
    let r : Routine := ⟨"f", true, [a, xs], some body⟩
    let c : ClassInfo :=
      ⟨"A", [.plain (.methodDecl [.text "static"] [] "f" int [a, xs] [] (some body))]⟩
    let ev := evaluatorAt ⟨[c]⟩ 10 10
    let nodes : List Node := [.plain (.literal (.int 1) .int), .plain (.literal (.int 2) .int)]
    let st : State := { frame := { className := "A" } }
    ev.program.class? c.name = some c ∧ c.methods.filter (·.name = "f") = [r] ∧
      Variadic r.params [("a", int)] "xs" ∧ ev.evalAll nodes st = .ok [.int 1, .int 2] st ∧
      ev.Reaches c st none .enclosing st ∧ (st.steps : Int) < ev.limit ∧
      ∃ u, ev.evalCall "f" none nodes st = .ok (.int 1) u := by
  intro int a xs body r c ev nodes st
  have hc : ev.program.class? c.name = some c := rfl
  have honly : c.methods.filter (·.name = "f") = [r] := rfl
  have hr : Variadic r.params [("a", int)] "xs" := .fixed rfl (.rest rfl)
  have hargs : ev.evalAll nodes st = .ok [.int 1, .int 2] st := rfl
  have hrecv : ev.Reaches c st none .enclosing st := .enclosing rfl
  have hlimit : (st.steps : Int) < ev.limit := by decide
  obtain ⟨hcall, -, hinvoke, -⟩ := variadic_calls hc honly (by decide) (by decide) hr hargs hrecv
    (by decide) hlimit
  refine ⟨hc, honly, hr, hargs, hrecv, hlimit, ?_⟩
  rw [hcall rfl, hinvoke [.int 1] rfl]
  exact ⟨_, rfl⟩

/-- With two arguments for its only parameter, a method that takes any number is not found. -/
theorem further_arguments_unfound :
    let int : Node := .plain (.typeRef "int" 0 none)
    let xs : Node := .plain (.parameter [] "xs" true int)
    let c : ClassInfo :=
      ⟨"A", [.plain (.methodDecl [.text "static"] [] "f" int [xs] [] (some (.plain .emptyStmt)))]⟩
    let nodes : List Node := [.plain (.literal (.int 1) .int), .plain (.literal (.int 2) .int)]
    let st : State := { frame := { className := "A" } }
    (evaluatorAt ⟨[c]⟩ 10 10).eval (.plain (.methodCall "f" none nodes)) st =
      .error (.failed (.unknownMethod "f")) st :=
  rfl

end LoopLowering.Machine
