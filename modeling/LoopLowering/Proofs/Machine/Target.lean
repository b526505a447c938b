import LoopLowering.Proofs.Machine.Contract
import LoopLowering.Proofs.Machine.Slot
import LoopLowering.Proofs.Tree.Nodes

/-! Compound assignment and the counting operators. They evaluate their target to read it and again
to write it. If the parts of the target only read, and the right side leaves what they read, the
slot that is written is the one that was read, as if the target had been evaluated once. -/

namespace LoopLowering.Machine

variable {α β : Type}

inductive Meaning where
  | value (v : Value)
  | place (s : Slot)

def Meaning.value? (st : State) : Meaning → Option Value
  | value v => some v
  | place s => st.slot? s

/-- The meaning of an expression that only reads: one without calls, creations, assignments and
counting. -/
inductive Denotes (p : Program) (st : State) : Node → Meaning → Prop
  | literal {n : Node} {c : Constant} {kind : LiteralKind} (hn : n.shape = .literal c kind) :
    Denotes p st n (.value (literal c kind))
  | this {n : Node} (hn : n.shape = .thisExpr) :
    Denotes p st n (.value (Evaluator.addressOf st.frame.this))
  | parens {n e : Node} {m : Meaning} (hn : n.shape = .parens e) (he : Denotes p st e m) :
    Denotes p st n m
  | name {n : Node} {x : String} {b : Binding} (hn : n.shape = .ident x)
    (hx : st.resolve x = some b) : Denotes p st n (.place (.bound b x))
  | field {n t : Node} {x : String} {a : Nat} (hn : n.shape = .fieldAccess x t)
    (ht : Denotes p st t (.value (.ref (.object a)))) :
    Denotes p st n (.place (.bound (.field a) x))
  | static {n t : Node} {x c : String} (hn : n.shape = .fieldAccess x t) (ht : t.shape = .ident c)
    (hc : st.content? c = none) (hdeclared : p.declares c = true) :
    Denotes p st n (.place (.bound (.static c) x))
  | element {n t i : Node} {a k : Nat} {w : Value} (hn : n.shape = .arrayAccess t i)
    (ht : Denotes p st t (.value (.ref (.object a)))) (hi : Denotes p st i (.value w))
    (hw : widen w = .ok (.int k)) : Denotes p st n (.place (.element a k))
  | content {n : Node} {s : Slot} {v : Value} (hn : Denotes p st n (.place s))
    (hv : st.slot? s = some v) : Denotes p st n (.value v)
  | length {n t : Node} {a : Nat} {items : Array Value} (hn : n.shape = .fieldAccess "length" t)
    (ht : Denotes p st t (.value (.ref (.object a))))
    (ha : st.heap.objects[a]? = some (.array items)) : Denotes p st n (.value (.int items.size))
  | unary {n e : Node} {op : UnaryOp} {after : Bool} {a v : Value}
    (hn : n.shape = .unary op after e) (hop : op ≠ .increment ∧ op ≠ .decrement)
    (he : Denotes p st e (.value a))
    (hv : ∀ t, st.toStore.Grown t → applyUnary op a t = .ok v t) : Denotes p st n (.value v)
  | binary {n l r : Node} {op : BinaryOp} {a b v : Value} (hn : n.shape = .binary op l r)
    (hop : op ≠ .and ∧ op ≠ .or) (hl : Denotes p st l (.value a)) (hr : Denotes p st r (.value b))
    (hv : ∀ t, st.toStore.Grown t → applyBinary op a b t = .ok v t) : Denotes p st n (.value v)
  | and {n l r : Node} {a b : Bool} (hn : n.shape = .binary .and l r)
    (hl : Denotes p st l (.value (.bool a)))
    (hr : a = true → Denotes p st r (.value (.bool b))) : Denotes p st n (.value (.bool (a && b)))
  | or {n l r : Node} {a b : Bool} (hn : n.shape = .binary .or l r)
    (hl : Denotes p st l (.value (.bool a)))
    (hr : a = false → Denotes p st r (.value (.bool b))) : Denotes p st n (.value (.bool (a || b)))
  | conditional {n c t e : Node} {b : Bool} {v : Value} (hn : n.shape = .conditional c t e)
    (hc : Denotes p st c (.value (.bool b))) (hv : Denotes p st (if b then t else e) (.value v)) :
    Denotes p st n (.value v)
  | cast {n type e : Node} {t : TypeInfo} {a v : Value} (hn : n.shape = .cast type e)
    (ht : typeInfo type = .ok t) (he : Denotes p st e (.value a)) (hv : t.cast a = .ok v) :
    Denotes p st n (.value v)
  | instanceOf {n e type : Node} {name : String} {a : Value} {b : Bool}
    (hn : n.shape = .instanceOf e type) (ht : nameOf type = .ok name)
    (he : Denotes p st e (.value a))
    (hb : ∀ t, st.toStore.Grown t → Machine.instanceOf t.heap a name = b) :
    Denotes p st n (.value (.bool b))

lemma liftM_of_ok {c : StoreM α} {st : State} {a : α} {t : Store} (h : c st.toStore = .ok a t) :
    (liftM c : Exec α) st = .ok a { st with toStore := t } := by
  rw [liftM_apply, h]

variable {p : Program} {limit : Int} {st u : State} {n : Node} {m : Meaning} {v : Value}

lemma part_size {n c : Node} {s : Shape Node} {d : Nat} (hd : n.size ≤ d + 1) (hn : n.shape = s)
    (hc : c ∈ s.children) : c.size ≤ d := by
  obtain ⟨t, s'⟩ := n
  obtain rfl : s' = s := hn
  have := Node.size_lt_of_mem (t := t) hc
  omega

lemma eval_eq {s : Shape Node} (hn : n.shape = s) (p : Program) (limit : Int) (k : Nat)
    (st : State) : (evaluatorAt p limit (k + 1)).eval n st =
      (evaluatorAt p limit k).expression (.plain s) st := by
  obtain ⟨t, s'⟩ := n
  obtain rfl : s' = s := hn
  rfl

lemma eval_class (limit : Int) {c : String} {d : Nat} (hn : n.shape = .ident c)
    (hc : st.content? c = none) (hdeclared : p.declares c = true) (hd : n.size ≤ d) :
    ∃ j w, (evaluatorAt p limit d).eval n st = .ok (.ref (.object j)) w ∧ st.Grown w ∧
      w.heap.objects[j]? = some (.classRef c) := by
  obtain ⟨d, rfl⟩ := Nat.exists_eq_add_of_le' (n.one_le_size.trans hd)
  refine ⟨st.heap.objects.size, _, ?_, ⟨_, .push st.toStore (o := .classRef c) rfl, rfl⟩,
    Array.getElem?_push_size⟩
  rw [eval_eq hn]
  show (evaluatorAt p limit d).evalName c st = _
  rw [Evaluator.evalName_of_none _ hc]
  show (evaluatorAt p limit d).classRef c st = _
  unfold Evaluator.classRef
  rw [evaluatorAt_program, hdeclared]
  rfl

lemma truth_of_ok {ev : Evaluator} {c : Node} {b : Bool} (h : ev.eval c st = .ok (.bool b) u) :
    ev.truth c st = .ok b u := by
  unfold Evaluator.truth
  rw [bind_of_ok h]
  rfl

lemma evalIndex_of_ok {ev : Evaluator} {t i : Node} {w x y : Value} {st₁ st₂ : State}
    (ht : ev.eval t st = .ok x st₁) (hi : ev.eval i st₁ = .ok w st₂) (hw : widen w = .ok y) :
    ev.evalIndex t i st = .ok (x, y) st₂ := by
  unfold Evaluator.evalIndex
  rw [bind_of_ok ht, bind_of_ok hi, hw]
  rfl

def Reading (p : Program) (limit : Int) (st : State) (n : Node) (v : Value) : Prop :=
  ∀ d u, n.size ≤ d → st.Grown u →
    ∃ w, (evaluatorAt p limit d).eval n u = .ok v w ∧ u.Grown w

namespace Reading

variable {t i e l r c : Node} {x : String} {a b w : Value}

lemma of_expression {s : Shape Node} (hn : n.shape = s)
    (h : ∀ d u, (∀ c ∈ s.children, c.size ≤ d) → st.Grown u →
      ∃ w, (evaluatorAt p limit d).expression (.plain s) u = .ok v w ∧ u.Grown w) :
    Reading p limit st n v := by
  intro d u hd hu
  obtain ⟨d, rfl⟩ := Nat.exists_eq_add_of_le' (n.one_le_size.trans hd)
  rw [eval_eq hn]
  exact h d u (fun c hc => part_size hd hn hc) hu

lemma literal {k : Constant} {kind : LiteralKind} (hn : n.shape = .literal k kind) :
    Reading p limit st n (literal k kind) :=
  of_expression hn fun _ u _ _ => ⟨u, rfl, .refl u⟩

lemma this (hn : n.shape = .thisExpr) :
    Reading p limit st n (Evaluator.addressOf st.frame.this) :=
  of_expression hn fun _ u _ hu => ⟨u, hu.frame ▸ rfl, .refl u⟩

lemma parens (hn : n.shape = .parens e) (he : Reading p limit st e v) : Reading p limit st n v :=
  of_expression hn fun d u hd hu => he d u (hd e (.head _)) hu

lemma name (hn : n.shape = .ident x) (hx : st.content? x = some v) : Reading p limit st n v :=
  of_expression hn fun _ u _ hu => ⟨u, Evaluator.evalName_of_value _ ((hu.content? x).trans hx), .refl u⟩

lemma field {k : Nat} (hn : n.shape = .fieldAccess x t)
    (ht : Reading p limit st t (.ref (.object k)))
    (hv : st.slot? (.bound (.field k) x) = some v) : Reading p limit st n v := by
  refine of_expression hn fun d u hd hu => ?_
  obtain ⟨w, hw, hgrown⟩ := ht d u (hd t (.head _)) hu
  obtain ⟨c, fields, hrecord, hx⟩ := State.slot?_field.mp hv
  refine ⟨w, ?_, hgrown⟩
  show ((evaluatorAt p limit d).eval t >>= _) u = _
  rw [bind_of_ok hw]
  exact liftM_of_ok (fieldOf_record (hgrown.objects (hu.objects hrecord)) hx)

lemma length {k : Nat} {items : Array Value} (hn : n.shape = .fieldAccess "length" t)
    (ht : Reading p limit st t (.ref (.object k)))
    (hk : st.heap.objects[k]? = some (.array items)) :
    Reading p limit st n (.int items.size) := by
  refine of_expression hn fun d u hd hu => ?_
  obtain ⟨w, hw, hgrown⟩ := ht d u (hd t (.head _)) hu
  refine ⟨w, ?_, hgrown⟩
  show ((evaluatorAt p limit d).eval t >>= _) u = _
  rw [bind_of_ok hw]
  exact liftM_of_ok (fieldOf_length (hgrown.objects (hu.objects hk)))

lemma static {k : String} (hn : n.shape = .fieldAccess x t) (ht : t.shape = .ident k)
    (hk : st.content? k = none) (hdeclared : p.declares k = true)
    (hv : st.slot? (.bound (.static k) x) = some v) : Reading p limit st n v := by
  refine of_expression hn fun d u hd hu => ?_
  obtain ⟨j, w, hw, hgrown, hj⟩ :=
    eval_class limit ht ((hu.content? k).trans hk) hdeclared (hd t (.head _))
  refine ⟨w, ?_, hgrown⟩
  show ((evaluatorAt p limit d).eval t >>= _) u = _
  rw [bind_of_ok hw]
  exact liftM_of_ok (fieldOf_class hj ((hu.trans hgrown).slot? hv))

lemma element {j k : Nat} (hn : n.shape = .arrayAccess t i)
    (ht : Reading p limit st t (.ref (.object j))) (hi : Reading p limit st i w)
    (hw : widen w = .ok (.int k)) (hv : st.slot? (.element j k) = some v) :
    Reading p limit st n v := by
  refine of_expression hn fun d u hd hu => ?_
  obtain ⟨u₁, h₁, hu₁⟩ := ht d u (hd t (.head _)) hu
  obtain ⟨u₂, h₂, hu₂⟩ := hi d u₁ (hd i (.tail _ (.head _))) (hu.trans hu₁)
  obtain ⟨items, harray, hk⟩ := State.slot?_element.mp hv
  refine ⟨u₂, ?_, hu₁.trans hu₂⟩
  show ((evaluatorAt p limit d).evalIndex t i >>= _) u = _
  rw [bind_of_ok (evalIndex_of_ok h₁ h₂ hw)]
  exact liftM_of_ok (elementAt_of_lt (hu₂.objects (hu₁.objects (hu.objects harray))) hk)

lemma unary {op : UnaryOp} {after : Bool} (hn : n.shape = .unary op after e)
    (hop : op ≠ .increment ∧ op ≠ .decrement) (he : Reading p limit st e a)
    (hv : ∀ t, st.toStore.Grown t → applyUnary op a t = .ok v t) : Reading p limit st n v := by
  refine of_expression hn fun d u hd hu => ?_
  obtain ⟨w, hw, hgrown⟩ := he d u (hd e (.head _)) hu
  have hrule : (evaluatorAt p limit d).evalUnary op after e =
      (do applyUnary op (← (evaluatorAt p limit d).eval e)) := by
    cases op with
    | increment => exact absurd rfl hop.1
    | decrement => exact absurd rfl hop.2
    | _ => rfl
  refine ⟨w, ?_, hgrown⟩
  show (evaluatorAt p limit d).evalUnary op after e u = _
  rw [hrule, bind_of_ok hw]
  exact liftM_of_ok (hv w.toStore (hu.trans hgrown).toStore)

lemma binary {op : BinaryOp} (hn : n.shape = .binary op l r) (hop : op ≠ .and ∧ op ≠ .or)
    (hl : Reading p limit st l a) (hr : Reading p limit st r b)
    (hv : ∀ t, st.toStore.Grown t → applyBinary op a b t = .ok v t) :
    Reading p limit st n v := by
  refine of_expression hn fun d u hd hu => ?_
  obtain ⟨u₁, h₁, hu₁⟩ := hl d u (hd l (.head _)) hu
  obtain ⟨u₂, h₂, hu₂⟩ := hr d u₁ (hd r (.tail _ (.head _))) (hu.trans hu₁)
  have hrule : (evaluatorAt p limit d).evalBinary op l r = (do
      let a ← (evaluatorAt p limit d).eval l
      let b ← (evaluatorAt p limit d).eval r
      applyBinary op a b) := by
    cases op with
    | and => exact absurd rfl hop.1
    | or => exact absurd rfl hop.2
    | _ => rfl
  refine ⟨u₂, ?_, hu₁.trans hu₂⟩
  show (evaluatorAt p limit d).evalBinary op l r u = _
  rw [hrule, bind_of_ok h₁, bind_of_ok h₂]
  exact liftM_of_ok (hv u₂.toStore ((hu.trans hu₁).trans hu₂).toStore)

lemma truth {k : Bool} {d : Nat} (hc : Reading p limit st c (.bool k)) (hd : c.size ≤ d)
    (hu : st.Grown u) : ∃ w, (evaluatorAt p limit d).truth c u = .ok k w ∧ u.Grown w := by
  obtain ⟨w, hw, hgrown⟩ := hc d u hd hu
  exact ⟨w, truth_of_ok hw, hgrown⟩

lemma and {j k : Bool} (hn : n.shape = .binary .and l r) (hl : Reading p limit st l (.bool j))
    (hr : j = true → Reading p limit st r (.bool k)) : Reading p limit st n (.bool (j && k)) := by
  refine of_expression hn fun d u hd hu => ?_
  obtain ⟨u₁, h₁, hu₁⟩ := hl.truth (hd l (.head _)) hu
  have hrule : (evaluatorAt p limit d).evalBinary .and l r u =
      (if j then (do return .bool (← (evaluatorAt p limit d).truth r)) else
        pure (.bool false) : Exec Value) u₁ := bind_of_ok h₁
  show ∃ w, (evaluatorAt p limit d).evalBinary .and l r u = _ ∧ _
  rw [hrule]
  cases j with
  | false => exact ⟨u₁, rfl, hu₁⟩
  | true =>
    obtain ⟨u₂, h₂, hu₂⟩ := (hr rfl).truth (hd r (.tail _ (.head _))) (hu.trans hu₁)
    exact ⟨u₂, bind_of_ok h₂, hu₁.trans hu₂⟩

lemma or {j k : Bool} (hn : n.shape = .binary .or l r) (hl : Reading p limit st l (.bool j))
    (hr : j = false → Reading p limit st r (.bool k)) : Reading p limit st n (.bool (j || k)) := by
  refine of_expression hn fun d u hd hu => ?_
  obtain ⟨u₁, h₁, hu₁⟩ := hl.truth (hd l (.head _)) hu
  have hrule : (evaluatorAt p limit d).evalBinary .or l r u =
      (if j then pure (.bool true) else
        (do return .bool (← (evaluatorAt p limit d).truth r)) : Exec Value) u₁ := bind_of_ok h₁
  show ∃ w, (evaluatorAt p limit d).evalBinary .or l r u = _ ∧ _
  rw [hrule]
  cases j with
  | true => exact ⟨u₁, rfl, hu₁⟩
  | false =>
    obtain ⟨u₂, h₂, hu₂⟩ := (hr rfl).truth (hd r (.tail _ (.head _))) (hu.trans hu₁)
    exact ⟨u₂, bind_of_ok h₂, hu₁.trans hu₂⟩

lemma conditional {k : Bool} (hn : n.shape = .conditional c t e)
    (hc : Reading p limit st c (.bool k)) (hv : Reading p limit st (if k then t else e) v) :
    Reading p limit st n v := by
  refine of_expression hn fun d u hd hu => ?_
  obtain ⟨u₁, h₁, hu₁⟩ := hc.truth (hd c (.head _)) hu
  have hsize : (if k then t else e).size ≤ d := by
    cases k with
    | true => exact hd t (.tail _ (.head _))
    | false => exact hd e (.tail _ (.tail _ (.head _)))
  obtain ⟨u₂, h₂, hu₂⟩ := hv d u₁ hsize (hu.trans hu₁)
  refine ⟨u₂, ?_, hu₁.trans hu₂⟩
  show ((evaluatorAt p limit d).truth c >>= _) u = _
  rw [bind_of_ok h₁]
  cases k <;> exact h₂

lemma cast {type : Node} {t : TypeInfo} (hn : n.shape = .cast type e)
    (ht : typeInfo type = .ok t) (he : Reading p limit st e a) (hv : t.cast a = .ok v) :
    Reading p limit st n v := by
  refine of_expression hn fun d u hd hu => ?_
  obtain ⟨w, hw, hgrown⟩ := he d u (hd e (.tail _ (.head _))) hu
  refine ⟨w, ?_, hgrown⟩
  show ((evaluatorAt p limit d).eval e >>= _) u = _
  rw [bind_of_ok hw, ht]
  show (liftM (faultless (t.cast a)) : Exec Value) w = _
  rw [hv]
  rfl

lemma instanceOf {type : Node} {name : String} {k : Bool} (hn : n.shape = .instanceOf e type)
    (ht : nameOf type = .ok name) (he : Reading p limit st e a)
    (hk : ∀ t, st.toStore.Grown t → Machine.instanceOf t.heap a name = k) :
    Reading p limit st n (.bool k) := by
  refine of_expression hn fun d u hd hu => ?_
  obtain ⟨w, hw, hgrown⟩ := he d u (hd e (.head _)) hu
  refine ⟨w, ?_, hgrown⟩
  show ((evaluatorAt p limit d).eval e >>= _) u = _
  rw [bind_of_ok hw, ht, ← hk w.toStore (hu.trans hgrown).toStore]
  rfl

end Reading

lemma Denotes.reading (limit : Int) (h : Denotes p st n m) (hv : m.value? st = some v) :
    Reading p limit st n v := by
  induction h generalizing v with
  | literal hn => exact Option.some.inj hv ▸ .literal hn
  | this hn => exact Option.some.inj hv ▸ .this hn
  | parens hn _ ih => exact .parens hn (ih hv)
  | name hn hx => exact .name hn (by rw [State.content?, hx]; exact hv)
  | field hn _ ih => exact .field hn (ih rfl) hv
  | static hn ht hc hdeclared => exact .static hn ht hc hdeclared hv
  | element hn _ _ hw iht ihi => exact .element hn (iht rfl) (ihi rfl) hw hv
  | content _ hs ih => exact Option.some.inj hv ▸ ih hs
  | length hn _ ha ih => exact Option.some.inj hv ▸ .length hn (ih rfl) ha
  | unary hn hop _ happly ih => exact .unary hn hop (ih rfl) (Option.some.inj hv ▸ happly)
  | binary hn hop _ _ happly ihl ihr =>
    exact .binary hn hop (ihl rfl) (ihr rfl) (Option.some.inj hv ▸ happly)
  | and hn _ _ ihl ihr => exact Option.some.inj hv ▸ .and hn (ihl rfl) fun h => ihr h rfl
  | or hn _ _ ihl ihr => exact Option.some.inj hv ▸ .or hn (ihl rfl) fun h => ihr h rfl
  | conditional hn _ _ ihc ihv => exact .conditional hn (ihc rfl) (ihv hv)
  | cast hn ht _ hcast ih => exact .cast hn ht (ih rfl) (Option.some.inj hv ▸ hcast)
  | instanceOf hn ht _ hb ih => exact Option.some.inj hv ▸ .instanceOf hn ht (ih rfl) hb

lemma Denotes.assign (limit : Int) {s : Slot} {old : Value} {d : Nat}
    (h : Denotes p st n (.place s)) (hold : st.slot? s = some old) (hd : n.size ≤ d)
    (hu : st.Grown u) (v : Value) (origin : Origin) :
    ∃ w, (evaluatorAt p limit d).assign n v origin u = .ok () w ∧ (u.put v origin s).Grown w := by
  generalize hm : Meaning.place s = m at h
  induction h with
  | @parens n e m hn he ih =>
    have hsize : e.size ≤ d := part_size (Nat.le_succ_of_le hd) hn (.head _)
    obtain ⟨t, s'⟩ := n
    obtain rfl : s' = .parens e := hn
    exact ih hsize hm
  | @name n x b hn hx =>
    cases hm
    obtain ⟨t, s'⟩ := n
    obtain rfl : s' = .ident x := hn
    exact ⟨_, assignName_resolved ((hu.resolve x).trans hx) v origin, .refl _⟩
  | @field n t x a hn ht =>
    cases hm
    have hsize : t.size ≤ d := part_size (Nat.le_succ_of_le hd) hn (.head _)
    obtain ⟨w, hw, hgrown⟩ := ht.reading limit rfl d u hsize hu
    obtain ⟨c, fields, hrecord, -⟩ := State.slot?_field.mp hold
    obtain ⟨tag, s'⟩ := n
    obtain rfl : s' = .fieldAccess x t := hn
    refine ⟨_, ?_, hgrown.put (hu.slot? hold) v origin⟩
    show ((evaluatorAt p limit d).eval t >>= _) u = _
    rw [bind_of_ok hw]
    show (liftM ((evaluatorAt p limit d).putField w.heap (.ref (.object a)) x v origin) :
      Exec Unit) w = _
    rw [putField_record _ _ (hgrown.objects (hu.objects hrecord))]
    exact setField_put a x v origin w
  | @static n t x c hn ht hc hdeclared =>
    cases hm
    have hsize : t.size ≤ d := part_size (Nat.le_succ_of_le hd) hn (.head _)
    obtain ⟨j, w, hw, hgrown, hj⟩ :=
      eval_class limit ht ((hu.content? c).trans hc) hdeclared hsize
    obtain ⟨tag, s'⟩ := n
    obtain rfl : s' = .fieldAccess x t := hn
    refine ⟨_, ?_, hgrown.put (hu.slot? hold) v origin⟩
    show ((evaluatorAt p limit d).eval t >>= _) u = _
    rw [bind_of_ok hw]
    show (liftM ((evaluatorAt p limit d).putField w.heap (.ref (.object j)) x v origin) :
      Exec Unit) w = _
    rw [putField_class _ _ hj (by rw [evaluatorAt_program, hdeclared])]
    rfl
  | @element n t i a k w hn ht hi hw =>
    cases hm
    have hsize : t.size ≤ d ∧ i.size ≤ d := ⟨part_size (Nat.le_succ_of_le hd) hn (.head _),
      part_size (Nat.le_succ_of_le hd) hn (.tail _ (.head _))⟩
    obtain ⟨u₁, h₁, hu₁⟩ := ht.reading limit rfl d u hsize.1 hu
    obtain ⟨u₂, h₂, hu₂⟩ := hi.reading limit rfl d u₁ hsize.2 (hu.trans hu₁)
    obtain ⟨items, harray, hk⟩ := State.slot?_element.mp hold
    obtain ⟨tag, s'⟩ := n
    obtain rfl : s' = .arrayAccess t i := hn
    refine ⟨_, ?_, (hu₁.trans hu₂).put (hu.slot? hold) v origin⟩
    show ((evaluatorAt p limit d).evalIndex t i >>= _) u = _
    rw [bind_of_ok (evalIndex_of_ok h₁ h₂ hw)]
    exact setElement_put (hu₂.objects (hu₁.objects (hu.objects harray)))
      (Array.getElem?_eq_some_iff.mp hk).1 v origin
  | _ => cases hm

/-- What is left of a compound assignment once its target has been read: it is not evaluated
again. -/
def Evaluator.compoundAt (ev : Evaluator) (slot : Slot) (op : BinaryOp) (old : Value) (e : Node) :
    Exec Value := do
  let new ← applyBinary op old (← ev.eval e)
  let v ← faultless (fitCompound old new)
  modify (·.put v (.operator old) slot)
  return v

/-- What is left of counting up or down once the target has been read. -/
def countAt (slot : Slot) (up after : Bool) (old : Value) : Exec Value := do
  let new ← step up old
  modify (·.put new (.operator old) slot)
  return if after then old else new

/-- Code ends as other code does, except for new objects. -/
inductive AsIf : EStateM.Result Signal State α → EStateM.Result Signal State α → Prop
  | ok (a : α) {t u : State} (h : t.Grown u) : AsIf (.ok a u) (.ok a t)
  | error (e : Signal) (t : State) : AsIf (.error e t) (.error e t)

lemma AsIf.exists_of_ok {r : EStateM.Result Signal State α} {a : α} (h : AsIf r (.ok a st)) :
    ∃ u, r = .ok a u ∧ st.Grown u := by
  cases h with
  | ok _ h => exact ⟨_, rfl, h⟩

lemma AsIf.bind {c : Exec α} {f g : α → Exec β}
    (h : ∀ a t, c st = .ok a t → AsIf (f a t) (g a t)) : AsIf ((c >>= f) st) ((c >>= g) st) := by
  cases hc : c st with
  | ok a t =>
    rw [bind_of_ok hc, bind_of_ok hc]
    exact h a t hc
  | error e t =>
    rw [bind_of_error hc, bind_of_error hc]
    exact .error e t

lemma grown_of_lift {c : StoreM α} [hc : Creating c] {a : α}
    (h : (liftM c : Exec α) st = .ok a u) : st.Grown u := by
  rw [liftM_apply] at h
  cases hs : c st.toStore with
  | ok b t =>
    rw [hs] at h
    cases h
    exact ⟨t, hc.grown _ _ _ hs, rfl⟩
  | error e t =>
    rw [hs] at h
    cases h

lemma Denotes.assign_asIf (limit : Int) {slot : Slot} {old : Value} {d : Nat}
    (h : Denotes p st n (.place slot)) (hold : st.slot? slot = some old) (hd : n.size ≤ d)
    (hu : st.Grown u) (v : Value) (origin : Origin) (a : α) :
    AsIf (((evaluatorAt p limit d).assign n v origin >>= fun _ => pure a) u)
      ((modify (·.put v origin slot) >>= fun _ => pure a : Exec α) u) := by
  obtain ⟨w, hw, hgrown⟩ := h.assign limit hold hd hu v origin
  rw [bind_of_ok hw]
  exact .ok a hgrown

lemma evalAssign_of_ok {ev : Evaluator} {op : AssignOp} {binary : BinaryOp} {target e : Node}
    {old : Value} (hop : op.operator? = some binary) (hold : ev.eval target st = .ok old u) :
    ev.evalAssign op target e st = (do
      let new ← applyBinary binary old (← ev.eval e)
      let v ← faultless (fitCompound old new)
      ev.assign target v (.operator old)
      return v : Exec Value) u := by
  unfold Evaluator.evalAssign Evaluator.assignedValue
  rw [hop]
  simp only [bind_assoc, pure_bind]
  rw [bind_of_ok hold]

/-- A compound assignment and a counting operator whose target has only parts that read do as if the
target was evaluated once: the slot that is written is the one that was read. For a compound
assignment the target must still name it after the right side. -/
theorem target_once (p : Program) (limit : Int) (depth : Nat) {st : State} {target : Node}
    {slot : Slot} {old : Value} (htarget : Denotes p st target (.place slot))
    (hold : st.slot? slot = some old) (hroom : target.size ≤ depth) :
    ∃ mid, st.Grown mid ∧ (evaluatorAt p limit depth).eval target st = .ok old mid ∧
      (∀ n op binary e, n.shape = .assign op target e → op.operator? = some binary →
        (∀ b done, (evaluatorAt p limit depth).eval e mid = .ok b done →
          Denotes p done target (.place slot) ∧ (done.slot? slot).isSome) →
        AsIf ((evaluatorAt p limit (depth + 1)).eval n st)
          ((evaluatorAt p limit depth).compoundAt slot binary old e mid)) ∧
      ∀ n up after, n.shape = .unary (if up then .increment else .decrement) after target →
        AsIf ((evaluatorAt p limit (depth + 1)).eval n st) (countAt slot up after old mid) := by
  obtain ⟨mid, hmid, hgrown⟩ :=
    htarget.reading limit hold depth st hroom (.refl st)
  refine ⟨mid, hgrown, hmid, fun n op binary e hn hop hright => ?_, fun n up after hn => ?_⟩
  · rw [eval_eq hn]
    show AsIf ((evaluatorAt p limit depth).evalAssign op target e st) _
    rw [evalAssign_of_ok hop hmid]
    refine .bind fun b done hb => .bind fun new u hnew => .bind fun v w hv => ?_
    obtain ⟨hdone, hsome⟩ := hright b done hb
    obtain ⟨now, hnow⟩ := Option.isSome_iff_exists.mp hsome
    exact hdone.assign_asIf limit hnow hroom ((grown_of_lift hnew).trans (grown_of_lift hv)) v _ v
  · rw [eval_eq hn]
    have hrule : (evaluatorAt p limit depth).expression
        (.plain (.unary (if up then .increment else .decrement) after target)) st =
        (evaluatorAt p limit depth).evalStep up after target st := by
      cases up <;> rfl
    rw [hrule]
    unfold Evaluator.evalStep
    rw [bind_of_ok hmid]
    refine .bind fun new u hnew => ?_
    exact htarget.assign_asIf limit hold hroom (hgrown.trans (grown_of_lift hnew)) new _ _

theorem target_once_next_element :
    let target : Node := .plain (.arrayAccess (.plain (.ident "xs"))
      (.plain (.binary .add (.plain (.ident "i")) (.plain (.literal (.int 1) .int)))))
    let n : Node := .plain (.assign (.compound .add) target (.plain (.literal (.int 2) .int)))
    let st : State :=
      { heap := { objects := #[.array #[.int 5, .int 7]] }
        frame := { className := "A", scopes :=
          [[⟨"xs", .ref (.object 0), none, false⟩, ⟨"i", .int 0, none, false⟩]] } }
    Denotes ⟨[]⟩ st target (.place (.element 0 1)) ∧ st.slot? (.element 0 1) = some (.int 7) ∧
      target.size ≤ 5 ∧ ∃ u, (evaluatorAt ⟨[]⟩ 10 6).eval n st = .ok (.int 9) u ∧
        u.slot? (.element 0 1) = some (.int 9) := by
  intro target n st
  have harray : Denotes ⟨[]⟩ st (.plain (.ident "xs")) (.value (.ref (.object 0))) :=
    .content (.name rfl rfl : Denotes _ _ _ (.place (.bound (.scope 0) "xs"))) rfl
  have hi : Denotes ⟨[]⟩ st (.plain (.ident "i")) (.value (.int 0)) :=
    .content (.name rfl rfl : Denotes _ _ _ (.place (.bound (.scope 0) "i"))) rfl
  have hindex : Denotes ⟨[]⟩ st (.plain (.binary .add (.plain (.ident "i"))
      (.plain (.literal (.int 1) .int)))) (.value (.int 1)) :=
    .binary rfl ⟨nofun, nofun⟩ hi (.literal rfl) fun _ _ => rfl
  have htarget : Denotes ⟨[]⟩ st target (.place (.element 0 1)) := .element rfl harray hindex rfl
  have hold : st.slot? (.element 0 1) = some (.int 7) := rfl
  obtain ⟨mid, -, hmid, hcompound, -⟩ := target_once ⟨[]⟩ 10 5 htarget hold (by decide)
  have hread : (evaluatorAt ⟨[]⟩ 10 5).eval target st = .ok (.int 7) st := rfl
  obtain rfl : st = mid := by
    rw [hread] at hmid
    cases hmid
    rfl
  have hdone : (evaluatorAt ⟨[]⟩ 10 5).compoundAt (.element 0 1) .add (.int 7)
      (.plain (.literal (.int 2) .int)) st =
        .ok (.int 9) (st.put (.int 9) (.operator (.int 7)) (.element 0 1)) := rfl
  have hasIf := hcompound n (.compound .add) .add _ rfl rfl fun b done hb => by
    cases hb
    exact ⟨htarget, rfl⟩
  obtain ⟨u, hu, hgrown⟩ := (hdone ▸ hasIf).exists_of_ok
  exact ⟨htarget, hold, by decide, u, hu, hgrown.slot? (State.slot?_put_self hold)⟩

def countingIndex : Program.Sample fun p =>
    (Setup.execute ⟨p, 20000⟩ "main" none).state.out == "1\n11\n2\n" where
  text := "class A { public static void main(String[] a) { int[] xs = {1, 2}; int i = 0; xs[i++] += 10; System.out.println(xs[0]); System.out.println(xs[1]); System.out.println(i); } }"
  passes := by decide +kernel

theorem counting_index_twice : ∃ p, Program.ofText?
    "class A { public static void main(String[] a) { int[] xs = {1, 2}; int i = 0; xs[i++] += 10; System.out.println(xs[0]); System.out.println(xs[1]); System.out.println(i); } }" =
      some p ∧ (Setup.execute ⟨p, 20000⟩ "main" none).state.out = "1\n11\n2\n" := by
  obtain ⟨p, hp, hrun⟩ := countingIndex.exists_program
  exact ⟨p, hp, beq_iff_eq.mp hrun⟩

end LoopLowering.Machine
