import LoopLowering.Proofs.Machine.Limit
import LoopLowering.Proofs.Machine.Room
import LoopLowering.Proofs.Machine.Uncaught

/-! Runs end. The creation of objects by field initializers counts no step, so the program must bound
it: if no object creates, through its fields, one of its own class, every run ends at the depth that
runs are given, and one that passes its limit fails for that. A class whose fields create its own
objects is never stopped by the limit. -/

namespace LoopLowering.Machine

set_option synthInstance.maxSize 1000

def isInstanceField (m : Node) : Bool :=
  match m.shape with
  | .fieldDecl modifiers _ _ => !isStatic modifiers
  | _ => false

def ClassInfo.fieldSize (c : ClassInfo) : Nat :=
  Number.total ((c.members.filter isInstanceField).map Node.size)

namespace Program

variable (p : Program) (rank : String → Nat)

def created? (n : Node) : Option ClassInfo :=
  match n.shape with
  | .objectCreation type _ =>
    match nameOf type with
    | .ok name => p.class? (simpleName name)
    | .error _ => none
  | _ => none

/-- The classes of the objects that code creates have small ranks. -/
def CreatesBelow (bound : Nat) (e : Node) : Prop :=
  ∀ n ∈ e.nodes, ∀ c ∈ p.created? n, rank c.name < bound

instance (bound : Nat) (e : Node) : Decidable (p.CreatesBelow rank bound e) :=
  inferInstanceAs (Decidable (∀ n ∈ e.nodes, ∀ c ∈ p.created? n, rank c.name < bound))

/-- The fields of an object create only objects of classes of smaller rank. -/
def Ranked : Prop :=
  ∀ c ∈ p.classes, ∀ m ∈ c.members, isInstanceField m = true → p.CreatesBelow rank (rank c.name) m

instance : Decidable (p.Ranked rank) :=
  inferInstanceAs (Decidable (∀ c ∈ p.classes, ∀ m ∈ c.members, isInstanceField m = true →
    p.CreatesBelow rank (rank c.name) m))

def fieldRoom (bound : Nat) : Nat :=
  Number.total (p.classes.map fun c => if rank c.name < bound then c.fieldSize else 0)

def fieldSize : Nat := Number.total (p.classes.map ClassInfo.fieldSize)

def topRank : Nat := Number.total (p.classes.map fun c => rank c.name + 1)

end Program

section

variable {α : Type} {f g : α → Nat} {xs : List α}

lemma total_cons (n : Nat) (ns : List Nat) : Number.total (n :: ns) = n + Number.total ns := rfl

lemma total_map_le (h : ∀ x ∈ xs, f x ≤ g x) :
    Number.total (xs.map f) ≤ Number.total (xs.map g) := by
  induction xs with
  | nil => exact le_rfl
  | cons x xs ih =>
    obtain ⟨hx, hxs⟩ := List.forall_mem_cons.mp h
    exact Nat.add_le_add hx (ih hxs)

lemma total_map_add_le {x : α} {n : Nat} (h : ∀ x ∈ xs, f x ≤ g x) (hx : x ∈ xs)
    (hn : f x + n ≤ g x) : Number.total (xs.map f) + n ≤ Number.total (xs.map g) := by
  induction xs with
  | nil => cases hx
  | cons y ys ih =>
    obtain ⟨hy, hys⟩ := List.forall_mem_cons.mp h
    rw [List.map_cons, List.map_cons, total_cons, total_cons]
    rcases List.mem_cons.mp hx with rfl | hx
    · have := total_map_le hys
      omega
    · have := ih hys hx
      omega

lemma le_total_map {x : α} (hx : x ∈ xs) : f x ≤ Number.total (xs.map f) := by
  have := total_map_add_le (f := fun _ => 0) (g := f) (n := f x) (fun _ _ => Nat.zero_le _) hx
    (by omega)
  omega

end

section

variable {p : Program} {rank : String → Nat} {c : ClassInfo} {m : Node}

lemma size_le_fieldSize (hm : m ∈ c.members) (hfield : isInstanceField m = true) :
    m.size ≤ c.fieldSize :=
  le_total_map (List.mem_filter.mpr ⟨hm, hfield⟩)

lemma ClassInfo.fieldSize_le : c.fieldSize ≤ Number.total (c.members.map Node.size) := by
  unfold fieldSize
  induction c.members with
  | nil => exact le_rfl
  | cons m ms ih =>
    rw [List.map_cons, total_cons, List.filter_cons]
    split
    · exact Nat.add_le_add_left ih _
    · omega

lemma ClassInfo.fieldSize_add_le (hm : m ∈ c.members) (hfield : isInstanceField m = false) :
    c.fieldSize + m.size ≤ Number.total (c.members.map Node.size) := by
  obtain ⟨name, members⟩ := c
  unfold fieldSize
  dsimp only at hm ⊢
  induction members with
  | nil => cases hm
  | cons n ns ih =>
    rw [List.map_cons, total_cons, List.filter_cons]
    rcases List.mem_cons.mp hm with rfl | hm
    · have hrest : fieldSize ⟨name, ns⟩ ≤ Number.total (ns.map Node.size) := fieldSize_le
      unfold fieldSize at hrest
      dsimp only at hrest
      rw [if_neg (by simp [hfield])]
      omega
    · have := ih hm
      split
      · rw [List.map_cons, total_cons]
        omega
      · omega

namespace Program

variable (rank) in
lemma fieldRoom_le (bound : Nat) : p.fieldRoom rank bound ≤ p.fieldSize :=
  total_map_le fun c _ => by split <;> omega

lemma fieldRoom_add_le (hc : c ∈ p.classes) {bound : Nat} (h : rank c.name < bound) :
    p.fieldRoom rank (rank c.name) + c.fieldSize ≤ p.fieldRoom rank bound := by
  refine total_map_add_le (x := c) (fun d _ => ?_) hc ?_
  · split
    · rw [if_pos (by omega)]
    · exact Nat.zero_le _
  · rw [if_neg (lt_irrefl _), if_pos h, Nat.zero_add]

lemma fieldSize_add_le (hc : c ∈ p.classes) (hm : m ∈ c.members)
    (hfield : isInstanceField m = false) : p.fieldSize + m.size ≤ p.size :=
  total_map_add_le (fun _ _ => ClassInfo.fieldSize_le) hc (ClassInfo.fieldSize_add_le hm hfield)

lemma fieldSize_le_size : p.fieldSize ≤ p.size := total_map_le fun _ _ => ClassInfo.fieldSize_le

lemma rank_lt_topRank (hc : c ∈ p.classes) : rank c.name < p.topRank rank :=
  le_total_map (f := fun c : ClassInfo => rank c.name + 1) hc

lemma mem_classes_of_created? {e : Node} (h : c ∈ p.created? e) : c ∈ p.classes := by
  unfold created? at h
  split at h
  · split at h
    · exact mem_classes_of_class? h
    · cases h
  · cases h

lemma createsBelow_topRank (e : Node) : p.CreatesBelow rank (p.topRank rank) e :=
  fun _ _ _ hc => rank_lt_topRank (mem_classes_of_created? hc)

lemma CreatesBelow.of_mem {bound : Nat} {e n : Node} (h : p.CreatesBelow rank bound e)
    (hn : n ∈ e.nodes) : p.CreatesBelow rank bound n :=
  fun m hm => h m (Node.mem_nodes_trans hn hm)

end Program

end

namespace Evaluator

open Settles

variable {limit : Int} {k : Nat} (ev : Evaluator) [ev.Steady]

lemma invoke_settles (hlimit : ev.limit = limit) (className : String) {r : Routine}
    (this : Option Nat) (args : List Value)
    (h : ∀ j, k = j + 1 → ∀ b ∈ r.body, Settles limit j (ev.exec [] b)) :
    Settles limit k (ev.invoke className r this args) := by
  unfold invoke tick
  rw [hlimit]
  refine tick_bind fun j hj => ?_
  have := ev.execBody_settles (h j hj)
  infer_instance

section

variable (put : String → Value → Origin → StoreM Unit) [∀ name v origin, Tame (put name v origin)]
  [∀ name v origin, Confined .all (put name v origin)]

lemma initFields_settles (type : Node) {ds : List Node}
    (h : ∀ d ∈ ds, ∀ c ∈ d.inner, Settles limit k (ev.eval c)) :
    Settles limit k (ev.initFields type put ds) := by
  induction ds with
  | nil => exact instPure _
  | cons d ds ih =>
    obtain ⟨hd, hds⟩ := List.forall_mem_cons.mp h
    have := ih hds
    unfold initFields
    split
    · rename_i name dims init hshape
      have := fun type => ev.initialValue_settles type fun e he =>
        hd e (mem_inner_of_declarator hshape he)
      infer_instance
    · infer_instance

lemma initMembers_settles (static : Bool) {ms : List Node}
    (hfields : ∀ m ∈ ms, isInstanceField m = !static → ∀ c ∈ m.inner, Settles limit k (ev.eval c))
    (hblocks : ∀ m ∈ ms, ∀ body, m.shape = .initBlock static body →
      Settles limit k (ev.exec [] body)) :
    Settles limit k (ev.initMembers static put ms) := by
  induction ms with
  | nil => exact instPure _
  | cons m ms ih =>
    obtain ⟨hm, hms⟩ := List.forall_mem_cons.mp hfields
    obtain ⟨hb, hbs⟩ := List.forall_mem_cons.mp hblocks
    have := ih hms hbs
    unfold initMembers
    dsimp only
    split
    · rename_i modifiers type ds hshape
      split
      · rename_i hstatic
        have hfield : isInstanceField m = !static := by
          rw [isInstanceField, hshape, ← hstatic]
        have : Settles limit k (ev.initFields type put ds) :=
          ev.initFields_settles put type fun d hd c hc => hm hfield c
            (Node.mem_inner_trans (Node.mem_inner_of_children (by
              simp [Node.children, hshape, Shape.children, Shape.parts, Part.toList, hd]))
              (Node.nodes_eq d ▸ List.mem_cons_of_mem _ hc))
        infer_instance
      · infer_instance
    · rename_i s body hshape
      split
      · rename_i hstatic
        have := hb body (hstatic ▸ hshape)
        infer_instance
      · infer_instance
    · infer_instance

end

lemma construct_settles [hcalls : SettlesCalls limit k ev] {c : ClassInfo}
    (hc : c ∈ ev.program.classes) (index : Nat) (args : List Value) :
    Settles limit k (ev.construct c index args) := by
  unfold construct
  split
  · rename_i r hr
    have := hcalls.invoke c.name (some index) args (Program.mem_routines_of_constructor hc hr)
    infer_instance
  · infer_instance

instance (f : Frame) (body : Exec Unit) [Settles limit k body] [Machine.Steady body] :
    Settles limit k (inFrame f body) := by
  unfold inFrame
  infer_instance

lemma instantiate_settles [SettlesCalls limit k ev] {c : ClassInfo} (hc : c ∈ ev.program.classes)
    (args : List Value)
    (hfields : ∀ m ∈ c.members, isInstanceField m = true →
      ∀ d ∈ m.inner, Settles limit k (ev.eval d))
    (hblocks : ∀ m ∈ c.members, ∀ body, m.shape = .initBlock false body →
      Settles limit k (ev.exec [] body)) :
    Settles limit k (ev.instantiate c args) := by
  have hmembers : ∀ index, Settles limit k (ev.initMembers false (setField index) c.members) :=
    fun index => ev.initMembers_settles (setField index) false hfields hblocks
  have hconstruct : ∀ index, Settles limit k (ev.construct c index args) :=
    fun index => ev.construct_settles hc index args
  unfold instantiate
  infer_instance

lemma initStatics_settles {c : ClassInfo}
    (hfields : ∀ m ∈ c.members, isInstanceField m = false →
      ∀ d ∈ m.inner, Settles limit k (ev.eval d))
    (hblocks : ∀ m ∈ c.members, ∀ body, m.shape = .initBlock true body →
      Settles limit k (ev.exec [] body)) :
    Settles limit k (ev.initStatics c) := by
  have hmembers := ev.initMembers_settles (setStatic c.name) true hfields hblocks
  unfold initStatics
  infer_instance

lemma create_settles (type : Node) (args : List Node)
    (h : ∀ c ∈ ev.program.created? (.plain (.objectCreation type args)), ∀ vs,
      Settles limit k (ev.instantiate c vs)) (vs : List Value) :
    Settles limit k (ev.create type vs) := by
  unfold create
  cases hname : nameOf type with
  | error f =>
    refine ⟨fun st _ he => ?_⟩
    cases he
  | ok name =>
    show Settles limit k (Pure.pure name >>= _)
    rw [pure_bind]
    split
    · rename_i c hc
      have := h c (by simp [Program.created?, Node.plain, Node.shape, hname, hc]) vs
      infer_instance
    · infer_instance

end Evaluator

structure Evaluator.HasRoom (p : Program) (rank : String → Nat) (limit : Int) (ev : Evaluator)
    (n : Nat) : Prop where
  eval {e : Node} {bound k : Nat} (hbelow : p.CreatesBelow rank bound e)
    (hn : e.size + p.fieldRoom rank bound + k * p.size ≤ n) : Settles limit k (ev.eval e)
  exec {s : Node} {k : Nat} (hn : 1 ≤ n)
    (hstep : ∀ j, k = j + 1 → s.size + p.fieldSize + j * p.size ≤ n) (labels : List String) :
    Settles limit k (ev.exec labels s)

section

variable {p : Program} {rank : String → Nat} {limit : Int} {k n : Nat} {c : ClassInfo} {m b : Node}

lemma Program.exists_member_of_body {r : Routine} (hr : r ∈ p.routines) (hb : b ∈ r.body) :
    ∃ c ∈ p.classes, ∃ m ∈ c.members, isInstanceField m = false ∧ b ∈ m.inner := by
  obtain ⟨c, hc, hr⟩ := List.mem_flatMap.mp hr
  refine ⟨c, hc, ?_⟩
  rcases List.mem_append.mp hr with hr | hr
  · obtain ⟨m, hm, hr⟩ := List.mem_filterMap.mp hr
    refine ⟨m, hm, ?_⟩
    unfold method? at hr
    split at hr
    · rename_i hshape
      cases hr
      have hb := Option.mem_def.mp hb
      refine ⟨by rw [isInstanceField, hshape], Node.mem_inner_of_children ?_⟩
      simp only [Node.children, hshape, Shape.children, Shape.parts]
      simp_all [Part.toList]
    · cases hr
  · obtain ⟨m, hm, hr⟩ := List.mem_filterMap.mp hr
    refine ⟨m, hm, ?_⟩
    unfold constructor? at hr
    split at hr
    · rename_i hshape
      cases hr
      cases hb
      refine ⟨by rw [isInstanceField, hshape], Node.mem_inner_of_children ?_⟩
      simp [Node.children, hshape, Shape.children, Shape.parts, Part.toList]
    · cases hr

lemma Program.size_lt_of_inner (hc : c ∈ p.classes) (hm : m ∈ c.members)
    (hfield : isInstanceField m = false) (hb : b ∈ m.inner) : b.size + p.fieldSize < p.size := by
  have := Program.fieldSize_add_le hc hm hfield
  have := Node.size_lt_of_mem_inner hb
  omega

namespace Evaluator.HasRoom

variable {ev : Evaluator}

lemma member (h : ev.HasRoom p rank limit n) (hc : c ∈ p.classes) (hm : m ∈ c.members)
    (hfield : isInstanceField m = false) (hb : b ∈ m.inner) (hn : 1 ≤ n)
    (hk : k * p.size ≤ n) : Settles limit k (ev.exec [] b) := by
  refine h.exec hn (fun j hj => ?_) []
  have := Program.size_lt_of_inner hc hm hfield hb
  rw [hj, Nat.succ_mul] at hk
  omega

lemma settlesCalls (h : ev.HasRoom p rank limit n) [ev.Steady] (hprogram : ev.program = p)
    (hlimit : ev.limit = limit) (hk : k * p.size ≤ n) : SettlesCalls limit k ev := by
  refine ⟨fun className r this args hr => ev.invoke_settles hlimit className this args
    fun j hj b hb => ?_⟩
  obtain ⟨c, hc, m, hm, hfield, hb⟩ := Program.exists_member_of_body (hprogram ▸ hr) hb
  have := Program.size_lt_of_inner hc hm hfield hb
  rw [hj, Nat.succ_mul] at hk
  exact h.member hc hm hfield hb (by omega) (by omega)

lemma mem_inner_of_initBlock {static : Bool} (hm : m.shape = .initBlock static b) :
    b ∈ m.inner := by
  refine Node.mem_inner_of_children ?_
  simp [Node.children, hm, Shape.children, Shape.parts, Part.toList]

lemma instantiate (h : ev.HasRoom p rank limit n) [ev.Steady] (hranked : p.Ranked rank)
    (hprogram : ev.program = p) (hlimit : ev.limit = limit) (hc : c ∈ p.classes) (hpos : 1 ≤ n)
    (hn : c.fieldSize + p.fieldRoom rank (rank c.name) + k * p.size ≤ n) (args : List Value) :
    Settles limit k (ev.instantiate c args) := by
  have := h.settlesCalls (k := k) hprogram hlimit (by omega)
  refine ev.instantiate_settles (hprogram ▸ hc) args (fun m hm hfield d hd => ?_)
    fun m hm body hbody => ?_
  · have := size_le_fieldSize hm hfield
    have := Node.size_lt_of_mem_inner hd
    have hbelow := (hranked c hc m hm hfield).of_mem
      (Node.nodes_eq m ▸ List.mem_cons_of_mem _ hd)
    exact h.eval hbelow (by omega)
  · exact h.member hc hm (by rw [isInstanceField, hbody]) (mem_inner_of_initBlock hbody) hpos
      (by omega)

lemma expression (h : ev.HasRoom p rank limit n) [ev.Steady] (hranked : p.Ranked rank)
    (hprogram : ev.program = p) (hlimit : ev.limit = limit) {e : Node} {bound : Nat}
    (hbelow : p.CreatesBelow rank bound e)
    (hn : e.size + p.fieldRoom rank bound + k * p.size ≤ n + 1) :
    Settles limit k (ev.expression e) := by
  have hpos : 1 ≤ e.size := e.one_le_size
  have := h.settlesCalls (k := k) hprogram hlimit (by omega)
  refine ev.expression_settles (fun d hd => ?_) fun type args hshape => ?_
  · have := Node.size_lt_of_mem_inner hd
    exact h.eval (hbelow.of_mem (Node.nodes_eq e ▸ List.mem_cons_of_mem _ hd)) (by omega)
  · have htype : type ∈ e.inner := Node.mem_inner_of_children
      (by simp [Node.children, hshape, Shape.children, Shape.parts, Part.toList])
    have := Node.size_lt_of_mem_inner htype
    have htypePos : 1 ≤ type.size := type.one_le_size
    refine ev.create_settles type args fun c hcreated vs => ?_
    have hcreated : c ∈ p.created? e := by
      rw [hprogram] at hcreated
      unfold Program.created? at hcreated ⊢
      rw [hshape]
      exact hcreated
    have hrank := hbelow e (Node.nodes_eq e ▸ List.mem_cons_self) c hcreated
    have hc := Program.mem_classes_of_created? hcreated
    have := Program.fieldRoom_add_le hc hrank
    exact h.instantiate hranked hprogram hlimit hc (by omega) (by omega) vs

lemma countedStatement (h : ev.HasRoom p rank limit n) [ev.Steady] [Alike (.single limit) ev ev]
    (hlimit : ev.limit = limit) {s : Node}
    (hstep : ∀ j, k = j + 1 → s.size + p.fieldSize + j * p.size ≤ n + 1) (labels : List String) :
    Settles limit k (ev.countedStatement labels s) := by
  unfold Evaluator.countedStatement Evaluator.tick
  rw [hlimit]
  refine Settles.tick_bind fun j hj => ?_
  have hroom := hstep j hj
  refine ev.statement_settles (fun d hd labels => ?_) (fun d hd => ?_) labels
  all_goals
    have := Node.size_lt_of_mem_inner hd
    have hpos : 1 ≤ d.size := d.one_le_size
  · refine h.exec (by omega) (fun i hi => ?_) labels
    rw [hi, Nat.succ_mul] at hroom
    omega
  · have := p.fieldRoom_le rank (p.topRank rank)
    exact h.eval (Program.createsBelow_topRank d) (by omega)

end Evaluator.HasRoom

lemma evaluatorAt_hasRoom (hranked : p.Ranked rank) (limit : Int) (n : Nat) :
    (evaluatorAt p limit n).HasRoom p rank limit n := by
  induction n with
  | zero =>
    refine ⟨fun {e bound k} _ hn => ?_, fun hn => absurd hn (by omega)⟩
    have hpos : 1 ≤ e.size := e.one_le_size
    omega
  | succ n ih =>
    have halike : Evaluator.Alike (.single limit) (evaluatorAt p limit n) (evaluatorAt p limit n) :=
      evaluatorAt_alike p (.single limit) n n le_rfl fun h => absurd h (lt_irrefl n)
    have hprogram := evaluatorAt_program p limit n
    exact ⟨ih.expression hranked hprogram halike.limit,
      fun _ => ih.countedStatement halike.limit⟩

end

namespace Evaluator

variable {limit : Int} {k : Nat} (ev : Evaluator) [ev.Steady]

lemma initClasses_settles {cs : List ClassInfo} (h : ∀ c ∈ cs, Settles limit k (ev.initStatics c)) :
    Settles limit k (ev.initClasses cs) := by
  induction cs with
  | nil => exact Settles.instPure _
  | cons c cs ih =>
    obtain ⟨hc, hcs⟩ := List.forall_mem_cons.mp h
    have := ih hcs
    unfold initClasses
    infer_instance

instance (body : Exec Value) [Settles limit k body] [Machine.Steady body] :
    Settles limit k (reportUncaught body) := by
  rw [reportUncaught_eq]
  refine Settles.onEnd (fun _ => inferInstance) (fun e he => ?_) fun _ => rfl
  unfold uncaughtEnd
  split
  · infer_instance
  · exact Settles.throw he

lemma run_settles [hcalls : SettlesCalls limit k ev] {method : String} {className : Option String}
    (h : ∀ c ∈ ev.program.classes, Settles limit k (ev.instantiate c []))
    (args : Option (List Value)) : Settles limit k (ev.run method className args) := by
  rw [run_eq]
  split
  · rename_i c r hentry
    obtain ⟨c, hc, hentry⟩ := Option.bind_eq_some_iff.mp hentry
    obtain ⟨r, hr, hentry⟩ := Option.map_eq_some_iff.mp hentry
    obtain ⟨rfl, rfl⟩ := Prod.mk.inj hentry
    have hclass := ev.mem_classes_of_entryClass hc
    have := h c hclass
    have := fun this args => hcalls.invoke c.name this args (List.mem_flatMap.mpr
      ⟨c, hclass, List.mem_append_left _ (List.mem_of_find?_eq_some hr)⟩)
    unfold runMethod
    infer_instance
  · infer_instance

end Evaluator

namespace Evaluator.HasRoom

variable {p : Program} {rank : String → Nat} {limit : Int} {k n : Nat} {ev : Evaluator} [ev.Steady]

lemma initStatics (h : ev.HasRoom p rank limit n) {c : ClassInfo} (hc : c ∈ p.classes)
    (hn : (k + 1) * p.size ≤ n) : Settles limit k (ev.initStatics c) := by
  rw [Nat.succ_mul] at hn
  refine ev.initStatics_settles (fun m hm hfield d hd => ?_) fun m hm body hbody => ?_
  · have := Program.size_lt_of_inner hc hm hfield hd
    have := p.fieldRoom_le rank (p.topRank rank)
    exact h.eval (Program.createsBelow_topRank d) (by omega)
  · have hfield : isInstanceField m = false := by rw [isInstanceField, hbody]
    have := Program.size_lt_of_inner hc hm hfield (mem_inner_of_initBlock hbody)
    exact h.member hc hm hfield (mem_inner_of_initBlock hbody) (by omega) (by omega)

lemma wholeRun (h : ev.HasRoom p rank limit n) (hranked : p.Ranked rank)
    (hprogram : ev.program = p) (hlimit : ev.limit = limit) (hpos : 1 ≤ n)
    (hn : (k + 1) * p.size ≤ n) (method : String) (className : Option String) :
    Settles limit k (ev.wholeRun method className) := by
  have : Settles limit k (ev.initClasses p.classes) :=
    ev.initClasses_settles fun c hc => h.initStatics hc hn
  rw [Nat.succ_mul] at hn
  have := h.settlesCalls (k := k) hprogram hlimit (by omega)
  have : Settles limit k (ev.run method className none) := by
    refine ev.run_settles (fun c hc => ?_) none
    rw [hprogram] at hc
    have : p.fieldRoom rank (rank c.name) + c.fieldSize ≤ p.fieldRoom rank (p.topRank rank) :=
      Program.fieldRoom_add_le hc (Program.rank_lt_topRank hc)
    have := p.fieldRoom_le rank (p.topRank rank)
    have := p.fieldSize_le_size
    exact h.instantiate hranked hprogram hlimit hc hpos (by omega) []
  unfold Evaluator.wholeRun
  rw [hprogram]
  infer_instance

end Evaluator.HasRoom

namespace Setup

variable {p : Program} {rank : String → Nat}

lemma le_depthFor (limit : Int) (size phrase : Nat) :
    (limit.toNat + 2) * size + phrase + 1 ≤ depthFor limit (size + phrase) := by
  have : phrase ≤ (limit.toNat + 2) * phrase := Nat.le_mul_of_pos_left phrase (Nat.succ_pos _)
  unfold depthFor
  rw [Nat.mul_add, Nat.mul_add]
  omega

lemma evaluatorFor_eq (p : Program) (limit : Int) (phrase : Nat) :
    evaluatorFor ⟨p, limit⟩ phrase = evaluatorAt p limit (depthFor limit (p.size + phrase)) := rfl

lemma eval_eq (s : Setup) : s.eval = fun e => (s.evaluatorFor e.size).eval e := rfl

lemma exec_eq (s : Setup) : s.exec = fun stmt => (s.evaluatorFor stmt.size).exec [] stmt := rfl

section

variable (h : p.Ranked rank) (limit : Int)
include h

lemma eval_settles (e : Node) : Settles limit (limit.toNat + 1) (eval ⟨p, limit⟩ e) := by
  rw [eval_eq]
  beta_reduce
  rw [evaluatorFor_eq]
  refine (evaluatorAt_hasRoom h limit _).eval (Program.createsBelow_topRank e) ?_
  refine le_trans ?_ (le_depthFor limit p.size e.size)
  have := (p.fieldRoom_le rank (p.topRank rank)).trans p.fieldSize_le_size
  rw [Nat.succ_mul (limit.toNat + 1)]
  omega

lemma exec_settles (s : Node) : Settles limit (limit.toNat + 1) (exec ⟨p, limit⟩ s) := by
  have hlevel := le_depthFor limit p.size s.size
  rw [exec_eq]
  beta_reduce
  rw [evaluatorFor_eq]
  refine (evaluatorAt_hasRoom h limit _).exec ((Nat.le_add_left 1 _).trans hlevel) (fun j hj => ?_) []
  refine le_trans ?_ hlevel
  obtain rfl : limit.toNat = j := Nat.succ_injective hj
  have := p.fieldSize_le_size
  rw [Nat.succ_mul, Nat.succ_mul]
  omega

lemma wholeRun_settles (method : String) (className : Option String) :
    Settles limit (limit.toNat + 1)
      ((evaluatorAt p limit (depthFor limit p.size)).wholeRun method className) := by
  have hlevel := le_depthFor limit p.size 0
  exact (evaluatorAt_hasRoom h limit _).wholeRun h (evaluatorAt_program p limit _)
    (evaluatorAt_alike p (.single limit) _ _ le_rfl fun h => absurd rfl h.ne).limit
    ((Nat.le_add_left 1 _).trans hlevel) ((Nat.le_add_right _ 1).trans hlevel) method className

end

lemma signal_executeAt_of_lt (p : Program) {limit : Int} (depth : Nat) (method : String)
    (className : Option String) (hlimit : 0 ≤ limit)
    (hover : limit < (executeAt ⟨p, limit⟩ depth method className).state.steps) :
    (executeAt ⟨p, limit⟩ depth method className).signal = some (.failed (.stepLimit limit)) ∨
      (executeAt ⟨p, limit⟩ depth method className).signal = some (.fault .badIndex) := by
  have halike : Evaluator.Alike (.single limit) (evaluatorAt p limit depth)
      (evaluatorAt p limit depth) :=
    evaluatorAt_alike p (.single limit) depth depth le_rfl fun h => absurd rfl h.ne
  have hcut := ((evaluatorAt p limit depth).cuts_wholeRun (B := .single limit)
    (evaluatorAt p limit depth) method className).cut {}
  unfold executeAt at hover ⊢
  rw [Outcome.of_eq] at hover ⊢
  generalize Evaluator.wholeRun _ _ _ _ = r at hcut hover ⊢
  cases hcut with
  | same hwithin => exact absurd (hwithin hlimit) (not_le.mpr hover)
  | cut hhalted =>
    cases hhalted with
    | exhausted _ hdeeper => exact hdeeper.elim
    | @overrun e t he =>
      show some e = _ ∨ some e = _
      cases e with
      | failed err =>
        cases err <;> cases he
        exact .inl rfl
      | fault f =>
        cases f <;> cases he
        exact .inr rfl
      | _ => cases he

/-- If the fields of objects create objects of smaller rank only, evaluation ends at the depth that
it is given, from every state, unless it shows or compares objects that contain themselves. A run
that counts more steps than its limit fails for that. -/
theorem ranked_ends (h : p.Ranked rank) (limit : Int) :
    (∀ e st, ending (eval ⟨p, limit⟩ e st) = some .exhausted →
      (finalState (eval ⟨p, limit⟩ e st)).heap.Cyclic) ∧
    (∀ s st, ending (exec ⟨p, limit⟩ s st) = some .exhausted →
      (finalState (exec ⟨p, limit⟩ s st)).heap.Cyclic) ∧
    ∀ method className,
      ((execute ⟨p, limit⟩ method className).signal = some .exhausted →
        (execute ⟨p, limit⟩ method className).state.heap.Cyclic) ∧
      (0 ≤ limit → limit < (execute ⟨p, limit⟩ method className).state.steps →
        (execute ⟨p, limit⟩ method className).signal = some (.failed (.stepLimit limit)) ∨
        (execute ⟨p, limit⟩ method className).signal = some (.fault .badIndex)) := by
  refine ⟨fun e st => (eval_settles h limit e).settles st (by omega),
    fun s st => (exec_settles h limit s).settles st (by omega), fun method className => ?_⟩
  rw [execute_eq_executeAt]
  refine ⟨?_, signal_executeAt_of_lt p _ method className⟩
  rw [executeAt, Outcome.of_eq]
  exact (wholeRun_settles h limit method className).settles {} (by omega)

def creatingLoop : Program.Sample fun p =>
    decide (p.Ranked fun name => if name = "A" then 1 else 0) &&
      decide (10 < (execute ⟨p, 10⟩ "main" none).state.steps) where
  text := "class B { int v = 1; } class A { B b = new B(); static void main() { while (true) { new A(); } } }"
  passes := by decide +kernel

theorem ranked_ends_fields : ∃ p, Program.ofText?
      "class B { int v = 1; } class A { B b = new B(); static void main() { while (true) { new A(); } } }" =
        some p ∧
    p.Ranked (fun name => if name = "A" then 1 else 0) ∧ (0 : Int) ≤ 10 ∧
      10 < (execute ⟨p, 10⟩ "main" none).state.steps ∧
        ((execute ⟨p, 10⟩ "main" none).signal = some (.failed (.stepLimit 10)) ∨
          (execute ⟨p, 10⟩ "main" none).signal = some (.fault .badIndex)) := by
  obtain ⟨p, hp, hrun⟩ := creatingLoop.exists_program
  obtain ⟨hranked, hsteps⟩ := Bool.and_eq_true_iff.mp hrun
  have hranked := of_decide_eq_true hranked
  have hsteps := of_decide_eq_true hsteps
  exact ⟨p, hp, hranked, by decide, hsteps,
    ((ranked_ends hranked 10).2.2 "main" none).2 (by decide) (by exact_mod_cast hsteps)⟩

end Setup

variable {α β : Type}

def Sinks (c : Exec α) : Prop :=
  ∀ st, ∃ t, c st = .error .exhausted t ∧ t.steps = st.steps

def Glides (c : Exec α) : Prop :=
  ∀ st, ∃ a t, c st = .ok a t ∧ t.steps = st.steps

namespace Sinks

lemma bind {c : Exec α} (h : Sinks c) (f : α → Exec β) : Sinks (c >>= f) := by
  intro st
  obtain ⟨t, ht, hsteps⟩ := h st
  exact ⟨t, by rw [bind_eq_onEnd, onEnd, ht]; rfl, hsteps⟩

lemma after {c : Exec α} {f : α → Exec β} (hc : Glides c) (hf : ∀ a, Sinks (f a)) :
    Sinks (c >>= f) := by
  intro st
  obtain ⟨a, t, ht, hsteps⟩ := hc st
  obtain ⟨u, hu, hsame⟩ := hf a t
  exact ⟨u, by rw [bind_eq_onEnd, onEnd, ht]; exact hu, hsame.trans hsteps⟩

lemma noting {c : Exec α} (h : Sinks c) (i : Incident) : Sinks (noting i c) := by
  intro st
  obtain ⟨t, ht, hsteps⟩ := h st
  exact ⟨{ t with incidents := i :: t.incidents },
    by rw [noting_eq, onEnd, ht]; rfl, hsteps⟩

lemma inFrame {body : Exec Unit} (h : Sinks body) (f : Frame) : Sinks (Evaluator.inFrame f body) :=
  .after (fun st => ⟨_, st, rfl, rfl⟩) fun _ => .after (fun _ => ⟨_, _, rfl, rfl⟩) fun _ =>
    h.bind _

end Sinks

def ClassInfo.firstInitial? (c : ClassInfo) : Option Node := do
  let m ← c.members.head?
  match m.shape with
  | .fieldDecl modifiers _ (d :: _) =>
    match d.shape with
    | .declarator _ _ init => if isStatic modifiers then none else init
    | _ => none
  | _ => none

def Program.creates (p : Program) (c : ClassInfo) (e : Node) : Prop :=
  p.created? e = some c ∧ ∃ type, e.shape = .objectCreation type []

lemma ClassInfo.exists_of_firstInitial? {c : ClassInfo} {e : Node}
    (h : c.firstInitial? = some e) : ∃ m ms modifiers type d ds name dims,
      c.members = m :: ms ∧ m.shape = .fieldDecl modifiers type (d :: ds) ∧
        isStatic modifiers = false ∧ d.shape = .declarator name dims (some e) := by
  obtain ⟨m, hm, h⟩ := Option.bind_eq_some_iff.mp h
  obtain ⟨ms, hms⟩ := List.head?_eq_some_iff.mp hm
  split at h
  · rename_i modifiers type d ds hshape
    split at h
    · rename_i name dims init hd
      split at h
      · cases h
      · rename_i hstatic
        exact ⟨m, ms, modifiers, type, d, ds, name, dims, hms, hshape,
          Bool.eq_false_of_not_eq_true hstatic, h ▸ hd⟩
    · cases h
  · cases h

namespace Evaluator

variable {ev : Evaluator} {c : ClassInfo} {e : Node}

lemma initMembers_sinks (hfirst : c.firstInitial? = some e) (h : Sinks (ev.eval e))
    (put : String → Value → Origin → StoreM Unit) : Sinks (ev.initMembers false put c.members) := by
  obtain ⟨m, ms, modifiers, type, d, ds, name, dims, hms, hshape, hstatic, hd⟩ :=
    ClassInfo.exists_of_firstInitial? hfirst
  have hfields : Sinks (ev.initFields type put (d :: ds)) := by
    unfold initFields
    rw [hd]
    exact .bind (h.bind _) _
  rw [hms]
  unfold initMembers
  rw [hshape]
  dsimp only
  rw [if_pos hstatic]
  exact hfields.bind _

lemma instantiate_sinks (hfirst : c.firstInitial? = some e) (h : Sinks (ev.eval e))
    (args : List Value) : Sinks (ev.instantiate c args) := by
  have hmembers := initMembers_sinks hfirst h
  exact .after (fun _ => ⟨_, _, rfl, rfl⟩) fun index =>
    (((hmembers (setField index)).inFrame _).noting _).bind _

lemma expression_sinks (hcreates : ev.program.creates c e) (h : Sinks (ev.instantiate c [])) :
    Sinks (ev.expression e) := by
  obtain ⟨hcreated, type, hshape⟩ := hcreates
  unfold Program.created? at hcreated
  rw [hshape] at hcreated
  dsimp only at hcreated
  split at hcreated
  · rename_i name hname
    have hcreate : Sinks (ev.create type []) := by
      unfold create
      rw [hname]
      show Sinks (Pure.pure name >>= _)
      rw [pure_bind, hcreated]
      exact h.bind _
    unfold expression
    rw [hshape]
    exact hcreate
  · cases hcreated

end Evaluator

theorem creation_sinks {p : Program} {c : ClassInfo} {e : Node}
    (hfirst : c.firstInitial? = some e) (hcreates : p.creates c e) (limit : Int) (depth : Nat)
    (args : List Value) : Sinks ((evaluatorAt p limit depth).instantiate c args) := by
  refine Evaluator.instantiate_sinks hfirst ?_ args
  induction depth with
  | zero => exact fun st => ⟨st, rfl, rfl⟩
  | succ n ih =>
    have hprogram := evaluatorAt_program p limit n
    exact Evaluator.expression_sinks (hprogram.symm ▸ hcreates)
      (Evaluator.instantiate_sinks hfirst ih [])

def isDormant (m : Node) : Bool := isInstanceField m || (method? m).isSome

namespace Evaluator

variable {ev : Evaluator} {c : ClassInfo}

lemma initMembers_eq_pure {ms : List Node} (h : ∀ m ∈ ms, isDormant m = true)
    (put : String → Value → Origin → StoreM Unit) : ev.initMembers true put ms = pure () := by
  induction ms with
  | nil => rfl
  | cons m ms ih =>
    obtain ⟨hm, hms⟩ := List.forall_mem_cons.mp h
    unfold initMembers
    dsimp only
    split
    · rename_i modifiers type ds hshape
      have hstatic : isStatic modifiers = false := by
        simpa [isDormant, isInstanceField, method?, hshape] using hm
      rw [hstatic, if_neg Bool.false_ne_true]
      exact ih hms
    · rename_i static body hshape
      simp [isDormant, isInstanceField, method?, hshape] at hm
    · exact ih hms

lemma wholeRun_sinks {method : String} {r : Routine} (hclasses : ev.program.classes = [c])
    (hdormant : ∀ m ∈ c.members, isDormant m = true) (hr : c.firstMethod? method = some r)
    (hstatic : r.isStatic = false) (h : Sinks (ev.instantiate c [])) :
    Sinks (ev.wholeRun method none) := by
  have hentry : ev.entryPoint method none = some (c, r) := by
    simp [entryPoint, entryClass, hclasses, hr]
  have hboot : Glides (ev.initClasses ev.program.classes) := by
    rw [hclasses]
    unfold initClasses initStatics
    rw [initMembers_eq_pure hdormant]
    exact fun st => ⟨(), _, rfl, rfl⟩
  have hargs : Glides (liftM (entryArguments r none) : Exec (List Value)) := by
    intro st
    obtain ⟨vs, s, hs⟩ := times_alloc_ok (.array #[]) r.params.length st.toStore
    refine ⟨vs, { st with toStore := s }, ?_, rfl⟩
    rw [liftM_apply, entryArguments, hs]
  refine .after hboot fun _ => ?_
  rw [run_eq, hentry]
  refine .after hargs fun _ => ?_
  rw [hstatic]
  dsimp only
  rw [if_neg Bool.false_ne_true]
  exact h.bind _

end Evaluator

def Program.startsSinking (p : Program) (method : String) : Bool :=
  match p.classes with
  | [c] => c.members.all isDormant && (c.firstMethod? method).any (!·.isStatic) &&
    c.firstInitial?.any fun e => (e.shape matches .objectCreation _ []) && (p.created? e).isSome
  | _ => false

namespace Setup

lemma executeAt_sinks {p : Program} {method : String} (h : p.startsSinking method = true)
    (limit : Int) (depth : Nat) :
    (executeAt ⟨p, limit⟩ depth method none).signal = some .exhausted ∧
      (executeAt ⟨p, limit⟩ depth method none).state.steps = 0 := by
  unfold Program.startsSinking at h
  split at h
  · rename_i c hclasses
    simp only [Bool.and_eq_true, List.all_eq_true, Option.any_eq_true] at h
    obtain ⟨⟨hdormant, r, hr, hstatic⟩, e, he, hnew, hcreated⟩ := h
    have hcreates : p.creates c e := by
      obtain ⟨d, hd⟩ := Option.isSome_iff_exists.mp hcreated
      have hmem := Program.mem_classes_of_created? hd
      rw [hclasses] at hmem
      obtain rfl := List.mem_singleton.mp hmem
      split at hnew
      · rename_i type hshape
        exact ⟨hd, type, hshape⟩
      · cases hnew
    have hsinks := creation_sinks he hcreates limit depth []
    obtain ⟨t, ht, hsteps⟩ := Evaluator.wholeRun_sinks
      ((evaluatorAt_program p limit depth).symm ▸ hclasses) hdormant hr (by simpa using hstatic)
      hsinks {}
    unfold executeAt
    rw [Outcome.of_eq, ht]
    exact ⟨rfl, hsteps⟩
  · cases h

def selfCreating : Program.Sample (·.startsSinking "main") where
  text := "class A { A a = new A(); void main() { } }"
  passes := by decide +kernel

/-- The limit does not stop every run: an object whose field creates an object of the same class
descends without a counted step, however deep evaluation may go. -/
theorem creation_unstopped : ∃ p,
    Program.ofText? "class A { A a = new A(); void main() { } }" = some p ∧
      (execute ⟨p, 20000⟩ "main" none).signal = some .exhausted ∧
      ∀ limit depth, (executeAt ⟨p, limit⟩ depth "main" none).signal = some .exhausted ∧
        (executeAt ⟨p, limit⟩ depth "main" none).state.steps = 0 := by
  obtain ⟨p, hp, hstarts⟩ := selfCreating.exists_program
  refine ⟨p, hp, ?_, fun limit depth => executeAt_sinks hstarts limit depth⟩
  rw [execute_eq_executeAt]
  exact (executeAt_sinks hstarts 20000 _).1

end Setup

end LoopLowering.Machine
