import LoopLowering.Proofs.Machine.Target
import Mathlib.Data.List.TakeWhile

/-! Exceptions met by handlers and by type tests. A handler takes the name of its type as it is
written, a test only the last part of it, and each of them knows types that cover more than their
own exceptions. The main statement says for which types the two agree on what is thrown. -/

namespace LoopLowering.Machine

variable {α : Type}

inductive Thrown where
  | library (name : String)
  | declared (name : String)
  deriving DecidableEq, Repr

def Thrown.name : Thrown → String
  | library n | declared n => n

def Value.thrown? (h : Heap) (v : Value) : Option Thrown :=
  match v.object? h with
  | some (.exception name _) => some (.library name)
  | some (.record name _) => some (.declared name)
  | _ => none

/-- The exceptions that a type covers, by their names. -/
inductive Covers : (typeName name : String) → Prop
  | self (name : String) : Covers name name
  | throwable (name : String) : Covers "Throwable" name
  | exception (name : String) : Covers "Exception" name
  | runtime {name : String} (h : name ∈ runtimeExceptions) : Covers "RuntimeException" name

/-- The types whose test looks at the kind of a value and at no name. -/
def kindTypes : List String :=
  ["String", "Integer", "Long", "Double", "Boolean", "List", "ArrayList", "Collection", "Iterable"]

namespace Thrown

/-- The test for the last part of the name of a type finds the value. -/
def Passes (typeName : String) : Thrown → Prop
  | library n => typeName ∉ kindTypes ∧ Covers typeName n
  | declared n => typeName ∉ kindTypes ∧ typeName = n

/-- The types on which a handler and a test differ. -/
inductive Misfit (typeName : String) : Thrown → Prop
  | qualified {t : Thrown} (hpackage : simpleName typeName ≠ typeName)
    (h : t.Passes (simpleName typeName)) : Misfit typeName t
  | declared {n : String} (hne : typeName ≠ n) (h : Covers typeName n) :
    Misfit typeName (.declared n)
  | kind {t : Thrown} (hkind : typeName ∈ kindTypes) (h : typeName = t.name) : Misfit typeName t

end Thrown

section

variable {h : Heap} {v : Value} {t : Thrown} {T n : String}

lemma covers_iff : Covers T n ↔
    T = "Throwable" ∨ T = "Exception" ∨ n = T ∨ T = "RuntimeException" ∧ n ∈ runtimeExceptions := by
  constructor
  · rintro (_ | _ | _ | hn)
    · exact .inr (.inr (.inl rfl))
    · exact .inl rfl
    · exact .inr (.inl rfl)
    · exact .inr (.inr (.inr ⟨rfl, hn⟩))
  · rintro (rfl | rfl | rfl | ⟨rfl, hn⟩)
    · exact .throwable n
    · exact .exception n
    · exact .self n
    · exact .runtime hn

lemma object?_of_thrown? (hv : v.thrown? h = some t) : ∃ a, v = .ref a ∧
    ((∃ n m, t = .library n ∧ h[a]? = some (.exception n m)) ∨
      ∃ c fields, t = .declared c ∧ h[a]? = some (.record c fields)) := by
  unfold Value.thrown? at hv
  cases v with
  | ref a =>
    refine ⟨a, rfl, ?_⟩
    cases ho : h[a]? with
    | none => simp [Value.object?, ho] at hv
    | some o =>
      simp only [Value.object?, ho] at hv
      cases o with
      | exception n m =>
        cases hv
        exact .inl ⟨n, m, rfl, rfl⟩
      | record c fields =>
        cases hv
        exact .inr ⟨c, fields, rfl, rfl⟩
      | _ => cases hv
  | _ => cases hv

lemma catches_iff (hv : v.thrown? h = some t) : catches h T v = true ↔ Covers T t.name := by
  have hname : thrownName? h v = some t.name := by
    obtain ⟨a, rfl, ⟨n, m, rfl, ha⟩ | ⟨c, fields, rfl, ha⟩⟩ := object?_of_thrown? hv
    · simp [thrownName?, Value.object?, ha, Thrown.name]
    · simp [thrownName?, Value.object?, ha, Thrown.name]
  unfold catches
  rw [hname, covers_iff]
  simp [or_assoc]

lemma instanceOf_named {a : Address} {o : Object} (ha : h[a]? = some o)
    (hobject : simpleName T ≠ "Object") (hkind : simpleName T ∉ kindTypes) :
    instanceOf h (.ref a) T =
      match o with
      | .record c _ => c = simpleName T
      | .exception .. => catches h (simpleName T) (.ref a)
      | _ => false := by
  simp only [kindTypes, List.mem_cons, List.not_mem_nil, or_false, not_or] at hkind
  obtain ⟨h₁, h₂, h₃, h₄, h₅, h₆, h₇, h₈, h₉⟩ := hkind
  cases o <;>
    simp [instanceOf, hobject, h₁, h₂, h₃, h₄, h₅, h₆, h₇, h₈, h₉, Value.object?, ha]

lemma instanceOf_kind (hv : v.thrown? h = some t) (hkind : simpleName T ∈ kindTypes) :
    instanceOf h v T = false := by
  simp only [kindTypes, List.mem_cons, List.not_mem_nil, or_false] at hkind
  obtain ⟨a, rfl, ⟨n, m, rfl, ha⟩ | ⟨c, fields, rfl, ha⟩⟩ := object?_of_thrown? hv <;>
    rcases hkind with hT | hT | hT | hT | hT | hT | hT | hT | hT <;>
    simp [instanceOf, hT, Value.list?, Value.object?, ha]

lemma instanceOf_iff (hv : v.thrown? h = some t) (hobject : simpleName T ≠ "Object") :
    instanceOf h v T = true ↔ t.Passes (simpleName T) := by
  by_cases hkind : simpleName T ∈ kindTypes
  · have hpasses : ¬ t.Passes (simpleName T) := by
      cases t <;> exact fun h => h.1 hkind
    simp [instanceOf_kind hv hkind, hpasses]
  · have hcatches := catches_iff (T := simpleName T) hv
    obtain ⟨a, rfl, ⟨n, m, rfl, ha⟩ | ⟨c, fields, rfl, ha⟩⟩ := object?_of_thrown? hv
    · rw [instanceOf_named ha hobject hkind]
      exact hcatches.trans (and_iff_right hkind).symm
    · rw [instanceOf_named ha hobject hkind]
      simp [Thrown.Passes, hkind, eq_comm]

lemma simpleName_of_not_mem (hT : '.' ∉ T.toList) : simpleName T = T := by
  have hall : T.toList.reverse.takeWhile (· ≠ '.') = T.toList.reverse := by
    refine List.takeWhile_eq_self_iff.mpr fun c hc => ?_
    exact decide_eq_true fun h => hT (h ▸ List.mem_reverse.mp hc)
  unfold simpleName
  rw [hall, List.reverse_reverse, String.ofList_toList]

lemma not_covers_of_qualified (hpackage : simpleName T ≠ T) (hn : '.' ∉ n.toList) :
    ¬ Covers T n := by
  rintro (_ | _ | _ | _)
  · exact hpackage (simpleName_of_not_mem hn)
  · exact hpackage (simpleName_of_not_mem (by decide))
  · exact hpackage (simpleName_of_not_mem (by decide))
  · exact hpackage (simpleName_of_not_mem (by decide))

lemma Covers.eq_of_kind (h : Covers T n) (hkind : T ∈ kindTypes) : T = n := by
  cases h with
  | self => rfl
  | _ => exact absurd hkind (by decide)

lemma covers_iff_passes_of_simple (hsimple : simpleName T = T) :
    (Covers T t.name ↔ t.Passes T) ↔ ¬ t.Misfit T := by
  constructor
  · rintro hagree (⟨hpackage, -⟩ | ⟨hne, hcovers⟩ | ⟨hkind, rfl⟩)
    · exact hpackage hsimple
    · exact hne (hagree.mp hcovers).2
    · cases t <;> exact (hagree.mp (.self _)).1 hkind
  · intro hmisfit
    cases t with
    | library n =>
      refine ⟨fun hcovers => ⟨fun hkind => hmisfit (.kind hkind ?_), hcovers⟩, And.right⟩
      exact hcovers.eq_of_kind hkind
    | declared n =>
      constructor
      · intro hcovers
        have hname : T = n := by_contra fun hne => hmisfit (.declared hne hcovers)
        exact ⟨fun hkind => hmisfit (.kind hkind hname), hname⟩
      · rintro ⟨-, rfl⟩
        exact .self T

lemma covers_iff_passes_of_qualified (hpackage : simpleName T ≠ T) (hn : '.' ∉ t.name.toList) :
    (Covers T t.name ↔ t.Passes (simpleName T)) ↔ ¬ t.Misfit T := by
  have hcovers := not_covers_of_qualified hpackage hn
  constructor
  · rintro hagree (⟨-, hpasses⟩ | ⟨-, h⟩ | ⟨-, h⟩)
    · exact hcovers (hagree.mpr hpasses)
    · exact hcovers h
    · exact hcovers (h ▸ .self T)
  · exact fun hmisfit => ⟨fun h => absurd h hcovers,
      fun hpasses => absurd (.qualified hpackage hpasses) hmisfit⟩

lemma catches_eq_instanceOf_iff (hv : v.thrown? h = some t) (hn : '.' ∉ t.name.toList)
    (hobject : simpleName T ≠ "Object") : catches h T v = instanceOf h v T ↔ ¬ t.Misfit T := by
  rw [Bool.eq_iff_iff, catches_iff hv, instanceOf_iff hv hobject]
  by_cases hpackage : simpleName T = T
  · rw [hpackage]
    exact covers_iff_passes_of_simple hpackage
  · exact covers_iff_passes_of_qualified hpackage hn

end

section

variable {ev : Evaluator} {st u : State} {v : Value} {type : Node} {T : String}

lemma anyCatches_singleton (hT : nameOf type = .ok T) (s : Store) :
    Evaluator.anyCatches v [type] s = .ok (catches s.heap T v) s := by
  unfold Evaluator.anyCatches
  rw [hT]
  show (if catches s.heap T v then pure true else pure false : StoreM Bool) s = _
  cases catches s.heap T v <;> rfl

lemma handle_cons {c : Node} {ms : List Word} {x : String} {body : Node}
    (hc : c.shape = .catchClause ms x [type] body) (hT : nameOf type = .ok T) (cs : List Node) :
    ev.handle v (c :: cs) u =
      if catches u.heap T v then inScope [⟨x, v, none, false⟩] (ev.exec [] body) u else ev.handle v cs u := by
  have hdecide : (liftM (Evaluator.anyCatches v [type]) : Exec Bool) u =
      .ok (catches u.heap T v) u := liftM_of_ok (anyCatches_singleton hT _)
  rw [Evaluator.handle, hc]
  dsimp only
  rw [bind_of_ok hdecide]
  cases catches u.heap T v <;> rfl

lemma ensuring_pure (c : Exec α) : ensuring c (pure ()) = c := by
  funext st
  unfold ensuring
  cases h : c st with
  | ok a t => rfl
  | error e t => cases e <;> rfl

lemma execTry_of_thrown {body c handler : Node} {ms : List Word} {x : String}
    (hc : c.shape = .catchClause ms x [type] handler) (hT : nameOf type = .ok T)
    (hbody : ev.exec [] body st = .error (.thrown v) u) : ev.execTry body [c] none st =
      if catches u.heap T v then inScope [⟨x, v, none, false⟩] (ev.exec [] handler) u
      else .error (.thrown v) u := by
  have hguarded : ev.execGuarded body [c] st = ev.handle v [c] u := by
    unfold Evaluator.execGuarded
    rw [hbody]
  show ensuring (ev.execGuarded body [c]) (pure ()) st = _
  rw [ensuring_pure, hguarded, handle_cons hc hT]
  rfl

lemma evalInstanceOf_of_ok {e : Node} (hT : nameOf type = .ok T) (he : ev.eval e st = .ok v u) :
    ev.evalInstanceOf e type st = .ok (.bool (instanceOf u.heap v T)) u := by
  unfold Evaluator.evalInstanceOf
  rw [bind_of_ok he, hT]
  rfl

end

/-- A handler for a type takes what is thrown exactly if a test for the type finds it, except for
the types on which the two differ: those that are written with their package, those that cover an
object of another class, and those whose names stand for kinds of values. -/
theorem handler_agrees_with_test (ev : Evaluator) {st : State} {v : Value} {t : Thrown}
    {type : Node} {T : String} (hv : v.thrown? st.heap = some t) (hn : '.' ∉ t.name.toList)
    (hT : nameOf type = .ok T) (hobject : simpleName T ≠ "Object") :
    (∀ labels n body c ms x handler start, n.shape = .tryStmt body [c] none →
      c.shape = .catchClause ms x [type] handler →
      ev.exec [] body start = .error (.thrown v) st →
        ev.statement labels n start =
          if catches st.heap T v then inScope [⟨x, v, none, false⟩] (ev.exec [] handler) st
          else .error (.thrown v) st) ∧
    (∀ n e start, n.shape = .instanceOf e type → ev.eval e start = .ok v st →
      ev.expression n start = .ok (.bool (instanceOf st.heap v T)) st) ∧
    (catches st.heap T v = instanceOf st.heap v T ↔ ¬ t.Misfit T) := by
  refine ⟨fun labels n body c ms x handler start hn hc hbody => ?_,
    fun n e start hn he => ?_, catches_eq_instanceOf_iff hv hn hobject⟩
  · unfold Evaluator.statement
    rw [hn]
    exact execTry_of_thrown hc hT hbody
  · unfold Evaluator.expression
    rw [hn]
    exact evalInstanceOf_of_ok hT he

theorem handler_agrees_with_test_runtime :
    let st : State := { heap := { objects := #[.exception "ArithmeticException" none] } }
    let v : Value := .ref (.object 0)
    let type : Node := .plain (.typeRef "RuntimeException" 0 none)
    v.thrown? st.heap = some (.library "ArithmeticException") ∧
      '.' ∉ (Thrown.library "ArithmeticException").name.toList ∧
      nameOf type = .ok "RuntimeException" ∧
      simpleName "RuntimeException" ≠ "Object" ∧
      catches st.heap "RuntimeException" v = instanceOf st.heap v "RuntimeException" ∧
      catches st.heap "RuntimeException" v = true := by
  intro st v type
  have hT : nameOf type = .ok "RuntimeException" := rfl
  have hobject : simpleName "RuntimeException" ≠ "Object" := by decide
  have hmisfit : ¬ (Thrown.library "ArithmeticException").Misfit "RuntimeException" := by
    rintro (⟨hpackage, -⟩ | _ | ⟨hkind, -⟩)
    · exact hpackage (by decide)
    · exact absurd hkind (by decide)
  have hv : v.thrown? st.heap = some (.library "ArithmeticException") := rfl
  have hagree := (handler_agrees_with_test (evaluatorAt ⟨[]⟩ 10 5) hv (by decide) hT
    hobject).2.2.mpr hmisfit
  exact ⟨hv, by decide, hT, hobject, hagree, rfl⟩

/-- A handler for a type with its package does not take what a test for it finds. -/
theorem qualified_handler_misses :
    let type : Node := .plain (.typeRef "java.lang.ArithmeticException" 0 none)
    let e : Node := .plain (.ident "e")
    let n : Node := .plain (.tryStmt (.plain (.throwStmt e))
      [.plain (.catchClause [] "x" [type] (.plain .emptyStmt))] none)
    let st : State :=
      { heap := { objects := #[.exception "ArithmeticException" none] }
        frame := { className := "A", scopes := [[⟨"e", .ref (.object 0), none, false⟩]] } }
    (∃ u, (evaluatorAt ⟨[]⟩ 10 5).exec [] n st = .error (.thrown (.ref (.object 0))) u) ∧
      ∃ u, (evaluatorAt ⟨[]⟩ 10 5).eval (.plain (.instanceOf e type)) st = .ok (.bool true) u :=
  ⟨⟨_, rfl⟩, _, rfl⟩

end LoopLowering.Machine
