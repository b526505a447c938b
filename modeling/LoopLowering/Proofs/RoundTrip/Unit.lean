import LoopLowering.Proofs.Grammar.UnitReading
import LoopLowering.Proofs.Layout.Stability

/-! Compilation units survive being written and read again, both as they were read from a text and as
the passes leave them. The text adds parentheses and braces in a few places only. -/

namespace LoopLowering

namespace Layout

def held (e : Node) : Node :=
  match e.shape with
  | .unary _ true _ | .arrayCreation .. => .plain (.parens e)
  | _ => e

/-- A node with what its text adds: the parentheses of operands before a dot or an index and of the
source of an iterator, and the braces of a conditional that stands before an `else`. -/
def settled : Shape Node → Shape Node
  | .fieldAccess x e => .fieldAccess x (held e)
  | .arrayAccess e i => .arrayAccess (held e) i
  | .methodCall x (some e) as =>
    let isSource := x = "iterator" && as.isEmpty
    .methodCall x (some (if isSource then bracketed Precedence.primary e else held e)) as
  | .ifElse c a (some b) => .ifElse c (if isIf a then .plain (.block [a]) else a) (some b)
  | s => s

lemma binary_lt_counted (op : BinaryOp) : (Precedence.binary op).getD 0 < Precedence.counted := by
  cases op with
  | other => exact (by decide : 0 < Precedence.counted)
  | _ => decide

lemma bracketed_eq_held {e : Node} (h : Precedence.counted ≤ precedence e) :
    bracketed Precedence.primary e = held e := by
  obtain ⟨t, s⟩ := e
  cases s with
  | unary op after e =>
    cases after with
    | true => rfl
    | false => exact absurd h (by decide : ¬ Precedence.counted ≤ Precedence.unary)
  | binary op l r => exact absurd (binary_lt_counted op) (Nat.not_lt.mpr h)
  | assign => exact absurd h (by decide : ¬ Precedence.counted ≤ Precedence.assign)
  | conditional => exact absurd h (by decide : ¬ Precedence.counted ≤ Precedence.conditional)
  | cast => exact absurd h (by decide : ¬ Precedence.counted ≤ Precedence.unary)
  | instanceOf => exact absurd h (by decide : ¬ Precedence.counted ≤ Precedence.comparison)
  | _ => rfl

/-- In a tree that was read, or made by the passes, an operand needs parentheses in these places
only. -/
lemma fitted_of_placed {s : Shape Node} (h : Placed s) : fitted s = settled s := by
  have hle : ∀ {least : Nat} {e : Node}, least ≤ precedence e → bracketed least e = e :=
    bracketed_of_le
  cases s with
  | fieldAccess x e => exact congrArg (Shape.fieldAccess x) (bracketed_eq_held h)
  | arrayAccess e i => exact congrArg (Shape.arrayAccess · i) (bracketed_eq_held h)
  | methodCall x o as =>
    cases o with
    | none => rfl
    | some e =>
      rw [fitted, settled]
      rcases h with h | ⟨rfl, rfl⟩
      · rw [bracketed_eq_held h]
        simp
      · rfl
  | assign op l r =>
    simp only [fitted, settled, hle (Nat.le_of_eq (precedence_of_isTarget h.1).symm), hle h.2]
  | binary op l r =>
    obtain ⟨p, hp, hl, hr⟩ := h
    simp only [fitted, settled, hp, Option.getD_some, hle hl, hle hr]
  | unary op after e => cases after <;> simp only [fitted, settled, hle h]
  | conditional c a b => simp only [fitted, settled, hle h.1.1, hle h.2, hle h.1.2]
  | cast ty e => simp only [fitted, settled, hle h]
  | instanceOf e ty => simp only [fitted, settled, hle h]
  | ifElse c a o => cases o <;> rfl
  | _ => rfl

lemma placed_map_reread {s : Shape Node} (h : Placed s) : Placed (s.map Node.reread) := by
  have hprecedence : ∀ e : Node, precedence e.reread = precedence e :=
    fun e => (sameHead_reread e).precedence
  cases s with
  | methodCall x o as =>
    cases o with
    | none => trivial
    | some e =>
      simp only [Shape.map, Shape.mapAt, mapIdx_const, Option.map_some, Placed, hprecedence,
        List.map_eq_nil_iff]
      exact h
  | assign op l r =>
    simp only [Shape.map, Shape.mapAt, Placed, hprecedence, (sameHead_reread l).isTarget]
    exact h
  | unary op after e =>
    cases after <;> simpa only [Shape.map, Shape.mapAt, Placed, Fits, hprecedence] using h
  | fieldAccess | arrayAccess | binary | conditional | cast | instanceOf =>
    simpa only [Shape.map, Shape.mapAt, Placed, Fits, hprecedence] using h
  | _ => trivial

end Layout

open Layout Grammar

namespace Node

/-- A tree with the parentheses and braces that its text adds. -/
def settled : Node → Node := fold fun _ s => plain (Layout.settled s)

lemma settled_mk (t : Tag) (s : Shape Node) :
    settled (mk t s) = plain (Layout.settled (s.map settled)) := fold_mk _ t s

lemma reread_eq_settled {n : Node} (h : n.Everywhere fun _ s => Placed s) :
    n.reread = n.settled := by
  induction n using children_induction with
  | h t s ih =>
    obtain ⟨here, hchildren⟩ := everywhere_mk.mp h
    have hmap : s.map reread = s.map settled :=
      Shape.map_congr fun c hc => ih c hc (hchildren c hc)
    rw [reread_mk, settled_mk, fitted_of_placed (placed_map_reread here), hmap]

lemma bare_reread (n : Node) : n.reread.bare = n.reread := by
  induction n using children_induction with
  | h t s ih =>
    rw [reread_mk, plain, bare_mk]
    refine congrArg plain (Shape.map_eq_self fun c hc => ?_)
    obtain ⟨d, hd, hcd⟩ := mem_children_fitted hc
    rw [Shape.children_map] at hd
    obtain ⟨e, he, rfl⟩ := List.mem_map.mp hd
    have hself := ih e he
    rcases hcd with rfl | rfl | rfl
    · exact hself
    · rw [plain, bare_mk]
      exact congrArg (fun e => plain (.parens e)) hself
    · rw [plain, bare_mk]
      exact congrArg (fun e => plain (.block [e])) hself

lemma reread_bare (n : Node) : n.bare.reread = n.reread := by
  induction n using children_induction with
  | h t s ih =>
    have hmap : (s.map bare).map reread = s.map reread := by
      rw [Shape.map, Shape.map, Shape.mapAt_mapAt]
      exact Shape.map_congr ih
    rw [bare_mk, plain, reread_mk, hmap, reread_mk]

end Node

lemma javaText_of_bare {r n : Node} (h : r.bare = n.reread) : javaText r = javaText n := by
  rw [← javaText_reread r, ← r.reread_bare, h, javaText_reread, javaText_reread]

lemma UnitTree.parse_javaText {n : Node} (h : UnitTree Lasting n)
    (hwritable : n.Everywhere fun _ s => Writable s) (hvoid : n.Everywhere fun _ s => VoidBare s) :
    ∃ text r, javaText n = .ok text ∧ parse .unit text = .ok r ∧ r.bare = n.reread := by
  obtain ⟨text, htext, hspells⟩ := UnitTree.javaText_spells (h.mono fun m hm _ => hwritable m hm)
  refine ⟨text, ?_⟩
  obtain ⟨r, hr, hbare⟩ : ∃ r, parse .unit text = .ok r ∧ r.bare = n.reread.bare := by
    refine hspells.parse (by simp [Ends]) fun k ts t htokens hclosed hts ht hk => ?_
    exact compilationUnit_items (h.readable hvoid) hts ht
      (hclosed ▸ Remaining.of_tokenize htokens) (by omega)
  exact ⟨r, htext, hr, hbare.trans (Node.bare_reread n)⟩

/-- A unit and what any passes make of it are read back from their text, with the parentheses and
braces that the text adds, and the text of what is read is the same. -/
theorem parse_javaText_unit {source : String} {tree : Node} (hparse : parse .unit source = .ok tree)
    (hheads : tree.Everywhere fun _ s => HeadStated s) (passes : List Pass) :
    ∃ n, Pass.runAll passes tree = .ok n ∧
      ((n.Everywhere fun _ s => Writable s) → (n.Everywhere fun _ s => VoidBare s) →
        ∃ text r, javaText n = .ok text ∧ parse .unit text = .ok r ∧ r.bare = n.settled ∧
          javaText r = .ok text) := by
  have htree : UnitTree Lasting tree :=
    (treeOf_parse hparse : UnitTree Parsed tree).mono fun m hm here => ⟨here.sound, hheads m hm⟩
  obtain ⟨n, hn, hlasting⟩ := Pass.exists_runAll (wellPlaced_of_parse hparse) htree passes
  refine ⟨n, hn, fun hwritable hvoid => ?_⟩
  obtain ⟨text, r, htext, hr, hbare⟩ := hlasting.parse_javaText hwritable hvoid
  have hplaced : n.Everywhere fun _ s => Placed s := fun m hm => (hlasting.everywhere m hm).sound.placed
  exact ⟨text, r, htext, hr, hbare.trans (Node.reread_eq_settled hplaced),
    (javaText_of_bare hbare).trans htext⟩

theorem parse_javaText_unit_lowered : ∃ tree n text r,
    parse .unit
        "class A \x7b \x7b for (;; i++) if (p) if (q) continue; else; else; for (T x : -a); \x7d \x7d" =
      .ok tree ∧
      (tree.Everywhere fun _ s => HeadStated s) ∧ Pass.runAll [.forLoops, .forEachLoops] tree = .ok n ∧
      (n.Everywhere fun _ s => Writable s) ∧ (n.Everywhere fun _ s => VoidBare s) ∧
      javaText n = .ok text ∧ parse .unit text = .ok r ∧ r.bare = n.settled ∧ javaText r = .ok text := by
  have hchecked : ((parse .unit
        "class A \x7b \x7b for (;; i++) if (p) if (q) continue; else; else; for (T x : -a); \x7d \x7d").toOption.any
      fun tree => decide (tree.Everywhere fun _ s => HeadStated s) &&
        (Pass.runAll [.forLoops, .forEachLoops] tree).toOption.any fun n =>
          decide (n.Everywhere fun _ s => Writable s) &&
            decide (n.Everywhere fun _ s => VoidBare s)) = true := by
    decide +kernel
  obtain ⟨tree, htree, hchecked⟩ := (Option.any_eq_true _ _).mp hchecked
  have hparse := eq_ok_of_toOption htree
  obtain ⟨hheads, hlowered⟩ := Bool.and_eq_true_iff.mp hchecked
  obtain ⟨n, hn, htext⟩ := parse_javaText_unit hparse (of_decide_eq_true hheads)
    [.forLoops, .forEachLoops]
  rw [hn] at hlowered
  obtain ⟨hwritable, hvoid⟩ := Bool.and_eq_true_iff.mp hlowered
  obtain ⟨text, r, hread⟩ := htext (of_decide_eq_true hwritable) (of_decide_eq_true hvoid)
  exact ⟨tree, n, text, r, hparse, of_decide_eq_true hheads, hn, of_decide_eq_true hwritable,
    of_decide_eq_true hvoid, hread⟩

end LoopLowering
