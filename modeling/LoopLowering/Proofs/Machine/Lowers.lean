import LoopLowering.Proofs.Loops.Structure
import LoopLowering.Proofs.Machine.Simulation
import LoopLowering.Proofs.Tree.Nodes

/-! When a statement is a lowered form of another: the same statement with lowered parts, or the
block that stands for a loop. The relation says what the simulation needs to know about names,
labels and jumps. -/

namespace LoopLowering

namespace Machine

open Loops

namespace Routes

variable (r : Routes) (labels : List String)

def loop : Routes where
  breaks l := l = none ∨ r.breaks l
  stays l := continues labels false l = true ∨ r.stays l
  turns l m := continues labels false l = false ∧ r.turns l m

def passing : Routes where
  breaks l := l = none ∨ r.breaks l
  stays l := continues labels false l = false ∧ r.stays l
  turns l m := continues labels false l = false ∧ r.turns l m

def guarded (target : String) : Routes where
  breaks l := l = none ∨ r.breaks l
  stays l := continues labels false l = false ∧ r.stays l
  turns l m := if continues labels false l then m = target else r.turns l m

def label (l : String) : Routes := { r with breaks := fun b => b = some l ∨ r.breaks b }

def under : Routes := { r with breaks := fun b => (∃ l ∈ labels, b = some l) ∨ r.breaks b }

end Routes

def Avoids (S : Setting) (n : Node) : Prop := ∀ m ∈ n.names, ¬ S.reserved m

def AllAvoid (S : Setting) (ns : List Node) : Prop := ∀ n ∈ ns, Avoids S n

lemma Avoids.child {S : Setting} {t : Tag} {s : Shape Node} (h : Avoids S (.mk t s)) {c : Node}
    (hc : c ∈ s.children) : Avoids S c := fun m hm => h m (Node.names_subset hc hm)

def Declares (names : String → Prop) (ds : List Node) : Prop :=
  ∀ d ∈ ds, ∀ n k init, d.shape = .declarator n k init → names n

inductive HandlersAlike : Node → Node → Prop
  | handler (t t' : Tag) (mods : List Word) (name : String) (types : List Node) (b b' : Node) :
    HandlersAlike (.mk t (.catchClause mods name types b)) (.mk t' (.catchClause mods name types b'))
  | neither {c c' : Node} (h : ∀ mods name types b, c.shape ≠ .catchClause mods name types b)
      (h' : ∀ mods name types b, c'.shape ≠ .catchClause mods name types b) : HandlersAlike c c'

def isInert : Shape Node → Bool
  | .block .. | .localVar .. | .exprStmt .. | .ifElse .. | .whileLoop .. | .doWhile .. | .forLoop ..
  | .forEach .. | .returnStmt .. | .breakStmt .. | .continueStmt .. | .throwStmt .. | .tryStmt ..
  | .labeled .. | .emptyStmt | .classDecl .. => false
  | _ => true

inductive Keeps : Node → List Node → (String → Prop) → Prop
  | own (t : Tag) (ss : List Node) (names : String → Prop) : Keeps (.mk t (.block ss)) ss names
  | other (body : Node) : Keeps body [body] fun _ => False

structure NoLeaves (S : Setting) : Prop where
  breaks : ∀ l, ¬ S.leaves.breaks l
  stays : ∀ l, ¬ S.leaves.stays l

structure ForHead (S : Setting) (bound : String → Prop) (routes : Routes)
    (labels : List (Tag × String)) (init : List Node) (cond : Option Node) (update : List Node) :
    Prop where
  loose : S.tight = false
  leaves : NoLeaves S
  bound : ∀ l ∈ labels, bound l.2
  turns : ∀ l ∈ labels, ∀ c, ¬ routes.turns c l.2
  avoids : AllAvoid S (init ++ cond.toList ++ update)
  factor : (init.flatMap statementsOf).length + update.length + 4 ≤ S.factor

structure EachHead (S : Setting) (bound : String → Prop) (routes : Routes)
    (labels : List (Tag × String)) (x : String) (iterable : Node) : Prop where
  foreign : S.forbidden .foreignIteration = true
  breaks : ∀ l ∈ labels, ¬ S.leaves.breaks (some l.2)
  bound : ∀ l ∈ labels, bound l.2
  turns : ∀ l ∈ labels, ∀ c, ¬ routes.turns c l.2
  avoids : Avoids S iterable
  reserved : S.reserved (iteratorName x)
  factor : 3 ≤ S.factor
  single : S.tight = true → labels.length ≤ 1

def updatesOf (update : List Node) : List Node := update.map fun e => .plain (.exprStmt e)

def conditionOf (cond : Option Node) : Node := cond.getD (.plain (.literal (.bool true) .boolean))

/-- The statement `n'` is a lowered form of `n`, where `labels` stand right before both. The labels
inside satisfy `bound`, the jumps out of the statement are `routes`, and what it declares in the
scope around it has names in `names`. -/
inductive Lowers (S : Setting) :
    (bound : String → Prop) → (routes : Routes) → (names : String → Prop) →
    (labels : List String) → Node → Node → Prop
  | block {bound routes names labels t t' ss ss'} (hlen : ss'.length = ss.length)
      (h : ∀ (i : Nat) (n n' : Node), ss[i]? = some n → ss'[i]? = some n' →
        Lowers S bound routes (fun _ => True) [] n n') :
    Lowers S bound routes names labels (.mk t (.block ss)) (.mk t' (.block ss'))
  | localVar {bound routes names labels t t' mods type ds} (h : AllAvoid S ds)
      (hds : Declares names ds) :
    Lowers S bound routes names labels (.mk t (.localVar mods type ds))
      (.mk t' (.localVar mods type ds))
  | exprStmt {bound routes names labels t t' e} (h : Avoids S e) :
    Lowers S bound routes names labels (.mk t (.exprStmt e)) (.mk t' (.exprStmt e))
  | ifElse {bound routes names labels t t' cond a a' b b'} (hcond : Avoids S cond)
      (ha : Lowers S bound routes names [] a a') (hsome : b'.isSome = b.isSome)
      (hb : ∀ n n', b = some n → b' = some n' → Lowers S bound routes names [] n n') :
    Lowers S bound routes names labels (.mk t (.ifElse cond a b)) (.mk t' (.ifElse cond a' b'))
  | whileLoop {bound routes names labels t t' cond body body'} (hcond : Avoids S cond)
      (hbody : Lowers S bound (routes.loop labels) names [] body body') :
    Lowers S bound routes names labels (.mk t (.whileLoop cond body))
      (.mk t' (.whileLoop cond body'))
  | doWhile {bound routes names labels t t' cond body body'} (hcond : Avoids S cond)
      (hbody : Lowers S bound (routes.loop labels) names [] body body') :
    Lowers S bound routes names labels (.mk t (.doWhile body cond)) (.mk t' (.doWhile body' cond))
  | forLoop {bound routes names labels t t' init cond update body body'}
      (hhead : AllAvoid S (init ++ cond.toList ++ update))
      (hbody : Lowers S bound (routes.loop labels) (fun _ => True) [] body body') :
    Lowers S bound routes names labels (.mk t (.forLoop init cond update body))
      (.mk t' (.forLoop init cond update body'))
  | forEach {bound routes names labels t t' var iterable body body'} (hiterable : Avoids S iterable)
      (hbody : Lowers S bound (routes.loop labels) (fun _ => True) [] body body') :
    Lowers S bound routes names labels (.mk t (.forEach var iterable body))
      (.mk t' (.forEach var iterable body'))
  | returnStmt {bound routes names labels t t' e} (h : AllAvoid S e.toList) :
    Lowers S bound routes names labels (.mk t (.returnStmt e)) (.mk t' (.returnStmt e))
  | throwStmt {bound routes names labels t t' e} (h : Avoids S e) :
    Lowers S bound routes names labels (.mk t (.throwStmt e)) (.mk t' (.throwStmt e))
  | breakStmt {bound routes names labels t t' l} (h : routes.breaks l) :
    Lowers S bound routes names labels (.mk t (.breakStmt l)) (.mk t' (.breakStmt l))
  | continueStmt {bound routes names labels t t' l} (h : routes.stays l) :
    Lowers S bound routes names labels (.mk t (.continueStmt l)) (.mk t' (.continueStmt l))
  | turned {bound routes names labels t t' l m} (h : routes.turns l m) :
    Lowers S bound routes names labels (.mk t (.continueStmt l)) (.mk t' (.breakStmt (some m)))
  | tryStmt {bound routes names labels t t' body body' handlers handlers' last last'}
      (hbody : Lowers S bound routes names [] body body')
      (hhandlers : List.Forall₂ HandlersAlike handlers handlers')
      (hbodies : ∀ (i : Nat) t t' mods name types b b',
        handlers[i]? = some (.mk t (.catchClause mods name types b)) →
        handlers'[i]? = some (.mk t' (.catchClause mods name types b')) →
        Lowers S bound routes (fun _ => True) [] b b')
      (hsome : last'.isSome = last.isSome)
      (hlast : ∀ n n', last = some n → last' = some n' → Lowers S bound routes names [] n n') :
    Lowers S bound routes names labels (.mk t (.tryStmt body handlers last))
      (.mk t' (.tryStmt body' handlers' last'))
  | labeled {bound routes names labels t t' l body body'} (hl : bound l)
      (hturns : ∀ c, ¬ routes.turns c l)
      (hbody : Lowers S bound (routes.label l) names (labels ++ [l]) body body') :
    Lowers S bound routes names labels (.mk t (.labeled l body)) (.mk t' (.labeled l body'))
  | emptyStmt {bound routes names labels t t'} :
    Lowers S bound routes names labels (.mk t .emptyStmt) (.mk t' .emptyStmt)
  | classDecl {bound routes names labels t t' mods kw n tps ex im ms ex' im' ms'} :
    Lowers S bound routes names labels (.mk t (.classDecl mods kw n tps ex im ms))
      (.mk t' (.classDecl mods kw n tps ex' im' ms'))
  | inert {bound routes names labels t t' s s'} (h : isInert s = true) (h' : isInert s' = true)
      (hkind : s'.kind = s.kind) : Lowers S bound routes names labels (.mk t s) (.mk t' s')
  | forAsWhile {bound routes inside names t tk line ls init cond update body ss ss'}
      (inner : String → Prop) (head : ForHead S bound routes ls init cond update)
      (keeps : Keeps body ss inner) (hnames : ∀ e ∈ update, ∀ n ∈ e.names, ¬ inner n)
      (hinside : inside = (routes.under (ls.map (·.2))).passing (ls.map (·.2)) ∨
        update = [] ∧ inside = (routes.under (ls.map (·.2))).loop (ls.map (·.2)))
      (hlen : ss'.length = ss.length)
      (h : ∀ (i : Nat) (n n' : Node), ss[i]? = some n → ss'[i]? = some n' →
        Lowers S bound inside inner [] n n') :
    Lowers S bound routes names [] (underLabels ls (.mk t (.forLoop init cond update body)))
      (whileBlock (ls.map (·.2)) line (init.flatMap statementsOf) (conditionOf cond)
        (.mk tk (.block (ss' ++ updatesOf update))))
  | guardedFor {bound routes names t tk line ls init cond update body ss ss'} (target : String)
      (inner : String → Prop) (head : ForHead S bound routes ls init cond update)
      (keeps : Keeps body ss inner) (htarget : bound target)
      (hbreaks : ¬ (routes.under (ls.map (·.2))).breaks (some target))
      (hturns : ∀ c, ¬ routes.turns c target)
      (hlen : ss'.length = ss.length)
      (h : ∀ (i : Nat) (n n' : Node), ss[i]? = some n → ss'[i]? = some n' →
        Lowers S bound ((routes.under (ls.map (·.2))).guarded (ls.map (·.2)) target) inner [] n n') :
    Lowers S bound routes names [] (underLabels ls (.mk t (.forLoop init cond update body)))
      (whileBlock (ls.map (·.2)) line (init.flatMap statementsOf) (conditionOf cond)
        (.plain (.block (.plain (.labeled target (.mk tk (.block ss'))) :: updatesOf update))))
  | forEachAsWhile {bound routes names t tv td tk line ls mods type element x iterable body ss ss'}
      (head : EachHead S bound routes ls x iterable)
      (keeps : ss = [body] ∨ ∃ tb, body = .mk tb (.block ss)) (hlen : ss'.length = ss.length)
      (h : ∀ (i : Nat) (n n' : Node), ss[i]? = some n → ss'[i]? = some n' →
        Lowers S bound ((routes.under (ls.map (·.2))).loop (ls.map (·.2))) (fun _ => True) [] n n') :
    Lowers S bound routes names []
      (underLabels ls (.mk t (.forEach
        (.mk tv (.localVar mods type [.mk td (.declarator x 0 none)])) iterable body)))
      (whileBlock (ls.map (·.2)) line [iteratorDecl element iterable x] (iteratorCall x "hasNext")
        (.mk tk (.block (nextElement mods type x 0 :: ss'))))

end Machine

end LoopLowering
