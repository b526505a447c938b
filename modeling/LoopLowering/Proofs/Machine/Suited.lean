import LoopLowering.Proofs.Loops.Resolution
import LoopLowering.Proofs.Loops.Retargeting
import LoopLowering.Proofs.Machine.Exits
import LoopLowering.Proofs.Machine.Statement

/-! What a statement needs in its place, so that lowered forms of its parts make a lowered form of
it: its jumps stay among those of the place, and so do the names that it declares. -/

namespace LoopLowering.Machine

open Loops

namespace Routes

def Admits (r : Routes) : Exit → Prop
  | .breakTo l => r.breaks l
  | .continueTo l => r.stays l
  | .returned => True

variable {r : Routes} {labels : List String} {x : Exit}

lemma admits_loop (h : x.stopsAt labels = false → r.Admits x) : (r.loop labels).Admits x := by
  cases x with
  | breakTo l =>
    cases l with
    | none => exact .inl rfl
    | some l => exact .inr (h rfl)
  | continueTo l =>
    cases hl : continues labels false l with
    | true => exact .inl hl
    | false =>
      cases l with
      | none => cases hl
      | some l => exact .inr (h hl)
  | returned => trivial

lemma admits_label {l : String} (h : x ≠ .breakTo (some l) → r.Admits x) :
    (r.label l).Admits x := by
  by_cases hx : x = .breakTo (some l)
  · subst hx
    exact .inl rfl
  · have hx := h hx
    cases x with
    | breakTo m => exact .inr hx
    | _ => exact hx

lemma label_under (l : String) : (r.label l).under labels = r.under (l :: labels) := by
  have hbreaks : (fun b => (∃ x ∈ labels, b = some x) ∨ b = some l ∨ r.breaks b) =
      fun b => (∃ x ∈ l :: labels, b = some x) ∨ r.breaks b := by
    funext b
    rw [List.exists_mem_cons_iff, eq_iff_iff, ← or_assoc, or_comm (b := b = some l)]
  exact congrArg (Routes.mk · r.stays r.turns) hbreaks

end Routes

structure Suits (S : Setting) (user : String → Prop) (routes : Routes) (names : String → Prop)
    (labels : List String) (n : Node) : Prop where
  avoids : Avoids S n
  marks : ∀ l, .label l ∈ mentions n → user l
  exits : ∀ x ∈ n.exits labels, routes.Admits x
  turns : ∀ l m, ¬ routes.turns l m
  breaks : ∀ l, routes.breaks (some l) → user l
  scopes : (∀ x, names x) ∨ DeclaresInBlocks n ∧ ∀ x ∈ declaredNames n, names x

structure Carries (S : Setting) (bound user : String → Prop) (n n' : Node) : Prop where
  lowers {routes : Routes} {names : String → Prop} (h : Suits S user routes names [] n) :
    Lowers S bound routes names [] n n'
  handlers {routes : Routes} {names : String → Prop} (h : Suits S user routes names [] n) :
    Matches.Handlers S bound routes n n'
  statements {t : Tag} {ss : List Node} (h : n = .mk t (.block ss)) :
    ∃ ss', n' = .mk t (.block ss') ∧ ss'.length = ss.length ∧
      ∀ (i : Nat) (s s' : Node), ss[i]? = some s → ss'[i]? = some s' →
        ∀ {routes : Routes} {names : String → Prop}, Suits S user routes names [] s →
          Lowers S bound routes names [] s s'

lemma mem_declaredNames {t : Tag} {mods : List Word} {type : Node} {ds : List Node} {d : Node}
    (hd : d ∈ ds) {n : String} {k : Nat} {init : Option Node}
    (hshape : d.shape = .declarator n k init) :
    n ∈ declaredNames (.mk t (.localVar mods type ds)) := by
  have hreading : reading (.mk t (.localVar mods type ds)) =
      { declared := Reading.after Reading.introduced (ds.map reading) [],
        uses := Reading.inTurn Reading.introduced (ds.map reading) } := by
    simp [reading_mk, Shape.map, Shape.mapAt, Reading.alg, mapIdx_const]
  obtain ⟨before, after, rfl⟩ := List.append_of_mem hd
  obtain ⟨td, s⟩ := d
  obtain rfl : s = .declarator n k init := hshape
  have hintroduced : (reading (.mk td (.declarator n k init))).introduced = [(n, td.id)] := rfl
  rw [declaredNames, hreading, List.map_append, List.map_cons, Reading.after_append]
  dsimp only
  rw [Reading.after, hintroduced, Reading.after_eq]
  simp

section

variable {S : Setting} {bound user names names₁ : String → Prop} {routes routes₁ : Routes}
  {labels : List String} {t : Tag} {s : Shape Node} {c : Node}

namespace Suits

variable {labels₁ : List String}

lemma inner (h : Suits S user routes names labels (.mk t s)) (hc : c ∈ s.bodies)
    (hexits : ∀ x ∈ c.exits labels₁, routes₁.Admits x)
    (hturns : ∀ l m, routes₁.turns l m → routes.turns l m)
    (hbreaks : ∀ l, routes₁.breaks (some l) → user l) :
    Suits S user routes₁ (fun _ => True) labels₁ c where
  avoids := h.avoids.child (Shape.mem_children_iff.mpr (.inr hc))
  marks l hl := h.marks l (mentions_child hc hl)
  exits := hexits
  turns l m ht := h.turns l m (hturns l m ht)
  breaks := hbreaks
  scopes := .inl fun _ => trivial

lemma beside (h : Suits S user routes names labels (.mk t s)) (hs : ∀ ss, s ≠ .block ss)
    (hc : c ∈ s.bodies) (hexits : ∀ x ∈ c.exits labels₁, routes₁.Admits x)
    (hturns : ∀ l m, routes₁.turns l m → routes.turns l m)
    (hbreaks : ∀ l, routes₁.breaks (some l) → user l) :
    Suits S user routes₁ names labels₁ c where
  __ := h.inner hc hexits hturns hbreaks
  scopes := h.scopes.imp_right fun ⟨hblocks, _⟩ => by
    obtain ⟨hblock, hblocks⟩ := Node.forall_nodes_mk.mp hblocks
    refine ⟨hblocks c (Shape.mem_children_iff.mpr (.inr hc)), fun x hx => ?_⟩
    have hall : s.bodies.all (fun c => !c.shape.isDeclaration) = true := by
      cases s with
      | block ss => exact absurd rfl (hs ss)
      | _ => exact hblock
    have hdeclaration : c.shape.isDeclaration = false := by
      simpa using List.all_eq_true.mp hall c hc
    rw [declaredNames, declared_of_not_declaration hdeclaration] at hx
    cases hx

lemma loop (h : Suits S user routes names labels (.mk t s)) (hs : ∀ ss, s ≠ .block ss)
    (hc : c ∈ s.bodies)
    (hexits : (Node.mk t s).exits labels = (c.exits []).filter fun x => !x.stopsAt labels) :
    Suits S user (routes.loop labels) names [] c := by
  refine h.beside hs hc (fun x hx => Routes.admits_loop fun hstops => h.exits x ?_)
    (fun l m ht => ht.2) fun l hl => h.breaks l (hl.resolve_left (by rintro ⟨⟩))
  rw [hexits]
  exact List.mem_filter.mpr ⟨hx, by rw [hstops]; rfl⟩

lemma anywhere (h : Suits S user routes names labels c) :
    Suits S user routes (fun _ => True) labels c where
  __ := h
  scopes := .inl fun _ => trivial

lemma labeled {l : String} (h : Suits S user routes names labels (.mk t (.labeled l c))) :
    Suits S user (routes.label l) names (labels ++ [l]) c := by
  refine h.beside (by rintro _ ⟨⟩) List.mem_cons_self
    (fun x hx => Routes.admits_label fun hne => h.exits x ?_) (fun l m ht => ht) fun b hb => ?_
  · rw [Node.exits_labeled]
    exact List.mem_filter.mpr ⟨hx, by simpa using hne⟩
  · rcases hb with hb | hb
    · obtain rfl := Option.some.inj hb
      exact h.marks b (by simp [mentions_labeled])
    · exact h.breaks b hb

lemma under {ls : List (Tag × String)} {n : Node}
    (h : Suits S user routes names labels (underLabels ls n)) :
    Suits S user (routes.under (ls.map (·.2))) names (labels ++ ls.map (·.2)) n := by
  induction ls generalizing routes labels with
  | nil =>
    rw [List.map_nil, List.append_nil]
    exact { h with
      exits := fun x hx => by
        have hx := h.exits x hx
        cases x with
        | breakTo l => exact .inr hx
        | _ => exact hx
      breaks := fun l hl => h.breaks l (hl.resolve_left (by simp)) }
  | cons l ls ih =>
    have hrest := ih h.labeled
    rwa [Routes.label_under, List.append_assoc] at hrest

end Suits

lemma lowers_underLabels {ls : List (Tag × String)} {n n' : Node}
    (hbound : ∀ l ∈ ls.map (·.2), bound l) (hturns : ∀ l m, ¬ routes.turns l m)
    (h : Lowers S bound (routes.under (ls.map (·.2))) names (labels ++ ls.map (·.2)) n n') :
    Lowers S bound routes names labels (underLabels ls n) (underLabels ls n') := by
  induction ls generalizing routes labels with
  | nil =>
    show Lowers S bound routes names labels n n'
    simpa [Routes.under] using h
  | cons l ls ih =>
    obtain ⟨hl, hls⟩ := List.forall_mem_cons.mp hbound
    refine .labeled hl (fun c => hturns c l.2) (ih hls hturns ?_)
    rw [Routes.label_under, List.append_assoc]
    exact h

lemma alike_of_handlers {cs cs' : List Node}
    (h : List.Forall₂ (Matches.Handlers S bound routes) cs cs') :
    List.Forall₂ HandlersAlike cs cs' := by
  refine h.imp fun c c' hc => ?_
  cases hc with
  | handler => exact .handler ..
  | neither h h' => exact .neither h h'

lemma bodies_of_handlers {cs cs' : List Node}
    (h : List.Forall₂ (Matches.Handlers S bound routes) cs cs') (i : Nat) (t t' : Tag)
    (mods : List Word) (name : String) (types : List Node) (b b' : Node)
    (hc : cs[i]? = some (.mk t (.catchClause mods name types b)))
    (hc' : cs'[i]? = some (.mk t' (.catchClause mods name types b'))) :
    Lowers S bound routes (fun _ => True) [] b b' := by
  have hboth := forall₂_getElem? h i
  rw [hc, hc'] at hboth
  cases hboth with
  | some hboth =>
    cases hboth with
    | handler h => exact h
    | neither h h' => exact absurd rfl (h mods name types b)

end

section

variable {S : Setting} {bound user names : String → Prop} {routes : Routes}
  {labels : List String} {t : Tag} {β : Type} {q : Shape β} {a b : β → Node}

structure PartsCarried (S : Setting) (bound user : String → Prop) (q : Shape β)
    (a b : β → Node) : Prop where
  phrases : ∀ c ∈ q.phrases, b c = a c
  bodies : ∀ c ∈ q.bodies, Carries S bound user (a c) (b c)

lemma map_mem_bodies (a : β → Node) {c : β} (hc : c ∈ q.bodies) : a c ∈ (q.map a).bodies := by
  rw [Shape.bodies_map]
  exact List.mem_map_of_mem hc

namespace PartsCarried

variable {cond body x : β}

lemma block {ss : List β} (hp : PartsCarried S bound user (.block ss) a b)
    (h : Suits S user routes names labels (.mk t ((Shape.block ss).map a))) :
    Lowers S bound routes names labels (.mk t ((Shape.block ss).map a))
      (.mk t ((Shape.block ss).map b)) := by
  have hmem : ∀ c ∈ ss, a c ∈ ((Shape.block ss).map a).bodies := fun _ hc =>
    map_mem_bodies (q := .block ss) a hc
  simp only [Shape.map, Shape.mapAt, mapIdx_const] at h hmem ⊢
  refine .block (by simp) fun i n n' hn hn' => ?_
  rw [List.getElem?_map] at hn hn'
  obtain ⟨c, hc, rfl⟩ := Option.map_eq_some_iff.mp hn
  obtain ⟨c', hc', rfl⟩ := Option.map_eq_some_iff.mp hn'
  obtain rfl := Option.some.inj (hc.symm.trans hc')
  have hc := List.mem_of_getElem? hc
  refine (hp.bodies c hc).lowers (h.inner (hmem c hc) (fun x hx => h.exits x ?_) (fun _ _ h => h)
    h.breaks)
  rw [Node.exits_block]
  exact List.mem_flatMap.mpr ⟨a c, List.mem_map_of_mem hc, hx⟩

lemma localVar {mods : List Word} {type : β} {ds : List β}
    (hp : PartsCarried S bound user (.localVar mods type ds) a b)
    (h : Suits S user routes names labels (.mk t ((Shape.localVar mods type ds).map a))) :
    Lowers S bound routes names labels (.mk t ((Shape.localVar mods type ds).map a))
      (.mk t ((Shape.localVar mods type ds).map b)) := by
  have htype : b type = a type := hp.phrases type (by simp [Shape.phrases, Shape.children,
    Shape.parts, Part.toList])
  have hds : ds.map b = ds.map a := List.map_congr_left fun d hd => hp.phrases d (by
    simp [Shape.phrases, Shape.children, Shape.parts, Part.toList, hd])
  simp only [Shape.map, Shape.mapAt, mapIdx_const, htype, hds] at h ⊢
  refine .localVar (fun d hd => h.avoids.child
      (by simp [Shape.children, Shape.parts, Part.toList, hd]))
    fun d hd n k init hshape => ?_
  rcases h.scopes with hall | ⟨-, hnames⟩
  · exact hall n
  · exact hnames n (mem_declaredNames hd hshape)

lemma ifElse {y : Option β} (hp : PartsCarried S bound user (.ifElse cond x y) a b)
    (h : Suits S user routes names labels (.mk t ((Shape.ifElse cond x y).map a))) :
    Lowers S bound routes names labels (.mk t ((Shape.ifElse cond x y).map a))
      (.mk t ((Shape.ifElse cond x y).map b)) := by
  have hcond : b cond = a cond := hp.phrases cond List.mem_cons_self
  have hpart : ∀ c ∈ (Shape.ifElse cond x y).bodies,
      Lowers S bound routes names [] (a c) (b c) := fun c hc =>
    (hp.bodies c hc).lowers (h.beside (by rintro _ ⟨⟩) (map_mem_bodies a hc)
      (fun z hz => h.exits z (by
        have hc := map_mem_bodies a hc
        simp only [Shape.map, Shape.mapAt, Shape.bodies] at hc ⊢
        rw [Node.exits_ifElse]
        exact List.mem_flatMap.mpr ⟨a c, hc, hz⟩)) (fun _ _ h => h) h.breaks)
  simp only [Shape.map, Shape.mapAt, hcond] at h ⊢
  refine .ifElse (h.avoids.child List.mem_cons_self) (hpart x List.mem_cons_self) (by simp)
    fun n n' hn hn' => ?_
  obtain ⟨c, rfl, rfl⟩ := Option.map_eq_some_iff.mp hn
  obtain rfl := Option.some.inj hn'
  exact hpart c (by simp [Shape.bodies])

lemma whileLoop (hp : PartsCarried S bound user (.whileLoop cond body) a b)
    (h : Suits S user routes names labels (.mk t ((Shape.whileLoop cond body).map a))) :
    Lowers S bound routes names labels (.mk t ((Shape.whileLoop cond body).map a))
      (.mk t ((Shape.whileLoop cond body).map b)) := by
  have hcond : b cond = a cond := hp.phrases cond List.mem_cons_self
  have hbody := h.loop (by rintro _ ⟨⟩) (map_mem_bodies a List.mem_cons_self) rfl
  simp only [Shape.map, Shape.mapAt, hcond] at h ⊢
  exact .whileLoop (h.avoids.child List.mem_cons_self)
    ((hp.bodies body List.mem_cons_self).lowers hbody)

lemma doWhile (hp : PartsCarried S bound user (.doWhile body cond) a b)
    (h : Suits S user routes names labels (.mk t ((Shape.doWhile body cond).map a))) :
    Lowers S bound routes names labels (.mk t ((Shape.doWhile body cond).map a))
      (.mk t ((Shape.doWhile body cond).map b)) := by
  have hcond : b cond = a cond := hp.phrases cond List.mem_cons_self
  have hbody := h.loop (by rintro _ ⟨⟩) (map_mem_bodies a List.mem_cons_self) rfl
  simp only [Shape.map, Shape.mapAt, hcond] at h ⊢
  exact .doWhile (h.avoids.child (by simp [Shape.children, Shape.parts, Part.toList]))
    ((hp.bodies body List.mem_cons_self).lowers hbody)

lemma forLoop {init update : List β} {cond : Option β}
    (hp : PartsCarried S bound user (.forLoop init cond update body) a b)
    (h : Suits S user routes names labels (.mk t ((Shape.forLoop init cond update body).map a))) :
    Lowers S bound routes names labels (.mk t ((Shape.forLoop init cond update body).map a))
      (.mk t ((Shape.forLoop init cond update body).map b)) := by
  have hinit : init.map b = init.map a := List.map_congr_left fun e he => hp.phrases e (by
    simp [Shape.phrases, he])
  have hcond : cond.map b = cond.map a := Option.map_congr fun e he => hp.phrases e (by
    simp [Shape.phrases, he])
  have hupdate : update.map b = update.map a := List.map_congr_left fun e he => hp.phrases e (by
    simp [Shape.phrases, he])
  have hbody := h.anywhere.loop (by rintro _ ⟨⟩) (map_mem_bodies a List.mem_cons_self) rfl
  simp only [Shape.map, Shape.mapAt, mapIdx_const, hinit, hcond, hupdate] at h ⊢
  refine .forLoop (fun e he => h.avoids.child ?_)
    ((hp.bodies body List.mem_cons_self).lowers hbody)
  exact Shape.mem_children_iff.mpr (.inl he)

lemma forEach {var iterable : β} (hp : PartsCarried S bound user (.forEach var iterable body) a b)
    (h : Suits S user routes names labels (.mk t ((Shape.forEach var iterable body).map a))) :
    Lowers S bound routes names labels (.mk t ((Shape.forEach var iterable body).map a))
      (.mk t ((Shape.forEach var iterable body).map b)) := by
  have hvar : b var = a var := hp.phrases var List.mem_cons_self
  have hiterable : b iterable = a iterable :=
    hp.phrases iterable (List.mem_cons_of_mem _ List.mem_cons_self)
  have hbody := h.anywhere.loop (by rintro _ ⟨⟩) (map_mem_bodies a List.mem_cons_self) rfl
  simp only [Shape.map, Shape.mapAt, hvar, hiterable] at h ⊢
  refine .forEach (h.avoids.child ?_) ((hp.bodies body List.mem_cons_self).lowers hbody)
  simp [Shape.children, Shape.parts, Part.toList]

lemma returnStmt {e : Option β} (hp : PartsCarried S bound user (.returnStmt e) a b)
    (h : Suits S user routes names labels (.mk t ((Shape.returnStmt e).map a))) :
    Lowers S bound routes names labels (.mk t ((Shape.returnStmt e).map a))
      (.mk t ((Shape.returnStmt e).map b)) := by
  have he : e.map b = e.map a := Option.map_congr fun x hx => hp.phrases x (by
    simp [Shape.phrases, Shape.children, Shape.parts, Part.toList, hx])
  simp only [Shape.map, Shape.mapAt, he] at h ⊢
  exact .returnStmt fun x hx => h.avoids.child (by
    simpa [Shape.children, Shape.parts, Part.toList] using hx)

lemma tryStmt {catches : List β} {last : Option β}
    (hp : PartsCarried S bound user (.tryStmt body catches last) a b)
    (h : Suits S user routes names labels (.mk t ((Shape.tryStmt body catches last).map a))) :
    Lowers S bound routes names labels (.mk t ((Shape.tryStmt body catches last).map a))
      (.mk t ((Shape.tryStmt body catches last).map b)) := by
  have hpart : ∀ c ∈ (Shape.tryStmt body catches last).bodies,
      Suits S user routes names [] (a c) := fun c hc =>
    h.beside (by rintro _ ⟨⟩) (map_mem_bodies a hc) (fun z hz => h.exits z (by
      have hc := map_mem_bodies a hc
      simp only [Shape.map, Shape.mapAt, mapIdx_const, Shape.bodies] at hc ⊢
      rw [Node.exits_tryStmt]
      exact List.mem_flatMap.mpr ⟨a c, hc, hz⟩)) (fun _ _ h => h) h.breaks
  have hhandlers : List.Forall₂ (Matches.Handlers S bound routes) (catches.map a)
      (catches.map b) := by
    rw [List.forall₂_map_left_iff, List.forall₂_map_right_iff, List.forall₂_same]
    intro c hc
    have hmem : c ∈ (Shape.tryStmt body catches last).bodies := by simp [Shape.bodies, hc]
    exact (hp.bodies c hmem).handlers (hpart c hmem)
  simp only [Shape.map, Shape.mapAt, mapIdx_const]
  refine .tryStmt ((hp.bodies body List.mem_cons_self).lowers (hpart body List.mem_cons_self))
    (alike_of_handlers hhandlers) (bodies_of_handlers hhandlers) (by simp) fun n n' hn hn' => ?_
  obtain ⟨c, rfl, rfl⟩ := Option.map_eq_some_iff.mp hn
  obtain rfl := Option.some.inj hn'
  have hmem : c ∈ (Shape.tryStmt body catches (some c)).bodies := by simp [Shape.bodies]
  exact (hp.bodies c hmem).lowers (hpart c hmem)

lemma lowers_map (hp : PartsCarried S bound user q a b) (hlabel : labeledBody? q = none)
    (h : Suits S user routes names labels (.mk t (q.map a))) :
    Lowers S bound routes names labels (.mk t (q.map a)) (.mk t (q.map b)) := by
  have havoids : ∀ c ∈ (q.map a).children, Avoids S c := fun c hc => h.avoids.child hc
  cases q with
  | labeled l body => cases hlabel
  | block ss => exact hp.block h
  | localVar mods type ds => exact hp.localVar h
  | exprStmt e =>
    have he : b e = a e := hp.phrases e List.mem_cons_self
    simp only [Shape.map, Shape.mapAt, he] at havoids ⊢
    exact .exprStmt (havoids _ List.mem_cons_self)
  | ifElse cond x y => exact hp.ifElse h
  | whileLoop cond body => exact hp.whileLoop h
  | doWhile body cond => exact hp.doWhile h
  | forLoop init cond update body => exact hp.forLoop h
  | forEach var iterable body => exact hp.forEach h
  | returnStmt e => exact hp.returnStmt h
  | breakStmt l => exact .breakStmt (h.exits (.breakTo l) List.mem_cons_self)
  | continueStmt l => exact .continueStmt (h.exits (.continueTo l) List.mem_cons_self)
  | throwStmt e =>
    have he : b e = a e := hp.phrases e List.mem_cons_self
    simp only [Shape.map, Shape.mapAt, he] at havoids ⊢
    exact .throwStmt (havoids _ List.mem_cons_self)
  | tryStmt body catches last => exact hp.tryStmt h
  | emptyStmt => exact .emptyStmt
  | classDecl => exact .classDecl
  | _ => exact .inert rfl rfl rfl

end PartsCarried

lemma carries_map (hp : PartsCarried S bound user q a b) (hlabel : labeledBody? q = none) :
    Carries S bound user (.mk t (q.map a)) (.mk t (q.map b)) where
  lowers h := hp.lowers_map hlabel h
  handlers h := by
    cases q with
    | catchClause mods name types body =>
      have htypes : types.map b = types.map a := List.map_congr_left hp.phrases
      have hbody := h.inner List.mem_cons_self h.exits (fun _ _ h => h) h.breaks
      simp only [Shape.map, Shape.mapAt, mapIdx_const, htypes]
      exact .handler ((hp.bodies body List.mem_cons_self).lowers hbody)
    | _ => exact .neither (by rintro _ _ _ _ ⟨⟩) (by rintro _ _ _ _ ⟨⟩)
  statements h := by
    obtain ⟨rfl, hblock⟩ := Node.mk.inj h
    cases q with
    | block ss =>
      simp only [Shape.map, Shape.mapAt, mapIdx_const] at hblock ⊢
      obtain rfl := Shape.block.inj hblock
      refine ⟨ss.map b, rfl, by simp, fun i s s' hs hs' routes names h => ?_⟩
      rw [List.getElem?_map] at hs hs'
      obtain ⟨c, hc, rfl⟩ := Option.map_eq_some_iff.mp hs
      obtain ⟨c', hc', rfl⟩ := Option.map_eq_some_iff.mp hs'
      obtain rfl := Option.some.inj (hc.symm.trans hc')
      exact (hp.bodies c (List.mem_of_getElem? hc)).lowers h
    | _ => cases hblock

lemma carries_of_lowers {n n' : Node} (hblock : ∀ ss, n.shape ≠ .block ss)
    (hcatch : ∀ mods name types b, n.shape ≠ .catchClause mods name types b)
    (hcatch' : ∀ mods name types b, n'.shape ≠ .catchClause mods name types b)
    (h : ∀ routes names, Suits S user routes names [] n → Lowers S bound routes names [] n n') :
    Carries S bound user n n' where
  lowers := h _ _
  handlers _ := .neither hcatch hcatch'
  statements hn := absurd (congrArg Node.shape hn) (hblock _)

lemma Carries.underLabels {n n' : Node} {ls : List (Tag × String)}
    (hbound : ∀ l, user l → bound l)
    (h : ∀ {routes names labels}, Suits S user routes names labels n →
      Lowers S bound routes names labels n n') (hcarries : Carries S bound user n n') :
    Carries S bound user (underLabels ls n) (underLabels ls n') := by
  cases ls with
  | nil => exact hcarries
  | cons l ls =>
    refine carries_of_lowers (by rintro _ ⟨⟩) (by rintro _ _ _ _ ⟨⟩) (by rintro _ _ _ _ ⟨⟩)
      fun routes names hsuits => ?_
    refine lowers_underLabels (fun m hm => hbound m (hsuits.marks m ?_)) hsuits.turns
      (h hsuits.under)
    exact mem_mentions_underLabels.mpr (.inl ⟨m, hm, rfl⟩)

end

lemma carries_mapAt {S : Setting} {bound user : String → Prop} {t : Tag} {s : Shape Node}
    (hlabel : labeledBody? s = none) {f : Step → Node → Node} {ls : List (Tag × String)}
    (hbound : ∀ l, user l → bound l)
    (hphrases : ∀ c ∈ s.steps, c.2 ∈ s.phrases → f c.1 c.2 = c.2)
    (hbodies : ∀ c ∈ s.steps, c.2 ∈ s.bodies → Carries S bound user c.2 (f c.1 c.2)) :
    Carries S bound user (underLabels ls (.mk t s)) (underLabels ls (.mk t (s.mapAt f))) := by
  have hsteps : ∀ c ∈ s.placed.children, c ∈ s.steps := fun c => Shape.mem_children_placed
  have hlabel' : labeledBody? s.placed = none := labeledBody?_mapAt_eq_none hlabel
  have hphrases' : ∀ c ∈ s.placed.phrases, f c.1 c.2 = c.2 := by
    refine fun c hc => hphrases c (hsteps c (Shape.mem_children_iff.mpr (.inl hc))) ?_
    rw [← s.map_snd_placed, Shape.phrases_map]
    exact List.mem_map_of_mem hc
  have hbodies' : ∀ c ∈ s.placed.bodies, Carries S bound user c.2 (f c.1 c.2) := by
    refine fun c hc => hbodies c (hsteps c (Shape.mem_children_iff.mpr (.inr hc))) ?_
    rw [← s.map_snd_placed, Shape.bodies_map]
    exact List.mem_map_of_mem hc
  have hmap : s.placed.map (·.2) = s := s.map_snd_placed
  rw [← Shape.map_placed]
  have hparts : PartsCarried S bound user s.placed (·.2) fun c => f c.1 c.2 :=
    ⟨hphrases', hbodies'⟩
  have hcarries := carries_map (t := t) hparts hlabel'
  have hlowers : ∀ {routes names labels},
      Suits S user routes names labels (.mk t (s.placed.map (·.2))) →
        Lowers S bound routes names labels (.mk t (s.placed.map (·.2)))
          (.mk t (s.placed.map fun c => f c.1 c.2)) :=
    hparts.lowers_map hlabel'
  rw [hmap] at hcarries hlowers
  exact .underLabels hbound hlowers hcarries

end LoopLowering.Machine
