import LoopLowering.CommandLine.Perform
import Mathlib.Tactic.Common

/-! What the command line answers when it is asked to run a method: the output of the run, or a
message and the status 1 if the run ends with an error of the program. -/

namespace LoopLowering.CommandLine

def Sources.chosen (src : Sources) (file : Option String) : Except FileError (String × String) :=
  match namedFile file with
  | [] => .ok ("<stdin>", src.input)
  | path :: _ => (src.file path).map (path, ·)

/-- What is read for arguments that ask for a run. -/
structure Request (src : Sources) (args : List String) (s : Machine.Setup) (method : String)
    (className : Option String) where
  verbose : Bool
  file : Option String
  pass : Pass
  source : String × String
  tree : Node
  lowered : Node
  reads : readInvocation false args = .ok ⟨verbose, .run file method className pass s.limit⟩
  chosen : src.chosen file = .ok source
  parses : parse .unit source.2 = .ok tree
  lowers : pass.run tree = .ok lowered
  holds : Machine.Program.ofTree lowered = .ok s.program

namespace Request

variable {src : Sources} {args : List String} {s : Machine.Setup} {method : String}
  {className : Option String}

def progress (r : Request src args s method className) : String :=
  if r.verbose then r.source.1 ++ ": análise sintática concluída com sucesso.\n" else ""

def answer (r : Request src args s method className) (o : Machine.Outcome) : Printed × Ending :=
  match o.signal with
  | none => ({ out := o.state.out, err := r.progress }, .exit 0)
  | some (.failed e) =>
    ({ err := r.progress ++ "erro: " ++ e.diagnostic.render ++ "\n" }, .exit 1)
  | some e => ({ err := r.progress }, .escaped (.signal e o.state.heap))

lemma answer_failed (r : Request src args s method className) (st : Machine.State)
    (e : Machine.RunError) : r.answer ⟨st, some (.failed e)⟩ =
      ({ err := r.progress ++ "erro: " ++ e.diagnostic.render ++ "\n" }, .exit 1) := rfl

lemma namedFile_eq (file : Option String) :
    namedFile file = [] ∨ ∃ path, namedFile file = [path] := by
  unfold namedFile
  split
  · exact .inl rfl
  · exact .inl rfl
  · exact .inr ⟨_, rfl⟩

variable (r : Request src args s method className)

lemma forSources_eq (act : String → String → Work Unit) :
    forSources src act (namedFile r.file) {} = act r.source.1 r.source.2 {} := by
  have hchosen := r.chosen
  unfold Sources.chosen at hchosen
  obtain hnone | ⟨path, hpath⟩ := namedFile_eq r.file
  · rw [hnone] at hchosen ⊢
    have hsource : ("<stdin>", src.input) = r.source := Except.ok.inj hchosen
    rw [← hsource]
    rfl
  · rw [hpath] at hchosen ⊢
    dsimp only at hchosen
    cases hfile : src.file path with
    | error e =>
      rw [hfile] at hchosen
      cases hchosen
    | ok text =>
      rw [hfile] at hchosen
      have hsource : (path, text) = r.source := Except.ok.inj hchosen
      have hread : readFile src path = pure text := by
        unfold readFile
        rw [hfile]
      rw [← hsource]
      simp [forSources, hread]

lemma parseSource_eq : parseSource r.verbose r.source.1 r.source.2 {} =
    .ok r.tree { err := r.progress } := by
  unfold parseSource progress
  rw [r.parses]
  cases r.verbose with
  | false => rfl
  | true => simp [warn]; rfl

lemma sayRun_eq : sayRun r.verbose method className r.pass s.limit r.source.1 r.source.2 {} =
    sayOutcome (s.execute method className) { err := r.progress } := by
  have hpass : runPass r.pass r.tree = pure r.lowered := by
    unfold runPass
    rw [r.lowers]
  have htree : Machine.runTree r.lowered s.limit method className = s.execute method className := by
    unfold Machine.runTree
    rw [r.holds]
  show EStateM.bind (parseSource r.verbose r.source.1 r.source.2) _ _ = _
  rw [EStateM.bind, r.parseSource_eq]
  dsimp only
  rw [hpass, ← htree]
  rfl

lemma execute_eq : execute src args = r.answer (s.execute method className) := by
  have hperform : perform src ⟨r.verbose, .run r.file method className r.pass s.limit⟩ {} =
      sayOutcome (s.execute method className) { err := r.progress } := by
    rw [← r.sayRun_eq]
    exact r.forSources_eq (sayRun r.verbose method className r.pass s.limit)
  unfold execute answer
  rw [r.reads]
  dsimp only
  rw [hperform]
  unfold sayOutcome
  cases (s.execute method className).signal with
  | none =>
    have hsay : ("" : String) ++ (s.execute method className).state.out = _ :=
      String.empty_append
    show (({ out := "" ++ _, err := _ }, _) : Printed × Ending) = _
    rw [hsay]
  | some e => cases e <;> rfl

end Request

end LoopLowering.CommandLine
