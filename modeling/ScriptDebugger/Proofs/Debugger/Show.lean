import ScriptDebugger.Debugger.Session
import ScriptDebugger.Proofs.Machine.CallStack

/-!
# What a session shows of an outcome

A stop is shown as it is whenever its frames are a valid chain with a frame on
top; the status then says whether the script was halted or raised an exception.
-/

namespace ScriptDebugger

/-- The status that shows an outcome. -/
def Outcome.status : Outcome → RunStatus
  | .completed _ => .completed
  | .halted .. => .halted
  | .raised .. => .raised

/-- The frames that an outcome comes with form a valid chain. -/
def Outcome.Valid : Outcome → Prop
  | .completed _ => True
  | .halted _ frames | .raised _ frames => frames.validate = .ok ()

lemma FrameChain.exists_top_of_validate {c : FrameChain} (h : c.validate = .ok ()) :
    ∃ f, c.top? = some f := by
  cases hc : c.frames with
  | nil => simp [FrameChain.validate, hc] at h
  | cons f rest => exact ⟨f, by rw [FrameChain.top?, hc, List.head?_cons]⟩

namespace Session

/-- The interpreter with which a step executes a tree of the text. -/
def interpreter (d : Session) (t : Tree) : Interpreter :=
  (Interpreter.ofTree t d.editor.text d.suspends d.maxDepth).newProgramScope.1

/-- The scope in which a step executes the program. -/
def programScope (d : Session) (t : Tree) : ScopeId :=
  (Interpreter.ofTree t d.editor.text d.suspends d.maxDepth).newProgramScope.2

variable (d : Session)

/-- A text that does not parse clears the display in a step. -/
lemma step_of_error {p : ParseError} (failed : Tree.parse d.editor.text = .error p) (fuel : Nat) :
    d.step fuel = some (d.clear, .error (.parse p)) := by
  have failed : Tree.parse d.clear.editor.text = .error p := failed
  simp only [step, failed]

/-- In a run it changes nothing. -/
lemma run_of_error {p : ParseError} (failed : Tree.parse d.editor.text = .error p) (fuel : Nat) :
    d.run fuel = some (d, .error (.parse p)) := by
  simp only [run, displayTree, failed, Except.map]

/-- A text that parses is executed with the breakpoint's statement tagged. -/
lemma step_of_parse {t t' : Tree} {stop : StopPoint} (parsed : Tree.parse d.editor.text = .ok t)
    (bound : t.bind d.editor.breakpointRow? = (t', stop)) (fuel : Nat) :
    d.step fuel = ((d.interpreter t').runProgram fuel (d.programScope t') stop.halts).map fun r =>
      finish r.output (d.clear.showOutcome r.interpreter r.outcome .plain) := by
  have parsed : Tree.parse d.clear.editor.text = .ok t := parsed
  have bound : t.bind d.clear.editor.breakpointRow? = (t', stop) := bound
  simp only [step, parsed, bound]
  rfl

/-- How a run ends: the text does not parse, its wrapped form is no function, or that function has
been run. -/
lemma run_eq_some {fuel : Nat} {r : Session × Except DebugError Report}
    (h : d.run fuel = some r) :
    (∃ e, Tree.parse d.editor.text = .error e ∧ r = (d, .error (.parse e))) ∨
      ∃ t, Tree.parse d.editor.text = .ok t ∧
        ((∃ e, r = ({ d with treeView := d.treeView.display t }.clear, .error (.wrap e))) ∨
          ∃ c, Interpreter.callableOfText fuel d.maxDepth (d.config.wrap d.editor.text) =
              some (.ok c) ∧
            { d with treeView := d.treeView.display t }.clear.runCallable fuel c = some r) := by
  rw [run, displayTree] at h
  cases parsed : Tree.parse d.editor.text with
  | error e =>
    rw [parsed] at h
    cases h
    exact .inl ⟨e, rfl, rfl⟩
  | ok t =>
    refine .inr ⟨t, rfl, ?_⟩
    simp only [parsed, Except.map] at h
    split at h
    case h_1 => cases h
    case h_2 e _ =>
      cases h
      exact .inl ⟨e, rfl⟩
    case h_3 c called => exact .inr ⟨c, called, h⟩

/-- A valid outcome is shown with its status. -/
lemma showOutcome_of_valid (i : Interpreter) {outcome : Outcome} (h : outcome.Valid)
    (base : OffsetBase) : (d.showOutcome i outcome base).2 = .ok outcome.status := by
  cases outcome with
  | completed scope => rfl
  | halted reason frames =>
    obtain ⟨f, hf⟩ := FrameChain.exists_top_of_validate h
    have valid : frames.validate = .ok () := h
    simp only [showOutcome, Outcome.scope?, hf, Option.map_some, showFrames, valid]
    rfl
  | raised error frames =>
    obtain ⟨f, hf⟩ := FrameChain.exists_top_of_validate h
    have valid : frames.validate = .ok () := h
    simp only [showOutcome, Outcome.scope?, hf, Option.map_some, showFrames, valid]
    rfl

lemma finish_of_valid (i : Interpreter) {outcome : Outcome} (h : outcome.Valid)
    (base : OffsetBase) (output : String) :
    ∃ d', finish output (d.showOutcome i outcome base) = (d', .ok ⟨outcome.status, output⟩) := by
  have shown := d.showOutcome_of_valid i h base
  generalize d.showOutcome i outcome base = r at shown ⊢
  obtain ⟨d', result⟩ := r
  cases shown
  exact ⟨_, rfl⟩

end Session

end ScriptDebugger
