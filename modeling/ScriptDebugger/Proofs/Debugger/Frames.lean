import ScriptDebugger.Proofs.Debugger.Stop
import ScriptDebugger.Proofs.Machine.Captured

/-!
# The frames that a session shows

With room for the program on the call stack, every stop of a run comes with the
frames of a state of the run, so a step of the session always has something to
show: it never ends without a scope or with a chain that cannot be followed.
-/

namespace ScriptDebugger

namespace Interpreter

lemma valid_of_runProgram {i : Interpreter} (hw : i.tree.WellFormed) (room : 0 < i.maxDepth)
    {fuel : Nat} {scope : ScopeId} {halt : Node → Bool} {r : Run}
    (hr : i.runProgram fuel scope halt = some r) : r.outcome.Valid := by
  obtain ⟨raised, halted⟩ := traced_of_runProgram hw room hr
  cases hout : r.outcome with
  | completed scope => trivial
  | raised error frames =>
    obtain ⟨n, f, records, -⟩ := raised error frames hout
    exact records.valid
  | halted reason frames =>
    obtain ⟨n, f, records, -⟩ := halted reason frames hout
    exact records.valid

end Interpreter

namespace Session

/-- Every stop of a run comes with frames that record the activations of a state of the run, the
innermost one at what halted the run. So a step of a session always shows a scope and a chain. -/
theorem frames_of_stop :
    (∀ text options t, Tree.parse text options = .ok t →
      ∀ (i : Interpreter) (row : Option Nat), i.tree = (t.bind row).1 → 1 ≤ i.maxDepth →
      ∀ fuel scope halt r, i.runProgram fuel scope halt = some r →
        (∀ error frames, r.outcome = .raised error frames → i.Traced scope halt none frames) ∧
        ∀ reason frames, r.outcome = .halted reason frames →
          i.Traced scope halt (some reason) frames) ∧
    ∀ (d : Session), 1 ≤ d.maxDepth → ∀ fuel d' result, d.step fuel = some (d', result) →
      (∃ e, result = .error (.parse e)) ∨
        ∃ report, result = .ok report ∧ report.status ≠ .noScope := by
  refine ⟨fun text options t parsed i row htree room fuel scope halt r hr => ?_,
    fun d room fuel d' result hstep => ?_⟩
  · have hw : i.tree.WellFormed := htree ▸ (Tree.wellFormed_of_parse parsed).bind row
    exact Interpreter.traced_of_runProgram hw room hr
  · cases parsed : Tree.parse d.editor.text with
    | error e =>
      have parsed : Tree.parse d.clear.editor.text = .error e := parsed
      simp only [step, parsed, Option.some.injEq, Prod.mk.injEq] at hstep
      exact .inl ⟨e, hstep.2.symm⟩
    | ok t =>
      have hw : (d.interpreter (t.bind d.editor.breakpointRow?).1).tree.WellFormed :=
        (Tree.wellFormed_of_parse parsed).bind _
      have bound : t.bind d.editor.breakpointRow? =
        ((t.bind d.editor.breakpointRow?).1, (t.bind d.editor.breakpointRow?).2) := rfl
      rw [step_of_parse d parsed bound, Option.map_eq_some_iff] at hstep
      obtain ⟨r, hr, hshown⟩ := hstep
      have valid := Interpreter.valid_of_runProgram hw room hr
      obtain ⟨d'', finished⟩ := d.clear.finish_of_valid r.interpreter valid .plain r.output
      rw [finished] at hshown
      cases hshown
      refine .inr ⟨_, rfl, ?_⟩
      cases r.outcome <;> simp [Outcome.status]

/-- An exception in a function that the program calls. -/
theorem frames_of_stop_in_function :
    ∃ (d : Session) (t : Tree) (r : Interpreter.Run) (error : ThrownError) (frames : FrameChain),
      Tree.parse d.editor.text = .ok t ∧ 1 ≤ d.maxDepth ∧
      (d.interpreter t).runProgram 40 (d.programScope t) Interpreter.neverHalt = some r ∧
      r.outcome = .raised error frames ∧ frames.length = 2 ∧
      (d.interpreter t).Traced (d.programScope t) Interpreter.neverHalt none frames ∧
      ∃ d' report, d.step 40 = some (d', .ok report) ∧ report.status ≠ .noScope := by
  let d : Session := start (.ofText "function f() \x7b throw 1; \x7d f();") .standard 5
  have parses : (Tree.parse d.editor.text).toOption.isSome = true := by decide +kernel
  have raises : ((Tree.parse d.editor.text).toOption.bind fun t =>
      ((d.interpreter t).runProgram 40 (d.programScope t) Interpreter.neverHalt).map fun r =>
        match r.outcome with
        | .raised _ frames => frames.length
        | _ => 0) = some 2 := by decide +kernel
  have room : 1 ≤ d.maxDepth := by decide
  have steps : ((d.step 40).map fun r => r.2.toOption.isSome) = some true := by decide +kernel
  cases parsed : Tree.parse d.editor.text with
  | error e => simp [parsed, Except.toOption] at parses
  | ok t =>
    rw [parsed] at raises
    obtain ⟨r, hr, hout⟩ := Option.map_eq_some_iff.mp raises
    split at hout
    case h_2 => cases hout
    case h_1 error frames hraised =>
      obtain ⟨raised, -⟩ := frames_of_stop.1 _ {} t parsed (d.interpreter t) none rfl
        room 40 (d.programScope t) Interpreter.neverHalt r hr
      obtain ⟨⟨d', result⟩, hstep, hsome⟩ := Option.map_eq_some_iff.mp steps
      refine ⟨d, t, r, error, frames, parsed, room, hr, hraised, hout, raised error frames hraised,
        ?_⟩
      rcases frames_of_stop.2 d room 40 d' result hstep with ⟨e, rfl⟩ | ⟨report, rfl, hne⟩
      · cases hsome
      · exact ⟨d', report, hstep, hne⟩

end Session

end ScriptDebugger
