import ScriptDebugger.Proofs.Debugger.Operation
import ScriptDebugger.Proofs.Debugger.Stop
import ScriptDebugger.Proofs.Debugger.WrappedRun
import ScriptDebugger.Proofs.Machine.Globals

/-!
# What an error leaves on display

Whatever a script does, its outcome can be shown, so a step fails only on a text
that does not parse, and it has cleared the display by then. A run parses the
text for the tree view before it clears the display: if that fails, what an
earlier run has left stays. An error that comes later, from the wrapped text,
meets a cleared display.
-/

namespace ScriptDebugger

namespace Machine

variable {m : Machine} {outcome : Outcome} {frames : FrameChain}

lemma frames?_of_outcomeOf {scope : ScopeId}
    (h : (Interpreter.outcomeOf scope m).frames? = some frames) :
    m.control.frames? = some frames := by
  obtain ⟨store, calls, output, control, pending⟩ := m
  cases control with
  | abrupt a => cases a <;> exact h
  | _ => cases h

lemma frames?_of_reified (hr : m.reified.toOutcome? = some outcome)
    (h : outcome.frames? = some frames) : m.control.frames? = some frames := by
  obtain ⟨store, calls, output, control, pending⟩ := m
  have returned (hr : (ReifiedOutcome.returned calls.capture).toOutcome? = some outcome) :
      control.frames? = some frames := by
    obtain ⟨f, -, rfl⟩ := Option.map_eq_some_iff.mp hr
    cases h
  cases control with
  | abrupt a =>
    cases a with
    | thrown v c => cases hr; exact h
    | halted reason c => cases hr; exact h
    | _ => exact returned hr
  | _ => exact returned hr

end Machine

namespace Interpreter

open Machine

variable {t : Tree} {i : Interpreter} (hw : t.WellFormed) {frames : FrameChain}
include hw

lemma Holds.chained_of_runProgram (h : Holds 1 t i) {fuel : Nat} {halt : Node → Bool} {r : Run}
    (hr : i.newProgramScope.1.runProgram fuel i.newProgramScope.2 halt = some r)
    (hf : r.outcome.frames? = some frames) : frames.Chained := by
  obtain ⟨m, hrun, rfl⟩ := (runProgram_eq_some _).mp hr
  obtain ⟨-, n, -, rfl⟩ := run_eq_some_iff.mp hrun
  have confined := (h.scope.confined_steps hw (h.program halt) n).2
  exact (confined.frames frames (frames?_of_outcomeOf hf)).1

lemma Holds.chained_of_run {c : Callable} (h : Holds 1 t c.interpreter) {fuel : Nat}
    {r : ReifiedRun} (hr : c.run fuel = some r) {outcome : Outcome}
    (ho : r.outcome.toOutcome? = some outcome) (hf : outcome.frames? = some frames) :
    frames.Chained := by
  rw [Callable.run_eq, Option.map_eq_some_iff] at hr
  obtain ⟨m, hrun, rfl⟩ := hr
  obtain ⟨-, n, -, rfl⟩ := run_eq_some_iff.mp hrun
  have confined := (h.confined_steps hw (.function c.function c.output) n).2
  exact (confined.frames frames (frames?_of_reified ho hf)).1

end Interpreter

namespace Session

variable (d : Session)

/-- Frames that hang together are shown, or there are none. -/
lemma exists_report_of_chained (i : Interpreter) {outcome : Outcome}
    (h : ∀ frames, outcome.frames? = some frames → frames.Chained) (base : OffsetBase)
    (output : String) :
    ∃ d' report, finish output (d.showOutcome i outcome base) = (d', .ok report) := by
  cases shown : outcome.scope? with
  | none =>
    refine ⟨{ d.showNoScope with output }, ⟨.noScope, output⟩, ?_⟩
    rw [showOutcome, shown]
    rfl
  | some scope =>
    have valid : outcome.Valid := by
      cases outcome with
      | completed => trivial
      | halted reason frames | raised error frames =>
        obtain ⟨f, hf, -⟩ := Option.map_eq_some_iff.mp shown
        exact (h frames rfl).validate (List.length_pos_of_mem (List.mem_of_mem_head? hf))
    obtain ⟨d', hd'⟩ := d.finish_of_valid i valid base output
    exact ⟨d', _, hd'⟩

/-- Nothing of a run is on display. -/
structure Blank (d : Session) : Prop where
  variableList : d.variableList = .empty
  banner : d.banner = .hidden
  markers : d.ownMarkers = []
  output : d.output = ""

lemma blank_clear : d.clear.Blank := ⟨rfl, rfl, d.ownMarkers_clear, rfl⟩

/-- Clearing leaves the display as it is exactly if there is nothing on it. -/
lemma snapshot_clear_iff : d.clear.snapshot = d.snapshot ↔ d.Blank := by
  constructor
  · intro same
    have markers : d.clear.editor.markers = d.editor.markers := congrArg Snapshot.markers same
    refine ⟨(congrArg Snapshot.variableList same).symm, (congrArg Snapshot.banner same).symm, ?_,
      (congrArg Snapshot.output same).symm⟩
    rw [← d.ownMarkers_clear, ownMarkers, ownMarkers, markers]
    rfl
  · rintro ⟨variableList, banner, markers, output⟩
    have kept : d.clear.editor.markers = d.editor.markers := by
      refine List.filter_eq_self.mpr fun m hm => ?_
      have other := List.filter_eq_nil_iff.mp markers m hm
      simpa using other
    rw [snapshot, snapshot, kept, variableList, banner, output]
    rfl

variable {d : Session} {fuel : Nat} {d' : Session} {e : DebugError}

/-- A step fails only if the text does not parse, with a cleared display. -/
lemma step_eq_error (h : d.step fuel = some (d', .error e)) :
    d' = d.clear ∧ ∃ p, Tree.parse d.editor.text = .error p ∧ e = .parse p := by
  cases parsed : Tree.parse d.editor.text with
  | error p =>
    rw [d.step_of_error parsed] at h
    cases h
    exact ⟨rfl, p, rfl, rfl⟩
  | ok t =>
    have bound : t.bind d.editor.breakpointRow? =
      ((t.bind d.editor.breakpointRow?).1, (t.bind d.editor.breakpointRow?).2) := rfl
    rw [step_of_parse d parsed bound, Option.map_eq_some_iff] at h
    obtain ⟨r, hr, failed⟩ := h
    have hw := (Tree.wellFormed_of_parse parsed).bind d.editor.breakpointRow?
    have chained (frames) (hf : r.outcome.frames? = some frames) : frames.Chained :=
      (Interpreter.Holds.built d.editor.text d.suspends d.maxDepth).chained_of_runProgram hw hr hf
    obtain ⟨d'', report, shown⟩ := d.clear.exists_report_of_chained r.interpreter chained .plain
      r.output
    rw [shown] at failed
    cases failed

/-- A run fails because the text does not parse, and has then changed nothing, or because its
wrapped form is no function, with a cleared display. -/
lemma run_eq_error (h : d.run fuel = some (d', .error e)) :
    (d' = d ∧ ∃ p, Tree.parse d.editor.text = .error p ∧ e = .parse p) ∨
      (d'.Blank ∧ (∃ t, Tree.parse d.editor.text = .ok t) ∧ ∃ w, e = .wrap w) := by
  rcases d.run_eq_some h with ⟨p, failed, same⟩ | ⟨t, parsed, ⟨w, same⟩ | ⟨c, called, ran⟩⟩
  · cases same
    exact .inl ⟨rfl, p, failed, rfl⟩
  · cases same
    exact .inr ⟨blank_clear _, ⟨t, parsed⟩, w, rfl⟩
  · obtain ⟨t', parsed', used⟩ := Interpreter.Holds.exists_of_callableOfText called
    obtain ⟨r, hr, failed⟩ := Option.map_eq_some_iff.mp ran
    cases hout : r.outcome.toOutcome? with
    | none =>
      rw [hout] at failed
      cases failed
    | some outcome =>
      have chained (frames) (hf : outcome.frames? = some frames) : frames.Chained :=
        used.chained_of_run (Tree.wellFormed_of_parse parsed') hr hout hf
      obtain ⟨d'', report, shown⟩ := exists_report_of_chained
        { d with treeView := d.treeView.display t }.clear r.interpreter chained
        (.wrapped d.config.openingLength) r.output
      rw [hout] at failed
      have failed := shown.symm.trans failed
      cases failed

/-- An error of a step leaves nothing on display, and neither does an error of a run unless the text
does not parse: then the run leaves everything as it was, so that it shows what the step shows just
if nothing has been on display before. There are no other errors. -/
theorem blank_after_error (d : Session) (fuel : Nat) :
    (∀ d' e, d.step fuel = some (d', .error e) →
      (∃ p, Tree.parse d.editor.text = .error p ∧ e = .parse p) ∧ d'.Blank) ∧
    (∀ d' e, d.run fuel = some (d', .error e) →
      ((∃ p, Tree.parse d.editor.text = .error p ∧ e = .parse p) ∨
        (∃ t, Tree.parse d.editor.text = .ok t) ∧ ∃ w, e = .wrap w) ∧
      (d'.Blank ↔ d.Blank ∨ ∃ t, Tree.parse d.editor.text = .ok t)) ∧
    ∀ p, Tree.parse d.editor.text = .error p →
      ∃ d₁ d₂, d.step fuel = some (d₁, .error (.parse p)) ∧
        d.run fuel = some (d₂, .error (.parse p)) ∧
        d₂.snapshot = d.snapshot ∧ (d₁.snapshot = d₂.snapshot ↔ d.Blank) := by
  refine ⟨fun d' e h => ?_, fun d' e h => ?_, fun p failed => ?_⟩
  · obtain ⟨rfl, parse⟩ := step_eq_error h
    exact ⟨parse, d.blank_clear⟩
  · rcases run_eq_error h with ⟨rfl, p, failed, rfl⟩ | ⟨blank, parses, wrap⟩
    · refine ⟨.inl ⟨p, failed, rfl⟩, .inl, fun h => h.resolve_right ?_⟩
      rintro ⟨t, parsed⟩
      rw [failed] at parsed
      cases parsed
    · exact ⟨.inr ⟨parses, wrap⟩, fun _ => .inr parses, fun _ => blank⟩
  · exact ⟨d.clear, d, d.step_of_error failed fuel, d.run_of_error failed fuel, rfl,
      d.snapshot_clear_iff⟩

/-- A step shows an exception, the text is replaced by one that does not parse, and a run leaves the
variable, the banner and the marker of that step on display; a step would have cleared them. -/
theorem run_keeps_stale_display :
    ∃ (d d₁ d₂ : Session) (p : ParseError),
      Reachable (fun _ _ => True) d ∧ Tree.parse d.editor.text = .error p ∧
      d.step 1 = some (d₁, .error (.parse p)) ∧ d₁.Blank ∧
      d.run 1 = some (d₂, .error (.parse p)) ∧ ¬ d₂.Blank ∧
      d₂.variableList.entries = [⟨some "x", "null"⟩] ∧ d₂.banner.visible = true ∧
      d₂.ownMarkers.length = 1 ∧ d₁.snapshot ≠ d₂.snapshot := by
  let first : Session := start (.ofText "var x = null;\nthrow x;") .standard 1
  have begun : Reachable (fun _ _ => True) first :=
    .start (.ofText "var x = null;\nthrow x;") .standard 1 false
  have shown : ((first.step 20).map fun r =>
      (r.1.variableList.entries, r.1.banner.visible, r.1.ownMarkers.length)) =
        some ([⟨some "x", "null"⟩], true, 1) := by decide +kernel
  have malformed : (Tree.parse "(").toOption.isNone = true := by decide +kernel
  obtain ⟨⟨stopped, result⟩, stepped, display⟩ := Option.map_eq_some_iff.mp shown
  obtain ⟨entries, visible, length⟩ : stopped.variableList.entries = [⟨some "x", "null"⟩] ∧
      stopped.banner.visible = true ∧ stopped.ownMarkers.length = 1 := by
    simpa using display
  have leads : first.after? (.step 20) = some stopped := by
    rw [after?, stepped]
    rfl
  have reached : Reachable (fun _ _ => True) stopped := begun.after trivial leads
  let d : Session := { stopped with editor := stopped.editor.apply (.setText "(") }
  have leads : stopped.after? (.edit (.setText "(")) = some d := rfl
  have reached : Reachable (fun _ _ => True) d := reached.after trivial leads
  cases parsed : Tree.parse "(" with
  | ok t => simp [parsed, Except.toOption] at malformed
  | error p =>
    have parsed : Tree.parse d.editor.text = .error p := parsed
    have visible : d.banner.visible = true := visible
    have stale : ¬ d.Blank := fun h => by rw [h.banner] at visible; cases visible
    exact ⟨d, d.clear, d, p, reached, parsed, d.step_of_error parsed 1, d.blank_clear,
      d.run_of_error parsed 1, stale, entries, visible, length,
      fun same => stale (d.snapshot_clear_iff.mp same)⟩

end Session

end ScriptDebugger
