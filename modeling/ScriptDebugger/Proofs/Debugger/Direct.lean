import ScriptDebugger.Proofs.Debugger.WrappedRun
import ScriptDebugger.Proofs.Syntax.Shape

/-!
# A run shows what the text does on its own

`Session.run` wraps the text of the editor in a function and calls that. It ends
as an execution of the text itself would end, with `debugger` statements that
stop it, and shows the same (`Session.run_eq_direct`); where nothing could stop
the text, it does what a step does.
-/

namespace ScriptDebugger

open Interpreter

namespace Interpreter

lemma runProgram_mono {i : Interpreter} {fuel fuel' : Nat} {scope : ScopeId} {halt : Node → Bool}
    {r : Run} (h : i.runProgram fuel scope halt = some r) (le : fuel ≤ fuel') :
    i.runProgram fuel' scope halt = some r := by
  obtain ⟨m, hrun, rfl⟩ := i.runProgram_eq_some.mp h
  exact i.runProgram_eq_some.mpr ⟨m, Machine.run_mono hrun le, rfl⟩

lemma callableOfText_mono {fuel fuel' maxDepth : Nat} {text : String}
    {r : Except CallableError Callable} (h : callableOfText fuel maxDepth text = some r)
    (le : fuel ≤ fuel') : callableOfText fuel' maxDepth text = some r := by
  rw [callableOfText] at h ⊢
  cases parsed : Tree.parse text with
  | error e => rwa [parsed] at h
  | ok t =>
    rw [parsed] at h
    simp only [loneFunction] at h ⊢
    cases lone : loneExpression? (ofTree t text true maxDepth).tree with
    | none => rwa [lone] at h
    | some expression =>
      rw [lone] at h
      obtain ⟨m, hrun, same⟩ := Option.map_eq_some_iff.mp h
      exact Option.map_eq_some_iff.mpr ⟨m, Machine.run_mono hrun le, same⟩

end Interpreter

lemma Callable.run_mono {c : Callable} {fuel fuel' : Nat} {r : ReifiedRun}
    (h : c.run fuel = some r) (le : fuel ≤ fuel') : c.run fuel' = some r := by
  rw [Callable.run_eq] at h ⊢
  obtain ⟨m, hrun, same⟩ := Option.map_eq_some_iff.mp h
  exact Option.map_eq_some_iff.mpr ⟨m, Machine.run_mono hrun le, same⟩

namespace Session

/-- Executes the text as it stands, whatever breakpoints there are; `debugger` statements stop it
if `suspends` says so. -/
def direct (suspends : Bool) (d : Session) (fuel : Nat) :
    Option (Session × Except DebugError Report) :=
  let d := d.clear
  match Tree.parse d.editor.text with
  | .error e => some (d, .error (.parse e))
  | .ok tree =>
    let (i, scope) := (ofTree tree d.editor.text suspends d.maxDepth).newProgramScope
    (i.runProgram fuel scope neverHalt).map fun r =>
      finish r.output (d.showOutcome r.interpreter r.outcome .plain)

/-- Whenever one way to execute a text ends, the other one ends with enough steps and has the same
result; if that is no error, the same is on display then. -/
def EndsAs (p q : Nat → Option (Session × Except DebugError Report)) : Prop :=
  ∀ fuel d r, p fuel = some (d, r) → ∃ least, ∀ fuel' ≥ least, ∃ d',
    q fuel' = some (d', r) ∧ ∀ report, r = .ok report → d'.snapshot = d.snapshot

variable (d : Session)

lemma direct_mono {suspends : Bool} {fuel fuel' : Nat} {r : Session × Except DebugError Report}
    (h : d.direct suspends fuel = some r) (le : fuel ≤ fuel') :
    d.direct suspends fuel' = some r := by
  simp only [direct] at h ⊢
  cases parsed : Tree.parse d.clear.editor.text with
  | error e => rwa [parsed] at h
  | ok t =>
    rw [parsed] at h
    obtain ⟨run, ran, same⟩ := Option.map_eq_some_iff.mp h
    exact Option.map_eq_some_iff.mpr ⟨run, runProgram_mono ran le, same⟩

lemma run_mono {fuel fuel' : Nat} {r : Session × Except DebugError Report}
    (h : d.run fuel = some r) (le : fuel ≤ fuel') : d.run fuel' = some r := by
  simp only [run] at h ⊢
  cases shown : d.displayTree with
  | error e => rwa [shown] at h
  | ok d =>
    rw [shown] at h
    dsimp only at h ⊢
    cases made : callableOfText fuel d.clear.maxDepth (d.clear.config.wrap d.clear.editor.text) with
    | none => rw [made] at h; cases h
    | some result =>
      rw [made] at h
      rw [callableOfText_mono made le]
      cases result with
      | error e => exact h
      | ok c =>
        obtain ⟨run, ran, same⟩ := Option.map_eq_some_iff.mp h
        exact Option.map_eq_some_iff.mpr ⟨run, Callable.run_mono ran le, same⟩

lemma showOutcome_withTreeView (v : TreeView) (i : Interpreter) (o : Outcome) (base : OffsetBase) :
    { d with treeView := v }.showOutcome i o base =
      ({ (d.showOutcome i o base).1 with treeView := v }, (d.showOutcome i o base).2) := by
  simp only [showOutcome]
  cases o.scope? with
  | none => rfl
  | some scope =>
    cases o with
    | completed => rfl
    | halted reason frames =>
      simp only [showFrames]
      cases frames.validate <;> rfl
    | raised e frames =>
      simp only [showFrames]
      cases frames.validate <;> rfl

lemma finish_withTreeView (v : TreeView) (output : String)
    (r : Session × Except DebugError RunStatus) :
    finish output ({ r.1 with treeView := v }, r.2) =
      ({ (finish output r).1 with treeView := v }, (finish output r).2) := by
  obtain ⟨d, result⟩ := r
  cases result <;> rfl

section

variable {t t' : Tree} {text : String} {suspends : Bool} {maxDepth : Nat} {n : NodeId}
  {r : Run} {r' : ReifiedRun} (h : Wrapping t t' text suspends maxDepth n)
  (alike : Alike t t' (nesting t' text maxDepth n) r r')
include h alike

lemma showOutcome_alike :
    d.showOutcome r'.interpreter r.outcome.nested (.wrapped Config.standard.openingLength) =
      d.showOutcome r.interpreter r.outcome .plain := by
  refine d.showOutcome_nested _ alike.store alike.ready.one_le alike.ready.older _ _ fun c hc => ?_
  obtain ⟨chained, pos, inside⟩ := alike.frames c hc
  refine ⟨chained, pos, fun f hf => ?_⟩
  have before : f.pc < n := by
    have inside := inside f hf
    rw [h.wraps.size] at inside
    exact Nat.lt_of_succ_lt_succ inside
  rw [alike.tree, alike.tree']
  exact ⟨h.wraps.kind f.pc before, h.wraps.span f.pc before⟩

omit h in
lemma valid_of_alike : r.outcome.Valid := by
  have frames := alike.frames
  cases outcome : r.outcome with
  | completed => trivial
  | halted reason c =>
    obtain ⟨chained, pos, -⟩ := frames c (by rw [outcome]; rfl)
    exact chained.validate pos
  | raised e c =>
    obtain ⟨chained, pos, -⟩ := frames c (by rw [outcome]; rfl)
    exact chained.validate pos

end

section

variable {t : Tree} (parsed : Tree.parse d.editor.text = .ok t)
include parsed

lemma direct_of_parse (suspends : Bool) (fuel : Nat) :
    d.direct suspends fuel =
      ((alone t d.editor.text suspends d.maxDepth).runProgram fuel 1 neverHalt).map fun r =>
        finish r.output (d.clear.showOutcome r.interpreter r.outcome .plain) := by
  have parsed : Tree.parse d.clear.editor.text = .ok t := parsed
  simp only [direct, parsed]
  rfl

/-- With enough steps, a text that parses is called in its wrapped form. -/
lemma run_of_parse (standard : d.config = .standard) (room : 1 ≤ d.maxDepth) {t' : Tree}
    {n : NodeId} (parsed' : Tree.parse (Config.standard.wrap d.editor.text) = .ok t')
    (wraps : t.Wraps (Config.bodyOffset + ·) t' n) (fuel : Nat) :
    d.run (fuel + 2) =
      { d.clear with treeView := d.treeView.display t }.runCallable (fuel + 2)
        (wrapped t' (Config.standard.wrap d.editor.text) d.maxDepth n) := by
  have called := callableOfText_of_wraps parsed' wraps room fuel
  rw [← standard] at called
  simp only [run, displayTree, parsed, Except.map]
  have unchanged : callableOfText (fuel + 2)
      { d with treeView := d.treeView.display t }.clear.maxDepth
      ({ d with treeView := d.treeView.display t }.clear.config.wrap
        { d with treeView := d.treeView.display t }.clear.editor.text) =
      some (.ok (wrapped t' (d.config.wrap d.editor.text) d.maxDepth n)) := called
  rw [unchanged, ← standard]
  rfl

/-- Either neither way ends within its bound, or both do, with the same report and display. -/
lemma run_cases (standard : d.config = .standard) (room : 1 ≤ d.maxDepth) {suspends : Bool}
    (stops : ∀ id, t.kind id = .debuggerStatement → suspends = true) (fuel : Nat) :
    (d.run (fuel + 2) = none ∧ d.direct suspends (fuel + 3) = none) ∨
      ∃ d₁ report, d.direct suspends (fuel + 3) = some (d₁, .ok report) ∧
        d.run (fuel + 2) = some ({ d₁ with treeView := d.treeView.display t }, .ok report) := by
  obtain ⟨t', n, parsed', wraps, boundary⟩ := Tree.wraps_of_parse parsed
  have h : Wrapping t t' d.editor.text suspends d.maxDepth n :=
    ⟨wraps, Tree.wellFormed_of_parse parsed, boundary, stops, room⟩
  rw [d.direct_of_parse parsed, d.run_of_parse parsed standard room parsed' wraps, runCallable]
  rcases h.run (fuel + 2) with ⟨ended', ended⟩ | ⟨r, r', ran, ran', alike⟩
  · rw [ended', ended]
    exact .inl ⟨rfl, rfl⟩
  · obtain ⟨d₁, shown⟩ := d.clear.finish_of_valid r.interpreter (valid_of_alike alike) .plain
      r.output
    refine .inr ⟨d₁, ⟨r.outcome.status, r.output⟩, ?_, ?_⟩
    · rw [ran]
      exact congrArg some shown
    · have same := d.clear.showOutcome_alike h alike
      rw [← show d.clear.config = .standard from standard] at same
      have shown' := finish_withTreeView (d.treeView.display t) r.output
        (d.clear.showOutcome r.interpreter r.outcome .plain)
      rw [← same, ← showOutcome_withTreeView, same, shown] at shown'
      rw [ran', Option.map_some]
      simp only [alike.outcome, alike.output]
      exact congrArg some shown'

end

lemma direct_of_error {p : ParseError} (failed : Tree.parse d.editor.text = .error p)
    (suspends : Bool) (fuel : Nat) :
    d.direct suspends fuel = some (d.clear, .error (.parse p)) := by
  have failed : Tree.parse d.clear.editor.text = .error p := failed
  simp only [direct, failed]

/-- Without breakpoints a step executes the text on its own, in the mode of the session. -/
lemma step_eq_direct (none : d.editor.breakpoints = []) : d.step = d.direct d.suspends := by
  have row : d.clear.editor.breakpointRow? = Option.none := congrArg List.head? none
  funext fuel
  simp only [step, direct, row, Tree.bind, Option.bind_none]
  rfl

section

variable {suspends : Bool} (standard : d.config = .standard) (room : 1 ≤ d.maxDepth)
  (stops : ∀ t, Tree.parse d.editor.text = .ok t →
    ∀ id, t.kind id = .debuggerStatement → suspends = true)
include standard room stops

lemma run_endsAs_direct : EndsAs (d.direct suspends) d.run := by
  intro fuel d₁ r ended
  cases parsed : Tree.parse d.editor.text with
  | error p =>
    rw [d.direct_of_error parsed] at ended
    cases ended
    exact ⟨0, fun fuel' _ => ⟨d, d.run_of_error parsed fuel', fun _ h => by cases h⟩⟩
  | ok t =>
    refine ⟨fuel + 2, fun fuel' enough => ?_⟩
    obtain ⟨k, rfl⟩ := Nat.exists_eq_add_of_le' (Nat.le_trans (Nat.le_add_left 2 fuel) enough)
    have ended := d.direct_mono ended (show fuel ≤ k + 3 by omega)
    rcases d.run_cases parsed standard room (stops t parsed) k with
      ⟨-, none⟩ | ⟨d₁', report, ended', ran⟩
    · rw [ended] at none
      cases none
    · rw [ended] at ended'
      cases ended'
      exact ⟨_, ran, fun _ _ => rfl⟩

lemma direct_endsAs_run : EndsAs d.run (d.direct suspends) := by
  intro fuel d₂ r ran
  cases parsed : Tree.parse d.editor.text with
  | error p =>
    rw [d.run_of_error parsed] at ran
    cases ran
    exact ⟨0, fun fuel' _ =>
      ⟨d.clear, d.direct_of_error parsed suspends fuel', fun _ h => by cases h⟩⟩
  | ok t =>
    refine ⟨fuel + 3, fun fuel' enough => ?_⟩
    obtain ⟨k, rfl⟩ := Nat.exists_eq_add_of_le' (Nat.le_trans (Nat.le_add_left 3 fuel) enough)
    have ran := d.run_mono ran (show fuel ≤ k + 2 by omega)
    rcases d.run_cases parsed standard room (stops t parsed) k with
      ⟨none, -⟩ | ⟨d₁, report, ended, ran'⟩
    · rw [ran] at none
      cases none
    · rw [ran] at ran'
      cases ran'
      exact ⟨d₁, ended, fun _ _ => rfl⟩

end

/-- With the usual wrapping and room for one activation, a run and an execution of the text on its
own, in a new scope for the program and with `debugger` statements that stop it, either both end
or neither does. They give the same status and output or the same error, and on success show the
same variables, banner, output and markers. A text that does not parse is the only thing that a
run fails for. Without breakpoints the same holds of a run and a step, if `debugger` statements stop
the step or there are none. -/
theorem run_eq_direct (standard : d.config = .standard) (room : 1 ≤ d.maxDepth) :
    EndsAs (d.direct true) d.run ∧ EndsAs d.run (d.direct true) ∧
    (∀ p, Tree.parse d.editor.text = .error p → ∀ fuel,
      d.direct true fuel = some (d.clear, .error (.parse p)) ∧
      d.run fuel = some (d, .error (.parse p))) ∧
    (∀ fuel d' e, d.run fuel = some (d', .error e) →
      ∃ p, e = .parse p ∧ Tree.parse d.editor.text = .error p) ∧
    (d.editor.breakpoints = [] →
      (∀ t, Tree.parse d.editor.text = .ok t →
        ∀ id, t.kind id = .debuggerStatement → d.suspends = true) →
      EndsAs d.step d.run ∧ EndsAs d.run d.step) := by
  have suspending (t : Tree) (_ : Tree.parse d.editor.text = .ok t) (id : NodeId)
      (_ : t.kind id = .debuggerStatement) : true = true := rfl
  refine ⟨d.run_endsAs_direct standard room suspending,
    d.direct_endsAs_run standard room suspending,
    fun p failed fuel => ⟨d.direct_of_error failed true fuel, d.run_of_error failed fuel⟩, ?_, ?_⟩
  · intro fuel d' e failed
    cases parsed : Tree.parse d.editor.text with
    | error p =>
      rw [d.run_of_error parsed] at failed
      cases failed
      exact ⟨p, rfl, rfl⟩
    | ok t =>
      have failed := d.run_mono failed (Nat.le_add_right fuel 2)
      rcases d.run_cases parsed standard room (suspending t parsed) fuel with
        ⟨none, -⟩ | ⟨d₁, report, -, ran⟩
      · rw [failed] at none
        cases none
      · rw [failed] at ran
        cases ran
  · intro none stops
    rw [d.step_eq_direct none]
    exact ⟨d.run_endsAs_direct standard room stops, d.direct_endsAs_run standard room stops⟩

/-- A `debugger` statement in a function that is called, with one line of the trace each. -/
theorem run_eq_direct_debugger_in_call :
    ∃ (d d₁ d₂ : Session) (report : Report) (fuel : Nat),
      d.editor.text = "f(\"a\");\nfunction f(x) \x7b debugger; \x7d" ∧
      d.config = .standard ∧ 1 ≤ d.maxDepth ∧ d.direct true 60 = some (d₁, .ok report) ∧
      report.status = .halted ∧ d₁.banner.trace.length = 2 ∧
      d.run fuel = some (d₂, .ok report) ∧ d₂.snapshot = d₁.snapshot := by
  let d := ofText "f(\"a\");\nfunction f(x) \x7b debugger; \x7d"
  have halts : (d.direct true 60).map (fun r =>
      (r.2.toOption.map (·.status), r.1.banner.trace.length)) = some (some .halted, 2) := by
    decide +kernel
  obtain ⟨⟨d₁, result⟩, ended, seen⟩ := Option.map_eq_some_iff.mp halts
  obtain ⟨status, trace⟩ := Prod.mk.inj seen
  cases result with
  | error e => cases status
  | ok report =>
    obtain ⟨least, runs⟩ := (d.run_eq_direct rfl (by decide)).1 60 d₁ _ ended
    obtain ⟨d₂, ran, same⟩ := runs least (Nat.le_refl least)
    exact ⟨d, d₁, d₂, report, least, rfl, rfl, by decide, ended, Option.some.inj status, trace, ran,
      same report rfl⟩

end Session

end ScriptDebugger
