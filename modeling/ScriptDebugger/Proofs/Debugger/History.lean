import Mathlib.Data.List.Sort
import ScriptDebugger.Proofs.Debugger.Operation

/-!
# Results do not depend on what was done before

Two sessions with the same input, that is with the same text, breakpoints,
configuration, limit and mode, give the same result, however they came about; and
where a step or run succeeds they show the same, up to the numbers of markers.
-/

namespace ScriptDebugger

namespace Session

/-- What a step or a run reads of a session. -/
structure SameInput (d₁ d₂ : Session) : Prop where
  text : d₁.editor.text = d₂.editor.text
  lines : d₁.editor.lines = d₂.editor.lines
  breakpoints : d₁.editor.breakpoints = d₂.editor.breakpoints
  config : d₁.config = d₂.config
  maxDepth : d₁.maxDepth = d₂.maxDepth
  suspends : d₁.suspends = d₂.suspends

/-- What a session shows, in so far as the debugger makes it. -/
structure SameView (d₁ d₂ : Session) : Prop extends SameInput d₁ d₂ where
  variableList : d₁.variableList = d₂.variableList
  banner : d₁.banner = d₂.banner
  output : d₁.output = d₂.output
  markers : d₁.ownMarkers.map Marker.unnumbered = d₂.ownMarkers.map Marker.unnumbered

variable {d₁ d₂ : Session}

lemma SameInput.clear (h : SameInput d₁ d₂) : SameView d₁.clear d₂.clear where
  text := h.text
  lines := h.lines
  breakpoints := h.breakpoints
  config := h.config
  maxDepth := h.maxDepth
  suspends := h.suspends
  variableList := rfl
  banner := rfl
  output := rfl
  markers := by rw [ownMarkers_clear, ownMarkers_clear]

/-- A result and what is shown with it are the same on both sides. -/
structure SameResult {α : Type} (r₁ r₂ : Session × α) : Prop where
  result : r₁.2 = r₂.2
  view : SameView r₁.1 r₂.1

section

variable (h : SameView d₁ d₂)
include h

lemma SameView.placeOf (t : Tree) (base : OffsetBase) (f : Frame) :
    d₁.editor.placeOf t base f = d₂.editor.placeOf t base f := by
  simp only [Editor.placeOf, Editor.rangeIn, Editor.positionIn, Editor.position, h.lines]

lemma SameView.withList (l : VariableList) :
    SameView { d₁ with variableList := l } { d₂ with variableList := l } :=
  { h with variableList := rfl }

lemma SameView.showTrace (t : Tree) (frames : FrameChain) (base : OffsetBase)
    (headline : Headline) :
    SameView
      { d₁ with
        editor := (d₁.editor.showTrace t frames base headline d₁.config.markerClass).1
        banner := (d₁.editor.showTrace t frames base headline d₁.config.markerClass).2.1 }
      { d₂ with
        editor := (d₂.editor.showTrace t frames base headline d₂.config.markerClass).1
        banner := (d₂.editor.showTrace t frames base headline d₂.config.markerClass).2.1 } := by
  have places : d₁.editor.placeOf t base = d₂.editor.placeOf t base :=
    funext fun f => h.placeOf t base f
  have markers (d : Session) := d.editor.unnumbered_addMarkers
    (((frames.walk frames.length).map (d.editor.placeOf t base)).map (·.2))
    d.config.markerClass .text false
  exact { h with
    banner := by simp only [Editor.showTrace, places]
    markers := by
      refine (markers d₁).trans (Eq.trans ?_ (markers d₂).symm)
      exact congrArg₂ (· ++ ·) h.markers (by rw [places, h.config]) }

lemma SameView.withTreeView (v₁ v₂ : TreeView) :
    SameView { d₁ with treeView := v₁ } { d₂ with treeView := v₂ } := { h with }

lemma SameView.showNoScope : SameView d₁.showNoScope d₂.showNoScope := by
  rw [Session.showNoScope, Session.showNoScope, h.variableList]
  exact h.withList _

lemma SameView.withOutput (output : String) :
    SameView { d₁ with output } { d₂ with output } := { h with output := rfl }

lemma SameView.showFrames (t : Tree) (frames : FrameChain) (base : OffsetBase)
    (headline : Headline) (status : RunStatus) :
    SameResult
      (match d₁.showFrames t frames base headline with
        | .ok d => (d, (.ok status : Except DebugError RunStatus))
        | .error e => (d₁, .error e))
      (match d₂.showFrames t frames base headline with
        | .ok d => (d, (.ok status : Except DebugError RunStatus))
        | .error e => (d₂, .error e)) := by
  rw [Session.showFrames, Session.showFrames]
  cases frames.validate with
  | error e => exact ⟨rfl, h⟩
  | ok u => exact ⟨rfl, h.showTrace t frames base headline⟩

/-- The same outcome is shown alike. -/
lemma SameView.showOutcome (i : Interpreter) (outcome : Outcome) (base : OffsetBase) :
    SameResult (d₁.showOutcome i outcome base) (d₂.showOutcome i outcome base) := by
  rw [Session.showOutcome, Session.showOutcome]
  cases outcome.scope? with
  | none => exact ⟨rfl, h.showNoScope⟩
  | some scope =>
    rw [h.variableList]
    have listed := h.withList (i.store.displayScope d₂.variableList scope globalScope)
    cases outcome with
    | completed s => exact ⟨rfl, listed⟩
    | halted reason frames => exact listed.showFrames i.tree frames base _ _
    | raised error frames => exact listed.showFrames i.tree frames base _ _

end

lemma SameResult.finish {r₁ r₂ : Session × Except DebugError RunStatus} (h : SameResult r₁ r₂)
    (output : String) : SameResult (finish output r₁) (finish output r₂) := by
  obtain ⟨d₁, result⟩ := r₁
  obtain ⟨d₂, result'⟩ := r₂
  obtain rfl : result = result' := h.result
  cases result with
  | error e => exact ⟨rfl, h.view⟩
  | ok status => exact ⟨rfl, h.view.withOutput output⟩

/-- The same result, and on success the same view. -/
structure SameReport (r₁ r₂ : Session × Except DebugError Report) : Prop where
  result : r₁.2 = r₂.2
  view : ∀ report, r₁.2 = .ok report → SameView r₁.1 r₂.1

lemma SameResult.report {r₁ r₂ : Session × Except DebugError Report} (h : SameResult r₁ r₂) :
    SameReport r₁ r₂ := ⟨h.result, fun _ _ => h.view⟩

lemma SameInput.step (h : SameInput d₁ d₂) (fuel : Nat) :
    Option.Rel SameReport (d₁.step fuel) (d₂.step fuel) := by
  have cleared := h.clear
  rw [Session.step, Session.step]
  simp only [cleared.text, cleared.maxDepth, cleared.suspends, Editor.breakpointRow?,
    cleared.breakpoints]
  cases Tree.parse d₂.clear.editor.text with
  | error e => exact .some ⟨rfl, fun _ h => by cases h⟩
  | ok t =>
    simp only
    generalize Interpreter.runProgram _ _ _ _ = ran
    cases ran with
    | none => exact .none
    | some r => exact .some ((cleared.showOutcome r.interpreter r.outcome .plain).finish _).report

lemma SameView.runCallable (h : SameView d₁ d₂) (fuel : Nat) (c : Callable) :
    Option.Rel SameReport (d₁.runCallable fuel c) (d₂.runCallable fuel c) := by
  rw [Session.runCallable, Session.runCallable]
  cases c.run fuel with
  | none => exact .none
  | some r =>
    refine .some ?_
    simp only [h.config]
    cases r.outcome.toOutcome? with
    | none =>
      have shown : SameResult (d₁.showNoScope, (.ok .noScope : Except DebugError RunStatus))
          (d₂.showNoScope, .ok .noScope) := ⟨rfl, h.showNoScope⟩
      exact (shown.finish r.output).report
    | some outcome => exact ((h.showOutcome r.interpreter outcome _).finish r.output).report

lemma SameInput.run (h : SameInput d₁ d₂) (fuel : Nat) :
    Option.Rel SameReport (d₁.run fuel) (d₂.run fuel) := by
  rw [Session.run, Session.run, displayTree, displayTree, h.text]
  cases parsed : Tree.parse d₂.editor.text with
  | error e => exact .some ⟨rfl, fun _ h => by cases h⟩
  | ok t =>
    have cleared : SameView { d₁ with treeView := d₁.treeView.display t }.clear
        { d₂ with treeView := d₂.treeView.display t }.clear := h.clear.withTreeView _ _
    simp only [Except.map]
    rw [cleared.maxDepth, cleared.config, cleared.text]
    generalize Interpreter.callableOfText _ _ _ = made
    cases made with
    | none => exact .none
    | some result =>
      cases result with
      | error e => exact .some ⟨rfl, fun _ h => by cases h⟩
      | ok c => exact cleared.runCallable fuel c

/-- Sessions that have been reached in any way and have the same breakpoints have them in the same
order. -/
lemma SameInput.of_reachable {A₁ A₂ : Session → Operation → Prop} (h₁ : Reachable A₁ d₁)
    (h₂ : Reachable A₂ d₂) (text : d₁.editor.text = d₂.editor.text)
    (breakpoints : ∀ row, row ∈ d₁.editor.breakpoints ↔ row ∈ d₂.editor.breakpoints)
    (config : d₁.config = d₂.config) (maxDepth : d₁.maxDepth = d₂.maxDepth)
    (suspends : d₁.suspends = d₂.suspends) : SameInput d₁ d₂ where
  text := text
  lines := by rw [h₁.ordered.lines, h₂.ordered.lines, text]
  breakpoints := h₁.ordered.breakpoints.eq_of_mem_iff h₂.ordered.breakpoints breakpoints
  config := config
  maxDepth := maxDepth
  suspends := suspends

lemma map_snd_eq {r₁ r₂ : Option (Session × Except DebugError Report)}
    (h : Option.Rel SameReport r₁ r₂) : r₁.map Prod.snd = r₂.map Prod.snd := by
  cases h with
  | none => rfl
  | some same => exact congrArg some same.result

lemma view_of_rel {d₁' d₂' : Session} {report₁ report₂ : Report}
    (h : Option.Rel SameReport (some (d₁', .ok report₁)) (some (d₂', .ok report₂))) :
    SameView d₁' d₂' := by
  cases h with
  | some same => exact same.view report₁ rfl

/-- No result depends on what was done to a session before. However two sessions with the same
text, breakpoints, configuration, limit and mode came about, a step gives both the same result, and
so does a run; and if it succeeds, they then show the same variables, banner, output and markers of
the debugger's class, up to the numbers of the markers. -/
theorem history_independent (d₁ d₂ : Session) (reached₁ : Reachable (fun _ _ => True) d₁)
    (reached₂ : Reachable (fun _ _ => True) d₂) (text : d₁.editor.text = d₂.editor.text)
    (breakpoints : ∀ row, row ∈ d₁.editor.breakpoints ↔ row ∈ d₂.editor.breakpoints)
    (config : d₁.config = d₂.config) (maxDepth : d₁.maxDepth = d₂.maxDepth)
    (suspends : d₁.suspends = d₂.suspends) (fuel : Nat) :
    (d₁.step fuel).map Prod.snd = (d₂.step fuel).map Prod.snd ∧
    (d₁.run fuel).map Prod.snd = (d₂.run fuel).map Prod.snd ∧
    ∀ d₁' d₂' report₁ report₂,
      (d₁.step fuel = some (d₁', .ok report₁) ∧ d₂.step fuel = some (d₂', .ok report₂) ∨
        d₁.run fuel = some (d₁', .ok report₁) ∧ d₂.run fuel = some (d₂', .ok report₂)) →
      d₁'.snapshot.variableList = d₂'.snapshot.variableList ∧
      d₁'.snapshot.banner = d₂'.snapshot.banner ∧ d₁'.snapshot.output = d₂'.snapshot.output ∧
      d₁'.ownMarkers.map Marker.unnumbered = d₂'.ownMarkers.map Marker.unnumbered := by
  have same := SameInput.of_reachable reached₁ reached₂ text breakpoints config maxDepth suspends
  refine ⟨map_snd_eq (same.step fuel), map_snd_eq (same.run fuel), ?_⟩
  rintro d₁' d₂' report₁ report₂ ended
  have view : SameView d₁' d₂' := by
    rcases ended with ⟨h₁, h₂⟩ | ⟨h₁, h₂⟩
    · exact view_of_rel (h₁ ▸ h₂ ▸ same.step fuel)
    · exact view_of_rel (h₁ ▸ h₂ ▸ same.run fuel)
  exact ⟨view.variableList, view.banner, view.output, view.markers⟩

/-- A run after a step has thrown and left a marker, and a run in a new session. -/
theorem history_independent_after_step :
    ∃ d₁ d₂ d₁' d₂' : Session, ∃ report : Report,
      Reachable (fun _ _ => True) d₁ ∧ Reachable (fun _ _ => True) d₂ ∧
      d₁.ownMarkers.map (·.id) = [0] ∧ d₂.ownMarkers = [] ∧
      d₁.editor.text = d₂.editor.text ∧
      (∀ row, row ∈ d₁.editor.breakpoints ↔ row ∈ d₂.editor.breakpoints) ∧
      d₁.config = d₂.config ∧ d₁.maxDepth = d₂.maxDepth ∧ d₁.suspends = d₂.suspends ∧
      d₁.run 40 = some (d₁', .ok report) ∧ d₂.run 40 = some (d₂', .ok report) ∧
      d₁'.snapshot.banner = d₂'.snapshot.banner ∧
      d₁'.ownMarkers.map Marker.unnumbered = d₂'.ownMarkers.map Marker.unnumbered := by
  let d₂ := start (.ofText "throw 1;") .standard 5
  have marked : (d₂.after? (.step 40)).map (fun d => (d.ownMarkers.map (·.id), d.editor.text,
      d.editor.breakpoints, d.config, d.maxDepth)) =
        some ([0], "throw 1;", [], .standard, 5) := by decide +kernel
  have mode : (d₂.after? (.step 40)).map (·.suspends) = some false := by decide +kernel
  have ran : ((d₂.run 40).bind fun r => r.2.toOption).isSome = true := by decide +kernel
  obtain ⟨d₁, stepped, seen⟩ := Option.map_eq_some_iff.mp marked
  simp only [Prod.mk.injEq] at seen
  obtain ⟨own, text, breakpoints, config, maxDepth⟩ := seen
  have suspends : d₁.suspends = d₂.suspends := by
    rw [stepped] at mode
    exact Option.some.inj mode
  have reached₂ : Reachable (fun _ _ => True) d₂ := .start (.ofText _) _ _ _
  have reached₁ : Reachable (fun _ _ => True) d₁ := reached₂.after trivial stepped
  have rows : ∀ row, row ∈ d₁.editor.breakpoints ↔ row ∈ d₂.editor.breakpoints := by
    intro row
    rw [breakpoints]
    exact Iff.rfl
  obtain ⟨report, hreport⟩ := Option.isSome_iff_exists.mp ran
  obtain ⟨⟨d₂', result⟩, hr₂, hresult⟩ := Option.bind_eq_some_iff.mp hreport
  obtain ⟨-, results, views⟩ := history_independent d₁ d₂ reached₁ reached₂ text rows config
    maxDepth suspends 40
  cases result with
  | error e => cases hresult
  | ok report' =>
    cases hresult
    rw [hr₂, Option.map_some, Option.map_eq_some_iff] at results
    obtain ⟨⟨d₁', result⟩, hr₁, rfl⟩ := results
    obtain ⟨-, banner, -, markers⟩ := views d₁' d₂' report report (.inr ⟨hr₁, hr₂⟩)
    exact ⟨d₁, d₂, d₁', d₂', report, reached₁, reached₂, own, rfl, text, rows, config, maxDepth,
      suspends, hr₁, hr₂, banner, markers⟩

end Session

end ScriptDebugger
