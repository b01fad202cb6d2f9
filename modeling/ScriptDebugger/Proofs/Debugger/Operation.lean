import Mathlib.Tactic.Lemma
import ScriptDebugger.Debugger.Session

/-!
# What can be done to a session

A session is reached from its start by steps, runs, resets, hovers and edits of
the document, in any order. Whatever a step or a run comes to, it leaves a
cleared session that shows variables and output, and perhaps a trace
(`Session.Shows`). The editor's lines always belong to its text, and breakpoints
and markers are in order (`Editor.Ordered`).
-/

namespace ScriptDebugger

/-- What can be done to a document. -/
inductive Edit where
  | setText (text : String)
  | setBreakpoint (row : Nat)
  | clearBreakpoint (row : Nat)
  | clearBreakpoints
  | addMarker (range : TextRange) (className : String) (kind : MarkerKind) (inFront : Bool)
  | removeMarker (id : MarkerId)

namespace Editor

def apply (e : Editor) : Edit → Editor
  | .setText text => e.setText text
  | .setBreakpoint row => e.setBreakpoint row
  | .clearBreakpoint row => e.clearBreakpoint row
  | .clearBreakpoints => e.clearBreakpoints
  | .addMarker range className kind inFront => (e.addMarker range className kind inFront).1
  | .removeMarker id => e.removeMarker id

/-- Documents that come from a text by edits. -/
inductive Reachable : Editor → Prop
  | ofText (text : String) : Reachable (.ofText text)
  | apply {e : Editor} (h : Reachable e) (edit : Edit) : Reachable (e.apply edit)

structure Ordered (e : Editor) : Prop where
  lines : e.lines = .ofText e.text
  breakpoints : e.breakpoints.Pairwise (· < ·)
  markers : e.markers.Pairwise (·.id < ·.id)
  numbered : ∀ m ∈ e.markers, m.id < e.nextMarker

lemma mem_insertAscending {n m : Nat} {ms : List Nat} :
    m ∈ insertAscending n ms ↔ m = n ∨ m ∈ ms := by
  induction ms with
  | nil => simp [insertAscending]
  | cons k ms ih =>
    simp only [insertAscending]
    split
    · simp
    · split
      case isTrue h => simp [h]
      case isFalse => rw [List.mem_cons, ih, List.mem_cons, or_left_comm]

lemma pairwise_insertAscending {n : Nat} {ms : List Nat} (h : ms.Pairwise (· < ·)) :
    (insertAscending n ms).Pairwise (· < ·) := by
  induction ms with
  | nil => exact List.pairwise_singleton _ _
  | cons k ms ih =>
    obtain ⟨first, rest⟩ := List.pairwise_cons.mp h
    simp only [insertAscending]
    split
    case isTrue lt =>
      refine List.pairwise_cons.mpr ⟨fun m hm => ?_, h⟩
      rcases List.mem_cons.mp hm with rfl | hm
      · exact lt
      · exact Nat.lt_trans lt (first m hm)
    case isFalse ge =>
      split
      case isTrue => exact h
      case isFalse ne =>
        refine List.pairwise_cons.mpr ⟨fun m hm => ?_, ih rest⟩
        rcases mem_insertAscending.mp hm with rfl | hm
        · omega
        · exact first m hm

namespace Ordered

variable {e : Editor} (h : e.Ordered)
include h

lemma addMarkers (ranges : List TextRange) (className : String) (kind : MarkerKind)
    (inFront : Bool) : (e.addMarkers ranges className kind inFront).1.Ordered := by
  induction ranges generalizing e with
  | nil =>
    have same : (e.addMarkers [] className kind inFront).1 = e := by simp [Editor.addMarkers]
    rwa [same]
  | cons range rest ih =>
    have split : (e.addMarkers (range :: rest) className kind inFront).1 =
        ((e.addMarker range className kind inFront).1.addMarkers rest className kind
          inFront).1 := by
      simp [Editor.addMarker, Editor.addMarkers, List.range'_succ, Nat.add_assoc,
        Nat.add_comm 1]
    rw [split]
    refine ih ⟨h.lines, h.breakpoints, ?_, ?_⟩
    · refine List.pairwise_append.mpr ⟨h.markers, List.pairwise_singleton _ _, fun m hm k hk => ?_⟩
      obtain rfl := List.mem_singleton.mp hk
      exact h.numbered m hm
    · intro m hm
      rcases List.mem_append.mp hm with hm | hm
      · exact Nat.lt_succ_of_lt (h.numbered m hm)
      · obtain rfl := List.mem_singleton.mp hm
        exact Nat.lt_succ_self _

lemma filter (keep : Marker → Bool) :
    Ordered { e with markers := e.markers.filter keep } :=
  ⟨h.lines, h.breakpoints, h.markers.filter _, fun m hm => h.numbered m (List.mem_filter.mp hm).1⟩

lemma setText (text : String) : (e.setText text).Ordered :=
  ⟨rfl, h.breakpoints, h.markers, h.numbered⟩

lemma clearBreakpoints : e.clearBreakpoints.Ordered :=
  ⟨h.lines, .nil, h.markers, h.numbered⟩

lemma apply (edit : Edit) : (e.apply edit).Ordered := by
  cases edit with
  | setText text => exact h.setText text
  | setBreakpoint row =>
    exact ⟨h.lines, pairwise_insertAscending h.breakpoints, h.markers, h.numbered⟩
  | clearBreakpoint row => exact ⟨h.lines, h.breakpoints.filter _, h.markers, h.numbered⟩
  | clearBreakpoints => exact h.clearBreakpoints
  | addMarker range className kind inFront => exact h.addMarkers [range] className kind inFront
  | removeMarker id => exact h.filter _

end Ordered

lemma Reachable.ordered {e : Editor} (h : e.Reachable) : e.Ordered := by
  induction h with
  | ofText text =>
    refine ⟨rfl, .nil, .nil, ?_⟩
    intro m hm
    cases hm
  | apply _ edit ih => exact ih.apply edit

end Editor

/-- A marker without its number. -/
def Marker.unnumbered (m : Marker) : Marker := { m with id := 0 }

/-- But for their numbers, new markers are like their ranges. -/
lemma Editor.unnumbered_addMarkers (e : Editor) (ranges : List TextRange) (className : String)
    (kind : MarkerKind) (inFront : Bool) :
    (((e.addMarkers ranges className kind inFront).1.markers.filter
      fun m => m.className = className).map Marker.unnumbered) =
      (e.markers.filter fun m => m.className = className).map Marker.unnumbered ++
        ranges.map fun range => ⟨0, range, className, kind, inFront⟩ := by
  simp only [Editor.addMarkers, List.filter_append, List.map_append, List.append_cancel_left_eq]
  generalize e.nextMarker = first
  induction ranges generalizing first with
  | nil => rfl
  | cons range rest ih =>
    rw [List.length_cons, List.range'_succ, List.zipWith_cons_cons,
      List.filter_cons_of_pos (by simp), List.map_cons, List.map_cons, ih]
    rfl

/-- What can be done to a session. A step or run is bounded in its number of steps. -/
inductive Operation where
  | step (fuel : Nat)
  | run (fuel : Nat)
  | reset
  | change (text : String)
  | loadExample (e : Example)
  | displayTree
  | hover (id : NodeId)
  | unhover
  | edit (edit : Edit)

namespace Session

/-- The session after an operation, whether it succeeds or fails; none if the bound on the number
of steps does not suffice. -/
def after? (d : Session) : Operation → Option Session
  | .step fuel => (d.step fuel).map Prod.fst
  | .run fuel => (d.run fuel).map Prod.fst
  | .reset => some d.reset
  | .change text => some (d.change text)
  | .loadExample e => some (d.loadExample e)
  | .displayTree => some (d.displayTree.toOption.getD d)
  | .hover id => some (d.hover id)
  | .unhover => some d.unhover
  | .edit edit => some { d with editor := d.editor.apply edit }

/-- Sessions that come from their start by operations that are allowed where they happen. -/
inductive Reachable (Allowed : Session → Operation → Prop) : Session → Prop
  | start {editor : Editor} (h : editor.Reachable) (config : Config) (maxDepth : Nat)
      (suspends : Bool) : Reachable Allowed (.start editor config maxDepth suspends)
  | after {d d' : Session} {operation : Operation} (h : Reachable Allowed d)
    (allowed : Allowed d operation) (leads : d.after? operation = some d') :
    Reachable Allowed d'

/-- What a session comes to when it has shown something: variables and output, and perhaps a valid
chain of frames. -/
inductive Shows (d : Session) : Session → Prop
  | list (variableList : VariableList) (output : String) : Shows d { d with variableList, output }
  | trace (variableList : VariableList) (output : String) (t : Tree) (frames : FrameChain)
    (base : OffsetBase) (headline : Headline) (valid : frames.validate = .ok ()) :
    Shows d { d with
      variableList, output
      editor := (d.editor.showTrace t frames base headline d.config.markerClass).1
      banner := (d.editor.showTrace t frames base headline d.config.markerClass).2.1 }

/-- The markers of the debugger's class, in the order in which they were made. -/
def ownMarkers (d : Session) : List Marker :=
  d.editor.markers.filter fun m => m.className = d.config.markerClass

lemma ownMarkers_clear (d : Session) : d.clear.ownMarkers = [] := by
  simp [ownMarkers, clear, Editor.removeClass, List.filter_filter]

variable {d d' : Session} {fuel : Nat}

lemma Shows.withOutput (h : d.Shows d') (output : String) : d.Shows { d' with output } := by
  cases h with
  | list l _ => exact .list l output
  | trace l _ t frames base headline valid => exact .trace l output t frames base headline valid

lemma shows_showFrames (d : Session) (l : VariableList) (t : Tree) (frames : FrameChain)
    (base : OffsetBase) (headline : Headline) (status : RunStatus) :
    d.Shows (match { d with variableList := l }.showFrames t frames base headline with
      | .ok d => (d, (.ok status : Except DebugError RunStatus))
      | .error e => ({ d with variableList := l }, .error e)).1 := by
  rw [showFrames]
  cases valid : frames.validate with
  | error e => exact .list l d.output
  | ok u => exact .trace l d.output t frames base headline valid

lemma shows_showOutcome (d : Session) (i : Interpreter) (outcome : Outcome) (base : OffsetBase) :
    d.Shows (d.showOutcome i outcome base).1 := by
  rw [showOutcome]
  cases outcome.scope? with
  | none => exact .list _ d.output
  | some scope =>
    cases outcome with
    | completed s => exact .list _ d.output
    | halted reason frames => exact d.shows_showFrames _ i.tree frames base _ .halted
    | raised error frames => exact d.shows_showFrames _ i.tree frames base _ .raised

lemma Shows.finish {r : Session × Except DebugError RunStatus} (h : d.Shows r.1)
    (output : String) : d.Shows (finish output r).1 := by
  obtain ⟨d', result⟩ := r
  cases result with
  | error e => exact h
  | ok status => exact h.withOutput output

/-- A step clears the session and shows what became of the text. -/
lemma shows_step {r : Session × Except DebugError Report} (h : d.step fuel = some r) :
    d.clear.Shows r.1 := by
  rw [step] at h
  cases parsed : Tree.parse d.clear.editor.text with
  | error e =>
    rw [parsed] at h
    cases h
    exact .list .empty ""
  | ok t =>
    simp only [parsed, Option.map_eq_some_iff] at h
    obtain ⟨ran, -, rfl⟩ := h
    exact (shows_showOutcome d.clear ran.interpreter ran.outcome .plain).finish ran.output

lemma shows_runCallable {c : Callable} {r : Session × Except DebugError Report}
    (h : d.runCallable fuel c = some r) : d.Shows r.1 := by
  obtain ⟨ran, -, rfl⟩ := Option.map_eq_some_iff.mp h
  cases ran.outcome.toOutcome? with
  | none => exact .list _ ran.output
  | some outcome => exact (shows_showOutcome d ran.interpreter outcome _).finish ran.output

/-- A run of a text that does not parse changes nothing; any other clears the session and shows
what became of the text. -/
lemma shows_run {r : Session × Except DebugError Report} (h : d.run fuel = some r) :
    r.1 = d ∨ ∃ treeView, treeView.hoverMarker = d.treeView.hoverMarker ∧
      { d with treeView }.clear.Shows r.1 := by
  rw [run, displayTree] at h
  cases parsed : Tree.parse d.editor.text with
  | error e =>
    rw [parsed] at h
    cases h
    exact .inl rfl
  | ok t =>
    refine .inr ⟨d.treeView.display t, rfl, ?_⟩
    simp only [parsed, Except.map] at h
    split at h
    case h_1 => cases h
    case h_2 =>
      cases h
      exact .list .empty ""
    case h_3 => exact shows_runCallable h

lemma ordered_clear (h : d.editor.Ordered) : d.clear.editor.Ordered := h.filter _

lemma Shows.ordered (h : d.Shows d') (ordered : d.editor.Ordered) : d'.editor.Ordered := by
  cases h with
  | list => exact ordered
  | trace => exact ordered.addMarkers ..

lemma ordered_unhover (h : d.editor.Ordered) : d.unhover.editor.Ordered := by
  simp only [unhover, TreeView.unhover]
  cases d.treeView.hoverMarker with
  | none => exact h
  | some id => exact h.filter _

lemma ordered_hover (h : d.editor.Ordered) (id : NodeId) : (d.hover id).editor.Ordered := by
  have unhovered : (d.treeView.unhover d.editor).2.Ordered := ordered_unhover h
  simp only [hover, TreeView.hover]
  split
  · exact unhovered
  · exact unhovered.addMarkers [_] ..

lemma ordered_after {operation : Operation} (h : d.editor.Ordered)
    (leads : d.after? operation = some d') : d'.editor.Ordered := by
  cases operation with
  | step fuel =>
    obtain ⟨r, hr, rfl⟩ := Option.map_eq_some_iff.mp leads
    exact (shows_step hr).ordered (ordered_clear h)
  | run fuel =>
    obtain ⟨r, hr, rfl⟩ := Option.map_eq_some_iff.mp leads
    rcases shows_run hr with same | ⟨treeView, -, shows⟩
    · rwa [same]
    · exact shows.ordered (h.filter _)
  | reset =>
    cases leads
    exact ordered_clear h
  | change text =>
    cases leads
    exact (h.setText text).filter _
  | loadExample e =>
    cases leads
    exact (h.setText e.source).clearBreakpoints.filter _
  | displayTree =>
    cases leads
    simp only [displayTree]
    cases Tree.parse d.editor.text <;> exact h
  | hover id =>
    cases leads
    exact ordered_hover h id
  | unhover =>
    cases leads
    exact ordered_unhover h
  | edit edit =>
    cases leads
    exact h.apply edit

lemma unhover_of_none (h : d.treeView.hoverMarker = none) : d.unhover = d := by
  obtain ⟨editor, config, maxDepth, suspends, variableList, banner, ⟨tree, hoverMarker⟩, output⟩ :=
    d
  subst h
  rfl

lemma Shows.treeView (h : d.Shows d') : d'.treeView = d.treeView := by
  cases h <;> rfl

/-- A hover is kept until it ends or another one comes. -/
lemma hoverMarker_of_noHover {operation : Operation} (noHover : ∀ id, operation ≠ .hover id)
    (leads : d.after? operation = some d') :
    d'.treeView.hoverMarker = d.treeView.hoverMarker ∨
      d' = d.unhover ∧ d'.treeView.hoverMarker = none := by
  cases operation with
  | hover id => exact absurd rfl (noHover id)
  | step fuel =>
    obtain ⟨r, hr, rfl⟩ := Option.map_eq_some_iff.mp leads
    rw [(shows_step hr).treeView]
    exact .inl rfl
  | run fuel =>
    obtain ⟨r, hr, rfl⟩ := Option.map_eq_some_iff.mp leads
    rcases shows_run hr with same | ⟨treeView, kept, shows⟩
    · rw [same]
      exact .inl rfl
    · rw [shows.treeView]
      exact .inl kept
  | displayTree =>
    cases leads
    simp only [displayTree]
    cases Tree.parse d.editor.text <;> exact .inl rfl
  | unhover =>
    cases leads
    exact .inr ⟨rfl, rfl⟩
  | _ =>
    cases leads
    exact .inl rfl

lemma Reachable.ordered {Allowed : Session → Operation → Prop} (h : Reachable Allowed d) :
    d.editor.Ordered := by
  induction h with
  | start h config maxDepth suspends => exact ordered_clear h.ordered
  | after _ _ leads ih => exact ordered_after ih leads

end Session

end ScriptDebugger
