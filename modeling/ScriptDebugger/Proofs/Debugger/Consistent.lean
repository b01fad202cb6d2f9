import Mathlib.Data.List.Forall2
import ScriptDebugger.Proofs.Debugger.Operation
import ScriptDebugger.Proofs.Debugger.Show

/-!
# Banner and markers belong together

While nothing else puts markers of the debugger's class into the document or
takes them out, the banner has one line for each of them, in their order, and it
is visible exactly while there is one (`Session.Consistent`). A trace always has
a line, since a valid chain has a frame.
-/

namespace ScriptDebugger

lemma FrameChain.walk_ne_nil {c : FrameChain} (h : c.validate = .ok ()) :
    c.walk c.length ≠ [] := by
  obtain ⟨f, hf⟩ := exists_top_of_validate h
  obtain ⟨frames⟩ := c
  cases frames with
  | nil => cases hf
  | cons g rest => simp [walk, walkFrom, length]

namespace Session

/-- A line of a trace names the line and column at which a marker starts. -/
def Names (line : String) (m : Marker) : Prop :=
  ∃ kind : NodeKind NodeId, line = traceLine kind.typeName m.range

structure Consistent (d : Session) : Prop where
  visible : d.banner.visible = d.banner.headline.isSome
  headline : d.banner.headline.isSome = true ↔ d.banner.trace ≠ []
  lines : List.Forall₂ Names d.banner.trace d.ownMarkers

/-- What leaves the markers of the debugger's class alone, apart from the debugger itself. -/
def Undisturbed (d : Session) : Operation → Prop
  | .hover _ => False
  | .edit (.addMarker _ className _ _) => className ≠ d.config.markerClass
  | .edit (.removeMarker id) => ∀ m ∈ d.ownMarkers, m.id ≠ id
  | _ => True

variable {d d' : Session}

lemma consistent_of_hidden (hidden : d.banner = .hidden) (none : d.ownMarkers = []) :
    d.Consistent := by
  constructor
  · rw [hidden]
    rfl
  · rw [hidden]
    exact ⟨fun h => (by cases h), fun h => absurd rfl h⟩
  · rw [hidden, none]
    exact .nil

lemma consistent_reset (d : Session) : d.reset.Consistent :=
  consistent_of_hidden rfl d.ownMarkers_clear

/-- The markers of a trace start where its lines say. -/
lemma names_showTrace (e : Editor) (t : Tree) (frames : FrameChain) (base : OffsetBase)
    (headline : Headline) (markerClass : String)
    (none : e.markers.filter (fun m => m.className = markerClass) = []) :
    List.Forall₂ Names (e.showTrace t frames base headline markerClass).2.1.trace
      ((e.showTrace t frames base headline markerClass).1.markers.filter
        fun m => m.className = markerClass) := by
  have unnumbered := e.unnumbered_addMarkers
    (((frames.walk frames.length).map (e.placeOf t base)).map (·.2)) markerClass .text false
  rw [none, List.map_nil, List.nil_append] at unnumbered
  have named (lines : List String) (ms : List Marker) :
      List.Forall₂ Names lines (ms.map Marker.unnumbered) ↔ List.Forall₂ Names lines ms :=
    List.forall₂_map_right_iff
  simp only [Editor.showTrace]
  rw [← named, unnumbered]
  simp only [List.map_map, List.forall₂_map_left_iff, List.forall₂_map_right_iff,
    List.forall₂_same]
  exact fun f _ => ⟨_, rfl⟩

/-- What is shown after a clearing is consistent. -/
lemma Shows.consistent (h : d.Shows d') (hidden : d.banner = .hidden)
    (none : d.ownMarkers = []) : d'.Consistent := by
  cases h with
  | list variableList output => exact consistent_of_hidden hidden none
  | trace variableList output t frames base headline valid =>
    have lines := names_showTrace d.editor t frames base headline d.config.markerClass none
    refine ⟨rfl, ⟨fun _ => ?_, fun _ => rfl⟩, lines⟩
    simp only [Editor.showTrace, ne_eq, List.map_eq_nil_iff]
    exact FrameChain.walk_ne_nil valid

/-- The document may change in any way that leaves the class's markers alone. -/
lemma Consistent.withEditor (h : d.Consistent) {editor : Editor}
    (same : editor.markers.filter (fun m => m.className = d.config.markerClass) = d.ownMarkers) :
    Consistent { d with editor } :=
  ⟨h.visible, h.headline, (congrArg (List.Forall₂ Names d.banner.trace) same).mpr h.lines⟩

lemma Consistent.edit (h : d.Consistent) (edit : Edit) (allowed : Undisturbed d (.edit edit)) :
    Consistent { d with editor := d.editor.apply edit } := by
  cases edit with
  | addMarker range className kind inFront =>
    refine h.withEditor ?_
    have other : className ≠ d.config.markerClass := allowed
    simp [Editor.apply, Editor.addMarker, Editor.addMarkers, ownMarkers, other]
  | removeMarker id =>
    refine h.withEditor ?_
    have kept : ∀ m ∈ d.ownMarkers, m.id ≠ id := allowed
    simp only [Editor.apply, Editor.removeMarker]
    rw [List.filter_filter]
    simp only [Bool.and_comm (decide (_ = d.config.markerClass))]
    rw [← List.filter_filter]
    exact List.filter_eq_self.mpr fun m hm => decide_eq_true (kept m hm)
  | _ => exact h.withEditor rfl

/-- Without hovers, no operation takes a marker away behind the debugger's back. -/
lemma hoverMarker_after {operation : Operation} (h : d.treeView.hoverMarker = none)
    (allowed : d.Undisturbed operation) (leads : d.after? operation = some d') :
    d'.treeView.hoverMarker = none := by
  have noHover : ∀ id, operation ≠ .hover id := by
    rintro id rfl
    exact allowed
  rcases hoverMarker_of_noHover noHover leads with same | ⟨-, none⟩
  · exact same.trans h
  · exact none

lemma Consistent.after {operation : Operation} (h : d.Consistent)
    (unhovered : d.treeView.hoverMarker = none) (allowed : d.Undisturbed operation)
    (leads : d.after? operation = some d') : d'.Consistent := by
  cases operation with
  | hover id => exact allowed.elim
  | step fuel =>
    obtain ⟨r, hr, rfl⟩ := Option.map_eq_some_iff.mp leads
    exact (shows_step hr).consistent rfl d.ownMarkers_clear
  | run fuel =>
    obtain ⟨r, hr, rfl⟩ := Option.map_eq_some_iff.mp leads
    rcases shows_run hr with same | ⟨treeView, -, shows⟩
    · rwa [same]
    · exact shows.consistent rfl (ownMarkers_clear _)
  | displayTree =>
    cases leads
    simp only [displayTree]
    cases Tree.parse d.editor.text with
    | error e => exact h
    | ok t => exact ⟨h.visible, h.headline, h.lines⟩
  | unhover =>
    cases leads
    rwa [unhover_of_none unhovered]
  | edit edit =>
    cases leads
    exact h.edit edit allowed
  | _ =>
    cases leads
    exact consistent_reset _

lemma Reachable.consistent (h : Reachable Undisturbed d) :
    d.Consistent ∧ d.treeView.hoverMarker = none := by
  induction h with
  | start h config maxDepth suspends => exact ⟨consistent_reset _, rfl⟩
  | after _ allowed leads ih =>
    obtain ⟨consistent, unhovered⟩ := ih
    exact ⟨consistent.after unhovered allowed leads, hoverMarker_after unhovered allowed leads⟩

/-- Whatever has been done to a session, short of hovers and of other hands on the markers of the
debugger's class: the banner is visible exactly if it has a headline, and exactly if it has a
trace; the trace has a line for each marker of the class; and the lines name the places where
these markers start, in the order in which the markers were made. -/
theorem banner_names_markers (d : Session) (reached : Reachable Undisturbed d) :
    (d.banner.visible = true ↔ d.banner.headline.isSome = true) ∧
    (d.banner.headline.isSome = true ↔ d.banner.trace ≠ []) ∧
    d.ownMarkers.length = d.banner.trace.length ∧
    d.ownMarkers.Pairwise (·.id < ·.id) ∧
    ∀ (i : Nat) (line : String) (m : Marker), d.banner.trace[i]? = some line →
      d.ownMarkers[i]? = some m → ∃ kind : NodeKind NodeId, line =
        s!"at: {kind.typeName} @ line {m.range.start.row + 1}, column {m.range.start.column}" := by
  obtain ⟨consistent, -⟩ := reached.consistent
  refine ⟨by rw [consistent.visible], consistent.headline, consistent.lines.length_eq.symm,
    reached.ordered.markers.filter _, fun i line m hline hm => ?_⟩
  obtain ⟨hi, rfl⟩ := List.getElem?_eq_some_iff.mp hline
  obtain ⟨hi', rfl⟩ := List.getElem?_eq_some_iff.mp hm
  exact consistent.lines.get hi hi'

/-- An exception in a function, shown by a step and then again by a run: two lines, two markers. -/
theorem banner_names_markers_run_after_step :
    ∃ d d₁ d₂ : Session,
      d = start (.ofText "function f() \x7b throw 1; \x7d f();") .standard 5 ∧
      d.after? (.step 40) = some d₁ ∧ d₁.after? (.run 40) = some d₂ ∧
      Reachable Undisturbed d₂ ∧ d₂.banner.trace.length = 2 ∧ d₂.banner.visible = true ∧
      d₂.ownMarkers.length = 2 := by
  let d := start (.ofText "function f() \x7b throw 1; \x7d f();") .standard 5
  have ran : ((d.after? (.step 40)).bind fun d₁ => d₁.after? (.run 40)).map
      (fun d₂ => d₂.banner.trace.length) = some 2 := by decide +kernel
  obtain ⟨d₂, leads, two⟩ := Option.map_eq_some_iff.mp ran
  obtain ⟨d₁, first, second⟩ := Option.bind_eq_some_iff.mp leads
  have allowed : Undisturbed d (.step 40) := trivial
  have allowed' : Undisturbed d₁ (.run 40) := trivial
  have reached : Reachable Undisturbed d₂ :=
    .after (.after (.start (.ofText _) _ _ _) allowed first) allowed' second
  obtain ⟨visible, trace, count, -⟩ := banner_names_markers d₂ reached
  have shown : d₂.banner.trace ≠ [] := List.ne_nil_of_length_pos (by rw [two]; decide)
  exact ⟨d, d₁, d₂, rfl, first, second, reached, two, visible.mpr (trace.mpr shown),
    count.trans two⟩

end Session

end ScriptDebugger
