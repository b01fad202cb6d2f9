import Mathlib.Data.List.Nodup
import Mathlib.Logic.Relation
import ScriptDebugger.Proofs.Debugger.Operation

/-!
# The debugger keeps to its own markers

Beside the debugger, a client adds markers to the document and removes them
(`Session.Holds`). Markers are numbered in order, so that one of a later session
is an old one or has a new number (`Editor.Follows`). The number that a hover
leaves behind therefore names the marker of that hover or none
(`Session.Tidy`), even after the marker is gone.
-/

namespace ScriptDebugger

namespace Editor

/-- The markers that a client has added and not removed, after another edit of it. -/
def record (e : Editor) (clients : List Marker) : Edit → List Marker
  | .addMarker range className kind inFront =>
    clients ++ [⟨(e.addMarker range className kind inFront).2, range, className, kind, inFront⟩]
  | .removeMarker id => clients.filter fun m => m.id ≠ id
  | _ => clients

/-- Documents that come from a text by the edits of a client, with the markers it has added and not
removed, in the order in which it added them. -/
inductive Holds : Editor → List Marker → Prop
  | ofText (text : String) : Holds (.ofText text) []
  | apply {e : Editor} {clients : List Marker} (h : Holds e clients) (edit : Edit) :
    Holds (e.apply edit) (e.record clients edit)

/-- A later state of a document: each of its markers is an old one or has a new number. -/
structure Follows (e e' : Editor) : Prop where
  next : e.nextMarker ≤ e'.nextMarker
  markers : ∀ m ∈ e'.markers, m ∈ e.markers ∨ e.nextMarker ≤ m.id

variable {e e' e'' : Editor} {clients : List Marker}

lemma Holds.reachable (h : e.Holds clients) : e.Reachable := by
  induction h with
  | ofText text => exact .ofText text
  | apply _ edit ih => exact .apply ih edit

lemma Holds.markers (h : e.Holds clients) : e.markers = clients := by
  induction h with
  | ofText text => rfl
  | apply _ edit ih =>
    subst ih
    cases edit <;> rfl

lemma Ordered.eq_of_id (h : e.Ordered) {m m' : Marker} (mem : m ∈ e.markers)
    (mem' : m' ∈ e.markers) (id : m'.id = m.id) : m' = m := by
  have distinct : (e.markers.map (·.id)).Nodup :=
    (List.pairwise_map.mpr h.markers).imp Nat.ne_of_lt
  exact List.inj_on_of_nodup_map distinct mem' mem id

lemma exists_added (e : Editor) (ranges : List TextRange) (className : String) (kind : MarkerKind)
    (inFront : Bool) : ∃ added,
      (e.addMarkers ranges className kind inFront).1.markers = e.markers ++ added ∧
      ∀ m ∈ added, e.nextMarker ≤ m.id ∧ m.className = className := by
  refine ⟨_, rfl, fun m mem => ?_⟩
  rw [← List.map_uncurry_zip_eq_zipWith] at mem
  obtain ⟨⟨id, range⟩, pair, rfl⟩ := List.mem_map.mp mem
  have number := (List.of_mem_zip pair).1
  exact ⟨(List.mem_range'_1.mp number).1, rfl⟩

namespace Follows

lemma refl (e : Editor) : e.Follows e := ⟨Nat.le_refl _, fun _ => .inl⟩

lemma trans (h : e.Follows e') (h' : e'.Follows e'') : e.Follows e'' := by
  refine ⟨Nat.le_trans h.next h'.next, fun m mem => ?_⟩
  rcases h'.markers m mem with mem | new
  · exact h.markers m mem
  · exact .inr (Nat.le_trans h.next new)

/-- A number stays with its marker. -/
lemma eq_of_id (h : e.Follows e') (ordered : e.Ordered) {m m' : Marker} (mem : m ∈ e.markers)
    (mem' : m' ∈ e'.markers) (id : m'.id = m.id) : m' = m := by
  rcases h.markers m' mem' with old | new
  · exact ordered.eq_of_id mem old id
  · have numbered := ordered.numbered m mem
    exact absurd numbered (Nat.not_lt_of_le (id ▸ new))

end Follows

lemma follows_filter (e : Editor) (keep : Marker → Bool) :
    e.Follows { e with markers := e.markers.filter keep } :=
  ⟨Nat.le_refl _, fun _ mem => .inl (List.mem_filter.mp mem).1⟩

lemma follows_of_added {added : List Marker} (next : e.nextMarker ≤ e'.nextMarker)
    (markers : e'.markers = e.markers ++ added) (new : ∀ m ∈ added, e.nextMarker ≤ m.id) :
    e.Follows e' := by
  refine ⟨next, fun m mem => ?_⟩
  rw [markers] at mem
  exact (List.mem_append.mp mem).imp_right (new m)

lemma follows_apply (e : Editor) (edit : Edit) : e.Follows (e.apply edit) := by
  cases edit with
  | addMarker range className kind inFront =>
    obtain ⟨added, markers, new⟩ := e.exists_added [range] className kind inFront
    exact follows_of_added (Nat.le_add_right _ _) markers fun m mem => (new m mem).1
  | removeMarker id => exact e.follows_filter _
  | _ => exact ⟨Nat.le_refl _, fun _ => .inl⟩

end Editor

namespace Session

/-- The markers that a client holds after an operation: only edits of its own change them. -/
def record (d : Session) (clients : List Marker) : Operation → List Marker
  | .edit edit => d.editor.record clients edit
  | _ => clients

/-- Sessions that come from their start by operations, with the markers that a client has added and
not removed. -/
inductive Holds : Session → List Marker → Prop
  | start {editor : Editor} {clients : List Marker} (h : editor.Holds clients) (config : Config)
    (maxDepth : Nat) (suspends : Bool) : Holds (.start editor config maxDepth suspends) clients
  | after {d d' : Session} {clients : List Marker} {operation : Operation} (h : Holds d clients)
    (leads : d.after? operation = some d') : Holds d' (d.record clients operation)

/-- One session comes to another by operations, all of them allowed. -/
def Leads (Allowed : Operation → Prop) : Session → Session → Prop :=
  Relation.ReflTransGen fun d d' => ∃ operation, Allowed operation ∧ d.after? operation = some d'

/-- The markers that are not of the debugger's class. -/
def otherMarkers (d : Session) : List Marker :=
  d.editor.markers.filter fun m => m.className ≠ d.config.markerClass

/-- What becomes of a hover that has added a marker, or none: its number is kept until it ends, and
no other marker ever has that number. -/
structure Lingers (d : Session) (added : Option Marker) : Prop where
  kept : ∀ id ∈ d.treeView.hoverMarker, ∃ m ∈ added, m.id = id
  ended : d.treeView.hoverMarker = none → ∀ m ∈ added, m ∉ d.editor.markers
  alone : ∀ m ∈ added, m.id < d.editor.nextMarker ∧ ∀ m' ∈ d.editor.markers, m'.id = m.id → m' = m

/-- The markers are in order, and the last hover added none but one of the debugger's. -/
structure Tidy (d : Session) : Prop where
  ordered : d.editor.Ordered
  hovered : ∃ added : Option Marker,
    (∀ m ∈ added, m.className = d.config.markerClass) ∧ d.Lingers added

/-- `d'` is a later session, and what is between them is not the client's. -/
structure Redraws (d d' : Session) : Prop where
  config : d'.config = d.config
  follows : d.editor.Follows d'.editor
  others : d'.otherMarkers = d.otherMarkers

/-- `d'` is `d` after a hover, which has added a marker or found no node. -/
structure Hovered (d : Session) (added : Option Marker) (d' : Session) : Prop where
  config : d'.config = d.config
  markers : d'.editor.markers = d.unhover.editor.markers ++ added.toList
  next : d'.editor.nextMarker = d.editor.nextMarker + added.toList.length
  hoverMarker : d'.treeView.hoverMarker = added.map (·.id)
  added : ∀ m ∈ added, m.id = d.editor.nextMarker ∧ m.className = d.config.markerClass

variable {d d' d'' : Session} {clients : List Marker} {operation : Operation}

lemma Redraws.trans (h : d.Redraws d') (h' : d'.Redraws d'') : d.Redraws d'' :=
  ⟨h'.config.trans h.config, h.follows.trans h'.follows, h'.others.trans h.others⟩

lemma redraws_of_added {added : List Marker} (config : d'.config = d.config)
    (next : d.editor.nextMarker ≤ d'.editor.nextMarker)
    (markers : d'.editor.markers = d.editor.markers ++ added)
    (new : ∀ m ∈ added, d.editor.nextMarker ≤ m.id ∧ m.className = d.config.markerClass) :
    d.Redraws d' := by
  refine ⟨config, Editor.follows_of_added next markers fun m mem => (new m mem).1, ?_⟩
  have own : (added.filter fun m => m.className ≠ d.config.markerClass) = [] :=
    List.filter_eq_nil_iff.mpr fun m mem => by simp [(new m mem).2]
  rw [otherMarkers, otherMarkers, config, markers, List.filter_append, own, List.append_nil]

lemma redraws_of_same (config : d'.config = d.config)
    (next : d'.editor.nextMarker = d.editor.nextMarker)
    (markers : d'.editor.markers = d.editor.markers) : d.Redraws d' :=
  redraws_of_added config (Nat.le_of_eq next.symm) (markers.trans (List.append_nil _).symm)
    fun _ mem => absurd mem List.not_mem_nil

lemma redraws_clear (d : Session) : d.Redraws d.clear := by
  refine ⟨rfl, d.editor.follows_filter _, ?_⟩
  simp [otherMarkers, clear, Editor.removeClass, List.filter_filter]

lemma redraws_reset (d : Session) : d.Redraws d.reset :=
  d.redraws_clear.trans (redraws_of_same rfl rfl rfl)

lemma Shows.redraws (h : d.Shows d') : d.Redraws d' := by
  cases h with
  | list => exact redraws_of_same rfl rfl rfl
  | trace l output t frames base headline valid =>
    obtain ⟨added, markers, new⟩ := d.editor.exists_added
      (((frames.walk frames.length).map (d.editor.placeOf t base)).map (·.2))
      d.config.markerClass .text false
    exact redraws_of_added rfl (Nat.le_add_right _ _) markers new

lemma markers_unhover (d : Session) : d.unhover.editor.markers =
    d.editor.markers.filter fun m => d.treeView.hoverMarker ≠ some m.id := by
  simp only [unhover, TreeView.unhover]
  cases d.treeView.hoverMarker with
  | none => simp
  | some id => simp [Editor.removeMarker, eq_comm]

lemma nextMarker_unhover (d : Session) : d.unhover.editor.nextMarker = d.editor.nextMarker := by
  simp only [unhover, TreeView.unhover]
  cases d.treeView.hoverMarker <;> rfl

/-- The end of a hover takes away the marker that the hover added, and no other. -/
lemma Lingers.markers_unhover {added : Option Marker} (h : d.Lingers added) :
    d.unhover.editor.markers = d.editor.markers.filter fun m => added ≠ some m := by
  rw [Session.markers_unhover]
  refine List.filter_congr fun m mem => decide_eq_decide.mpr (not_congr ?_)
  constructor
  · intro hover
    obtain ⟨m', mem', number⟩ := h.kept m.id hover
    obtain rfl := (h.alone m' mem').2 m mem number.symm
    exact mem'
  · intro here
    cases hover : d.treeView.hoverMarker with
    | none => exact absurd mem (h.ended hover m here)
    | some id =>
      obtain ⟨m', mem', rfl⟩ := h.kept id hover
      rw [Option.mem_unique mem' here]

lemma Tidy.redraws_unhover (h : d.Tidy) : d.Redraws d.unhover := by
  obtain ⟨added, own, lingers⟩ := h.hovered
  refine ⟨rfl, ⟨Nat.le_of_eq d.nextMarker_unhover.symm, fun m mem => ?_⟩, ?_⟩
  · rw [markers_unhover] at mem
    exact .inl (List.mem_filter.mp mem).1
  · have same : d.unhover.config = d.config := rfl
    rw [otherMarkers, otherMarkers, lingers.markers_unhover, same, List.filter_filter]
    refine List.filter_congr fun m mem => ?_
    by_cases here : added = some m
    · simp [own m here]
    · simp [here]

lemma hovered_hover (d : Session) (id : NodeId) : ∃ added, d.Hovered added (d.hover id) := by
  simp only [hover, TreeView.hover]
  split
  case h_1 =>
    refine ⟨none, rfl, ?_, ?_, rfl, ?_⟩
    · exact (List.append_nil _).symm
    · exact d.nextMarker_unhover
    · rintro m ⟨⟩
  case h_2 n found =>
    refine ⟨some ⟨d.unhover.editor.nextMarker, d.unhover.editor.rangeIn .plain n.span,
      d.config.markerClass, .text, false⟩, rfl, rfl, ?_, rfl, ?_⟩
    · exact congrArg (· + 1) d.nextMarker_unhover
    · rintro m ⟨⟩
      exact ⟨d.nextMarker_unhover, rfl⟩

lemma Hovered.lingers {added : Option Marker} (h : d.Hovered added d')
    (ordered : d.editor.Ordered) : d'.Lingers added := by
  refine ⟨fun id mem => ?_, fun none m mem => ?_, fun m mem => ?_⟩
  · rw [h.hoverMarker] at mem
    exact Option.map_eq_some_iff.mp mem
  · rw [h.hoverMarker, Option.map_eq_none_iff] at none
    subst none
    cases mem
  · obtain ⟨number, -⟩ := h.added m mem
    obtain rfl := mem
    refine ⟨?_, fun m' late same => ?_⟩
    · rw [h.next, number]
      exact Nat.lt_succ_self _
    · rw [h.markers, markers_unhover] at late
      rcases List.mem_append.mp late with old | new
      · have small := ordered.numbered m' (List.mem_filter.mp old).1
        rw [same, number] at small
        exact absurd small (Nat.lt_irrefl _)
      · exact List.mem_singleton.mp new

lemma Hovered.redraws {added : Option Marker} (h : d.Hovered added d') (tidy : d.Tidy) :
    d.Redraws d' := by
  refine tidy.redraws_unhover.trans (redraws_of_added h.config ?_ h.markers fun m mem => ?_)
  · rw [h.next, nextMarker_unhover]
    exact Nat.le_add_right _ _
  · obtain ⟨number, own⟩ := h.added m (Option.mem_toList.mp mem)
    exact ⟨Nat.le_of_eq (d.nextMarker_unhover.trans number.symm), own⟩

lemma Tidy.redraws_after (h : d.Tidy) (noEdit : ∀ edit, operation ≠ .edit edit)
    (leads : d.after? operation = some d') : d.Redraws d' := by
  cases operation with
  | step fuel =>
    obtain ⟨r, hr, rfl⟩ := Option.map_eq_some_iff.mp leads
    exact d.redraws_clear.trans (shows_step hr).redraws
  | run fuel =>
    obtain ⟨r, hr, rfl⟩ := Option.map_eq_some_iff.mp leads
    rcases shows_run hr with same | ⟨treeView, -, shows⟩
    · rw [same]
      exact redraws_of_same rfl rfl rfl
    · have displayed : d.Redraws { d with treeView } := redraws_of_same rfl rfl rfl
      exact displayed.trans ((redraws_clear _).trans shows.redraws)
  | reset =>
    cases leads
    exact d.redraws_reset
  | change text =>
    cases leads
    have changed : d.Redraws { d with editor := d.editor.setText text } :=
      redraws_of_same rfl rfl rfl
    exact changed.trans (redraws_reset _)
  | loadExample e =>
    cases leads
    have loaded : d.Redraws { d with editor := (d.editor.setText e.source).clearBreakpoints } :=
      redraws_of_same rfl rfl rfl
    exact loaded.trans (redraws_reset _)
  | displayTree =>
    cases leads
    simp only [displayTree]
    cases Tree.parse d.editor.text <;> exact redraws_of_same rfl rfl rfl
  | hover id =>
    cases leads
    obtain ⟨added, hovered⟩ := d.hovered_hover id
    exact hovered.redraws h
  | unhover =>
    cases leads
    exact h.redraws_unhover
  | edit edit => exact absurd rfl (noEdit edit)

/-- Whatever is done, markers keep their numbers, and the debugger its configuration. -/
lemma Tidy.follows_after (h : d.Tidy) (leads : d.after? operation = some d') :
    d'.config = d.config ∧ d.editor.Follows d'.editor := by
  by_cases edits : ∃ edit, operation = .edit edit
  · obtain ⟨edit, rfl⟩ := edits
    cases leads
    exact ⟨rfl, d.editor.follows_apply edit⟩
  · have redraws := h.redraws_after (fun edit same => edits ⟨edit, same⟩) leads
    exact ⟨redraws.config, redraws.follows⟩

lemma Lingers.after {added : Option Marker} (h : d.Lingers added)
    (follows : d.editor.Follows d'.editor) (noHover : ∀ id, operation ≠ .hover id)
    (leads : d.after? operation = some d') : d'.Lingers added := by
  have gone {m : Marker} (mem : m ∈ added) (absent : m ∉ d.editor.markers) :
      m ∉ d'.editor.markers := by
    intro late
    rcases follows.markers m late with old | new
    · exact absent old
    · exact absurd (h.alone m mem).1 (Nat.not_lt_of_le new)
  have hover := hoverMarker_of_noHover noHover leads
  refine ⟨fun id mem => ?_, fun none m mem => ?_, fun m mem => ?_⟩
  · rcases hover with same | ⟨-, none⟩
    · exact h.kept id (same ▸ mem)
    · rw [none] at mem
      cases mem
  · rcases hover with same | ⟨rfl, -⟩
    · exact gone mem (h.ended (same ▸ none) m mem)
    · rw [h.markers_unhover]
      intro late
      exact of_decide_eq_true (List.mem_filter.mp late).2 mem
  · obtain ⟨small, alone⟩ := h.alone m mem
    refine ⟨Nat.lt_of_lt_of_le small follows.next, fun m' late number => ?_⟩
    rcases follows.markers m' late with old | new
    · exact alone m' old number
    · exact absurd small (Nat.not_lt_of_le (number ▸ new))

lemma Tidy.after (h : d.Tidy) (leads : d.after? operation = some d') : d'.Tidy := by
  obtain ⟨config, follows⟩ := h.follows_after leads
  refine ⟨ordered_after h.ordered leads, ?_⟩
  by_cases hovers : ∃ id, operation = .hover id
  · obtain ⟨id, rfl⟩ := hovers
    cases leads
    obtain ⟨added, hovered⟩ := d.hovered_hover id
    refine ⟨added, fun m mem => ?_, hovered.lingers h.ordered⟩
    rw [config]
    exact (hovered.added m mem).2
  · obtain ⟨added, own, lingers⟩ := h.hovered
    refine ⟨added, fun m mem => ?_, lingers.after follows (fun id same => hovers ⟨id, same⟩) leads⟩
    rw [config]
    exact own m mem

/-- Whatever is done, markers keep their numbers. -/
lemma Tidy.follows_of_leads {Allowed : Operation → Prop} (h : d.Tidy) (leads : d.Leads Allowed d') :
    d'.Tidy ∧ d.editor.Follows d'.editor := by
  induction leads with
  | refl => exact ⟨h, .refl _⟩
  | tail _ last ih =>
    obtain ⟨operation, -, last⟩ := last
    obtain ⟨tidy, follows⟩ := ih
    exact ⟨tidy.after last, follows.trans (tidy.follows_after last).2⟩

/-- A hover lingers until another one comes. -/
lemma Tidy.lingers_of_leads {added : Option Marker} (h : d.Tidy) (lingers : d.Lingers added)
    (leads : d.Leads (fun operation => ∀ id, operation ≠ .hover id) d') : d'.Lingers added := by
  induction leads with
  | refl => exact lingers
  | tail before last ih =>
    obtain ⟨operation, noHover, last⟩ := last
    obtain ⟨tidy, -⟩ := h.follows_of_leads before
    exact ih.after (tidy.follows_after last).2 noHover last

lemma lingers_none (h : d.treeView.hoverMarker = none) : d.Lingers none := by
  refine ⟨fun id mem => ?_, fun _ m mem => ?_, fun m mem => ?_⟩
  · rw [h] at mem
    cases mem
  · cases mem
  · cases mem

lemma tidy_start {editor : Editor} (h : editor.Reachable) (config : Config) (maxDepth : Nat)
    (suspends : Bool) : (start editor config maxDepth suspends).Tidy :=
  ⟨ordered_clear h.ordered, none, fun _ mem => absurd mem (Option.not_mem_none _), lingers_none rfl⟩

/-- What edits of the client do to the other markers is what they do to the client's. -/
lemma otherMarkers_edit
    (h : d.otherMarkers = clients.filter fun m => m.className ≠ d.config.markerClass)
    (edit : Edit) : otherMarkers { d with editor := d.editor.apply edit } =
      (d.editor.record clients edit).filter fun m => m.className ≠ d.config.markerClass := by
  cases edit with
  | addMarker range className kind inFront =>
    have added : (d.editor.apply (.addMarker range className kind inFront)).markers =
        d.editor.markers ++ [⟨d.editor.nextMarker, range, className, kind, inFront⟩] := rfl
    rw [otherMarkers, added, List.filter_append, Editor.record, List.filter_append]
    exact congrArg (· ++ _) h
  | removeMarker id =>
    calc otherMarkers { d with editor := d.editor.removeMarker id }
      _ = d.otherMarkers.filter fun m => m.id ≠ id := List.filter_comm ..
      _ = (clients.filter fun m => m.className ≠ d.config.markerClass).filter fun m => m.id ≠ id :=
        congrArg _ h
      _ = (clients.filter fun m => m.id ≠ id).filter fun m => m.className ≠ d.config.markerClass :=
        List.filter_comm ..
  | _ => exact h

lemma Holds.tidy (h : d.Holds clients) : d.Tidy := by
  induction h with
  | start h config maxDepth suspends => exact tidy_start h.reachable config maxDepth suspends
  | after _ leads ih => exact ih.after leads

/-- The markers of other classes are the client's. -/
lemma Holds.otherMarkers (h : d.Holds clients) :
    d.otherMarkers = clients.filter fun m => m.className ≠ d.config.markerClass := by
  induction h with
  | @start editor clients h config maxDepth suspends =>
    rw [← h.markers]
    exact (redraws_reset _).others
  | @after d d' clients operation h leads ih =>
    by_cases edits : ∃ edit, operation = .edit edit
    · obtain ⟨edit, rfl⟩ := edits
      cases leads
      exact otherMarkers_edit ih edit
    · have noEdit : ∀ edit, operation ≠ .edit edit := fun edit same => edits ⟨edit, same⟩
      have redraws := h.tidy.redraws_after noEdit leads
      have recorded : d.record clients operation = clients := by
        cases operation with
        | edit edit => exact absurd rfl (noEdit edit)
        | _ => rfl
      rw [redraws.others, ih, recorded, redraws.config]

/-- Whatever has been done to a session, and whatever a client has done beside it: the markers that
are not of the debugger's class are those that the client has added and not removed, as it added
them and in that order. A number is never used again: a marker with the number of an earlier one is
that marker, one that is gone does not come back, and a new one gets another number. The end of a
hover removes the marker that the last hover added and no other, whatever has been done since; and
none if there was no hover. -/
theorem keeps_to_own_markers (h : d.Holds clients) :
    (d.editor.markers.filter fun m => m.className ≠ d.config.markerClass) =
      (clients.filter fun m => m.className ≠ d.config.markerClass) ∧
    (∀ m ∈ d.editor.markers, ∀ d', d.Leads (fun _ => True) d' →
      (∀ m' ∈ d'.editor.markers, m'.id = m.id → m' = m) ∧
      (∀ range className kind inFront,
        (d'.editor.addMarker range className kind inFront).2 ≠ m.id) ∧
      (m ∉ d'.editor.markers → ∀ d'', d'.Leads (fun _ => True) d'' →
        ∀ m'' ∈ d''.editor.markers, m''.id ≠ m.id)) ∧
    (∀ id, ∃ added : Option Marker,
      (d.hover id).editor.markers = d.unhover.editor.markers ++ added.toList ∧
      ∀ d', (d.hover id).Leads (fun operation => ∀ id, operation ≠ .hover id) d' →
        d'.unhover.editor.markers = d'.editor.markers.filter fun m => added ≠ some m) ∧
    ∀ editor config maxDepth suspends, editor.Reachable →
      (start editor config maxDepth suspends).Leads (fun operation => ∀ id, operation ≠ .hover id)
        d → d.unhover.editor.markers = d.editor.markers := by
  have tidy := h.tidy
  refine ⟨h.otherMarkers, fun m mem d' leads => ?_, fun id => ?_, ?_⟩
  · obtain ⟨tidy', follows⟩ := tidy.follows_of_leads leads
    have numbered := Nat.lt_of_lt_of_le (tidy.ordered.numbered m mem) follows.next
    refine ⟨fun m' mem' => follows.eq_of_id tidy.ordered mem mem',
      fun _ _ _ _ => Nat.ne_of_gt numbered, fun gone d'' leads' m'' late number => ?_⟩
    obtain ⟨-, follows'⟩ := tidy'.follows_of_leads leads'
    obtain rfl := (follows.trans follows').eq_of_id tidy.ordered mem late number
    rcases follows'.markers m'' late with old | new
    · exact gone old
    · exact absurd numbered (Nat.not_lt_of_le new)
  · obtain ⟨added, hovered⟩ := d.hovered_hover id
    have leads : d.after? (.hover id) = some (d.hover id) := rfl
    have tidy' := tidy.after leads
    exact ⟨added, hovered.markers, fun d' leads =>
      (tidy'.lingers_of_leads (hovered.lingers tidy.ordered) leads).markers_unhover⟩
  · intro editor config maxDepth suspends reachable leads
    have lingers := (tidy_start reachable config maxDepth suspends).lingers_of_leads
      (lingers_none rfl) leads
    rw [lingers.markers_unhover]
    exact List.filter_eq_self.mpr fun _ _ => rfl

/-- A node is hovered between two markers of a client, and a reset removes the marker of the hover
before the hover ends: the number kept till then names neither of the client's. -/
theorem unhover_after_reset :
    ∃ (d later : Session) (note : Marker) (added : Option Marker), d.Holds [note] ∧
      (d.editor.markers.filter fun m => m.className ≠ d.config.markerClass) = [note] ∧
      (d.hover 0).editor.markers = d.unhover.editor.markers ++ added.toList ∧
      added.map (·.id) = some 1 ∧
      later.treeView.hoverMarker = some 1 ∧ later.editor.markers.map (·.id) = [0, 2] ∧
      (later.unhover.editor.markers = later.editor.markers.filter fun m => added ≠ some m) ∧
      later.unhover.editor.markers.map (·.id) = [0, 2] := by
  let range : TextRange := ⟨⟨0, 0⟩, ⟨0, 1⟩⟩
  let note : Marker := ⟨0, range, "note", .text, false⟩
  let add (d : Session) : Session :=
    { d with editor := (d.editor.addMarker range "note" .text false).1 }
  let first : Session := start (.ofText "a;") .standard 1
  let d : Session := ((add first).displayTree).toOption.getD (add first)
  let later : Session := add (d.hover 0).reset
  have added : first.after? (.edit (.addMarker range "note" .text false)) = some (add first) := rfl
  have displayed : (add first).after? .displayTree = some d := rfl
  have holds : d.Holds [note] :=
    .after (.after (.start (.ofText "a;") .standard 1 false) added) displayed
  have leads : (d.hover 0).Leads (fun operation => ∀ id, operation ≠ .hover id) later :=
    .tail (.tail .refl ⟨.reset, by simp, rfl⟩)
      ⟨.edit (.addMarker range "note" .text false), by simp, rfl⟩
  obtain ⟨others, -, hovers, -⟩ := keeps_to_own_markers holds
  obtain ⟨added, markers, unhovers⟩ := hovers 0
  have numbers : (d.hover 0).editor.markers.map (·.id) = [0, 1] ∧
      d.unhover.editor.markers.map (·.id) = [0] := by decide +kernel
  have number : added.map (·.id) = some 1 := by
    have ids := congrArg (List.map (·.id)) markers
    rw [List.map_append, numbers.1, numbers.2] at ids
    cases added with
    | none => cases ids
    | some m => simpa using ids.symm
  have other : ([note].filter fun m => m.className ≠ d.config.markerClass) = [note] := by
    decide +kernel
  exact ⟨d, later, note, added, holds, others.trans other, markers, number, by decide +kernel,
    by decide +kernel, unhovers later leads, by decide +kernel⟩

end Session

end ScriptDebugger
