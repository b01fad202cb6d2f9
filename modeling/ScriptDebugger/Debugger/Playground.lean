import ScriptDebugger.Debugger.SnapshotJson

/-!
# Playground pages

A page with one session, for a host that owns the editor widget: it passes on
what changes in text and breakpoints, and each call answers with the display as
JSON on one line. A page has at most one breakpoint.
-/

namespace ScriptDebugger

structure Page where
  session : Session
  deriving Inhabited

namespace Page

/-- A page as it opens. -/
def opened : Page := ⟨(Session.ofText "").loadExample .error⟩

def text (p : Page) : String := p.session.editor.text

/-- The display, with how a script ended or what went wrong. -/
def view (p : Page) (status : Option RunStatus) (error : Option String) : String :=
  JsonValue.compact (.object (
    [("status", .ofOption (fun s => .string s.name) status), ("error", .ofOption .string error)] ++
      p.session.snapshot.members))

/-- Goes on with a session and shows it. -/
def shown (session : Session) : Page × String := (⟨session⟩, view ⟨session⟩ none none)

def setText (p : Page) (text : String) : Page × String := shown (p.session.change text)

/-- Loads an example; a name that none has leaves the page as it is. -/
def loadExample (p : Page) (name : String) : Page × String :=
  match Example.ofName? name with
  | some e => shown (p.session.loadExample e)
  | none => (p, p.view none (some (Example.unknown name)))

def clearBreakpoints (p : Page) : Page :=
  ⟨{ p.session with editor := p.session.editor.clearBreakpoints }⟩

/-- Moves the breakpoint to a row. -/
def setBreakpoint (p : Page) (row : Nat) : Page :=
  ⟨{ p.session with editor := p.session.editor.clearBreakpoints.setBreakpoint row }⟩

def reset (p : Page) : Page × String := shown p.session.reset

/-- Goes on with what a run left. -/
def afterRun : Session × Except DebugError Report → Page × String
  | (d, .ok report) => (⟨d⟩, view ⟨d⟩ (some report.status) none)
  | (d, .error e) => (⟨d⟩, view ⟨d⟩ none (some e.message))

def step (p : Page) (fuel : Nat) : Option (Page × String) := (p.session.step fuel).map afterRun

def run (p : Page) (fuel : Nat) : Option (Page × String) := (p.session.run fuel).map afterRun

def hover (p : Page) (id : NodeId) : Page × String := shown (p.session.hover id)

def unhover (p : Page) : Page × String := shown p.session.unhover

/-- The nodes and links of the tree on display. -/
def tree (p : Page) : String :=
  let view := p.session.treeView
  let node (t : Tree) (id : NodeId) : JsonValue :=
    .object [("id", .number id), ("type", .string (t.kind id).typeName),
      ("range", (p.session.editor.rangeIn .plain (t.span id)).toJson)]
  let edge (parent child : NodeId) : JsonValue :=
    .object [("parent", .number parent), ("child", .number child)]
  JsonValue.compact (.object
    [("nodes", .array (view.tree.elim [] fun t => t.preOrder.map (node t))),
      ("edges", .array (view.edges.map fun (parent, child) => edge parent child)),
      ("error", .null)])

end Page

end ScriptDebugger
