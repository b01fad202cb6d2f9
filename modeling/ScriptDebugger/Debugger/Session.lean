import ScriptDebugger.Debugger.Breakpoint
import ScriptDebugger.Debugger.Example
import ScriptDebugger.Debugger.Outline
import ScriptDebugger.Debugger.View
import ScriptDebugger.Machine.Interpreter

/-!
# Debugger sessions

A session holds an editor and what is on display beside it. `Session.step`
executes the text as it stands, up to the breakpoint; `Session.run` executes it
as the body of a function, where `debugger` statements always stop it. Each clears
what an earlier one left before it shows its own outcome; the one step that
comes before is that `run` parses the text for the tree view, and a text that
does not parse leaves the old display in place.

Both take a bound on the number of steps of the script and give nothing if it
does not suffice.
-/

namespace ScriptDebugger

/-- How a script ended. -/
inductive RunStatus where
  | completed
  /-- Stopped at the breakpoint or at a `debugger` statement. -/
  | halted
  | raised
  /-- Nothing left a scope to show. -/
  | noScope
  deriving DecidableEq, Repr, Inhabited

/-- Why a script could not be run or shown. -/
inductive DebugError where
  | parse (e : ParseError)
  | wrap (e : CallableError)
  | frames (e : FrameChain.ChainError)
  deriving Repr, Inhabited

def DebugError.message : DebugError → String
  | parse e => s!"parse error: {e.message}"
  | wrap e => e.message
  | frames e => s!"invalid frame chain: {e.message}"

structure Report where
  status : RunStatus
  /-- What the script wrote. -/
  output : String
  deriving DecidableEq, Repr, Inhabited

/-- Everything on display. -/
structure Snapshot where
  variableList : VariableList
  banner : Banner
  markers : List Marker
  output : String
  deriving DecidableEq, Repr, Inhabited

structure Session where
  editor : Editor
  config : Config
  maxDepth : Nat
  /-- Whether `debugger` statements stop a step; they always stop a run. -/
  suspends : Bool
  variableList : VariableList
  banner : Banner
  treeView : TreeView
  output : String
  deriving Inhabited

namespace Session

/-- Leaves neither variables, banner and output nor markers of the debugger. -/
def clear (d : Session) : Session :=
  { d with
    editor := d.editor.removeClass d.config.markerClass
    variableList := .empty
    banner := .hidden
    output := "" }

/-- Back to where nothing has been run. -/
def reset (d : Session) : Session :=
  let d := d.clear
  { d with variableList := d.variableList.add none "not run yet" }

def start (editor : Editor) (config : Config) (maxDepth : Nat) (suspends : Bool := false) :
    Session :=
  reset { editor, config, maxDepth, suspends, variableList := .empty, banner := .hidden
          treeView := .empty, output := "" }

/-- A session over a text with the usual settings. -/
def ofText (text : String) : Session := start (.ofText text) .standard defaultMaxDepth

def snapshot (d : Session) : Snapshot :=
  { variableList := d.variableList, banner := d.banner, markers := d.editor.markers
    output := d.output }

/-- Takes over a new text. -/
def change (d : Session) (text : String) : Session :=
  reset { d with editor := d.editor.setText text }

/-- Replaces the text by an example and drops all breakpoints. -/
def loadExample (d : Session) (e : Example) : Session :=
  reset { d with editor := (d.editor.setText e.source).clearBreakpoints }

/-- Parses the text into the tree view. -/
def displayTree (d : Session) : Except ParseError Session :=
  (Tree.parse d.editor.text).map fun t => { d with treeView := d.treeView.display t }

def hover (d : Session) (id : NodeId) : Session :=
  let (treeView, editor) := d.treeView.hover d.editor id d.config.markerClass
  { d with treeView, editor }

def unhover (d : Session) : Session :=
  let (treeView, editor) := d.treeView.unhover d.editor
  { d with treeView, editor }

/-- Shows the frames at a stop. -/
def showFrames (d : Session) (t : Tree) (frames : FrameChain) (base : OffsetBase)
    (headline : Headline) : Except DebugError Session :=
  match frames.validate with
  | .error e => .error (.frames e)
  | .ok () =>
    let (editor, banner, _) := d.editor.showTrace t frames base headline d.config.markerClass
    .ok { d with editor, banner }

/-- Shows that a script left no scope. -/
def showNoScope (d : Session) : Session :=
  { d with variableList := d.variableList.set none "no exception triggered" }

/-- Shows the variables of the scope that an outcome left and the frames of a stop. -/
def showOutcome (d : Session) (i : Interpreter) (outcome : Outcome) (base : OffsetBase) :
    Session × Except DebugError RunStatus :=
  match outcome.scope? with
  | none => (d.showNoScope, .ok .noScope)
  | some scope =>
    let d := { d with variableList := i.store.displayScope d.variableList scope globalScope }
    let stopped (frames : FrameChain) (headline : Headline) (status : RunStatus) :
        Session × Except DebugError RunStatus :=
      match d.showFrames i.tree frames base headline with
      | .ok d => (d, .ok status)
      | .error e => (d, .error e)
    match outcome with
    | .completed _ => (d, .ok .completed)
    | .halted _ frames => stopped frames .debuggerStatement .halted
    | .raised e frames => stopped frames (.exception e.name e.message) .raised

/-- Takes over what the script wrote, unless its outcome could not be shown. -/
def finish (output : String) (r : Session × Except DebugError RunStatus) :
    Session × Except DebugError Report :=
  match r with
  | (d, .ok status) => ({ d with output }, .ok { status, output })
  | (d, .error e) => (d, .error e)

/-- Executes the text as it stands, up to the breakpoint or to the end. -/
def step (d : Session) (fuel : Nat) : Option (Session × Except DebugError Report) :=
  let d := d.clear
  match Tree.parse d.editor.text with
  | .error e => some (d, .error (.parse e))
  | .ok tree =>
    let (tree, stop) := tree.bind d.editor.breakpointRow?
    let (i, scope) := (Interpreter.ofTree tree d.editor.text d.suspends d.maxDepth).newProgramScope
    (i.runProgram fuel scope stop.halts).map fun r =>
      finish r.output (d.showOutcome r.interpreter r.outcome .plain)

/-- Runs a callable and shows how it ended. -/
def runCallable (d : Session) (fuel : Nat) (c : Callable) :
    Option (Session × Except DebugError Report) :=
  (c.run fuel).map fun r =>
    finish r.output <|
      match r.outcome.toOutcome? with
      | none => (d.showNoScope, .ok .noScope)
      | some outcome => d.showOutcome r.interpreter outcome (.wrapped d.config.openingLength)

/-- Executes the text as the body of a function. -/
def run (d : Session) (fuel : Nat) : Option (Session × Except DebugError Report) :=
  match d.displayTree with
  | .error e => some (d, .error (.parse e))
  | .ok d =>
    let d := d.clear
    match Interpreter.callableOfText fuel d.maxDepth (d.config.wrap d.editor.text) with
    | none => none
    | some (.error e) => some (d, .error (.wrap e))
    | some (.ok c) => d.runCallable fuel c

end Session

end ScriptDebugger
