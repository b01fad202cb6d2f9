import ScriptDebugger.Command.Options
import ScriptDebugger.Debugger.SnapshotJson
import ScriptDebugger.Text.Basic

/-!
# Texts that the commands print

The display after a run as text or as JSON, the outline of a syntax tree, and a
source with numbered lines.
-/

namespace ScriptDebugger

/-- How a command executes a script. -/
inductive Mode where
  /-- As it stands, up to the breakpoint. -/
  | step
  /-- As the body of a function. -/
  | run
  deriving DecidableEq, Repr, Inhabited

def RunStatus.words : RunStatus → String
  | completed => "completed"
  | halted => "halted"
  | raised => "raised"
  | noScope => "no scope"

/-- The lines of a text, each on a line of its own behind two blanks. -/
def indentLines (text : String) : String :=
  String.join ((Text.lines text.toList).map fun line => "  " ++ String.ofList line ++ "\n")

/-- The display as text; banner and output are left out when there is nothing to say. -/
def Snapshot.report (s : Snapshot) (status : RunStatus) : String :=
  s!"status: {status.words}\n" ++
    "variables:\n" ++ indentLines s.variableList.text ++
    (if s.banner.visible then "exception:\n" ++ indentLines s.banner.text else "") ++
    (if s.output.isEmpty then "" else "output:\n" ++ indentLines s.output)

/-- The display as JSON. -/
def Snapshot.reportJson (s : Snapshot) (status : RunStatus) : String :=
  JsonValue.pretty (.object (("status", .string status.name) :: s.members))

/-- Runs a source and shows the display it leaves. -/
def debugSource (fuel : Nat) (source : String) (mode : Mode) (options : DebugOptions) :
    Option (Except DebugError String) :=
  let editor := Editor.ofText source
  let editor := options.breakpointLine.elim editor fun line => editor.setBreakpoint (line - 1)
  let d := Session.start editor .standard defaultMaxDepth
  let ended := match mode with
    | .step => d.step fuel
    | .run => d.run fuel
  ended.map fun (d, result) => result.map fun report =>
    if options.json then d.snapshot.reportJson report.status
    else d.snapshot.report report.status

/-- The outline of a source's syntax tree. -/
def outlineSource (source : String) : Except DebugError String :=
  match (Session.ofText source).displayTree with
  | .ok d => .ok d.treeView.outline
  | .error e => .error (.parse e)

/-- The source of an example. -/
def exampleSource (name : String) : Except String String :=
  match Example.ofName? name with
  | some e => .ok e.source
  | none => .error s!"{Example.unknown name}; available: {Example.names}"

/-- A source with its lines numbered from 1, the numbers set to the right. -/
def numbered (source : String) : String :=
  let lines := Text.lines source.toList
  let width := (toString (max lines.length 1)).length
  let row (i : Nat) (line : List Char) : String :=
    let number := toString (i + 1)
    String.ofList (List.replicate (width - number.length) ' ') ++ number ++ " | " ++
      String.ofList line
  String.intercalate "\n" (lines.mapIdx row)

end ScriptDebugger
