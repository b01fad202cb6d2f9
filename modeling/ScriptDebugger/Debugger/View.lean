import ScriptDebugger.Debugger.Config
import ScriptDebugger.Machine.Frame
import ScriptDebugger.Text.Basic
import ScriptDebugger.Value.Convert

/-!
# Views

What the debugger shows of a run: the list of variables, and a banner for an
exception or a `debugger` statement with one line per call frame. A variable is
shown by the text of its value, except that a function shows no more than its
first line, up to its body. The frames at a stop are shown twice over: as the
lines of the banner and as markers in the editor, the innermost frame first. Line
and marker of a frame come from one range, so they name the same place.
-/

namespace ScriptDebugger

/-- A row of the variable list. A row without a name is a remark. -/
structure VariableEntry where
  name : Option String
  value : String
  deriving DecidableEq, Repr, Inhabited

structure VariableList where
  entries : List VariableEntry
  deriving DecidableEq, Repr, Inhabited

namespace VariableList

def empty : VariableList := ⟨[]⟩

/-- Adds a row at the end. -/
def add (l : VariableList) (name : Option String) (value : String) : VariableList :=
  ⟨l.entries ++ [⟨name, value⟩]⟩

def contains (l : VariableList) (name : String) : Bool :=
  l.entries.any fun e => e.name == some name

/-- Adds a row unless its name is listed; a remark is always added. -/
def set (l : VariableList) (name : Option String) (value : String) : VariableList :=
  if name.any l.contains then l else l.add name value

def get? (l : VariableList) (name : String) : Option String :=
  (l.entries.find? fun e => e.name == some name).map (·.value)

/-- One line per row. -/
def text (l : VariableList) : String :=
  String.join (l.entries.map fun e =>
    match e.name with
    | some name => s!"{name} = {e.value}\n"
    | none => s!"({e.value})\n")

end VariableList

/-- The first line of a banner. -/
inductive Headline where
  | exception (name message : String)
  | debuggerStatement
  deriving DecidableEq, Repr, Inhabited

def Headline.text : Headline → String
  | exception name message => s!"{name}: {message}"
  | debuggerStatement => "Stopped execution: Debugger statement"

structure Banner where
  visible : Bool
  headline : Option Headline
  /-- One line per frame, innermost first. -/
  trace : List String
  deriving DecidableEq, Repr, Inhabited

namespace Banner

def hidden : Banner := { visible := false, headline := none, trace := [] }

def shown (headline : Headline) : Banner :=
  { visible := true, headline := some headline, trace := [] }

def pushTrace (b : Banner) (line : String) : Banner := { b with trace := b.trace ++ [line] }

/-- The headline and the trace, a line each; nothing while hidden. -/
def text (b : Banner) : String :=
  if b.visible then
    String.intercalate "\n" ((b.headline.elim "" Headline.text) :: b.trace)
  else ""

end Banner

/-- The last opening brace of a line and what stands before it, if there is one. -/
def throughLastBrace? (line : List Char) : Option (List Char) :=
  match line.reverse.dropWhile (· ≠ '\x7b') with
  | [] => none
  | cs => some cs.reverse

/-- A function's text with the body left out. -/
def elideBody (text : String) : String :=
  let line := (Text.lines text.toList).headD []
  let head := (throughLastBrace? line).getD (Text.trimEnd line)
  String.ofList head ++ " ... \x7d"

namespace Store

/-- How the variable list shows a value. -/
def render (s : Store) (v : Value) : String :=
  match v with
  | .function _ | .builtin _ => elideBody (s.display v)
  | _ => s.display v

/-- Lists the bindings of a scope and those around it, short of `root`; of two bindings of one
name the inner one is shown. -/
def displayScope (s : Store) (list : VariableList) (scope root : ScopeId) : VariableList :=
  ((s.chain scope).takeWhile (· ≠ root)).foldl
    (fun list id => (s.scope id).bindings.foldl
      (fun list b => list.set (some b.name) (s.render b.value)) list)
    list

end Store

/-- The line for a frame at a node of some type; a line counts from 1 here. -/
def traceLine (typeName : String) (range : TextRange) : String :=
  s!"at: {typeName} @ line {range.start.row + 1}, column {range.start.column}"

/-- The type of a frame's node and the part of the document it covers. -/
def Editor.placeOf (e : Editor) (t : Tree) (base : OffsetBase) (f : Frame) : String × TextRange :=
  ((t.kind f.pc).typeName, e.rangeIn base (t.span f.pc))

/-- Shows a headline and the frames of a chain; gives the numbers of the markers, too. -/
def Editor.showTrace (e : Editor) (t : Tree) (frames : FrameChain) (base : OffsetBase)
    (headline : Headline) (markerClass : String) : Editor × Banner × List MarkerId :=
  let places := (frames.walk frames.length).map (e.placeOf t base)
  let (e, ids) := e.addMarkers (places.map (·.2)) markerClass .text false
  let trace := places.map fun (typeName, range) => traceLine typeName range
  (e, { Banner.shown headline with trace }, ids)

end ScriptDebugger
