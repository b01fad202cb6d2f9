import ScriptDebugger.Debugger.Session
import ScriptDebugger.Text.Json

/-!
# Displays as JSON

The members a reader of the display finds, in the order they are written.
-/

namespace ScriptDebugger

def Position.toJson (p : Position) : JsonValue :=
  .object [("row", .number p.row), ("column", .number p.column)]

def TextRange.toJson (r : TextRange) : JsonValue :=
  .object [("start", r.start.toJson), ("end", r.stop.toJson)]

def Marker.toJson (m : Marker) : JsonValue :=
  .object [("id", .number m.id), ("range", m.range.toJson), ("class", .string m.className),
    ("kind", .string m.kind.name), ("in_front", .bool m.inFront)]

def VariableEntry.toJson (e : VariableEntry) : JsonValue :=
  .object [("name", .ofOption .string e.name), ("value", .string e.value)]

def VariableList.toJson (l : VariableList) : JsonValue := .array (l.entries.map (·.toJson))

def Headline.toJson : Headline → JsonValue
  | exception name message =>
    .object [("kind", .string "exception"), ("name", .string name), ("message", .string message)]
  | debuggerStatement => .object [("kind", .string "debuggerStatement")]

def Banner.toJson (b : Banner) : JsonValue :=
  .object [("visible", .bool b.visible), ("headline", .ofOption Headline.toJson b.headline),
    ("trace", .array (b.trace.map .string))]

def RunStatus.name : RunStatus → String
  | completed => "completed"
  | halted => "halted"
  | raised => "raised"
  | noScope => "noScope"

namespace Snapshot

def members (s : Snapshot) : List (String × JsonValue) :=
  [("variables", s.variableList.toJson), ("banner", s.banner.toJson),
    ("markers", .array (s.markers.map (·.toJson))), ("output", .string s.output)]

def toJson (s : Snapshot) : JsonValue := .object s.members

end Snapshot

end ScriptDebugger
