import ScriptDebugger.Debugger.Editor
import ScriptDebugger.Source.Span

/-!
# Wrapped texts

A text is run as the body of a function by putting an opening and a line feed
before it and a closing behind it. The offsets of such a run are moved back by
as much as stands before the text, so that they mean the same place in the
editor.
-/

namespace ScriptDebugger

structure Config where
  /-- What the wrapped text begins with, up to its first line feed. -/
  opening : String
  closing : String
  /-- The class of the markers that belong to the debugger. -/
  markerClass : String
  deriving DecidableEq, Repr

namespace Config

def standard : Config :=
  { opening := "(function() \x7b", closing := "\n\x7d);", markerClass := "programCounter" }

instance : Inhabited Config := ⟨standard⟩

def wrap (c : Config) (text : String) : String := c.opening ++ "\n" ++ text ++ c.closing

/-- Length of the opening in bytes. -/
def openingLength (c : Config) : Nat := c.opening.utf8ByteSize

end Config

/-- The text that the offsets of a run count in. -/
inductive OffsetBase where
  /-- The text of the editor. -/
  | plain
  /-- That text behind an opening of so many bytes and a line feed. -/
  | wrapped (openingLength : Nat)
  deriving DecidableEq, Repr, Inhabited

/-- The offset in the editor's text; what stands before that text is its start. -/
def OffsetBase.unshift : OffsetBase → Nat → Nat
  | plain, offset => offset
  | wrapped openingLength, offset => offset - (openingLength + 1)

namespace Editor

/-- Where an offset of a run stands. -/
def positionIn (e : Editor) (base : OffsetBase) (offset : Nat) : Position :=
  e.position (base.unshift offset)

/-- The part of the document that a span of a run covers. -/
def rangeIn (e : Editor) (base : OffsetBase) (s : Span) : TextRange :=
  { start := e.positionIn base s.start, stop := e.positionIn base s.stop }

end Editor

end ScriptDebugger
