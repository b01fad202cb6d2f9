import ScriptDebugger.Source.Span

/-!
# Lines and columns

A line table splits a text after each line feed and answers where a byte
offset stands, and back. Lines count from 1, columns from 0; a column counts
characters, not bytes. The parser and the editor use the same table, so a
node and its marker agree on where a line starts.
-/

namespace ScriptDebugger

/-- A line, counted from 1, and a column in characters, counted from 0. -/
structure LinePosition where
  line : Nat
  column : Nat
  deriving DecidableEq, Repr, Inhabited

/-- Where a node starts and ends. -/
structure SourceLocation where
  start : LinePosition
  stop : LinePosition
  deriving DecidableEq, Repr, Inhabited

/-- The offset of a line's first byte and the characters up to and including its line feed. -/
structure SourceLine where
  start : Nat
  chars : List Char
  deriving Repr, Inhabited

/-- The lines of a text, of which there is at least one, and its length in bytes. -/
structure LineTable where
  lines : List SourceLine
  size : Nat
  deriving Repr, Inhabited

namespace LineTable

/-- Splits after each line feed; `current` holds the line so far, last character first. -/
def splitLines : (start offset : Nat) → (current rest : List Char) → List SourceLine
  | start, _, current, [] => [⟨start, current.reverse⟩]
  | start, offset, current, c :: rest =>
    let next := offset + c.utf8Size
    if c = '\n' then ⟨start, (c :: current).reverse⟩ :: splitLines next next [] rest
    else splitLines start next (c :: current) rest

def ofChars (cs : List Char) : LineTable :=
  { lines := splitLines 0 0 [] cs, size := byteLength cs }

def ofText (text : String) : LineTable := ofChars text.toList

def lineCount (t : LineTable) : Nat := t.lines.length

/-- The last line that starts at or before `offset`, with its number; `number` counts the
lines passed so far. -/
def findLine (offset : Nat) : (number : Nat) → SourceLine → List SourceLine → Nat × SourceLine
  | number, line, [] => (number, line)
  | number, line, next :: rest =>
    if next.start ≤ offset then findLine offset (number + 1) next rest else (number, line)

/-- The line that holds `offset`; an offset past the end stands on the last line. -/
def lineAt (t : LineTable) (offset : Nat) : Nat × SourceLine :=
  match t.lines with
  | [] => (1, ⟨0, []⟩)
  | line :: rest => findLine (min offset t.size) 1 line rest

def lineOfOffset (t : LineTable) (offset : Nat) : Nat := (t.lineAt offset).1

/-- The characters of `cs` that begin within its first `n` bytes. -/
def charsBegun : (n : Nat) → List Char → Nat
  | 0, _ => 0
  | _ + 1, [] => 0
  | n + 1, c :: cs => charsBegun (n + 1 - c.utf8Size) cs + 1

/-- A character that `offset` falls inside counts as begun. -/
def position (t : LineTable) (offset : Nat) : LinePosition :=
  let (number, line) := t.lineAt offset
  { line := number, column := charsBegun (min offset t.size - line.start) line.chars }

/-- Offset of the first byte of a line. -/
def lineStart? (t : LineTable) (line : Nat) : Option Nat :=
  if line = 0 then none else (t.lines[line - 1]?).map (·.start)

/-- A column past the end of its line stands before the line feed, a line past the end at the
end of the text, and line 0 is line 1. -/
def offsetOf (t : LineTable) (p : LinePosition) : Nat :=
  match t.lines[p.line - 1]? with
  | none => t.size
  | some line => line.start + byteLength ((line.chars.takeWhile (· ≠ '\n')).take p.column)

/-- Where both ends of a span stand. -/
def location (t : LineTable) (s : Span) : SourceLocation :=
  { start := t.position s.start, stop := t.position s.stop }

end LineTable

end ScriptDebugger
