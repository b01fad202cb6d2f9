import ScriptDebugger.Source.LineTable

/-!
# Editors

The document a session works on: its text, the rows with a breakpoint, and the
markers drawn over it. A marker is numbered when it is added, and no number is
used twice, so a number kept after its marker is gone names nothing.

Rows and columns count from 0 and columns count characters.
-/

namespace ScriptDebugger

structure Position where
  row : Nat
  column : Nat
  deriving DecidableEq, Repr, Inhabited

/-- The part of a document between two positions. -/
structure TextRange where
  start : Position
  stop : Position
  deriving DecidableEq, Repr, Inhabited

/-- How a marker is drawn. -/
inductive MarkerKind where
  | text | fullLine | screenLine
  deriving DecidableEq, Repr, Inhabited

namespace MarkerKind

def all : List MarkerKind := [text, fullLine, screenLine]

def name : MarkerKind → String
  | text => "text"
  | fullLine => "fullLine"
  | screenLine => "screenLine"

end MarkerKind

abbrev MarkerId := Nat

structure Marker where
  id : MarkerId
  range : TextRange
  className : String
  kind : MarkerKind
  inFront : Bool
  deriving DecidableEq, Repr, Inhabited

structure Editor where
  text : String
  lines : LineTable
  /-- Rows with a breakpoint, ascending. -/
  breakpoints : List Nat
  /-- Markers in the order of their numbers. -/
  markers : List Marker
  /-- The number of the next marker. -/
  nextMarker : MarkerId
  deriving Repr, Inhabited

/-- Adds a number to an ascending list that may hold it already. -/
def insertAscending (n : Nat) : List Nat → List Nat
  | [] => [n]
  | m :: ms =>
    if n < m then n :: m :: ms
    else if n = m then m :: ms
    else m :: insertAscending n ms

namespace Editor

/-- A document without breakpoints and markers. -/
def ofText (text : String) : Editor :=
  { text, lines := .ofText text, breakpoints := [], markers := [], nextMarker := 0 }

/-- Replaces the text; breakpoints and markers stay. -/
def setText (e : Editor) (text : String) : Editor := { e with text, lines := .ofText text }

def setBreakpoint (e : Editor) (row : Nat) : Editor :=
  { e with breakpoints := insertAscending row e.breakpoints }

def clearBreakpoint (e : Editor) (row : Nat) : Editor :=
  { e with breakpoints := e.breakpoints.filter (· ≠ row) }

def clearBreakpoints (e : Editor) : Editor := { e with breakpoints := [] }

/-- The first row with a breakpoint. -/
def breakpointRow? (e : Editor) : Option Nat := e.breakpoints.head?

/-- Where a byte offset stands; one past the end stands at the end. -/
def position (e : Editor) (offset : Nat) : Position :=
  let p := e.lines.position offset
  { row := p.line - 1, column := p.column }

/-- Adds a marker for each range, in order, and gives their numbers. -/
def addMarkers (e : Editor) (ranges : List TextRange) (className : String) (kind : MarkerKind)
    (inFront : Bool) : Editor × List MarkerId :=
  let ids := List.range' e.nextMarker ranges.length
  let added := ids.zipWith (fun id range => { id, range, className, kind, inFront }) ranges
  ({ e with markers := e.markers ++ added, nextMarker := e.nextMarker + ranges.length }, ids)

/-- Adds a marker and gives its number. -/
def addMarker (e : Editor) (range : TextRange) (className : String) (kind : MarkerKind)
    (inFront : Bool) : Editor × MarkerId :=
  ((e.addMarkers [range] className kind inFront).1, e.nextMarker)

/-- Removes a marker; a number that no marker has changes nothing. -/
def removeMarker (e : Editor) (id : MarkerId) : Editor :=
  { e with markers := e.markers.filter fun m => m.id ≠ id }

/-- Removes every marker of a class. -/
def removeClass (e : Editor) (className : String) : Editor :=
  { e with markers := e.markers.filter fun m => m.className ≠ className }

end Editor

end ScriptDebugger
