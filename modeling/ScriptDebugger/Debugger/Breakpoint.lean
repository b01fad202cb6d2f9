import ScriptDebugger.Syntax.Tree

/-!
# Breakpoints

A breakpoint is set on a row, and what can be stopped at is a statement.
`Tree.locate` finds the statement for a line: the one that holds the first
node, children before parents, of the first line from there on on which a node
starts. `Tree.bind` tags it.
-/

namespace ScriptDebugger

namespace NodeKind

def isProgram {α : Type} : NodeKind α → Bool
  | program _ => true
  | _ => false

end NodeKind

namespace Tree

/-- Whether a node other than the program starts on `line`. -/
def startsOn (t : Tree) (line : Nat) (id : NodeId) : Bool :=
  (t.node? id).any fun n => !n.kind.isProgram && n.startLine == some line

/-- The first node in post-order, the program apart, that starts on the first of `lines` to have
one. -/
def firstStarting? (t : Tree) (lines : List Nat) : Option NodeId :=
  let order := t.postOrder
  lines.findSome? fun line => order.find? (t.startsOn line)

/-- The statement for a line, counted from 1; none without locations or past the last node. -/
def locate (t : Tree) (line : Nat) : Option NodeId := do
  let last ← t.lastLine
  let first := max line 1
  let id ← t.firstStarting? (List.range' first (last + 1 - first))
  t.statementOf id

end Tree

/-- What a breakpoint comes to: nothing to stop at, or the statement that was tagged. -/
inductive StopPoint where
  | nowhere
  | statement (id : NodeId)
  deriving DecidableEq, Repr, Inhabited

namespace StopPoint

def node? : StopPoint → Option NodeId
  | nowhere => none
  | statement id => some id

/-- Whether a run stops before a node. -/
def halts : StopPoint → Node → Bool
  | nowhere, _ => false
  | statement _, n => n.tagged

end StopPoint

/-- Tags the statement for a row, counted from 0. -/
def Tree.bind (t : Tree) (row : Option Nat) : Tree × StopPoint :=
  match row.bind fun row => t.locate (row + 1) with
  | none => (t, .nowhere)
  | some id => (t.tag id, .statement id)

end ScriptDebugger
