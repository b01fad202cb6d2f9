import ScriptDebugger.Debugger.Config
import ScriptDebugger.Number.Notation
import ScriptDebugger.Syntax.Tree
import ScriptDebugger.Text.Basic

/-!
# Tree views

The syntax tree on display: its links, its outline of one line per node, and
the marker over the node that the pointer is on.
-/

namespace ScriptDebugger

def Literal.outline : Literal → String
  | number x => Number.format x
  | string s => Text.quoted s
  | bool b => if b then "true" else "false"
  | null => "null"

/-- A node's type, the name or value it carries, and where it starts. -/
def Node.outline (n : Node) : String :=
  let carried := match n.kind with
    | .identifier name => " " ++ name
    | .literal value => " " ++ value.outline
    | .property key _ => " " ++ key
    | _ => ""
  let place := n.location.elim "" fun l => s!" @{l.start.line}:{l.start.column}"
  n.kind.typeName ++ carried ++ place

namespace Tree

/-- The lines of a node and, two blanks further in, of those below it, down to `fuel` levels. -/
def outlineFrom (t : Tree) : (fuel depth : Nat) → NodeId → List String
  | 0, _, _ => []
  | fuel + 1, depth, id =>
    let label := (t.node? id).elim "" Node.outline
    (String.ofList (List.replicate (2 * depth) ' ') ++ label ++ "\n") ::
      (t.children id).flatMap (t.outlineFrom fuel (depth + 1))

/-- One line per node. -/
def outline (t : Tree) : String :=
  String.join (t.root.elim [] (t.outlineFrom (t.size + 1) 0))

/-- Every link from a node to a child of it, parents in pre-order. -/
def edges (t : Tree) : List (NodeId × NodeId) :=
  t.preOrder.flatMap fun parent => (t.children parent).map fun child => (parent, child)

end Tree

structure TreeView where
  tree : Option Tree
  /-- The marker that the last hover added. -/
  hoverMarker : Option MarkerId
  deriving Repr, Inhabited

namespace TreeView

def empty : TreeView := { tree := none, hoverMarker := none }

def display (v : TreeView) (t : Tree) : TreeView := { v with tree := some t }

def outline (v : TreeView) : String := v.tree.elim "" Tree.outline

def edges (v : TreeView) : List (NodeId × NodeId) := v.tree.elim [] Tree.edges

def children (v : TreeView) (id : NodeId) : List NodeId := v.tree.elim [] fun t => t.children id

/-- Removes the marker of the last hover, if it is still there. -/
def unhover (v : TreeView) (e : Editor) : TreeView × Editor :=
  ({ v with hoverMarker := none }, v.hoverMarker.elim e e.removeMarker)

/-- Moves the hover to a node; if there is no such node, it just ends. -/
def hover (v : TreeView) (e : Editor) (id : NodeId) (markerClass : String) : TreeView × Editor :=
  let (v, e) := v.unhover e
  match v.tree.bind fun t => t.node? id with
  | none => (v, e)
  | some n =>
    let (e, marker) := e.addMarker (e.rangeIn .plain n.span) markerClass .text false
    ({ v with hoverMarker := some marker }, e)

end TreeView

end ScriptDebugger
