import ScriptDebugger.Source.LineTable
import ScriptDebugger.Syntax.NodeKind

/-!
# Flat syntax trees

A tree is an array of nodes that name their children by number. Once `link`
has set the root, each node also names its parent. A node may be tagged, which
is how a breakpoint marks the statement to stop at.
-/

namespace ScriptDebugger

/-- A node's place in the array. -/
abbrev NodeId := Nat

inductive SourceType where
  | script | module
  deriving DecidableEq, Repr, Inhabited

structure Node where
  kind : NodeKind NodeId
  span : Span
  /-- Lines and columns, if the text was parsed with them. -/
  location : Option SourceLocation
  parent : Option NodeId
  tagged : Bool
  deriving Repr, Inhabited

namespace Node

/-- A node without parent or tag. -/
def fresh (kind : NodeKind NodeId) (span : Span) (location : Option SourceLocation) : Node :=
  { kind, span, location, parent := none, tagged := false }

def startLine (n : Node) : Option Nat := n.location.map (·.start.line)

end Node

structure Tree where
  nodes : Array Node
  root : Option NodeId
  sourceType : SourceType
  deriving Repr, Inhabited

namespace Tree

def empty (sourceType : SourceType) : Tree := { nodes := #[], root := none, sourceType }

def size (t : Tree) : Nat := t.nodes.size

/-- Adds a node, which has the next number. -/
def alloc (t : Tree) (n : Node) : NodeId × Tree := (t.size, { t with nodes := t.nodes.push n })

def node? (t : Tree) (id : NodeId) : Option Node := t.nodes[id]?

/-- What a node is; a number that no node has stands for an empty statement. -/
def kind (t : Tree) (id : NodeId) : NodeKind NodeId :=
  match t.nodes[id]? with
  | some n => n.kind
  | none => .emptyStatement

def span (t : Tree) (id : NodeId) : Span := (t.nodes[id]?.map (·.span)).getD ⟨0, 0⟩

def parent (t : Tree) (id : NodeId) : Option NodeId := t.nodes[id]?.bind (·.parent)

def children (t : Tree) (id : NodeId) : List NodeId := (t.kind id).children

/-- The name of an identifier, or nothing for a node of another kind. -/
def nameOf (t : Tree) (id : NodeId) : String := ((t.kind id).name?).getD ""

/-- Names `parent` as the parent of each of the nodes in `cs`. -/
def setParents (nodes : Array Node) (parent : NodeId) (cs : List NodeId) : Array Node :=
  cs.foldl (fun ns c => ns.modify c fun n => { n with parent := some parent }) nodes

/-- Sets the root and gives every child its parent. -/
def link (t : Tree) (root : NodeId) : Tree :=
  let nodes := (List.range t.nodes.size).foldl
    (fun ns id => setParents ns id (t.children id)) t.nodes
  { t with nodes, root := some root }

/-- The last line that the program covers. -/
def lastLine (t : Tree) : Option Nat := do
  let root ← t.root
  let node ← t.nodes[root]?
  let location ← node.location
  return location.stop.line

/-- Whether a node stands in statement position; a declaration that opens a `for` does not. -/
def isStatement (t : Tree) (id : NodeId) : Bool :=
  (t.kind id).isStatement &&
    match (t.parent id).map t.kind with
    | some (.forStatement init _ _ _) => init != some id
    | _ => true

/-- Climbs at most `fuel` parents to a node in statement position. -/
def enclosingStatement (t : Tree) : (fuel : Nat) → NodeId → Option NodeId
  | 0, _ => none
  | fuel + 1, id =>
    if t.isStatement id then some id else (t.parent id).bind (t.enclosingStatement fuel)

/-- The smallest statement that holds a node, which may be the node itself. -/
def statementOf (t : Tree) (id : NodeId) : Option NodeId := t.enclosingStatement (t.size + 1) id

/-- Takes `fuel` nodes at most off a stack; the children of each go onto it. -/
def preOrderLoop (t : Tree) : (fuel : Nat) → (stack : List NodeId) → List NodeId
  | 0, _ => []
  | _ + 1, [] => []
  | fuel + 1, id :: stack => id :: t.preOrderLoop fuel (t.children id ++ stack)

/-- Takes `fuel` entries at most off a stack. A node comes off twice: the first time it goes back,
marked, with its children above it; the second time it is visited. -/
def postOrderLoop (t : Tree) : (fuel : Nat) → (stack : List (NodeId × Bool)) → List NodeId
  | 0, _ => []
  | _ + 1, [] => []
  | fuel + 1, (id, true) :: stack => id :: t.postOrderLoop fuel stack
  | fuel + 1, (id, false) :: stack =>
    t.postOrderLoop fuel ((t.children id).map (·, false) ++ (id, true) :: stack)

/-- Every node that can be reached from the root, each before its children. -/
def preOrder (t : Tree) : List NodeId := t.root.elim [] fun root => t.preOrderLoop t.size [root]

/-- Every node that can be reached from the root, each after its children. -/
def postOrder (t : Tree) : List NodeId :=
  t.root.elim [] fun root => t.postOrderLoop (2 * t.size) [(root, false)]

/-- Every node in statement position, by number. -/
def statements (t : Tree) : List NodeId := (List.range t.size).filter t.isStatement

/-- The children of each node that has any and can be reached from the root, by number. -/
def childrenMap (t : Tree) : List (NodeId × List NodeId) :=
  let reached := t.preOrder
  (List.range t.size).filterMap fun id =>
    if reached.contains id && !(t.children id).isEmpty then some (id, t.children id) else none

/-- Tags a node; a number that no node has changes nothing. -/
def tag (t : Tree) (id : NodeId) : Tree :=
  { t with nodes := t.nodes.modify id fun n => { n with tagged := true } }

/-- The tagged node with the least number. -/
def tagged? (t : Tree) : Option NodeId := t.nodes.findIdx? (·.tagged)

/-- The same nodes without parents, root and tags. -/
def unlinked (t : Tree) : Tree :=
  { t with nodes := t.nodes.map fun n => { n with parent := none, tagged := false }, root := none }

end Tree

end ScriptDebugger
