import ScriptDebugger.Syntax.Tree

/-!
# Phrases

A phrase is a piece of parsed text with its sub-phrases inside it: the recursive
structure that a flat tree stands for. Numbering the phrases in post-order, each
after its sub-phrases from left to right, gives the flat tree: `Phrase.number`
appends the nodes of a phrase to an array, and `Tree.ofPhrase` links them.
-/

namespace ScriptDebugger

namespace NodeKind

variable {α β : Type}

/-- The first element, and the rest. -/
def pop [Inhabited β] : List β → β × List β
  | [] => (default, [])
  | x :: xs => (x, xs)

/-- The first element if there is an old child to replace, and the rest. -/
def popOption [Inhabited β] : Option α → List β → Option β × List β
  | none, xs => (none, xs)
  | some _, xs => (some (pop xs).1, (pop xs).2)

/-- The same kind of node with other children, which stand in source order and are as many as
the old ones. -/
def fill [Inhabited β] (kind : NodeKind α) (cs : List β) : NodeKind β :=
  let first := (pop cs).1
  let second := (pop (pop cs).2).1
  let third := (pop (pop (pop cs).2).2).1
  match kind with
  | program _ => program cs
  | variableDeclaration k _ => variableDeclaration k cs
  | variableDeclarator _ init => variableDeclarator first (popOption init (pop cs).2).1
  | functionDeclaration _ params _ =>
    let rest := (pop cs).2
    functionDeclaration first (rest.take params.length) (pop (rest.drop params.length)).1
  | functionExpression name params _ =>
    let (name, rest) := popOption name cs
    functionExpression name (rest.take params.length) (pop (rest.drop params.length)).1
  | expressionStatement _ => expressionStatement first
  | blockStatement _ => blockStatement cs
  | ifStatement _ _ alternate =>
    ifStatement first second (popOption alternate (pop (pop cs).2).2).1
  | forStatement init test update _ =>
    let (init, cs) := popOption init cs
    let (test, cs) := popOption test cs
    let (update, cs) := popOption update cs
    forStatement init test update (pop cs).1
  | whileStatement _ _ => whileStatement first second
  | returnStatement argument => returnStatement (popOption argument cs).1
  | throwStatement _ => throwStatement first
  | breakStatement => breakStatement
  | continueStatement => continueStatement
  | debuggerStatement => debuggerStatement
  | emptyStatement => emptyStatement
  | identifier name => identifier name
  | literal value => literal value
  | arrayExpression _ => arrayExpression cs
  | objectExpression _ => objectExpression cs
  | property key _ => property key first
  | unaryExpression op _ => unaryExpression op first
  | updateExpression op before _ => updateExpression op before first
  | binaryExpression op _ _ => binaryExpression op first second
  | logicalExpression op _ _ => logicalExpression op first second
  | assignmentExpression op _ _ => assignmentExpression op first second
  | conditionalExpression _ _ _ => conditionalExpression first second third
  | callExpression _ _ => callExpression first (pop cs).2
  | newExpression _ _ => newExpression first (pop cs).2
  | memberExpression _ _ computed => memberExpression first second computed

theorem sizeOf_option_mem [SizeOf α] {c : α} {o : Option α} (h : c ∈ o.toList) :
    sizeOf c < sizeOf o := by
  cases o with
  | none => simp at h
  | some d =>
    simp only [Option.toList_some, List.mem_singleton] at h
    subst h
    simp only [Option.some.sizeOf_spec]
    omega

/-- A child is smaller than the node it belongs to. -/
theorem sizeOf_child_lt [SizeOf α] {kind : NodeKind α} {c : α} (h : c ∈ kind.children) :
    sizeOf c < sizeOf kind := by
  cases kind <;>
    simp only [children, List.not_mem_nil] at h <;>
    simp only [program.sizeOf_spec, variableDeclaration.sizeOf_spec,
      variableDeclarator.sizeOf_spec, functionDeclaration.sizeOf_spec,
      expressionStatement.sizeOf_spec, blockStatement.sizeOf_spec, ifStatement.sizeOf_spec,
      forStatement.sizeOf_spec, whileStatement.sizeOf_spec, returnStatement.sizeOf_spec,
      throwStatement.sizeOf_spec, arrayExpression.sizeOf_spec, objectExpression.sizeOf_spec,
      property.sizeOf_spec, functionExpression.sizeOf_spec, unaryExpression.sizeOf_spec,
      updateExpression.sizeOf_spec, binaryExpression.sizeOf_spec, logicalExpression.sizeOf_spec,
      assignmentExpression.sizeOf_spec, conditionalExpression.sizeOf_spec,
      callExpression.sizeOf_spec, newExpression.sizeOf_spec, memberExpression.sizeOf_spec] <;>
    grind [→ List.sizeOf_lt_of_mem, → sizeOf_option_mem]

end NodeKind

inductive Phrase where
  | mk (span : Span) (kind : NodeKind Phrase)

namespace Phrase

instance : Inhabited Phrase := ⟨⟨default, .emptyStatement⟩⟩

def span : Phrase → Span
  | ⟨span, _⟩ => span

def kind : Phrase → NodeKind Phrase
  | ⟨_, kind⟩ => kind

def children (p : Phrase) : List Phrase := p.kind.children

theorem sizeOf_kind_lt (p : Phrase) : sizeOf p.kind < sizeOf p := by
  cases p
  simp only [kind, mk.sizeOf_spec]
  omega

theorem sizeOf_lt_of_mem {p c : Phrase} (h : c ∈ p.children) : sizeOf c < sizeOf p :=
  Nat.lt_trans (NodeKind.sizeOf_child_lt h) (sizeOf_kind_lt p)

/-- Appends the nodes of a phrase. Its own node is the last one. -/
def number (locate : Span → Option SourceLocation) (nodes : Array Node) (p : Phrase) : Array Node :=
  let (nodes, ids) := p.children.attach.foldl
    (fun (acc : Array Node × List NodeId) c =>
      let ns := number locate acc.1 c.1
      (ns, (ns.size - 1) :: acc.2))
    (nodes, [])
  nodes.push (.fresh (p.kind.fill ids.reverse) p.span (locate p.span))
  termination_by sizeOf p
  decreasing_by exact sizeOf_lt_of_mem c.2

end Phrase

/-- The tree of a whole program; with a table its nodes carry lines and columns. -/
def Tree.ofPhrase (table? : Option LineTable) (sourceType : SourceType) (p : Phrase) : Tree :=
  let nodes := p.number (fun s => table?.map (·.location s)) #[]
  Tree.link { nodes, root := none, sourceType } (nodes.size - 1)

end ScriptDebugger
