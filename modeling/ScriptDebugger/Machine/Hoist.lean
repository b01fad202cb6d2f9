import ScriptDebugger.Machine.State

/-!
# Declarations bound in advance

Before the statements of a program or function run, its scope binds the names
of all `var` declarations in it, however deep in blocks and loops but not in
functions inside, and the functions declared directly in it. A block that
declares names of its own gets a scope, with its functions bound in advance.
-/

namespace ScriptDebugger

/-- The names that a list of declarators binds. -/
def Tree.declaredNames (t : Tree) (declarators : List NodeId) : List String :=
  declarators.filterMap fun d =>
    match t.kind d with
    | .variableDeclarator name _ => (t.kind name).name?
    | _ => none

/-- The names of `var` declarations in a statement, in source order, down to depth `fuel`. -/
def Tree.varNamesFrom (t : Tree) : (fuel : Nat) → NodeId → List String
  | 0, _ => []
  | fuel + 1, id =>
    match t.kind id with
    | .variableDeclaration .varKind declarators => t.declaredNames declarators
    | .blockStatement body => body.flatMap (t.varNamesFrom fuel)
    | .ifStatement _ consequent alternate =>
      t.varNamesFrom fuel consequent ++ alternate.toList.flatMap (t.varNamesFrom fuel)
    | .forStatement init _ _ body =>
      init.toList.flatMap (t.varNamesFrom fuel) ++ t.varNamesFrom fuel body
    | .whileStatement _ body => t.varNamesFrom fuel body
    | _ => []

def Tree.varNames (t : Tree) (body : List NodeId) : List String :=
  body.flatMap (t.varNamesFrom (t.size + 1))

/-- Whether a block needs a scope of its own. -/
def Tree.declaresLexically (t : Tree) (body : List NodeId) : Bool :=
  body.any fun id =>
    match t.kind id with
    | .variableDeclaration kind _ => kind.isLexical
    | .functionDeclaration .. => true
    | _ => false

/-- The statements of a block. -/
def Tree.blockBody (t : Tree) (id : NodeId) : List NodeId :=
  match t.kind id with
  | .blockStatement body => body
  | _ => []

namespace Setting

/-- The source text of a node. -/
def textOf (e : Setting) (id : NodeId) : String := (e.tree.span id).slice e.source

/-- The function of node `node`, closed over `scope`. -/
def closure (e : Setting) (node : NodeId) (name : Option String) (params : List NodeId)
    (body : NodeId) (scope : ScopeId) : Closure :=
  { name, params := params.filterMap fun p => (e.tree.kind p).name?, body, scope
    span := e.tree.span node, text := e.textOf node }

end Setting

namespace Store

/-- Binds a name without a value, unless the scope binds it already. -/
def declareVar (s : Store) (scope : ScopeId) (name : String) : Store :=
  if (s.scope scope).binds name then s else s.define scope name .undefined true

/-- Binds the function that a statement declares, if it declares one. -/
def declareFunction (e : Setting) (scope : ScopeId) (s : Store) (id : NodeId) : Store :=
  match e.tree.kind id with
  | .functionDeclaration nameId params body =>
    let name := e.tree.nameOf nameId
    let (s, f) := s.newClosure (e.closure id (some name) params body scope)
    s.define scope name f true
  | _ => s

/-- Binds the functions declared directly in `body`. -/
def hoistFunctions (e : Setting) (s : Store) (scope : ScopeId) (body : List NodeId) : Store :=
  body.foldl (declareFunction e scope) s

/-- Binds what the body of a program or function declares in advance. -/
def hoist (e : Setting) (s : Store) (scope : ScopeId) (body : List NodeId) : Store :=
  hoistFunctions e ((e.tree.varNames body).foldl (fun s name => s.declareVar scope name) s)
    scope body

end Store

end ScriptDebugger
