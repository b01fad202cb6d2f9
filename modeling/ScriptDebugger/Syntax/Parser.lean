import ScriptDebugger.Syntax.Grammar
import ScriptDebugger.Syntax.Tree
import ScriptDebugger.Token.Stream

/-!
# Parsing

A parser reads tokens and allocates the nodes of a flat tree on the way, each
after its children. There is one function for each kind of phrase: it takes a
bound on the depth of the search (the number of calls below it) and the parser,
and gives the number of the node that it has allocated last and the parser after
it. Binary and logical operators are read by precedence: the operators of level
`level` and above join operands into the longest expression possible, to the
left.
-/

namespace ScriptDebugger

open Grammar

/-- A parser over the tokens that are left, with the nodes that it has allocated. -/
structure Parser where
  cursor : Cursor
  tree : Tree
  /-- Where lines begin, if nodes are to carry lines and columns. -/
  table? : Option LineTable

namespace Parser

/-- The same parser at another token. -/
def moveTo (p : Parser) (cursor : Cursor) : Parser := { p with cursor }

def advance (p : Parser) : Parser := p.moveTo p.cursor.advance

def expect (p : Parser) (punct : Punct) : Result Parser := (p.cursor.expect punct).map p.moveTo

/-- Lines and columns of a span, if they are asked for. -/
def locate (p : Parser) (s : Span) : Option SourceLocation := p.table?.map (·.location s)

/-- Allocates a node; its children have been allocated before. -/
def alloc (p : Parser) (kind : NodeKind NodeId) (span : Span) : NodeId × Parser :=
  let (id, tree) := p.tree.alloc (.fresh kind span (p.locate span))
  (id, { p with tree })

/-- From the start of a node to the end of the last consumed token. -/
def spanFrom (p : Parser) (id : NodeId) : Span := p.cursor.spanFrom (p.tree.span id)

/-- Only an identifier or a member access can be assigned to. -/
def checkTarget (p : Parser) (target : NodeId) : Result Unit :=
  match p.tree.kind target with
  | .identifier _ | .memberExpression .. => .ok ()
  | _ => .error ⟨.invalidAssignmentTarget, p.tree.span target⟩

/-- The name that a declaration or a parameter binds. -/
def bindingIdentifier (p : Parser) : Result (NodeId × Parser) :=
  match p.cursor.kind with
  | .ident name => .ok (p.advance.alloc (.identifier name) p.cursor.span)
  | _ => .error (p.cursor.unexpected .identifier)

/-- The name after a point; a reserved word will do. -/
def propertyName (p : Parser) : Result (NodeId × Parser) :=
  match p.cursor.kind with
  | .ident name | .reserved name => .ok (p.advance.alloc (.identifier name) p.cursor.span)
  | _ => .error (p.cursor.unexpected .propertyName)

/-- The end of a statement. -/
def endStatement (p : Parser) : Result Parser := (Grammar.endStatement p.cursor).map p.moveTo

/-- A list of parameters up to its closing parenthesis, which is left; the last one may be
followed by a comma. -/
def parameters : (depth : Nat) → Parser → Result (List NodeId × Parser)
  | 0, p => .error (tooDeep p.cursor)
  | depth + 1, p =>
    if p.cursor.at? .rightParen then .ok ([], p)
    else do
      let (name, p) ← p.bindingIdentifier
      if p.cursor.at? .comma then
        let (names, p) ← parameters depth p.advance
        .ok (name :: names, p)
      else .ok ([name], p)

mutual

/-- An assignment, a conditional or anything that binds tighter. -/
def assignment : (depth : Nat) → Parser → Result (NodeId × Parser)
  | 0, p => .error (tooDeep p.cursor)
  | depth + 1, p => do
    let (left, p) ← conditional depth p
    match assignOp? p.cursor.kind with
    | none => .ok (left, p)
    | some op =>
      p.checkTarget left
      let (right, p) ← assignment depth p.advance
      .ok (p.alloc (.assignmentExpression op left right)
        ((p.tree.span left).merge (p.tree.span right)))
  termination_by structural depth => depth

def conditional : (depth : Nat) → Parser → Result (NodeId × Parser)
  | 0, p => .error (tooDeep p.cursor)
  | depth + 1, p => do
    let (test, p) ← operators depth 1 p
    if p.cursor.at? .question then
      let (consequent, p) ← assignment depth p.advance
      let p ← p.expect .colon
      let (alternate, p) ← assignment depth p
      .ok (p.alloc (.conditionalExpression test consequent alternate)
        ((p.tree.span test).merge (p.tree.span alternate)))
    else .ok (test, p)
  termination_by structural depth => depth

/-- Operands joined by operators of level `level` and above. -/
def operators : (depth level : Nat) → Parser → Result (NodeId × Parser)
  | 0, _, p => .error (tooDeep p.cursor)
  | depth + 1, level, p => do
    let (left, p) ← unary depth p
    operatorTail depth level left p
  termination_by structural depth => depth

/-- Joins further operands to `left`. -/
def operatorTail : (depth level : Nat) → NodeId → Parser → Result (NodeId × Parser)
  | 0, _, _, p => .error (tooDeep p.cursor)
  | depth + 1, level, left, p =>
    match infix? p.cursor.kind with
    | none => .ok (left, p)
    | some op =>
      if op.level < level then .ok (left, p)
      else do
        let (right, p) ← operators depth (op.level + 1) p.advance
        let (joined, p) :=
          p.alloc (op.kind left right) ((p.tree.span left).merge (p.tree.span right))
        operatorTail depth level joined p
  termination_by structural depth => depth

def unary : (depth : Nat) → Parser → Result (NodeId × Parser)
  | 0, p => .error (tooDeep p.cursor)
  | depth + 1, p =>
    let start := p.cursor.span
    match unaryOp? p.cursor.kind with
    | some op => do
      let (argument, p) ← unary depth p.advance
      .ok (p.alloc (.unaryExpression op argument) (start.merge (p.tree.span argument)))
    | none =>
      match updateOp? p.cursor.kind with
      | some op => do
        let (argument, p) ← unary depth p.advance
        p.checkTarget argument
        .ok (p.alloc (.updateExpression op true argument) (start.merge (p.tree.span argument)))
      | none => postfixed depth p
  termination_by structural depth => depth

/-- An operand with `++` or `--` behind it, on the same line, if there is one. -/
def postfixed : (depth : Nat) → Parser → Result (NodeId × Parser)
  | 0, p => .error (tooDeep p.cursor)
  | depth + 1, p => do
    let (callee, p) ←
      if p.cursor.atKeyword? .newWord then construction depth p else primary depth p
    let (argument, p) ← accesses depth true callee p
    if p.cursor.newlineBefore then .ok (argument, p)
    else
      match updateOp? p.cursor.kind with
      | none => .ok (argument, p)
      | some op =>
        p.checkTarget argument
        .ok (p.advance.alloc (.updateExpression op false argument)
          ((p.tree.span argument).merge p.cursor.span))
  termination_by structural depth => depth

/-- Member accesses, and calls if `calls` is set, one after another. -/
def accesses : (depth : Nat) → (calls : Bool) → NodeId → Parser → Result (NodeId × Parser)
  | 0, _, _, p => .error (tooDeep p.cursor)
  | depth + 1, calls, callee, p =>
    if calls && p.cursor.at? .leftParen then do
      let (arguments, p) ← elements depth .rightParen p.advance
      let p ← p.expect .rightParen
      let (call, p) := p.alloc (.callExpression callee arguments) (p.spanFrom callee)
      accesses depth calls call p
    else if p.cursor.at? .dot then do
      let (name, p) ← p.advance.propertyName
      let (access, p) := p.alloc (.memberExpression callee name false) (p.spanFrom callee)
      accesses depth calls access p
    else if p.cursor.at? .leftBracket then do
      let (key, p) ← assignment depth p.advance
      let p ← p.expect .rightBracket
      let (access, p) := p.alloc (.memberExpression callee key true) (p.spanFrom callee)
      accesses depth calls access p
    else .ok (callee, p)
  termination_by structural depth => depth

/-- The word `new` and what it constructs; the arguments may be missing. -/
def construction : (depth : Nat) → Parser → Result (NodeId × Parser)
  | 0, p => .error (tooDeep p.cursor)
  | depth + 1, p => do
    let start := p.cursor.span
    let p := p.advance
    let (callee, p) ←
      if p.cursor.atKeyword? .newWord then construction depth p else primary depth p
    let (callee, p) ← accesses depth false callee p
    if p.cursor.at? .leftParen then
      let (arguments, p) ← elements depth .rightParen p.advance
      let p ← p.expect .rightParen
      .ok (p.alloc (.newExpression callee arguments) (p.cursor.spanFrom start))
    else .ok (p.alloc (.newExpression callee []) (p.cursor.spanFrom start))
  termination_by structural depth => depth

/-- Expressions separated by commas up to `closer`, which is left; the last one may be followed
by a comma. -/
def elements : (depth : Nat) → (closer : Punct) → Parser → Result (List NodeId × Parser)
  | 0, _, p => .error (tooDeep p.cursor)
  | depth + 1, closer, p =>
    if p.cursor.at? closer then .ok ([], p)
    else do
      let (element, p) ← assignment depth p
      if p.cursor.at? .comma then
        let (rest, p) ← elements depth closer p.advance
        .ok (element :: rest, p)
      else .ok ([element], p)
  termination_by structural depth => depth

/-- The properties of an object literal up to its closing brace, which is left. -/
def properties : (depth : Nat) → Parser → Result (List NodeId × Parser)
  | 0, p => .error (tooDeep p.cursor)
  | depth + 1, p =>
    if p.cursor.at? .rightBrace then .ok ([], p)
    else do
      let start := p.cursor.span
      let (key, c) ← propertyKey p.cursor
      let p ← (p.moveTo c).expect .colon
      let (value, p) ← assignment depth p
      let (property, p) := p.alloc (.property key value) (start.merge (p.tree.span value))
      if p.cursor.at? .comma then
        let (rest, p) ← properties depth p.advance
        .ok (property :: rest, p)
      else .ok ([property], p)
  termination_by structural depth => depth

def primary : (depth : Nat) → Parser → Result (NodeId × Parser)
  | 0, p => .error (tooDeep p.cursor)
  | depth + 1, p =>
    let start := p.cursor.span
    match p.cursor.kind with
    | .number x => .ok (p.advance.alloc (.literal (.number x)) start)
    | .string s => .ok (p.advance.alloc (.literal (.string s)) start)
    | .keyword .trueWord => .ok (p.advance.alloc (.literal (.bool true)) start)
    | .keyword .falseWord => .ok (p.advance.alloc (.literal (.bool false)) start)
    | .keyword .nullWord => .ok (p.advance.alloc (.literal .null) start)
    | .ident name => do
      refuseArrow p.advance.cursor
      .ok (p.advance.alloc (.identifier name) start)
    | .punct .leftParen => do
      let (inner, p) ← assignment depth p.advance
      let p ← p.expect .rightParen
      refuseArrow p.cursor
      .ok (inner, p)
    | .punct .leftBracket => do
      let (items, p) ← elements depth .rightBracket p.advance
      let p ← p.expect .rightBracket
      .ok (p.alloc (.arrayExpression items) (p.cursor.spanFrom start))
    | .punct .leftBrace => do
      let (items, p) ← properties depth p.advance
      let p ← p.expect .rightBrace
      .ok (p.alloc (.objectExpression items) (p.cursor.spanFrom start))
    | .keyword .functionWord => do
      let p := p.advance
      match p.cursor.kind with
      | .ident name =>
        let (binder, p) := p.advance.alloc (.identifier name) p.cursor.span
        let ((params, body), p) ← functionRest depth p
        .ok (p.alloc (.functionExpression (some binder) params body) (p.cursor.spanFrom start))
      | _ =>
        let ((params, body), p) ← functionRest depth p
        .ok (p.alloc (.functionExpression none params body) (p.cursor.spanFrom start))
    | .reserved word => .error ⟨.unsupportedWord word, start⟩
    | _ => .error (p.cursor.unexpected .expression)
  termination_by structural depth => depth

/-- Parameters and body of a function. -/
def functionRest : (depth : Nat) → Parser → Result ((List NodeId × NodeId) × Parser)
  | 0, p => .error (tooDeep p.cursor)
  | depth + 1, p => do
    let p ← p.expect .leftParen
    let (params, p) ← parameters depth p
    let p ← p.expect .rightParen
    let (body, p) ← block depth ⟨true, false⟩ p
    .ok ((params, body), p)
  termination_by structural depth => depth

def block : (depth : Nat) → Context → Parser → Result (NodeId × Parser)
  | 0, _, p => .error (tooDeep p.cursor)
  | depth + 1, ctx, p => do
    let start := p.cursor.span
    let p ← p.expect .leftBrace
    let (body, p) ← blockBody depth ctx p
    let p := p.advance
    .ok (p.alloc (.blockStatement body) (p.cursor.spanFrom start))
  termination_by structural depth => depth

/-- Statements up to a closing brace, which is left. -/
def blockBody : (depth : Nat) → Context → Parser → Result (List NodeId × Parser)
  | 0, _, p => .error (tooDeep p.cursor)
  | depth + 1, ctx, p =>
    if p.cursor.at? .rightBrace then .ok ([], p)
    else if p.cursor.atEnd then .error (p.cursor.unexpected (.punct .rightBrace))
    else do
      let (first, p) ← statement depth ctx p
      let (rest, p) ← blockBody depth ctx p
      .ok (first :: rest, p)
  termination_by structural depth => depth

/-- One or more declarators separated by commas. -/
def declarators : (depth : Nat) → Parser → Result (List NodeId × Parser)
  | 0, p => .error (tooDeep p.cursor)
  | depth + 1, p => do
    let (name, p) ← p.bindingIdentifier
    let (init, p) ←
      if p.cursor.at? .assign then do
        let (value, p) ← assignment depth p.advance
        .ok (some value, p)
      else .ok (none, p)
    let (declarator, p) := p.alloc (.variableDeclarator name init) (p.spanFrom name)
    if p.cursor.at? .comma then
      let (rest, p) ← declarators depth p.advance
      .ok (declarator :: rest, p)
    else .ok ([declarator], p)
  termination_by structural depth => depth

/-- A declaration; as a statement it takes the semicolon that ends it into its span. -/
def declaration :
    (depth : Nat) → (kind : VarKind) → (terminated : Bool) → Parser → Result (NodeId × Parser)
  | 0, _, _, p => .error (tooDeep p.cursor)
  | depth + 1, kind, terminated, p => do
    let start := p.cursor.span
    let (names, p) ← declarators depth p.advance
    let p ← if terminated then p.endStatement else .ok p
    .ok (p.alloc (.variableDeclaration kind names) (p.cursor.spanFrom start))
  termination_by structural depth => depth

/-- An expression in parentheses. -/
def parenthesized : (depth : Nat) → Parser → Result (NodeId × Parser)
  | 0, p => .error (tooDeep p.cursor)
  | depth + 1, p => do
    let p ← p.expect .leftParen
    let (inner, p) ← assignment depth p
    let p ← p.expect .rightParen
    .ok (inner, p)
  termination_by structural depth => depth

/-- An expression, unless `closer` stands in its place. -/
def optional : (depth : Nat) → (closer : Punct) → Parser → Result (Option NodeId × Parser)
  | 0, _, p => .error (tooDeep p.cursor)
  | depth + 1, closer, p =>
    if p.cursor.at? closer then .ok (none, p)
    else do
      let (inner, p) ← assignment depth p
      .ok (some inner, p)
  termination_by structural depth => depth

/-- What the head of a `for` begins with. -/
def forInit : (depth : Nat) → Parser → Result (Option NodeId × Parser)
  | 0, p => .error (tooDeep p.cursor)
  | depth + 1, p =>
    match p.cursor.kind with
    | .keyword .varWord => do
      let (init, p) ← declaration depth .varKind false p
      .ok (some init, p)
    | .keyword .letWord => do
      let (init, p) ← declaration depth .letKind false p
      .ok (some init, p)
    | .keyword .constWord => do
      let (init, p) ← declaration depth .constKind false p
      .ok (some init, p)
    | _ => optional depth .semicolon p
  termination_by structural depth => depth

def forStatement : (depth : Nat) → Context → Parser → Result (NodeId × Parser)
  | 0, _, p => .error (tooDeep p.cursor)
  | depth + 1, ctx, p => do
    let start := p.cursor.span
    let p ← p.advance.expect .leftParen
    let (init, p) ← forInit depth p
    if p.cursor.kind.isReservedWord "of" || p.cursor.kind.isReservedWord "in" then
      .error ⟨.unsupported .iterationOver, p.cursor.span⟩
    else
      let p ← p.expect .semicolon
      let (test, p) ← optional depth .semicolon p
      let p ← p.expect .semicolon
      let (update, p) ← optional depth .rightParen p
      let p ← p.expect .rightParen
      let (body, p) ← statement depth { ctx with inLoop := true } p
      .ok (p.alloc (.forStatement init test update body) (p.cursor.spanFrom start))
  termination_by structural depth => depth

def statement : (depth : Nat) → Context → Parser → Result (NodeId × Parser)
  | 0, _, p => .error (tooDeep p.cursor)
  | depth + 1, ctx, p =>
    let start := p.cursor.span
    match p.cursor.kind with
    | .punct .leftBrace => block depth ctx p
    | .keyword .varWord => declaration depth .varKind true p
    | .keyword .letWord => declaration depth .letKind true p
    | .keyword .constWord => declaration depth .constKind true p
    | .keyword .functionWord => do
      let (name, p) ← p.advance.bindingIdentifier
      let ((params, body), p) ← functionRest depth p
      .ok (p.alloc (.functionDeclaration name params body) (p.cursor.spanFrom start))
    | .keyword .ifWord => do
      let (test, p) ← parenthesized depth p.advance
      let (consequent, p) ← statement depth ctx p
      if p.cursor.atKeyword? .elseWord then
        let (alternate, p) ← statement depth ctx p.advance
        .ok (p.alloc (.ifStatement test consequent (some alternate)) (p.cursor.spanFrom start))
      else .ok (p.alloc (.ifStatement test consequent none) (p.cursor.spanFrom start))
    | .keyword .forWord => forStatement depth ctx p
    | .keyword .whileWord => do
      let (test, p) ← parenthesized depth p.advance
      let (body, p) ← statement depth { ctx with inLoop := true } p
      .ok (p.alloc (.whileStatement test body) (p.cursor.spanFrom start))
    | .keyword .returnWord =>
      if !ctx.inFunction then .error ⟨.illegalReturn, start⟩
      else do
        let p := p.advance
        let (argument, p) ←
          if mayEnd p.cursor then .ok (none, p) else optional depth .semicolon p
        let p ← p.endStatement
        .ok (p.alloc (.returnStatement argument) (p.cursor.spanFrom start))
    | .keyword .throwWord =>
      let p := p.advance
      if p.cursor.newlineBefore then .error ⟨.newlineAfterThrow, p.cursor.span⟩
      else do
        let (argument, p) ← assignment depth p
        let p ← p.endStatement
        .ok (p.alloc (.throwStatement argument) (p.cursor.spanFrom start))
    | .keyword .breakWord =>
      if !ctx.inLoop then .error ⟨.illegalBreak, start⟩
      else do
        let p ← p.advance.endStatement
        .ok (p.alloc .breakStatement (p.cursor.spanFrom start))
    | .keyword .continueWord =>
      if !ctx.inLoop then .error ⟨.illegalContinue, start⟩
      else do
        let p ← p.advance.endStatement
        .ok (p.alloc .continueStatement (p.cursor.spanFrom start))
    | .keyword .debuggerWord => do
      let p ← p.advance.endStatement
      .ok (p.alloc .debuggerStatement (p.cursor.spanFrom start))
    | .punct .semicolon => .ok (p.advance.alloc .emptyStatement start)
    | .reserved word => .error ⟨reservedFault word, start⟩
    | _ => do
      let (expression, p) ← assignment depth p
      let p ← p.endStatement
      .ok (p.alloc (.expressionStatement expression) (p.cursor.spanFrom start))
  termination_by structural depth => depth
end

/-- Statements up to the end of input. -/
def programBody : (depth : Nat) → Parser → Result (List NodeId × Parser)
  | 0, p => .error (tooDeep p.cursor)
  | depth + 1, p =>
    if p.cursor.atEnd then .ok ([], p)
    else do
      let (first, p) ← statement depth ⟨false, false⟩ p
      let (rest, p) ← programBody depth p
      .ok (first :: rest, p)

/-- A parser that has read nothing. -/
def start (tokens : List Token) (sourceType : SourceType) (table? : Option LineTable) : Parser :=
  { cursor := .start tokens, tree := .empty sourceType, table? }

/-- Parses a whole program of `size` bytes. -/
def program (size : Nat) (p : Parser) : Result Tree := do
  let (body, p) ← programBody (depthFor p.cursor.tokens.length) p
  let (root, p) := p.alloc (.program body) ⟨0, size⟩
  .ok (p.tree.link root)

end Parser

structure ParseOptions where
  sourceType : SourceType := .script
  /-- Whether nodes carry lines and columns. -/
  locations : Bool := true
  deriving DecidableEq, Repr, Inhabited

/-- The tree of a whole text. -/
def Tree.parse (text : String) (options : ParseOptions := {}) : Except ParseError Tree :=
  match Token.ofText text with
  | .error e => .error (.ofLex e)
  | .ok tokens =>
    let table? := if options.locations then some (LineTable.ofText text) else none
    (Parser.start tokens options.sourceType table?).program text.utf8ByteSize

end ScriptDebugger
