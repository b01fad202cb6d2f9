import ScriptDebugger.Proofs.Syntax.Phrase
import ScriptDebugger.Syntax.Grammar
import ScriptDebugger.Token.Stream

/-!
# The grammar of phrases

The functions of a parser without its tree: each has the name of one of these, takes the
cursor alone and gives a phrase where that one allocates nodes. Each takes a bound
on the depth of the search (the number of calls below it), the cursor, and gives
the phrase and the cursor after it. Binary and logical operators are read by
precedence: the operators of level `level` and above join operands into the
longest expression possible, to the left.
-/

namespace ScriptDebugger

namespace Grammar

def Infix.node (op : Infix) (left right : Phrase) : Phrase :=
  let span := left.span.merge right.span
  match op with
  | binary op => ⟨span, .binaryExpression op left right⟩
  | logical op => ⟨span, .logicalExpression op left right⟩

/-- Only an identifier or a member access can be assigned to. -/
def checkTarget (target : Phrase) : Result Unit :=
  match target.kind with
  | .identifier _ | .memberExpression .. => .ok ()
  | _ => .error ⟨.invalidAssignmentTarget, target.span⟩

/-- The name that a declaration or a parameter binds. -/
def bindingIdentifier (c : Cursor) : Result (Phrase × Cursor) :=
  match c.kind with
  | .ident name => .ok (⟨c.span, .identifier name⟩, c.advance)
  | _ => .error (c.unexpected .identifier)

/-- The name after a point; a reserved word will do. -/
def propertyName (c : Cursor) : Result (Phrase × Cursor) :=
  match c.kind with
  | .ident name | .reserved name => .ok (⟨c.span, .identifier name⟩, c.advance)
  | _ => .error (c.unexpected .propertyName)

/-- A list of parameters up to its closing parenthesis, which is left; the last one may be
followed by a comma. -/
def parameters : (depth : Nat) → Cursor → Result (List Phrase × Cursor)
  | 0, c => .error (tooDeep c)
  | depth + 1, c =>
    if c.at? .rightParen then .ok ([], c)
    else do
      let (name, c) ← bindingIdentifier c
      if c.at? .comma then
        let (names, c) ← parameters depth c.advance
        .ok (name :: names, c)
      else .ok ([name], c)

mutual

/-- An assignment, a conditional or anything that binds tighter. -/
def assignment : (depth : Nat) → Cursor → Result (Phrase × Cursor)
  | 0, c => .error (tooDeep c)
  | depth + 1, c => do
    let (left, c) ← conditional depth c
    match assignOp? c.kind with
    | none => .ok (left, c)
    | some op =>
      checkTarget left
      let (right, c) ← assignment depth c.advance
      .ok (⟨left.span.merge right.span, .assignmentExpression op left right⟩, c)

def conditional : (depth : Nat) → Cursor → Result (Phrase × Cursor)
  | 0, c => .error (tooDeep c)
  | depth + 1, c => do
    let (test, c) ← operators depth 1 c
    if c.at? .question then
      let (consequent, c) ← assignment depth c.advance
      let c ← c.expect .colon
      let (alternate, c) ← assignment depth c
      .ok (⟨test.span.merge alternate.span, .conditionalExpression test consequent alternate⟩, c)
    else .ok (test, c)

/-- Operands joined by operators of level `level` and above. -/
def operators : (depth level : Nat) → Cursor → Result (Phrase × Cursor)
  | 0, _, c => .error (tooDeep c)
  | depth + 1, level, c => do
    let (left, c) ← unary depth c
    operatorTail depth level left c

/-- Joins further operands to `left`. -/
def operatorTail : (depth level : Nat) → Phrase → Cursor → Result (Phrase × Cursor)
  | 0, _, _, c => .error (tooDeep c)
  | depth + 1, level, left, c =>
    match infix? c.kind with
    | none => .ok (left, c)
    | some op =>
      if op.level < level then .ok (left, c)
      else do
        let (right, c) ← operators depth (op.level + 1) c.advance
        operatorTail depth level (op.node left right) c

def unary : (depth : Nat) → Cursor → Result (Phrase × Cursor)
  | 0, c => .error (tooDeep c)
  | depth + 1, c =>
    match unaryOp? c.kind with
    | some op => do
      let (argument, after) ← unary depth c.advance
      .ok (⟨c.span.merge argument.span, .unaryExpression op argument⟩, after)
    | none =>
      match updateOp? c.kind with
      | some op => do
        let (argument, after) ← unary depth c.advance
        checkTarget argument
        .ok (⟨c.span.merge argument.span, .updateExpression op true argument⟩, after)
      | none => postfixed depth c

/-- An operand with `++` or `--` behind it, on the same line, if there is one. -/
def postfixed : (depth : Nat) → Cursor → Result (Phrase × Cursor)
  | 0, c => .error (tooDeep c)
  | depth + 1, c => do
    let (callee, c) ← if c.atKeyword? .newWord then construction depth c else primary depth c
    let (argument, c) ← accesses depth true callee c
    if c.newlineBefore then .ok (argument, c)
    else
      match updateOp? c.kind with
      | none => .ok (argument, c)
      | some op =>
        checkTarget argument
        .ok (⟨argument.span.merge c.span, .updateExpression op false argument⟩, c.advance)

/-- Member accesses, and calls if `calls` is set, one after another. -/
def accesses : (depth : Nat) → (calls : Bool) → Phrase → Cursor → Result (Phrase × Cursor)
  | 0, _, _, c => .error (tooDeep c)
  | depth + 1, calls, callee, c =>
    if calls && c.at? .leftParen then do
      let (arguments, c) ← elements depth .rightParen c.advance
      let c ← c.expect .rightParen
      accesses depth calls ⟨c.spanFrom callee.span, .callExpression callee arguments⟩ c
    else if c.at? .dot then do
      let (name, c) ← propertyName c.advance
      accesses depth calls ⟨c.spanFrom callee.span, .memberExpression callee name false⟩ c
    else if c.at? .leftBracket then do
      let (key, c) ← assignment depth c.advance
      let c ← c.expect .rightBracket
      accesses depth calls ⟨c.spanFrom callee.span, .memberExpression callee key true⟩ c
    else .ok (callee, c)

/-- The word `new` and what it constructs; the arguments may be missing. -/
def construction : (depth : Nat) → Cursor → Result (Phrase × Cursor)
  | 0, c => .error (tooDeep c)
  | depth + 1, c => do
    let start := c.span
    let c := c.advance
    let (callee, c) ← if c.atKeyword? .newWord then construction depth c else primary depth c
    let (callee, c) ← accesses depth false callee c
    if c.at? .leftParen then
      let (arguments, c) ← elements depth .rightParen c.advance
      let c ← c.expect .rightParen
      .ok (⟨c.spanFrom start, .newExpression callee arguments⟩, c)
    else .ok (⟨c.spanFrom start, .newExpression callee []⟩, c)

/-- Expressions separated by commas up to `closer`, which is left; the last one may be followed
by a comma. -/
def elements : (depth : Nat) → (closer : Punct) → Cursor → Result (List Phrase × Cursor)
  | 0, _, c => .error (tooDeep c)
  | depth + 1, closer, c =>
    if c.at? closer then .ok ([], c)
    else do
      let (element, c) ← assignment depth c
      if c.at? .comma then
        let (rest, c) ← elements depth closer c.advance
        .ok (element :: rest, c)
      else .ok ([element], c)

/-- The properties of an object literal up to its closing brace, which is left. -/
def properties : (depth : Nat) → Cursor → Result (List Phrase × Cursor)
  | 0, c => .error (tooDeep c)
  | depth + 1, c =>
    if c.at? .rightBrace then .ok ([], c)
    else do
      let start := c.span
      let (key, c) ← propertyKey c
      let c ← c.expect .colon
      let (value, c) ← assignment depth c
      let property : Phrase := ⟨start.merge value.span, .property key value⟩
      if c.at? .comma then
        let (rest, c) ← properties depth c.advance
        .ok (property :: rest, c)
      else .ok ([property], c)

def primary : (depth : Nat) → Cursor → Result (Phrase × Cursor)
  | 0, c => .error (tooDeep c)
  | depth + 1, c =>
    let start := c.span
    match c.kind with
    | .number x => .ok (⟨start, .literal (.number x)⟩, c.advance)
    | .string s => .ok (⟨start, .literal (.string s)⟩, c.advance)
    | .keyword .trueWord => .ok (⟨start, .literal (.bool true)⟩, c.advance)
    | .keyword .falseWord => .ok (⟨start, .literal (.bool false)⟩, c.advance)
    | .keyword .nullWord => .ok (⟨start, .literal .null⟩, c.advance)
    | .ident name => do
      refuseArrow c.advance
      .ok (⟨start, .identifier name⟩, c.advance)
    | .punct .leftParen => do
      let (inner, c) ← assignment depth c.advance
      let c ← c.expect .rightParen
      refuseArrow c
      .ok (inner, c)
    | .punct .leftBracket => do
      let (items, c) ← elements depth .rightBracket c.advance
      let c ← c.expect .rightBracket
      .ok (⟨c.spanFrom start, .arrayExpression items⟩, c)
    | .punct .leftBrace => do
      let (items, c) ← properties depth c.advance
      let c ← c.expect .rightBrace
      .ok (⟨c.spanFrom start, .objectExpression items⟩, c)
    | .keyword .functionWord => do
      let c := c.advance
      match c.kind with
      | .ident name =>
        let binder : Phrase := ⟨c.span, .identifier name⟩
        let ((params, body), c) ← functionRest depth c.advance
        .ok (⟨c.spanFrom start, .functionExpression (some binder) params body⟩, c)
      | _ =>
        let ((params, body), c) ← functionRest depth c
        .ok (⟨c.spanFrom start, .functionExpression none params body⟩, c)
    | .reserved word => .error ⟨.unsupportedWord word, start⟩
    | _ => .error (c.unexpected .expression)

/-- Parameters and body of a function. -/
def functionRest : (depth : Nat) → Cursor → Result ((List Phrase × Phrase) × Cursor)
  | 0, c => .error (tooDeep c)
  | depth + 1, c => do
    let c ← c.expect .leftParen
    let (params, c) ← parameters depth c
    let c ← c.expect .rightParen
    let (body, c) ← block depth ⟨true, false⟩ c
    .ok ((params, body), c)

def block : (depth : Nat) → Context → Cursor → Result (Phrase × Cursor)
  | 0, _, c => .error (tooDeep c)
  | depth + 1, ctx, c => do
    let start := c.span
    let c ← c.expect .leftBrace
    let (body, c) ← blockBody depth ctx c
    let c := c.advance
    .ok (⟨c.spanFrom start, .blockStatement body⟩, c)

/-- Statements up to a closing brace, which is left. -/
def blockBody : (depth : Nat) → Context → Cursor → Result (List Phrase × Cursor)
  | 0, _, c => .error (tooDeep c)
  | depth + 1, ctx, c =>
    if c.at? .rightBrace then .ok ([], c)
    else if c.atEnd then .error (c.unexpected (.punct .rightBrace))
    else do
      let (first, c) ← statement depth ctx c
      let (rest, c) ← blockBody depth ctx c
      .ok (first :: rest, c)

/-- One or more declarators separated by commas. -/
def declarators : (depth : Nat) → Cursor → Result (List Phrase × Cursor)
  | 0, c => .error (tooDeep c)
  | depth + 1, c => do
    let (name, c) ← bindingIdentifier c
    let (init, c) ←
      if c.at? .assign then do
        let (value, c) ← assignment depth c.advance
        .ok (some value, c)
      else .ok (none, c)
    let declarator : Phrase := ⟨c.spanFrom name.span, .variableDeclarator name init⟩
    if c.at? .comma then
      let (rest, c) ← declarators depth c.advance
      .ok (declarator :: rest, c)
    else .ok ([declarator], c)

/-- A declaration; as a statement it takes the semicolon that ends it into its span. -/
def declaration :
    (depth : Nat) → (kind : VarKind) → (terminated : Bool) → Cursor → Result (Phrase × Cursor)
  | 0, _, _, c => .error (tooDeep c)
  | depth + 1, kind, terminated, c => do
    let start := c.span
    let (names, c) ← declarators depth c.advance
    let c ← if terminated then endStatement c else .ok c
    .ok (⟨c.spanFrom start, .variableDeclaration kind names⟩, c)

/-- An expression in parentheses. -/
def parenthesized : (depth : Nat) → Cursor → Result (Phrase × Cursor)
  | 0, c => .error (tooDeep c)
  | depth + 1, c => do
    let c ← c.expect .leftParen
    let (inner, c) ← assignment depth c
    let c ← c.expect .rightParen
    .ok (inner, c)

/-- An expression, unless `closer` stands in its place. -/
def optional : (depth : Nat) → (closer : Punct) → Cursor → Result (Option Phrase × Cursor)
  | 0, _, c => .error (tooDeep c)
  | depth + 1, closer, c =>
    if c.at? closer then .ok (none, c)
    else do
      let (inner, c) ← assignment depth c
      .ok (some inner, c)

/-- What the head of a `for` begins with. -/
def forInit : (depth : Nat) → Cursor → Result (Option Phrase × Cursor)
  | 0, c => .error (tooDeep c)
  | depth + 1, c =>
    match c.kind with
    | .keyword .varWord => do
      let (init, c) ← declaration depth .varKind false c
      .ok (some init, c)
    | .keyword .letWord => do
      let (init, c) ← declaration depth .letKind false c
      .ok (some init, c)
    | .keyword .constWord => do
      let (init, c) ← declaration depth .constKind false c
      .ok (some init, c)
    | _ => optional depth .semicolon c

def forStatement : (depth : Nat) → Context → Cursor → Result (Phrase × Cursor)
  | 0, _, c => .error (tooDeep c)
  | depth + 1, ctx, c => do
    let start := c.span
    let c ← c.advance.expect .leftParen
    let (init, c) ← forInit depth c
    if c.kind.isReservedWord "of" || c.kind.isReservedWord "in" then
      .error ⟨.unsupported .iterationOver, c.span⟩
    else
      let c ← c.expect .semicolon
      let (test, c) ← optional depth .semicolon c
      let c ← c.expect .semicolon
      let (update, c) ← optional depth .rightParen c
      let c ← c.expect .rightParen
      let (body, c) ← statement depth { ctx with inLoop := true } c
      .ok (⟨c.spanFrom start, .forStatement init test update body⟩, c)

def statement : (depth : Nat) → Context → Cursor → Result (Phrase × Cursor)
  | 0, _, c => .error (tooDeep c)
  | depth + 1, ctx, c =>
    let start := c.span
    match c.kind with
    | .punct .leftBrace => block depth ctx c
    | .keyword .varWord => declaration depth .varKind true c
    | .keyword .letWord => declaration depth .letKind true c
    | .keyword .constWord => declaration depth .constKind true c
    | .keyword .functionWord => do
      let (name, c) ← bindingIdentifier c.advance
      let ((params, body), c) ← functionRest depth c
      .ok (⟨c.spanFrom start, .functionDeclaration name params body⟩, c)
    | .keyword .ifWord => do
      let (test, c) ← parenthesized depth c.advance
      let (consequent, c) ← statement depth ctx c
      if c.atKeyword? .elseWord then
        let (alternate, c) ← statement depth ctx c.advance
        .ok (⟨c.spanFrom start, .ifStatement test consequent (some alternate)⟩, c)
      else .ok (⟨c.spanFrom start, .ifStatement test consequent none⟩, c)
    | .keyword .forWord => forStatement depth ctx c
    | .keyword .whileWord => do
      let (test, c) ← parenthesized depth c.advance
      let (body, c) ← statement depth { ctx with inLoop := true } c
      .ok (⟨c.spanFrom start, .whileStatement test body⟩, c)
    | .keyword .returnWord =>
      if !ctx.inFunction then .error ⟨.illegalReturn, start⟩
      else do
        let c := c.advance
        let (argument, c) ←
          if mayEnd c then .ok (none, c) else optional depth .semicolon c
        let c ← endStatement c
        .ok (⟨c.spanFrom start, .returnStatement argument⟩, c)
    | .keyword .throwWord =>
      let c := c.advance
      if c.newlineBefore then .error ⟨.newlineAfterThrow, c.span⟩
      else do
        let (argument, c) ← assignment depth c
        let c ← endStatement c
        .ok (⟨c.spanFrom start, .throwStatement argument⟩, c)
    | .keyword .breakWord =>
      if !ctx.inLoop then .error ⟨.illegalBreak, start⟩
      else do
        let c ← endStatement c.advance
        .ok (⟨c.spanFrom start, .breakStatement⟩, c)
    | .keyword .continueWord =>
      if !ctx.inLoop then .error ⟨.illegalContinue, start⟩
      else do
        let c ← endStatement c.advance
        .ok (⟨c.spanFrom start, .continueStatement⟩, c)
    | .keyword .debuggerWord => do
      let c ← endStatement c.advance
      .ok (⟨c.spanFrom start, .debuggerStatement⟩, c)
    | .punct .semicolon => .ok (⟨start, .emptyStatement⟩, c.advance)
    | .reserved word => .error ⟨reservedFault word, start⟩
    | _ => do
      let (expression, c) ← assignment depth c
      let c ← endStatement c
      .ok (⟨c.spanFrom start, .expressionStatement expression⟩, c)

end

/-- Statements up to the end of input. -/
def programBody : (depth : Nat) → Cursor → Result (List Phrase × Cursor)
  | 0, c => .error (tooDeep c)
  | depth + 1, c =>
    if c.atEnd then .ok ([], c)
    else do
      let (first, c) ← statement depth ⟨false, false⟩ c
      let (rest, c) ← programBody depth c
      .ok (first :: rest, c)

/-- A whole program of `size` bytes. -/
def program (size : Nat) (tokens : List Token) : Result Phrase := do
  let (body, _) ← programBody (depthFor tokens.length) (.start tokens)
  .ok ⟨⟨0, size⟩, .program body⟩

end Grammar

/-- The phrase of a whole text. -/
def Phrase.parse (text : String) : Except ParseError Phrase :=
  match Token.ofText text with
  | .error e => .error (.ofLex e)
  | .ok tokens => Grammar.program text.utf8ByteSize tokens

end ScriptDebugger
