import ScriptDebugger.Machine.Call

/-!
# Steps

One step of the machine: `step` looks at the work at hand and, when that has
ended, at the entry that waits for it. Running is stepping until nothing is
left to do; `run` is bounded by a number of steps, and gives nothing if they
do not suffice.

An entry that waits for a value is never met by the end of a statement, nor
the other way round; where the types allow it, the entry is passed over.
-/

namespace ScriptDebugger.Machine

def readName (m : Machine) (name : String) (next : Machine → Value → Machine) : Machine :=
  match m.lookup? name with
  | some v => next m v
  | none => m.throwFault (.notDefined name)

def writeName (m : Machine) (name : String) (v result : Value) : Machine :=
  let (store, fault) := m.store.assignNearest m.scope name v
  let m := { m with store }
  match fault with
  | none => m.give result
  | some .constant => m.throwFault .assignmentToConstant
  | some .unbound => m.throwFault (.notDefined name)

/-- Reads a member; a method is bound to its receiver as it is read. -/
def readMember (m : Machine) (receiver : Value) (key : String)
    (next : Machine → Value → Machine) : Machine :=
  match m.store.getMember receiver key with
  | .ok (.plain v) => next m v
  | .ok (.method builtin) =>
    let (store, v) := m.store.newBuiltin builtin (some receiver)
    next { m with store } v
  | .error f => m.throwFault f

def writeMember (m : Machine) (receiver : Value) (key : String) (v result : Value) : Machine :=
  match m.store.setMemberFault? receiver key with
  | some f => m.throwFault f
  | none => { m with store := m.store.setMember receiver key v }.give result

/-- The right side of an assignment, combined with the old value if there is one. -/
def completed (m : Machine) (half : HalfApplied) (right : Value) : Value :=
  match half with
  | some (op, left) => m.store.evalBinary op left right
  | none => right

/-- Does what a member access is for, once its key is known. -/
def access (m : Machine) (a : Access) (receiver : Value) (key : String) : Machine :=
  match a.goal with
  | .read => (m.setPc a.node).readMember receiver key give
  | .assign .assign right => m.evalThen right (.assignMember a.node receiver key none)
  | .assign (.compound op) right =>
    (m.setPc a.node).readMember receiver key fun m current =>
      m.evalThen right (.assignMember a.node receiver key (some (op, current)))
  | .update op before =>
    (m.setPc a.node).readMember receiver key fun m current =>
      let (old, new) := m.store.evalUpdate op current
      m.writeMember receiver key (.number new) (.number (if before then new else old))

/-- Evaluates the next property of an object literal; the object is made after the last one. -/
def properties (e : Setting) (m : Machine) (done : Record) : List NodeId → Machine
  | [] =>
    m.giveFrom fun s => s.newRecord done
  | p :: rest =>
    match e.tree.kind p with
    | .property key value => m.evalThen value (.property key rest done)
    | _ => m.properties e done rest

/-- Evaluates the next element of an array literal; `done` holds those so far, last first. -/
def elements (m : Machine) (done : List Value) : List NodeId → Machine
  | [] =>
    m.giveFrom fun s => s.newArray done.reverse.toArray
  | id :: rest => m.evalThen id (.elements rest done)

/-- Evaluates the next argument, or calls after the last one. -/
def arguments (e : Setting) (m : Machine) (site : CallSite) (f : Value) (done : List Value) :
    List NodeId → Machine
  | [] =>
    let m := m.setPc site.node
    if site.constructs then m.construct e f done.reverse site.callee
    else m.goTo (.call f done.reverse (.source site.callee))
  | id :: rest => m.evalThen id (.arguments site f rest done)

/-- A function expression with a name sees itself under that name, in a scope of its own. -/
def functionValue (e : Setting) (m : Machine) (id : NodeId) (name : Option NodeId)
    (params : List NodeId) (body : NodeId) : Machine :=
  match name.bind fun n => (e.tree.kind n).name? with
  | none =>
    let c := e.closure id none params body m.scope
    m.giveFrom fun s => s.newClosure c
  | some name =>
    let outer := m.scope
    m.giveFrom fun s =>
      let (s, scope) := s.newScope (some outer)
      let (s, v) := s.newClosure (e.closure id (some name) params body scope)
      (s.define scope name v false, v)

def assignment (e : Setting) (m : Machine) (id : NodeId) (op : AssignOp) (left right : NodeId) :
    Machine :=
  match e.tree.kind left with
  | .identifier name =>
    match op with
    | .assign => m.evalThen right (.assignName id name none)
    | .compound op =>
      m.readName name fun m current =>
        m.evalThen right (.assignName id name (some (op, current)))
  | .memberExpression object key computed =>
    m.evalThen object (.accessObject ⟨id, key, computed, .assign op right⟩)
  | _ => m.goTo (.eval right)

def update (e : Setting) (m : Machine) (id : NodeId) (op : UpdateOp) (before : Bool)
    (argument : NodeId) : Machine :=
  match e.tree.kind argument with
  | .identifier name =>
    m.readName name fun m current =>
      let (old, new) := m.store.evalUpdate op current
      m.writeName name (.number new) (.number (if before then new else old))
  | .memberExpression object key computed =>
    m.evalThen object (.accessObject ⟨id, key, computed, .update op before⟩)
  | _ => m.give (.number Binary64.nan)

/-- Whether `typeof` is asked of a name that nothing binds, which it tolerates. -/
def asksUnbound (e : Setting) (m : Machine) (op : UnaryOp) (argument : NodeId) : Bool :=
  op == .typeOf && ((e.tree.kind argument).name?).any fun name => (m.lookup? name).isNone

/-- Starts to evaluate the expression `id`. -/
def evalNode (e : Setting) (m : Machine) (id : NodeId) : Machine :=
  let m := m.setPc id
  match e.tree.kind id with
  | .identifier name => m.readName name give
  | .literal l => m.give (.ofLiteral l)
  | .arrayExpression ids => m.elements [] ids
  | .objectExpression ps => m.properties e .empty ps
  | .functionExpression name params body => m.functionValue e id name params body
  | .unaryExpression op argument =>
    if m.asksUnbound e op argument then m.give (.string "undefined")
    else m.evalThen argument (.unary op)
  | .updateExpression op before argument => m.update e id op before argument
  | .binaryExpression op left right => m.evalThen left (.binaryLeft op right)
  | .logicalExpression op left right => m.evalThen left (.logical op right)
  | .assignmentExpression op left right => m.assignment e id op left right
  | .conditionalExpression test consequent alternate =>
    m.evalThen test (.conditional consequent alternate)
  | .callExpression callee args => m.evalThen callee (.callee ⟨id, callee, false⟩ args)
  | .newExpression callee args => m.evalThen callee (.callee ⟨id, callee, true⟩ args)
  | .memberExpression object key computed =>
    m.evalThen object (.accessObject ⟨id, key, computed, .read⟩)
  | _ => m.give .undefined

/-- Goes on with declarators. A `var` without a value declares nothing new here. -/
def declare (e : Setting) (m : Machine) (kind : VarKind) : List NodeId → Machine
  | [] => m.finish
  | d :: rest =>
    match e.tree.kind d with
    | .variableDeclarator nameId init =>
      let name := e.tree.nameOf nameId
      match init with
      | some value => m.evalThen value (.declare kind d name rest)
      | none =>
        if kind.isLexical then
          (m.define m.scope name .undefined (kind != .constKind)).declare e kind rest
        else m.declare e kind rest
    | _ => m.declare e kind rest

/-- Binds a declared name to its value. A `var` assigns to what the name is bound to already and
defines it only where it cannot. -/
def bindDeclared (m : Machine) (kind : VarKind) (declarator : NodeId) (name : String) (v : Value) :
    Machine :=
  if kind.isLexical then m.define m.scope name v (kind != .constKind)
  else
    let m := m.setPc declarator
    let (store, fault) := m.store.assignNearest m.scope name v
    let m := { m with store }
    match fault with
    | none => m
    | some _ => m.define m.scope name v true

/-- Runs a block, in a scope of its own if it declares names. -/
def runBlock (e : Setting) (m : Machine) (body : List NodeId) : Machine :=
  if e.tree.declaresLexically body then
    let outer := m.scope
    let (store, scope) := m.store.newScope (some outer)
    let m := { m with store := store.hoistFunctions e scope body }
    ((m.push (.restoreScope outer)).setScope scope).runStatements body
  else m.runStatements body

/-- Whether a `for` needs a scope of its own. -/
def lexicalInit (e : Setting) (init : Option NodeId) : Bool :=
  init.any fun id =>
    match e.tree.kind id with
    | .variableDeclaration kind _ => kind.isLexical
    | _ => false

/-- Tests whether a loop goes on; a missing test does not end it. -/
def testFor (m : Machine) (p : ForParts) : Machine :=
  match p.test with
  | some test => m.evalThen test (.forTest p)
  | none => m.execThen p.body (.forBody p)

def updateFor (m : Machine) (p : ForParts) : Machine :=
  match p.update with
  | some update => m.evalThen update (.forUpdate p)
  | none => m.testFor p

def startFor (e : Setting) (m : Machine) (init : Option NodeId) (p : ForParts) : Machine :=
  match init with
  | none => m.testFor p
  | some id =>
    match e.tree.kind id with
    | .variableDeclaration kind declarators =>
      ((m.setPc id).push (.forInit p)).declare e kind declarators
    | _ => m.evalThen id (.forInit p)

def runFor (e : Setting) (m : Machine) (init : Option NodeId) (p : ForParts) : Machine :=
  if lexicalInit e init then
    let outer := m.scope
    let (store, scope) := m.store.newScope (some outer)
    (({ m with store }.push (.restoreScope outer)).setScope scope).startFor e init p
  else m.startFor e init p

/-- Starts to execute the statement `id`, unless the run halts before it. -/
def execNode (e : Setting) (m : Machine) (id : NodeId) : Machine :=
  let m := m.setPc id
  if haltsAt e id then m.halt .breakpoint
  else
    match e.tree.kind id with
    | .variableDeclaration kind declarators => m.declare e kind declarators
    | .functionDeclaration .. | .emptyStatement => m.finish
    | .expressionStatement expression => m.evalThen expression .discard
    | .blockStatement body => m.runBlock e body
    | .ifStatement test consequent alternate => m.evalThen test (.ifTest consequent alternate)
    | .forStatement init test update body => m.runFor e init ⟨test, update, body⟩
    | .whileStatement test body => m.evalThen test (.whileTest test body)
    | .returnStatement (some argument) => m.evalThen argument .returnValue
    | .returnStatement none => m.goTo (.abrupt (.returned .undefined))
    | .throwStatement argument => m.evalThen argument (.throwValue id)
    | .breakStatement => m.goTo (.abrupt .broken)
    | .continueStatement => m.goTo (.abrupt .continued)
    | .debuggerStatement => if e.suspends then m.halt .debuggerStatement else m.finish
    | _ => m.evalThen id .discard

def leave (m : Machine) : Machine := { m with calls := m.calls.pop }

/-- Goes on with an entry that has been given a value. -/
def resumeValue (e : Setting) (m : Machine) (v : Value) : Pending → Machine
  | .elements rest done => m.elements (v :: done) rest
  | .property key rest done => m.properties e (done.set key v) rest
  | .unary op => m.give (m.store.evalUnary op v)
  | .binaryLeft op right => m.evalThen right (.binaryRight op v)
  | .binaryRight op left => m.give (m.store.evalBinary op left v)
  | .logical op right =>
    let decided := match op with
      | .and => !v.isTruthy
      | .or => v.isTruthy
    if decided then m.give v else m.goTo (.eval right)
  | .conditional consequent alternate =>
    m.goTo (.eval (if v.isTruthy then consequent else alternate))
  | .assignName node name half =>
    let v := m.completed half v
    (m.setPc node).writeName name v v
  | .accessObject a =>
    if a.computed then m.evalThen a.key (.accessKey a v)
    else m.access a v (e.tree.nameOf a.key)
  | .accessKey a receiver => m.access a receiver (m.store.display v)
  | .assignMember node receiver key half =>
    let v := m.completed half v
    (m.setPc node).writeMember receiver key v v
  | .callee site args => m.arguments e site v [] args
  | .arguments site f rest done => m.arguments e site f (v :: done) rest
  | .construct =>
    match v with
    | .object _ | .array _ | .error _ => m.give v
    | _ => m.giveFrom fun s => s.newRecord .empty
  | .leave => m.leave.give v
  | .forEach array callback index => m.forEachFrom array callback (index + 1)
  | .map array callback index done => m.mapFrom array callback (index + 1) (v :: done)
  | .reduce array callback index => m.reduceFrom array callback (index + 1) v
  | .discard => m.finish
  | .ifTest consequent alternate =>
    if v.isTruthy then m.goTo (.exec consequent)
    else
      match alternate with
      | some id => m.goTo (.exec id)
      | none => m.finish
  | .whileTest test body => if v.isTruthy then m.execThen body (.whileBody test body) else m.finish
  | .forInit p => m.testFor p
  | .forTest p => if v.isTruthy then m.execThen p.body (.forBody p) else m.finish
  | .forUpdate p => m.testFor p
  | .returnValue => m.goTo (.abrupt (.returned v))
  | .throwValue node => (m.setPc node).throwValue v
  | .declare kind declarator name rest =>
    (m.bindDeclared kind declarator name v).declare e kind rest
  | .restoreScope outer => (m.setScope outer).give v
  | .statements _ | .whileBody .. | .forBody _ => m.give v

/-- Goes on with an entry after a statement that has ended. -/
def resumeDone (m : Machine) : Pending → Machine
  | .statements rest => m.runStatements rest
  | .restoreScope outer => (m.setScope outer).finish
  | .leave => m.leave.give .undefined
  | .whileBody test body => m.evalThen test (.whileTest test body)
  | .forInit p => m.testFor p
  | .forBody p => m.updateFor p
  | _ => m.finish

/-- Passes an abrupt end to an entry, which takes it or is dropped. -/
def resumeAbrupt (m : Machine) (a : Abrupt) : Pending → Machine
  | .restoreScope outer => (m.setScope outer).goTo (.abrupt a)
  | .leave =>
    match a with
    | .returned v => m.leave.give v
    | .broken | .continued => m.leave.give .undefined
    | .thrown .. | .halted .. => m.leave.goTo (.abrupt a)
  | .whileBody test body =>
    match a with
    | .broken => m.finish
    | .continued => m.evalThen test (.whileTest test body)
    | _ => m.goTo (.abrupt a)
  | .forBody p =>
    match a with
    | .broken => m.finish
    | .continued => m.updateFor p
    | _ => m.goTo (.abrupt a)
  | _ => m.goTo (.abrupt a)

/-- One step; a machine with nothing left to do stays as it is. -/
def step (e : Setting) (m : Machine) : Machine :=
  match m with
  | ⟨store, calls, output, .eval id, pending⟩ =>
    evalNode e ⟨store, calls, output, .done, pending⟩ id
  | ⟨store, calls, output, .exec id, pending⟩ =>
    execNode e ⟨store, calls, output, .done, pending⟩ id
  | ⟨store, calls, output, .call f args name, pending⟩ =>
    call e ⟨store, calls, output, .done, pending⟩ f args name
  | ⟨store, calls, output, .value v, p :: pending⟩ =>
    resumeValue e ⟨store, calls, output, .done, pending⟩ v p
  | ⟨store, calls, output, .done, p :: pending⟩ =>
    resumeDone ⟨store, calls, output, .done, pending⟩ p
  | ⟨store, calls, output, .abrupt a, p :: pending⟩ =>
    resumeAbrupt ⟨store, calls, output, .done, pending⟩ a p
  | m => m

/-- Steps until nothing is left to do, at most `fuel` times. -/
def run (e : Setting) : (fuel : Nat) → Machine → Option Machine
  | 0, m => if m.isFinal then some m else none
  | fuel + 1, m => if m.isFinal then some m else run e fuel (m.step e)

end ScriptDebugger.Machine
