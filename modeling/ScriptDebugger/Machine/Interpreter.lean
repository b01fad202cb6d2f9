import ScriptDebugger.Machine.Step
import ScriptDebugger.Syntax.Parser

/-!
# Runs

An interpreter holds a tree, its text and a store that lasts from run to run.
`runProgram` executes the whole program in a scope of the caller's choice;
`callableOfText` evaluates a text that is nothing but a function, and
`Callable.run` runs that function and keeps its activation when it returns.

Every run takes a bound on the number of steps and gives nothing if the bound
does not suffice.
-/

namespace ScriptDebugger

/-- The call depth that is allowed unless another one is asked for. -/
def defaultMaxDepth : Nat := 10000

structure Interpreter where
  tree : Tree
  source : String
  suspends : Bool
  maxDepth : Nat
  store : Store
  deriving Inhabited

namespace Store

/-- Binds a constant in the global scope. -/
def defineGlobal (s : Store) (name : String) (v : Value) : Store :=
  s.define globalScope name v false

/-- Binds an unbound built-in in the global scope. -/
def defineBuiltin (s : Store) (b : Builtin) : Store :=
  let (s, v) := s.newBuiltin b none
  s.defineGlobal b.name v

/-- Binds an object in the global scope whose members are unbound built-ins. -/
def defineLibrary (s : Store) (name : String) (members : List Builtin) : Store :=
  let (s, r) := members.foldl
    (fun (acc : Store × Record) b =>
      let (s, v) := acc.1.newBuiltin b none
      (s, acc.2.set b.name v))
    (s, Record.empty)
  let (s, v) := s.newRecord r
  s.defineGlobal name v

/-- A store with just the global scope, which binds what every script finds. -/
def initial : Store :=
  let s := (empty.newScope none).1
  let s := s.defineGlobal "undefined" .undefined
  let s := s.defineGlobal "NaN" (.number Binary64.nan)
  let s := s.defineGlobal "Infinity" (.number Binary64.infinity)
  let s := ErrorKind.all.foldl (fun s kind => s.defineBuiltin (.construct kind)) s
  let s := s.defineLibrary "console" [.log]
  s.defineLibrary "Math" [.floor, .max, .min, .abs]

end Store

namespace Interpreter

def ofTree (tree : Tree) (source : String) (suspends : Bool) (maxDepth : Nat) : Interpreter :=
  { tree, source, suspends, maxDepth, store := .initial }

def setting (i : Interpreter) (halt : Node → Bool) : Setting :=
  { tree := i.tree, source := i.source, halt, suspends := i.suspends }

/-- A new scope for a program. -/
def newProgramScope (i : Interpreter) : Interpreter × ScopeId :=
  let (store, scope) := i.store.newScope (some globalScope)
  ({ i with store }, scope)

/-- A machine without activations and with nothing to do. -/
def idle (i : Interpreter) : Machine :=
  { store := i.store, calls := .empty i.maxDepth, output := "", control := .done, pending := [] }

/-- How a run ended, with what it wrote. -/
structure Run where
  interpreter : Interpreter
  outcome : Outcome
  output : String
  deriving Inhabited

/-- The statements of a program. -/
def programBody (t : Tree) (root : NodeId) : List NodeId :=
  match t.kind root with
  | .program body => body
  | _ => []

/-- A machine about to run the program in `scope`. -/
def startProgram (i : Interpreter) (scope : ScopeId) (halt : Node → Bool) : Machine :=
  let root := i.tree.root.getD 0
  let body := programBody i.tree root
  i.idle.enter ⟨root, scope, none⟩ fun m =>
    ({ m with store := m.store.hoist (i.setting halt) scope body }.push .leave).runStatements body

/-- The outcome of a program that has ended in `scope`. -/
def outcomeOf (scope : ScopeId) (m : Machine) : Outcome :=
  match m.control with
  | .abrupt (.thrown v frames) => .raised (.ofValue m.store v) frames
  | .abrupt (.halted reason frames) => .halted reason frames
  | _ => .completed scope

/-- Executes the program in `scope`. -/
def runProgram (i : Interpreter) (fuel : Nat) (scope : ScopeId) (halt : Node → Bool) :
    Option Run :=
  ((i.startProgram scope halt).run (i.setting halt) fuel).map fun m =>
    { interpreter := { i with store := m.store }, outcome := outcomeOf scope m, output := m.output }

end Interpreter

/-- Why a text does not evaluate to a function. -/
inductive CallableError where
  | parse (e : ParseError)
  | notCallable
  deriving Repr, Inhabited

def CallableError.message : CallableError → String
  | parse e => s!"failed to parse wrapped source: {e.message}"
  | notCallable => "wrapped source does not evaluate to a function"

/-- A function ready to run, with the interpreter that owns its tree. -/
structure Callable where
  interpreter : Interpreter
  function : Value
  /-- What has been written on the way to the function. -/
  output : String
  deriving Inhabited

def Callable.closure (c : Callable) : Closure :=
  match c.function with
  | .function ref => c.interpreter.store.closure ref
  | _ => default

/-- How the run of a function ended: with its activation at the end or at a `debugger` statement,
or with the frames of the place where a value was thrown. -/
inductive ReifiedOutcome where
  | returned (frames : FrameChain)
  | suspended (frames : FrameChain)
  | unwound (error : ThrownError) (frames : FrameChain)
  deriving Repr, Inhabited

namespace ReifiedOutcome

def frames : ReifiedOutcome → FrameChain
  | returned frames | suspended frames | unwound _ frames => frames

/-- The outcome to show; none if no activation was kept. -/
def toOutcome? : ReifiedOutcome → Option Outcome
  | returned frames => frames.top?.map fun f => .completed f.scope
  | suspended frames => some (.halted .debuggerStatement frames)
  | unwound error frames => some (.raised error frames)

end ReifiedOutcome

/-- How the run of a function ended, with what was written up to then. -/
structure ReifiedRun where
  interpreter : Interpreter
  outcome : ReifiedOutcome
  output : String
  deriving Inhabited

namespace Interpreter

/-- The expression of a program that is a single expression statement. -/
def loneExpression? (t : Tree) : Option NodeId :=
  match programBody t (t.root.getD 0) with
  | [id] =>
    match t.kind id with
    | .expressionStatement expression => some expression
    | _ => none
  | _ => none

/-- Evaluates the single expression of a program to a function; nothing comes of too few steps. -/
def loneFunction (i : Interpreter) (fuel : Nat) : Option (Except CallableError Callable) :=
  match loneExpression? i.tree with
  | none => some (.error .notCallable)
  | some expression =>
    let (i, scope) := i.newProgramScope
    let start := i.idle.enter ⟨i.tree.root.getD 0, scope, none⟩ fun m =>
      m.evalThen expression .leave
    (start.run (i.setting fun _ => false) fuel).map fun m =>
      match m.control with
      | .value (.function ref) =>
        .ok { interpreter := { i with store := m.store }, function := .function ref
              output := m.output }
      | _ => .error .notCallable

/-- Parses a text and evaluates it to a function; its `debugger` statements will suspend. -/
def callableOfText (fuel maxDepth : Nat) (text : String) :
    Option (Except CallableError Callable) :=
  match Tree.parse text with
  | .error e => some (.error (.parse e))
  | .ok tree => (ofTree tree text true maxDepth).loneFunction fuel

end Interpreter

namespace Callable

/-- The setting of a function that is run on its own: only `debugger` statements halt it. -/
def setting (c : Callable) : Setting := c.interpreter.setting fun _ => false

/-- A machine about to run the body of the function, without arguments. -/
def start (c : Callable) : Machine :=
  let idle := { c.interpreter.idle with output := c.output }
  idle.enterFunction c.setting c.closure [] (Machine.runBody c.setting c.closure.body)

/-- Calls the function. Its activation is left at the end of the call, however that ends; the
frames are captured just before. -/
def call (fuel : Nat) (c : Callable) : Option (Machine × FrameChain) :=
  (c.start.run c.setting fuel).map fun m => (m.leave, m.calls.capture)

/-- Runs the function. -/
def run (fuel : Nat) (c : Callable) : Option ReifiedRun :=
  (c.call fuel).map fun (m, atEnd) =>
    let outcome := match m.control with
      | .abrupt (.thrown v frames) => .unwound (.ofValue m.store v) frames
      | .abrupt (.halted _ frames) => .suspended frames
      | _ => .returned atEnd
    { interpreter := { c.interpreter with store := m.store }, outcome, output := m.output }

end Callable

end ScriptDebugger
