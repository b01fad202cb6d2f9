import ScriptDebugger.Machine.Frame
import ScriptDebugger.Value.Builtin
import ScriptDebugger.Value.Evaluate
import ScriptDebugger.Value.Member

/-!
# Machine states

A script is evaluated by a machine that keeps what is left to do in a list of
its own: `control` is the work at hand, and each entry of `pending` waits for
the work before it to end. Work ends with a value, as a statement does, or
abruptly; an abrupt end passes entry after entry until one takes it. A run as a
whole completes, is halted before a statement or at a `debugger` statement, or
raises a value that nothing handles; a stop is a result and no error.
-/

namespace ScriptDebugger

inductive HaltReason where
  | breakpoint | debuggerStatement
  deriving DecidableEq, Repr, Inhabited

/-- A thrown value, and the name and message to show for it. -/
structure ThrownError where
  value : Value
  name : String
  message : String
  deriving Repr, Inhabited

/-- Error objects tell their own name and message; any other value is uncaught. -/
def ThrownError.ofValue (s : Store) (value : Value) : ThrownError :=
  match value with
  | .error ref => { value, name := (s.error ref).name, message := (s.error ref).message }
  | v => { value, name := "Uncaught", message := s.display v }

inductive Outcome where
  | completed (scope : ScopeId)
  | halted (reason : HaltReason) (frames : FrameChain)
  | raised (error : ThrownError) (frames : FrameChain)
  deriving Repr, Inhabited

namespace Outcome

/-- The scope to show: the program's, or that of the innermost frame. -/
def scope? : Outcome → Option ScopeId
  | completed scope => some scope
  | halted _ frames | raised _ frames => frames.top?.map (·.scope)

end Outcome

/-- What stays the same during a run. -/
structure Setting where
  tree : Tree
  source : String
  /-- Whether to halt before a statement. -/
  halt : Node → Bool
  /-- Whether a `debugger` statement halts; otherwise it does nothing. -/
  suspends : Bool

/-- An end that is not the normal one. -/
inductive Abrupt where
  | returned (v : Value)
  | broken
  | continued
  | thrown (v : Value) (frames : FrameChain)
  | halted (reason : HaltReason) (frames : FrameChain)
  deriving DecidableEq, Repr, Inhabited

/-- How a message names what is called: by source text, or as the console shows it. -/
inductive CalleeName where
  | source (id : NodeId)
  | shown (v : Value)
  deriving DecidableEq, Repr, Inhabited

/-- The work at hand. -/
inductive Control where
  | eval (id : NodeId)
  | exec (id : NodeId)
  | call (callee : Value) (args : List Value) (name : CalleeName)
  | value (v : Value)
  | done
  | abrupt (a : Abrupt)
  deriving DecidableEq, Repr, Inhabited

/-- What a member access is for. -/
inductive AccessGoal where
  | read
  | assign (op : AssignOp) (right : NodeId)
  | update (op : UpdateOp) (before : Bool)
  deriving Repr, Inhabited

/-- A member access: the node that asks for it, the node of the key, and what it is for. -/
structure Access where
  node : NodeId
  key : NodeId
  computed : Bool
  goal : AccessGoal
  deriving Repr, Inhabited

/-- A call or construction: its node, the node of what is called, and which of the two it is. -/
structure CallSite where
  node : NodeId
  callee : NodeId
  constructs : Bool
  deriving Repr, Inhabited

/-- The parts of a `for` after its first. -/
structure ForParts where
  test : Option NodeId
  update : Option NodeId
  body : NodeId
  deriving Repr, Inhabited

/-- An operator and its left side, for the right side to complete. -/
abbrev HalfApplied := Option (BinaryOp × Value)

inductive Pending where
  /-- The rest of an array literal and the elements so far, last first. -/
  | elements (rest : List NodeId) (done : List Value)
  | property (key : String) (rest : List NodeId) (done : Record)
  | unary (op : UnaryOp)
  | binaryLeft (op : BinaryOp) (right : NodeId)
  | binaryRight (op : BinaryOp) (left : Value)
  | logical (op : LogicalOp) (right : NodeId)
  | conditional (consequent alternate : NodeId)
  | assignName (node : NodeId) (name : String) (half : HalfApplied)
  | accessObject (access : Access)
  | accessKey (access : Access) (receiver : Value)
  | assignMember (node : NodeId) (receiver : Value) (key : String) (half : HalfApplied)
  | callee (site : CallSite) (arguments : List NodeId)
  /-- The rest of the arguments and those so far, last first. -/
  | arguments (site : CallSite) (callee : Value) (rest : List NodeId) (done : List Value)
  /-- Ends a construction by a function of the script. -/
  | construct
  /-- Ends an activation. -/
  | leave
  | forEach (array : Ref) (callback : Value) (index : Nat)
  /-- The results so far, last first. -/
  | map (array : Ref) (callback : Value) (index : Nat) (done : List Value)
  | reduce (array : Ref) (callback : Value) (index : Nat)
  | statements (rest : List NodeId)
  /-- Goes back to an outer scope of the same activation. -/
  | restoreScope (outer : ScopeId)
  | discard
  | ifTest (consequent : NodeId) (alternate : Option NodeId)
  | whileTest (test body : NodeId)
  | whileBody (test body : NodeId)
  | forInit (parts : ForParts)
  | forTest (parts : ForParts)
  | forBody (parts : ForParts)
  | forUpdate (parts : ForParts)
  | returnValue
  | throwValue (node : NodeId)
  | declare (kind : VarKind) (declarator : NodeId) (name : String) (rest : List NodeId)
  deriving Repr, Inhabited

structure Machine where
  store : Store
  calls : CallStack
  /-- Lines written to the console. -/
  output : String
  control : Control
  pending : List Pending
  deriving Repr, Inhabited

/-- The scope that all chains of a store end in. -/
def globalScope : ScopeId := 0

namespace Machine

/-- The innermost scope of the running activation. -/
def scope (m : Machine) : ScopeId := (m.calls.top?.map (·.scope)).getD globalScope

def setPc (m : Machine) (id : NodeId) : Machine := { m with calls := m.calls.setPc id }

def setScope (m : Machine) (scope : ScopeId) : Machine :=
  { m with calls := m.calls.setScope scope }

def lookup? (m : Machine) (name : String) : Option Value := m.store.lookup? m.scope name

def define (m : Machine) (scope : ScopeId) (name : String) (v : Value) (isMutable : Bool) :
    Machine :=
  { m with store := m.store.define scope name v isMutable }

def goTo (m : Machine) (control : Control) : Machine := { m with control }

def push (m : Machine) (p : Pending) : Machine := { m with pending := p :: m.pending }

def give (m : Machine) (v : Value) : Machine := m.goTo (.value v)

def finish (m : Machine) : Machine := m.goTo .done

/-- Changes the store and gives what comes of it. -/
def giveFrom (m : Machine) (f : Store → Store × Value) : Machine :=
  match m with
  | ⟨store, calls, output, _, pending⟩ =>
    let (store, v) := f store
    ⟨store, calls, output, .value v, pending⟩

/-- Evaluates `id` and then goes on with `p`. -/
def evalThen (m : Machine) (id : NodeId) (p : Pending) : Machine := (m.push p).goTo (.eval id)

/-- Executes `id` and then goes on with `p`. -/
def execThen (m : Machine) (id : NodeId) (p : Pending) : Machine := (m.push p).goTo (.exec id)

/-- Throws a value from where the call stack stands. -/
def throwValue (m : Machine) (v : Value) : Machine := m.goTo (.abrupt (.thrown v m.calls.capture))

/-- Throws a new error object. -/
def throwFault (m : Machine) (f : Fault) : Machine :=
  let (store, v) := m.store.newError f.toError
  { m with store }.throwValue v

def halt (m : Machine) (reason : HaltReason) : Machine :=
  m.goTo (.abrupt (.halted reason m.calls.capture))

/-- Whether nothing is left to do. -/
def isFinal (m : Machine) : Bool :=
  match m.pending, m.control with
  | [], .value _ | [], .done | [], .abrupt _ => true
  | _, _ => false

end Machine

end ScriptDebugger
