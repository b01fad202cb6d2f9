import ScriptDebugger.Machine.Hoist

/-!
# Calls

What calling a value does in one step. A function of the script gets an
activation, its parameters and its declarations, and then its statements are
the work at hand; most built-ins give their result at once; the array methods
with a callback call it for the first element and wait.
-/

namespace ScriptDebugger.Machine

/-- Whether to halt before node `id`. -/
def haltsAt (e : Setting) (id : NodeId) : Bool := (e.tree.node? id).any e.halt

/-- Executes statements one after another. -/
def runStatements (m : Machine) : List NodeId → Machine
  | [] => m.finish
  | id :: rest => m.execThen id (.statements rest)

/-- Defines parameters from arguments; a missing argument has no value. -/
def bindParams (store : Store) (scope : ScopeId) : List String → List Value → Store
  | [], _ => store
  | p :: ps, [] => bindParams (store.define scope p .undefined true) scope ps []
  | p :: ps, v :: vs => bindParams (store.define scope p v true) scope ps vs

/-- Adds an activation, or throws that there is no room for it. -/
def enter (m : Machine) (a : Activation) (next : Machine → Machine) : Machine :=
  match m.calls.push? a with
  | some calls => next { m with calls }
  | none => m.throwFault .stackExceeded

/-- Runs the body of a function that has its activation. The body is no statement that gets
executed, so a halt before it is decided here. -/
def runBody (e : Setting) (body : NodeId) (m : Machine) : Machine :=
  if haltsAt e body then m.halt .breakpoint else m.runStatements (e.tree.blockBody body)

/-- Gives a function its scope and activation, without running it. -/
def enterFunction (e : Setting) (m : Machine) (c : Closure) (args : List Value)
    (next : Machine → Machine) : Machine :=
  let (store, scope) := m.store.newScope (some c.scope)
  let store := bindParams store scope c.params args
  { m with store }.enter ⟨c.body, scope, c.name⟩ fun m =>
    next { m with store := m.store.hoist e scope (e.tree.blockBody c.body) }

def callClosure (e : Setting) (m : Machine) (c : Closure) (args : List Value) : Machine :=
  m.enterFunction e c args fun m => runBody e c.body (m.push .leave)

/-- Writes a line to the console. -/
def print (m : Machine) (line : String) : Machine := { m with output := m.output ++ line ++ "\n" }

/-- Calls `callback` for element `index`, and `p` goes on from there; without such an element,
`ending` is what is left to do. -/
def callBack (m : Machine) (array : Ref) (callback : Value) (index : Nat)
    (before : List Value) (p : Pending) (ending : Machine → Machine) : Machine :=
  match (m.store.array array)[index]? with
  | some item =>
    (m.push p).goTo (.call callback
      (before ++ [item, .number (Float.ofNat index), .array array]) (.shown callback))
  | none => ending m

def forEachFrom (m : Machine) (array : Ref) (callback : Value) (index : Nat) : Machine :=
  m.callBack array callback index [] (.forEach array callback index) fun m => m.give .undefined

/-- The results so far stand in `done`, last first. -/
def mapFrom (m : Machine) (array : Ref) (callback : Value) (index : Nat) (done : List Value) :
    Machine :=
  m.callBack array callback index [] (.map array callback index done) fun m =>
    m.giveFrom fun s => s.newArray done.reverse.toArray

def reduceFrom (m : Machine) (array : Ref) (callback : Value) (index : Nat) (acc : Value) :
    Machine :=
  m.callBack array callback index [acc] (.reduce array callback index) fun m => m.give acc

/-- Starts an array method that has a callback. -/
def iterate (m : Machine) (method : ArrayMethod) (array : Ref) (args : List Value) : Machine :=
  let callback := argument args 0
  match method with
  | .forEach => m.forEachFrom array callback 0
  | .map => m.mapFrom array callback 0 []
  | .reduce =>
    if 2 ≤ args.length then m.reduceFrom array callback 0 (argument args 1)
    else
      match (m.store.array array)[0]? with
      | some first => m.reduceFrom array callback 1 first
      | none => m.throwFault .reduceOfEmpty
  | _ => m.give .undefined

def callBuiltin (m : Machine) (b : BoundBuiltin) (args : List Value) : Machine :=
  let number (i : Nat) : Float := m.store.toNumber (argument args i)
  match b.builtin with
  | .log => (m.print (String.intercalate " " (args.map m.store.inspect))).give .undefined
  | .floor => m.give (.number (number 0).floor)
  | .abs => m.give (.number (number 0).abs)
  | .max =>
    m.give (.number (m.store.foldNumbers args Binary64.negInfinity
      fun a x => if a < x then x else a))
  | .min =>
    m.give (.number (m.store.foldNumbers args Binary64.infinity fun a x => if x < a then x else a))
  | .construct kind =>
    m.giveFrom fun s => s.newError (s.constructError kind (argument args 0))
  | .array method =>
    match b.receiver with
    | some (.array ref) =>
      if method.hasCallback then m.iterate method ref args
      else m.giveFrom fun s => s.callArrayMethod method ref args
    | _ => m.throwFault (.wrongReceiver b.builtin.name)
  | .string method =>
    match b.receiver with
    | some (.string t) => m.give (m.store.callStringMethod method t (argument args 0))
    | _ => m.throwFault (.wrongReceiver b.builtin.name)

def calleeText (e : Setting) (m : Machine) : CalleeName → String
  | .source id => e.textOf id
  | .shown v => m.store.inspect v

/-- Calls a value. -/
def call (e : Setting) (m : Machine) (f : Value) (args : List Value) (name : CalleeName) :
    Machine :=
  match f with
  | .function ref => m.callClosure e (m.store.closure ref) args
  | .builtin ref => m.callBuiltin (m.store.builtin ref) args
  | _ => m.throwFault (.notAFunction (calleeText e m name))

/-- Constructs with a value: an error constructor, or a function of the script, whose result
counts only if it is an object, an array or an error. -/
def construct (e : Setting) (m : Machine) (f : Value) (args : List Value) (callee : NodeId) :
    Machine :=
  match f with
  | .function ref => (m.push .construct).callClosure e (m.store.closure ref) args
  | .builtin ref =>
    match (m.store.builtin ref).builtin with
    | .construct _ => m.callBuiltin (m.store.builtin ref) args
    | _ => m.throwFault (.notAConstructor (e.textOf callee))
  | _ => m.throwFault (.notAConstructor (e.textOf callee))

end ScriptDebugger.Machine
