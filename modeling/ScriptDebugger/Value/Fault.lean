import ScriptDebugger.Value.Convert

/-!
# Faults

What evaluation itself throws, each with the kind and the message of the
error object that the script sees.
-/

namespace ScriptDebugger

inductive Fault where
  | notDefined (name : String)
  | assignmentToConstant
  | notAFunction (callee : String)
  | notAConstructor (callee : String)
  | cannotRead (receiver key : String)
  | cannotSet (receiver key : String)
  | reduceOfEmpty
  /-- A method that was called apart from a value it belongs to. -/
  | wrongReceiver (method : String)
  | stackExceeded
  | invalidArrayLength
  deriving DecidableEq, Repr, Inhabited

namespace Fault

def kind : Fault → ErrorKind
  | notDefined _ => .referenceError
  | assignmentToConstant | notAFunction _ | notAConstructor _ | cannotRead .. | cannotSet ..
  | reduceOfEmpty | wrongReceiver _ => .typeError
  | stackExceeded | invalidArrayLength => .rangeError

def message : Fault → String
  | notDefined name => s!"{name} is not defined"
  | assignmentToConstant => "Assignment to constant variable."
  | notAFunction callee => s!"{callee} is not a function"
  | notAConstructor callee => s!"{callee} is not a constructor"
  | cannotRead receiver key => s!"Cannot read properties of {receiver} (reading '{key}')"
  | cannotSet receiver key => s!"Cannot set properties of {receiver} (setting '{key}')"
  | reduceOfEmpty => "Reduce of empty array with no initial value"
  | wrongReceiver method => s!"{method} called on a value of the wrong type"
  | stackExceeded => "Maximum call stack size exceeded"
  | invalidArrayLength => "Invalid array length"

def toError (f : Fault) : ErrorObject := { name := f.kind.name, message := f.message }

end Fault

end ScriptDebugger
