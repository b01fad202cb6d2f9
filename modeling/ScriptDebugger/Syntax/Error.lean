import ScriptDebugger.Token.Basic

/-!
# Parse errors

Why a text is no program, and where.
-/

namespace ScriptDebugger

/-- What the grammar would have accepted. -/
inductive Expected where
  | punct (p : Punct)
  | expression
  | identifier
  | propertyName
  | propertyKey
  deriving DecidableEq, Repr, Inhabited

def Expected.describe : Expected → String
  | punct p => s!"`{p.text}`"
  | expression => "expression"
  | identifier => "identifier"
  | propertyName => "property name"
  | propertyKey => "property key"

/-- Constructs that scripts do not have. -/
inductive Construct where
  | arrowFunctions
  | iterationOver
  | tryCatch
  | classes
  | switch
  | doWhile
  | modules
  deriving DecidableEq, Repr, Inhabited

def Construct.describe : Construct → String
  | arrowFunctions => "arrow functions"
  | iterationOver => "for-in/for-of loops"
  | tryCatch => "try/catch statements"
  | classes => "classes"
  | switch => "switch statements"
  | doWhile => "do-while loops"
  | modules => "module imports/exports"

/-- The construct that a reserved word would have started. -/
def Construct.ofWord? (word : String) : Option Construct :=
  if ["try", "catch", "finally"].contains word then some tryCatch
  else if ["class", "extends", "super"].contains word then some classes
  else if ["switch", "case", "default"].contains word then some switch
  else if word == "do" then some doWhile
  else if ["import", "export"].contains word then some modules
  else none

inductive ParseFault where
  | lexical (fault : LexFault)
  | unexpected (expected : Expected) (found : TokenKind)
  | unsupported (construct : Construct)
  | unsupportedWord (word : String)
  | invalidAssignmentTarget
  | illegalReturn
  | illegalBreak
  | illegalContinue
  | newlineAfterThrow
  /-- The bound on the depth of the search was too small for the text. -/
  | tooDeep
  deriving Repr, Inhabited

def ParseFault.message : ParseFault → String
  | lexical fault => fault.message
  | unexpected expected found => s!"expected {expected.describe}, found {found.describe}"
  | unsupported construct => s!"{construct.describe} are not supported"
  | unsupportedWord word => s!"`{word}` is not supported"
  | invalidAssignmentTarget => "invalid assignment target"
  | illegalReturn => "`return` outside of function"
  | illegalBreak => "`break` outside of loop"
  | illegalContinue => "`continue` outside of loop"
  | newlineAfterThrow => "illegal newline after `throw`"
  | tooDeep => "nesting too deep"

structure ParseError where
  fault : ParseFault
  span : Span
  deriving Repr, Inhabited

namespace ParseError

def message (e : ParseError) : String := s!"{e.fault.message} ({e.span.toText})"

def ofLex (e : LexError) : ParseError := ⟨.lexical e.fault, e.span⟩

end ParseError

end ScriptDebugger
