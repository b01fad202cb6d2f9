/-!
# Operators

The operators of expressions and their source text. Binary and logical
operators carry their level of precedence: one that binds tighter has the
higher level.
-/

namespace ScriptDebugger

inductive BinaryOp where
  | add | sub | mul | div | rem
  | less | lessEq | greater | greaterEq
  | looseEq | looseNotEq | strictEq | strictNotEq
  deriving DecidableEq, Repr, Inhabited

namespace BinaryOp

def text : BinaryOp → String
  | add => "+"
  | sub => "-"
  | mul => "*"
  | div => "/"
  | rem => "%"
  | less => "<"
  | lessEq => "<="
  | greater => ">"
  | greaterEq => ">="
  | looseEq => "=="
  | looseNotEq => "!="
  | strictEq => "==="
  | strictNotEq => "!=="

def level : BinaryOp → Nat
  | looseEq | looseNotEq | strictEq | strictNotEq => 3
  | less | lessEq | greater | greaterEq => 4
  | add | sub => 5
  | mul | div | rem => 6

def all : List BinaryOp :=
  [add, sub, mul, div, rem, less, lessEq, greater, greaterEq, looseEq, looseNotEq, strictEq,
    strictNotEq]

end BinaryOp

/-- Operators that need not evaluate their right side. -/
inductive LogicalOp where
  | and | or
  deriving DecidableEq, Repr, Inhabited

def LogicalOp.text : LogicalOp → String
  | and => "&&"
  | or => "||"

def LogicalOp.level : LogicalOp → Nat
  | or => 1
  | and => 2

inductive UnaryOp where
  | not | neg | plus | typeOf
  deriving DecidableEq, Repr, Inhabited

def UnaryOp.text : UnaryOp → String
  | not => "!"
  | neg => "-"
  | plus => "+"
  | typeOf => "typeof"

inductive UpdateOp where
  | increment | decrement
  deriving DecidableEq, Repr, Inhabited

def UpdateOp.text : UpdateOp → String
  | increment => "++"
  | decrement => "--"

/-- Plain assignment, or one that first combines the old value with the new. -/
inductive AssignOp where
  | assign
  | compound (op : BinaryOp)
  deriving DecidableEq, Repr, Inhabited

def AssignOp.text : AssignOp → String
  | assign => "="
  | compound op => op.text ++ "="

end ScriptDebugger
