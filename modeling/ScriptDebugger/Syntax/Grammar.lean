import ScriptDebugger.Number.Notation
import ScriptDebugger.Syntax.Cursor
import ScriptDebugger.Syntax.NodeKind

/-!
# Grammar

What the token at hand decides: which operator it is and how tightly it binds,
whether a statement may end there, and what is said of a word that nothing can
begin with. A statement ends at a semicolon; the semicolon may be missing before
a closing brace, at the end of input and before a line break.
-/

namespace ScriptDebugger.Grammar

abbrev Result := Except ParseError

/-- Where a statement stands: `return` needs a function around it, `break` and `continue` a loop
within that function. -/
structure Context where
  inFunction : Bool
  inLoop : Bool
  deriving DecidableEq, Repr, Inhabited

def tooDeep (c : Cursor) : ParseError := ⟨.tooDeep, c.span⟩

/-- A binary or logical operator. -/
inductive Infix where
  | binary (op : BinaryOp)
  | logical (op : LogicalOp)
  deriving DecidableEq, Repr, Inhabited

def Infix.level : Infix → Nat
  | binary op => op.level
  | logical op => op.level

/-- The node of an operator between two operands. -/
def Infix.kind {α : Type} (op : Infix) (left right : α) : NodeKind α :=
  match op with
  | binary op => .binaryExpression op left right
  | logical op => .logicalExpression op left right

def infix? : TokenKind → Option Infix
  | .punct .or => some (.logical .or)
  | .punct .and => some (.logical .and)
  | .punct .equal => some (.binary .looseEq)
  | .punct .notEqual => some (.binary .looseNotEq)
  | .punct .strictEqual => some (.binary .strictEq)
  | .punct .strictNotEqual => some (.binary .strictNotEq)
  | .punct .less => some (.binary .less)
  | .punct .lessEqual => some (.binary .lessEq)
  | .punct .greater => some (.binary .greater)
  | .punct .greaterEqual => some (.binary .greaterEq)
  | .punct .plus => some (.binary .add)
  | .punct .minus => some (.binary .sub)
  | .punct .star => some (.binary .mul)
  | .punct .slash => some (.binary .div)
  | .punct .percent => some (.binary .rem)
  | _ => none

def assignOp? : TokenKind → Option AssignOp
  | .punct .assign => some .assign
  | .punct .plusAssign => some (.compound .add)
  | .punct .minusAssign => some (.compound .sub)
  | .punct .starAssign => some (.compound .mul)
  | .punct .slashAssign => some (.compound .div)
  | .punct .percentAssign => some (.compound .rem)
  | _ => none

def unaryOp? : TokenKind → Option UnaryOp
  | .punct .bang => some .not
  | .punct .minus => some .neg
  | .punct .plus => some .plus
  | .keyword .typeofWord => some .typeOf
  | _ => none

def updateOp? : TokenKind → Option UpdateOp
  | .punct .increment => some .increment
  | .punct .decrement => some .decrement
  | _ => none
/-- The key of a property in an object literal. -/
def propertyKey (c : Cursor) : Result (String × Cursor) :=
  match c.kind with
  | .ident name | .string name | .reserved name => .ok (name, c.advance)
  | .number x => .ok (Number.format x, c.advance)
  | _ => .error (c.unexpected .propertyKey)

/-- Fails where an arrow stands. -/
def refuseArrow (c : Cursor) : Result Unit :=
  if c.at? .arrow then .error ⟨.unsupported .arrowFunctions, c.span⟩ else .ok ()

/-- Whether a statement may end here without a semicolon. -/
def mayEnd (c : Cursor) : Bool := c.at? .rightBrace || c.atEnd || c.newlineBefore

/-- The end of a statement. -/
def endStatement (c : Cursor) : Result Cursor :=
  if c.at? .semicolon then .ok c.advance
  else if mayEnd c then .ok c
  else do
    refuseArrow c
    .error (c.unexpected (.punct .semicolon))

def reservedFault (word : String) : ParseFault :=
  match Construct.ofWord? word with
  | some construct => .unsupported construct
  | none => .unsupportedWord word

/-- A depth that suffices for `n` tokens: no more than this many calls lie between two tokens
that are consumed. -/
def depthFor (n : Nat) : Nat := 16 * (n + 1)

end ScriptDebugger.Grammar
