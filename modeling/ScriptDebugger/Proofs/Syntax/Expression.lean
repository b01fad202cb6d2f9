import ScriptDebugger.Proofs.Syntax.Moved

/-!
# Expressions in print

Expressions apart from any text, made of names, literals, arrays, operators,
calls and member accesses, and the tokens they are printed as. An operand stands
in parentheses exactly where it binds too loosely for its place: operators join
to the left, assignments and conditionals to the right.
-/

namespace ScriptDebugger

/-- The operators of assignments that there are tokens for. -/
inductive AssignSign where
  | plain | add | sub | mul | div | rem
  deriving DecidableEq, Repr

namespace AssignSign

def op : AssignSign → AssignOp
  | plain => .assign
  | add => .compound .add
  | sub => .compound .sub
  | mul => .compound .mul
  | div => .compound .div
  | rem => .compound .rem

def token : AssignSign → TokenKind
  | plain => .punct .assign
  | add => .punct .plusAssign
  | sub => .punct .minusAssign
  | mul => .punct .starAssign
  | div => .punct .slashAssign
  | rem => .punct .percentAssign

end AssignSign

namespace Grammar

def Infix.token : Infix → TokenKind
  | .logical .or => .punct .or
  | .logical .and => .punct .and
  | .binary .looseEq => .punct .equal
  | .binary .looseNotEq => .punct .notEqual
  | .binary .strictEq => .punct .strictEqual
  | .binary .strictNotEq => .punct .strictNotEqual
  | .binary .less => .punct .less
  | .binary .lessEq => .punct .lessEqual
  | .binary .greater => .punct .greater
  | .binary .greaterEq => .punct .greaterEqual
  | .binary .add => .punct .plus
  | .binary .sub => .punct .minus
  | .binary .mul => .punct .star
  | .binary .div => .punct .slash
  | .binary .rem => .punct .percent

end Grammar

def UnaryOp.token : UnaryOp → TokenKind
  | not => .punct .bang
  | neg => .punct .minus
  | plus => .punct .plus
  | typeOf => .keyword .typeofWord

def UpdateOp.token : UpdateOp → TokenKind
  | increment => .punct .increment
  | decrement => .punct .decrement

def Literal.token : Literal → TokenKind
  | number x => .number x
  | string s => .string s
  | bool true => .keyword .trueWord
  | bool false => .keyword .falseWord
  | null => .keyword .nullWord

namespace Grammar

lemma infix?_token (op : Infix) : infix? op.token = some op := by
  rcases op with op | op <;> cases op <;> rfl

lemma assignOp?_token (sign : AssignSign) : assignOp? sign.token = some sign.op := by
  cases sign <;> rfl

lemma unaryOp?_token (op : UnaryOp) : unaryOp? op.token = some op := by cases op <;> rfl

lemma updateOp?_token (op : UpdateOp) : updateOp? op.token = some op := by cases op <;> rfl

lemma literal?_token (value : Literal) : literal? value.token = some value := by
  rcases value with _ | _ | (_ | _) | _ <;> rfl

end Grammar

mutual

inductive Expression where
  | reference (target : Reference)
  | literal (value : Literal)
  | array (items : List Expression)
  | unary (op : UnaryOp) (argument : Expression)
  | update (op : UpdateOp) (before : Bool) (target : Reference)
  | joined (op : Grammar.Infix) (left right : Expression)
  | assignment (sign : AssignSign) (target : Reference) (value : Expression)
  | conditional (test consequent alternate : Expression)
  | call (callee : Expression) (arguments : List Expression)

/-- What can be assigned to. -/
inductive Reference where
  | identifier (name : String)
  | member (object : Expression) (name : String)
  | element (object key : Expression)

end

/-- How tight an expression binds: assignments 1, conditionals 2, operators from `||` to the
multiplicative ones 3 to 8, unary operators 9, updates behind their operand 10, calls and member
accesses 11, all others 12. -/
def Expression.level : Expression → Nat
  | assignment .. => 1
  | conditional .. => 2
  | joined op _ _ => op.level + 2
  | unary .. | update _ true _ => 9
  | update _ false _ => 10
  | call .. | reference (.member ..) | reference (.element ..) => 11
  | reference (.identifier _) | literal _ | array _ => 12

namespace Phrase

/-- A phrase without a place in a text. -/
def of (kind : NodeKind Phrase) : Phrase := ⟨⟨0, 0⟩, kind⟩

/-- The same phrase without its place in a text. -/
def bare (p : Phrase) : Phrase := p.move fun _ => 0

lemma bare_mk (span : Span) (kind : NodeKind Phrase) : bare ⟨span, kind⟩ = of (kind.map bare) :=
  move_mk (fun _ => 0) span kind

end Phrase

mutual

/-- The phrase that an expression is the text of. -/
def Expression.phrase : Expression → Phrase
  | .reference target => target.phrase
  | .literal value => .of (.literal value)
  | .array items => .of (.arrayExpression (phrases items))
  | .unary op argument => .of (.unaryExpression op argument.phrase)
  | .update op before target => .of (.updateExpression op before target.phrase)
  | .joined op left right => .of (op.node left.phrase right.phrase).kind
  | .assignment sign target value =>
    .of (.assignmentExpression sign.op target.phrase value.phrase)
  | .conditional test consequent alternate =>
    .of (.conditionalExpression test.phrase consequent.phrase alternate.phrase)
  | .call callee arguments => .of (.callExpression callee.phrase (phrases arguments))

def Reference.phrase : Reference → Phrase
  | .identifier name => .of (.identifier name)
  | .member object name => .of (.memberExpression object.phrase (.of (.identifier name)) false)
  | .element object key => .of (.memberExpression object.phrase key.phrase true)

def phrases : List Expression → List Phrase
  | [] => []
  | e :: es => e.phrase :: phrases es

end

/-- What the order of precedence leaves open. -/
structure Spelling where
  /-- The token of a name behind a point, where a reserved word is a name as well. -/
  word : String → TokenKind
  word_eq (name : String) : word name = .ident name ∨ word name = .reserved name
  /-- The levels that the branches of a conditional must have. The grammar takes any expression
  there. -/
  consequent : Nat
  alternate : Nat

/-- The tokens of an operand of some level, in parentheses if its place asks for a higher one. -/
def enclosed (least level : Nat) (tokens : List TokenKind) : List TokenKind :=
  if level < least then .punct .leftParen :: (tokens ++ [.punct .rightParen]) else tokens

mutual

def Expression.print (s : Spelling) : Expression → List TokenKind
  | .reference target => target.print s
  | .literal value => [value.token]
  | .array items => .punct .leftBracket :: (printAll s items ++ [.punct .rightBracket])
  | .unary op argument => op.token :: enclosed 9 argument.level (argument.print s)
  | .update op true target => op.token :: target.print s
  | .update op false target => target.print s ++ [op.token]
  | .joined op left right =>
    enclosed (op.level + 2) left.level (left.print s) ++
      op.token :: enclosed (op.level + 3) right.level (right.print s)
  | .assignment sign target value => target.print s ++ sign.token :: value.print s
  | .conditional test consequent alternate =>
    enclosed 3 test.level (test.print s) ++
      .punct .question :: (enclosed s.consequent consequent.level (consequent.print s) ++
        .punct .colon :: enclosed s.alternate alternate.level (alternate.print s))
  | .call callee arguments =>
    enclosed 11 callee.level (callee.print s) ++
      .punct .leftParen :: (printAll s arguments ++ [.punct .rightParen])

def Reference.print (s : Spelling) : Reference → List TokenKind
  | .identifier name => [.ident name]
  | .member object name =>
    enclosed 11 object.level (object.print s) ++ [.punct .dot, s.word name]
  | .element object key =>
    enclosed 11 object.level (object.print s) ++
      .punct .leftBracket :: (key.print s ++ [.punct .rightBracket])

/-- Expressions with commas between them. -/
def printAll (s : Spelling) : List Expression → List TokenKind
  | [] => []
  | [e] => e.print s
  | e :: e' :: es => e.print s ++ .punct .comma :: printAll s (e' :: es)

end

/-- Operators join to the left, so only an operand on the right needs parentheses. -/
example (s : Spelling) :
    let x := Expression.reference (.identifier "x")
    let sub := Expression.joined (.binary .sub)
    (sub (sub x x) (sub x x)).print s =
      [.ident "x", .punct .minus, .ident "x", .punct .minus, .punct .leftParen, .ident "x",
        .punct .minus, .ident "x", .punct .rightParen] := rfl

/-- No token of the text is the end of input. -/
def Inside (ks : List TokenKind) : Prop := ∀ k ∈ ks, k.isEndOfInput = false

@[simp] lemma inside_cons {k : TokenKind} {ks : List TokenKind} :
    Inside (k :: ks) ↔ k.isEndOfInput = false ∧ Inside ks := List.forall_mem_cons

@[simp] lemma inside_append {ks ls : List TokenKind} :
    Inside (ks ++ ls) ↔ Inside ks ∧ Inside ls := List.forall_mem_append

@[simp] lemma inside_nil : Inside [] := List.forall_mem_nil _

@[simp] lemma inside_punct (p : Punct) : (TokenKind.punct p).isEndOfInput = false := rfl

lemma Inside.enclosed {ks : List TokenKind} (h : Inside ks) (least level : Nat) :
    Inside (enclosed least level ks) := by
  unfold ScriptDebugger.enclosed
  split
  case isTrue => simp [h]
  case isFalse => exact h

lemma Grammar.Infix.inside_token (op : Grammar.Infix) : op.token.isEndOfInput = false := by
  rcases op with op | op <;> cases op <;> rfl

lemma UnaryOp.inside_token (op : UnaryOp) : op.token.isEndOfInput = false := by cases op <;> rfl

lemma UpdateOp.inside_token (op : UpdateOp) : op.token.isEndOfInput = false := by cases op <;> rfl

lemma AssignSign.inside_token (sign : AssignSign) : sign.token.isEndOfInput = false := by
  cases sign <;> rfl

lemma Literal.inside_token (value : Literal) : value.token.isEndOfInput = false := by
  rcases value with _ | _ | (_ | _) | _ <;> rfl

variable (s : Spelling)

lemma Spelling.inside_word (name : String) : (s.word name).isEndOfInput = false := by
  rcases s.word_eq name with h | h <;> rw [h] <;> rfl

mutual

theorem Expression.inside_print : ∀ e : Expression, Inside (e.print s)
  | .reference target => target.inside_print
  | .literal value => by simp [Expression.print, value.inside_token]
  | .array items => by simp [Expression.print, inside_printAll items]
  | .unary op argument => by
    simp [Expression.print, op.inside_token, argument.inside_print.enclosed]
  | .update op true target => by simp [Expression.print, op.inside_token, target.inside_print]
  | .update op false target => by simp [Expression.print, op.inside_token, target.inside_print]
  | .joined op left right => by
    simp [Expression.print, op.inside_token, left.inside_print.enclosed,
      right.inside_print.enclosed]
  | .assignment sign target value => by
    simp [Expression.print, sign.inside_token, target.inside_print, value.inside_print]
  | .conditional test consequent alternate => by
    simp [Expression.print, test.inside_print.enclosed,
      consequent.inside_print.enclosed, alternate.inside_print.enclosed]
  | .call callee arguments => by
    simp [Expression.print, callee.inside_print.enclosed,
      inside_printAll arguments]

theorem Reference.inside_print : ∀ target : Reference, Inside (target.print s)
  | .identifier name => by simp [Reference.print, TokenKind.isEndOfInput]
  | .member object name => by
    simp [Reference.print, object.inside_print.enclosed, s.inside_word]
  | .element object key => by
    simp [Reference.print, object.inside_print.enclosed, key.inside_print]

theorem inside_printAll : ∀ es : List Expression, Inside (printAll s es)
  | [] => inside_nil
  | [e] => e.inside_print
  | e :: e' :: es => by
    simp [printAll, e.inside_print, inside_printAll (e' :: es)]

end

end ScriptDebugger
