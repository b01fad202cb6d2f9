import ScriptDebugger.Source.Span
import ScriptDebugger.Token.Punct
import ScriptDebugger.Token.Word

/-!
# Tokens

A token is a lexeme that the grammar sees, with its literal read: the value
of a number, the text of a string, the keyword that a word is. What stood
between it and the token before survives only as two marks. A lexical error says
what keeps a lexeme from being a token, and where.
-/

namespace ScriptDebugger

inductive TokenKind where
  | ident (name : String)
  | number (value : Float)
  | string (text : String)
  | keyword (word : Keyword)
  | reserved (word : String)
  | punct (p : Punct)
  | endOfInput
  deriving Repr, Inhabited

namespace TokenKind

/-- How a message names a token. -/
def describe : TokenKind → String
  | ident name => s!"identifier `{name}`"
  | number _ => "number"
  | string _ => "string"
  | keyword word => s!"`{word.text}`"
  | reserved word => s!"`{word}`"
  | punct p => s!"`{p.text}`"
  | endOfInput => "end of input"

def isPunct (p : Punct) : TokenKind → Bool
  | punct q => p == q
  | _ => false

def isKeyword (word : Keyword) : TokenKind → Bool
  | keyword k => k == word
  | _ => false

def isReservedWord (word : String) : TokenKind → Bool
  | reserved w => w == word
  | _ => false

def isEndOfInput : TokenKind → Bool
  | endOfInput => true
  | _ => false

end TokenKind

structure Token where
  kind : TokenKind
  span : Span
  /-- A line break, perhaps within a comment, stands before the token. -/
  newlineBefore : Bool
  /-- A comment stands before the token. -/
  commentBefore : Bool
  deriving Repr, Inhabited

inductive LexFault where
  | unterminatedString
  | unterminatedComment
  | invalidEscape (c : Char)
  | malformedNumber (text : String)
  | unsupportedOperator (text : String)
  | unexpectedChar (c : Char)
  deriving DecidableEq, Repr, Inhabited

def LexFault.message : LexFault → String
  | unterminatedString => "unterminated string literal"
  | unterminatedComment => "unterminated block comment"
  | invalidEscape c => "invalid escape `\\" ++ c.toString ++ "` in string literal"
  | malformedNumber text => s!"malformed number `{text}`"
  | unsupportedOperator text => s!"unsupported operator `{text}`"
  | unexpectedChar c => s!"unexpected character `{c}`"

structure LexError where
  fault : LexFault
  span : Span
  deriving DecidableEq, Repr, Inhabited

def LexError.message (e : LexError) : String := s!"{e.fault.message} at {e.span.toText}"

end ScriptDebugger
