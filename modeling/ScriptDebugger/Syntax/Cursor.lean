import ScriptDebugger.Syntax.Error

/-!
# Token cursors

What is left of a token stream, and where the last token that was consumed
ended. Nothing moves past the end of input.
-/

namespace ScriptDebugger

structure Cursor where
  tokens : List Token
  /-- Where the last consumed token ended; 0 before the first. -/
  lastStop : Nat
  deriving Repr, Inhabited

namespace Cursor

def start (tokens : List Token) : Cursor := { tokens, lastStop := 0 }

/-- The token at hand; without one, the end of input. -/
def current (c : Cursor) : Token :=
  match c.tokens with
  | t :: _ => t
  | [] => ⟨.endOfInput, .point c.lastStop, false, false⟩

def kind (c : Cursor) : TokenKind := c.current.kind

def span (c : Cursor) : Span := c.current.span

def newlineBefore (c : Cursor) : Bool := c.current.newlineBefore

def atEnd (c : Cursor) : Bool := c.kind.isEndOfInput

/-- Consumes the token at hand, unless it is the end of input. -/
def advance (c : Cursor) : Cursor :=
  match c.tokens with
  | [] => c
  | t :: rest => if t.kind.isEndOfInput then c else { tokens := rest, lastStop := t.span.stop }

def at? (c : Cursor) (p : Punct) : Bool := c.kind.isPunct p

def atKeyword? (c : Cursor) (k : Keyword) : Bool := c.kind.isKeyword k

def unexpected (c : Cursor) (expected : Expected) : ParseError :=
  ⟨.unexpected expected c.kind, c.span⟩

/-- Consumes a delimiter that must be at hand. -/
def expect (c : Cursor) (p : Punct) : Except ParseError Cursor :=
  if c.at? p then .ok c.advance else .error (c.unexpected (.punct p))

/-- From the start of `s` to the end of the last consumed token. -/
def spanFrom (c : Cursor) (s : Span) : Span := ⟨s.start, max c.lastStop s.stop⟩

end Cursor

end ScriptDebugger
