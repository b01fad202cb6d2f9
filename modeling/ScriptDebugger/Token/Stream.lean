import ScriptDebugger.Token.Basic
import ScriptDebugger.Token.Lexeme

/-!
# Token streams

Reads the lexemes of a text into tokens. Blanks, line breaks and comments
leave only marks on the token that follows them; the stream ends with one
token for the end of input.
-/

namespace ScriptDebugger.Token

/-- The character that a backslash and `c` stand for in a string. -/
def escape? (c : Char) : Option Char :=
  match c with
  | 'n' => some '\n'
  | 't' => some '\t'
  | 'r' => some '\r'
  | '0' => some '\x00'
  | 'b' => some '\x08'
  | 'f' => some '\x0c'
  | 'v' => some '\x0b'
  | '\\' => some '\\'
  | '\'' => some '\''
  | '"' => some '"'
  | _ => none

/-- The text between the quotes of a string, with escapes replaced. -/
def unescape : List Char → Except LexFault (List Char)
  | [] => .ok []
  | ['\\'] => .error .unterminatedString
  | '\\' :: c :: cs =>
    match escape? c with
    | some d => (unescape cs).map (d :: ·)
    | none => .error (.invalidEscape c)
  | c :: cs => (unescape cs).map (c :: ·)

/-- The text of a string lexeme, quotes included. -/
def readString (cs : List Char) : Except LexFault String :=
  (unescape (cs.drop 1).dropLast).map String.ofList

/-- The value of a number lexeme. -/
def readNumber (cs : List Char) : Except LexFault Float :=
  let value := match cs with
    | '0' :: 'x' :: ds => Number.readHex? ds
    | '0' :: 'X' :: ds => Number.readHex? ds
    | _ => Number.readFloat? cs
  match value with
  | some x => .ok x
  | none => .error (.malformedNumber (String.ofList cs))

def ofWord (word : String) : TokenKind :=
  match Keyword.ofText? word with
  | some k => .keyword k
  | none => if isReserved word then .reserved word else .ident word

/-- The token that a lexeme is; none for what only separates tokens. -/
def kindOf? (l : Lexeme) : Except LexFault (Option TokenKind) :=
  match l.kind with
  | .blank | .newline | .lineComment | .blockComment => .ok none
  | .word => .ok (some (ofWord l.text))
  | .number => (readNumber l.chars).map fun x => some (.number x)
  | .string => (readString l.chars).map fun s => some (.string s)
  | .punct p => .ok (some (.punct p))
  | .openString => .error .unterminatedString
  | .openComment => .error .unterminatedComment
  | .unsupported => .error (.unsupportedOperator l.text)
  | .unexpected => .error (.unexpectedChar (l.chars.headD '\ufffd'))

def bringsNewline (l : Lexeme) : Bool :=
  match l.kind with
  | .newline => true
  | .blockComment => l.chars.any Lexeme.isLineBreak
  | _ => false

def bringsComment (l : Lexeme) : Bool :=
  match l.kind with
  | .lineComment | .blockComment => true
  | _ => false

/-- Reads lexemes that start at byte `offset`; `newline` and `comment` say what has stood since
the last token. -/
def ofLexemes (offset : Nat) (newline comment : Bool) : List Lexeme → Except LexError (List Token)
  | [] => .ok [⟨.endOfInput, .point offset, newline, comment⟩]
  | l :: rest =>
    let span : Span := ⟨offset, offset + l.size⟩
    match kindOf? l with
    | .error fault => .error ⟨fault, span⟩
    | .ok (some kind) =>
      (ofLexemes span.stop false false rest).map (⟨kind, span, newline, comment⟩ :: ·)
    | .ok none => ofLexemes span.stop (newline || bringsNewline l) (comment || bringsComment l) rest

def ofText (text : String) : Except LexError (List Token) :=
  ofLexemes 0 false false (Lexeme.ofText text)

end ScriptDebugger.Token
