import ScriptDebugger.Source.Span
import ScriptDebugger.Number.Decimal
import ScriptDebugger.Token.Punct

/-!
# Lexemes

A lexeme is a stretch of source text together with what kind of text it is.
Every text splits into lexemes: what cannot be read is a lexeme of a kind that
says so. `extent c cs` decides, for a text that starts with the character `c`,
the kind of the first lexeme and how many characters after `c` belong to it.
-/

namespace ScriptDebugger

/-- Kinds of source text. -/
inductive LexemeKind where
  | blank
  | newline
  | lineComment
  | blockComment
  | word
  | number
  | string
  | punct (p : Punct)
  /-- A string that its line ends before its closing quote. -/
  | openString
  /-- A block comment that the text ends before its closing mark. -/
  | openComment
  /-- An operator character that scripts do not have. -/
  | unsupported
  /-- A character that starts no text of any other kind. -/
  | unexpected
  deriving DecidableEq, Repr, Inhabited

/-- Blanks, line breaks and comments separate tokens and are none themselves. -/
def LexemeKind.isTrivia : LexemeKind → Bool
  | blank | newline | lineComment | blockComment => true
  | _ => false

structure Lexeme where
  kind : LexemeKind
  chars : List Char
  deriving DecidableEq, Repr, Inhabited

namespace Lexeme

def text (l : Lexeme) : String := String.ofList l.chars

/-- Length in bytes. -/
def size (l : Lexeme) : Nat := byteLength l.chars

def isBlank (c : Char) : Bool := c == ' ' || c == '\t' || c == '\x0b' || c == '\x0c'

def isLineBreak (c : Char) : Bool := c == '\n' || c == '\r'

def isWordStart (c : Char) : Bool :=
  decide ('a' ≤ c ∧ c ≤ 'z') || decide ('A' ≤ c ∧ c ≤ 'Z') || c == '_' || c == '$'

def isWordPart (c : Char) : Bool := isWordStart c || Number.isDigit c

def isQuote (c : Char) : Bool := c == '"' || c == '\''

/-- Operator characters that scripts do not have; `&` and `|` are among them unless doubled. -/
def isUnsupported (c : Char) : Bool :=
  ['^', '~', '#', '@', '\x60', '\\', '&', '|'].contains c

/-- How many characters at the start satisfy `p`. -/
def run (p : Char → Bool) (cs : List Char) : Nat := (cs.takeWhile p).length

/-- Length of a point and the digits after it. -/
def fractionLength : List Char → Nat
  | '.' :: cs => 1 + run Number.isDigit cs
  | _ => 0

/-- Length of an exponent part; without a digit it has none. -/
def exponentLength : List Char → Nat
  | e :: cs =>
    if e = 'e' ∨ e = 'E' then
      match cs with
      | s :: ds =>
        if s = '+' ∨ s = '-' then
          let n := run Number.isDigit ds
          if n = 0 then 0 else 2 + n
        else
          let n := run Number.isDigit cs
          if n = 0 then 0 else 1 + n
      | [] => 0
    else 0
  | [] => 0

/-- Length of a decimal number and of the word characters that run on from it. -/
def decimalLength (cs : List Char) : Nat :=
  let whole := run Number.isDigit cs
  let fraction := fractionLength (cs.drop whole)
  let exponent := exponentLength (cs.drop (whole + fraction))
  let word := run isWordPart (cs.drop (whole + fraction + exponent))
  whole + fraction + exponent + word

/-- Length of the number that a text starts with; a hexadecimal one ends with its last digit. -/
def numberLength : List Char → Nat
  | '0' :: x :: cs =>
    if x = 'x' ∨ x = 'X' then 2 + run Number.isHexDigit cs else decimalLength ('0' :: x :: cs)
  | cs => decimalLength cs

/-- What follows an opening quote: whether the string is closed and the length up to there. A
backslash takes the next character with it, whatever it is. -/
def stringTail (quote : Char) : List Char → Bool × Nat
  | [] => (false, 0)
  | ['\\'] => (false, 1)
  | '\\' :: _ :: cs =>
    let (closed, n) := stringTail quote cs
    (closed, n + 2)
  | c :: cs =>
    if isLineBreak c then (false, 0)
    else if c = quote then (true, 1)
    else
      let (closed, n) := stringTail quote cs
      (closed, n + 1)

/-- What follows the opening mark of a block comment. -/
def commentTail : List Char → Bool × Nat
  | [] => (false, 0)
  | '*' :: '/' :: _ => (true, 2)
  | _ :: cs =>
    let (closed, n) := commentTail cs
    (closed, n + 1)

/-- A delimiter or operator, or what stands for one that cannot be read. -/
def punctExtent (c : Char) (cs : List Char) : LexemeKind × Nat :=
  match Punct.longest? (c :: cs) with
  | some p => (.punct p, p.chars.length - 1)
  | none => if isUnsupported c then (.unsupported, 0) else (.unexpected, 0)

/-- Kind of the first lexeme of `c :: cs`, and how many characters of `cs` belong to it. -/
def extent (c : Char) (cs : List Char) : LexemeKind × Nat :=
  if isBlank c then (.blank, run isBlank cs)
  else if c = '\n' then (.newline, 0)
  else if c = '\r' then (.newline, if cs.head? = some '\n' then 1 else 0)
  else if isWordStart c then (.word, run isWordPart cs)
  else if Number.isDigit c || (c == '.' && cs.head?.any Number.isDigit) then
    (.number, numberLength (c :: cs) - 1)
  else if isQuote c then
    let (closed, n) := stringTail c cs
    (if closed then .string else .openString, n)
  else if c = '/' then
    match cs with
    | '/' :: rest => (.lineComment, 1 + run (fun d => !isLineBreak d) rest)
    | '*' :: rest =>
      let (closed, n) := commentTail rest
      (if closed then .blockComment else .openComment, 1 + n)
    | _ => punctExtent c cs
  else punctExtent c cs

/-- Splits a text into its lexemes. -/
def ofChars : List Char → List Lexeme
  | [] => []
  | c :: cs =>
    let (kind, n) := extent c cs
    ⟨kind, c :: cs.take n⟩ :: ofChars (cs.drop n)
  termination_by cs => cs.length
  decreasing_by simp only [List.length_drop, List.length_cons]; omega

def ofText (text : String) : List Lexeme := ofChars text.toList

/-- No character is lost, added or moved. -/
theorem flatMap_chars_ofChars (cs : List Char) : (ofChars cs).flatMap chars = cs := by
  fun_induction ofChars cs with
  | case1 => rfl
  | case2 c cs kind n h ih => simp [ih]

end Lexeme

end ScriptDebugger
