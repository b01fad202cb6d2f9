import ScriptDebugger.Token.Lexeme

/-!
# Scanning bytes

The lexemes of a text, read off its bytes without decoding them. A cursor
looks at single bytes and never past the end: behind the last byte it sees
zeros, which a NUL within the text is too. A character of more than one byte is
passed over by the width that its first byte says, or byte by byte where no
byte of it can be taken for another character.

`Lexeme.extent` says the same of characters.
-/

namespace ScriptDebugger

/-- A place in the bytes of a text. -/
structure ByteCursor where
  bytes : ByteArray
  pos : Nat

/-- A lexeme without its text: its kind and how many bytes it takes. -/
structure RawToken where
  kind : LexemeKind
  size : Nat
  deriving DecidableEq, Repr, Inhabited

namespace ByteCursor

def start (text : String) : ByteCursor := { bytes := text.toUTF8, pos := 0 }

def atEnd (c : ByteCursor) : Bool := decide (c.bytes.size ≤ c.pos)

/-- The byte `n` places ahead; zero behind the end. -/
def peek (c : ByteCursor) (n : Nat) : UInt8 :=
  if h : c.pos + n < c.bytes.size then c.bytes[c.pos + n] else 0

/-- The byte `n` places ahead, taken for a character. -/
def ahead (c : ByteCursor) (n : Nat) : Char := .ofUInt8 (c.peek n)

def current (c : ByteCursor) : Char := c.ahead 0

/-- One byte on, unless the text has ended. -/
def advance (c : ByteCursor) : ByteCursor := if c.atEnd then c else { c with pos := c.pos + 1 }

def advanceBy : (n : Nat) → ByteCursor → ByteCursor
  | 0, c => c
  | n + 1, c => advanceBy n c.advance

/-- How many bytes a character takes, by its first one. -/
def widthFrom (first : UInt8) : Nat :=
  if first ≤ 0xbf then 1 else if first ≤ 0xdf then 2 else if first ≤ 0xef then 3 else 4

def advanceChar (c : ByteCursor) : ByteCursor := c.advanceBy (widthFrom (c.peek 0))

/-- How many bytes are left. -/
def left (c : ByteCursor) : Nat := c.bytes.size - c.pos

theorem left_advance_lt {c : ByteCursor} (more : c.atEnd = false) : c.advance.left < c.left := by
  have inside : c.pos < c.bytes.size := by simpa [atEnd] using more
  simp only [advance, more, left, Bool.false_eq_true, if_false]
  omega

theorem left_advance_le (c : ByteCursor) : c.advance.left ≤ c.left := by
  cases more : c.atEnd with
  | false => exact Nat.le_of_lt (left_advance_lt more)
  | true => simp [advance, more]

theorem left_advanceBy_le (n : Nat) (c : ByteCursor) : (c.advanceBy n).left ≤ c.left := by
  induction n generalizing c with
  | zero => exact Nat.le_refl _
  | succ n ih => exact Nat.le_trans (ih c.advance) (left_advance_le c)

theorem left_advanceChar_lt {c : ByteCursor} (more : c.atEnd = false) :
    c.advanceChar.left < c.left := by
  obtain ⟨n, hn⟩ : ∃ n, widthFrom (c.peek 0) = n + 1 := by
    refine ⟨widthFrom (c.peek 0) - 1, ?_⟩
    simp only [widthFrom]
    split
    · rfl
    · split
      · rfl
      · split <;> rfl
  rw [advanceChar, hn]
  exact Nat.lt_of_le_of_lt (left_advanceBy_le n _) (left_advance_lt more)

def eatWhile (p : Char → Bool) (c : ByteCursor) : ByteCursor :=
  if _more : c.atEnd = false ∧ p c.current = true then eatWhile p c.advance else c
  termination_by c.left
  decreasing_by exact left_advance_lt _more.1

/-- Behind an opening quote: whether the string is closed, and where it ends. -/
def string (quote : Char) (c : ByteCursor) : Bool × ByteCursor :=
  if _ended : c.atEnd then (false, c)
  else if Lexeme.isLineBreak c.current then (false, c)
  else if c.current = '\\' then string quote c.advance.advanceChar
  else if c.current = quote then (true, c.advance)
  else string quote c.advanceChar
  termination_by c.left
  decreasing_by
  · exact Nat.lt_of_le_of_lt (left_advanceBy_le _ _) (left_advance_lt (by simpa using _ended))
  · exact left_advanceChar_lt (by simpa using _ended)

/-- Behind the opening mark of a block comment: whether it is closed, and where it ends. -/
def blockComment (c : ByteCursor) : Bool × ByteCursor :=
  if _ended : c.atEnd then (false, c)
  else if c.current = '*' ∧ c.ahead 1 = '/' then (true, c.advanceBy 2)
  else blockComment c.advance
  termination_by c.left
  decreasing_by exact left_advance_lt (by simpa using _ended)

/-- Behind the exponent; without a digit there is none. -/
def exponent (c : ByteCursor) : ByteCursor :=
  if c.current = 'e' ∨ c.current = 'E' then
    let digitAt := if c.ahead 1 = '+' ∨ c.ahead 1 = '-' then 2 else 1
    if Number.isDigit (c.ahead digitAt) then (c.advanceBy digitAt).eatWhile Number.isDigit else c
  else c

def number (c : ByteCursor) : ByteCursor :=
  if c.current = '0' ∧ (c.ahead 1 = 'x' ∨ c.ahead 1 = 'X') then
    (c.advanceBy 2).eatWhile Number.isHexDigit
  else
    let whole := c.eatWhile Number.isDigit
    let fraction := if whole.current = '.' then whole.advance.eatWhile Number.isDigit else whole
    fraction.exponent.eatWhile Lexeme.isWordPart

def single (p : Punct) (c : ByteCursor) : LexemeKind × ByteCursor := (.punct p, c.advance)

/-- `one`, or another operator if its second character follows. -/
def withFollowers (one : Punct) (followers : List (Char × Punct)) (c : ByteCursor) :
    LexemeKind × ByteCursor :=
  match followers.find? fun f => f.1 == c.advance.current with
  | some (_, two) => (.punct two, c.advance.advance)
  | none => (.punct one, c.advance)

/-- A character with up to two `=` behind it. -/
def equality (one two three : Punct) (c : ByteCursor) : LexemeKind × ByteCursor :=
  if c.advance.current ≠ '=' then (.punct one, c.advance)
  else c.advance.withFollowers two [('=', three)]

/-- An operator of one character twice; alone it is none. -/
def doubled (p : Punct) (c : ByteCursor) : LexemeKind × ByteCursor :=
  if c.advance.current = c.current then (.punct p, c.advance.advance)
  else (.unsupported, c.advance)

def operator (c : ByteCursor) : LexemeKind × ByteCursor :=
  match c.current with
  | '(' => c.single .leftParen
  | ')' => c.single .rightParen
  | '\x7b' => c.single .leftBrace
  | '\x7d' => c.single .rightBrace
  | '[' => c.single .leftBracket
  | ']' => c.single .rightBracket
  | ';' => c.single .semicolon
  | ',' => c.single .comma
  | '.' => c.single .dot
  | ':' => c.single .colon
  | '?' => c.single .question
  | '+' => c.withFollowers .plus [('+', .increment), ('=', .plusAssign)]
  | '-' => c.withFollowers .minus [('-', .decrement), ('=', .minusAssign)]
  | '*' => c.withFollowers .star [('=', .starAssign)]
  | '/' => c.withFollowers .slash [('=', .slashAssign)]
  | '%' => c.withFollowers .percent [('=', .percentAssign)]
  | '<' => c.withFollowers .less [('=', .lessEqual)]
  | '>' => c.withFollowers .greater [('=', .greaterEqual)]
  | '!' => c.equality .bang .notEqual .strictNotEqual
  | '=' =>
    if c.ahead 1 = '>' then (.punct .arrow, c.advanceBy 2)
    else c.equality .assign .equal .strictEqual
  | '&' => c.doubled .and
  | '|' => c.doubled .or
  | '^' | '~' | '#' | '@' | '\x60' | '\\' => (.unsupported, c.advance)
  | _ => (.unexpected, c.advanceChar)

/-- The kind of the lexeme at hand, and the place behind it. -/
def lexeme (c : ByteCursor) : LexemeKind × ByteCursor :=
  let b := c.current
  if Lexeme.isBlank b then (.blank, c.eatWhile Lexeme.isBlank)
  else if b = '\n' then (.newline, c.advance)
  else if b = '\r' then
    (.newline, if c.advance.current = '\n' then c.advance.advance else c.advance)
  else if Lexeme.isWordStart b then (.word, c.eatWhile Lexeme.isWordPart)
  else if Number.isDigit b || (b == '.' && Number.isDigit (c.ahead 1)) then (.number, c.number)
  else if Lexeme.isQuote b then
    let (closed, rest) := c.advance.string b
    (if closed then .string else .openString, rest)
  else if b = '/' ∧ c.ahead 1 = '/' then
    (.lineComment, c.eatWhile fun d => !Lexeme.isLineBreak d)
  else if b = '/' ∧ c.ahead 1 = '*' then
    let (closed, rest) := (c.advanceBy 2).blockComment
    (if closed then .blockComment else .openComment, rest)
  else c.operator

/-- The next token and the place behind it; none when the text has ended. -/
def next? (c : ByteCursor) : Option (RawToken × ByteCursor) :=
  if c.atEnd then none
  else
    let (kind, rest) := c.lexeme
    some (⟨kind, rest.pos - c.pos⟩, rest)

end ByteCursor

end ScriptDebugger
