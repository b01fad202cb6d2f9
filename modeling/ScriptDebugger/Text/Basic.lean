import ScriptDebugger.Text.CaseTable
import ScriptDebugger.Text.CharTable

/-!
# Texts

Blank characters are those with the Unicode property White_Space. A line ends
with a line feed or with a carriage return and a line feed; the last line may do
without, and the line breaks are left out. In a quoted text every character can
be told: quotes and backslashes are escaped, line breaks, tabs and NUL have short
escapes, and a character that would not show, or would join the one before it, is
written by its number. Case changes character by character, except that a capital
sigma at the end of a word has a lower case of its own.
-/

namespace ScriptDebugger.Text

/-- Unicode property White_Space. -/
def isBlank (c : Char) : Bool :=
  let n := c.toNat
  (0x9 ≤ n && n ≤ 0xd) || n == 0x20 || n == 0x85 || n == 0xa0 || n == 0x1680 ||
    (0x2000 ≤ n && n ≤ 0x200a) || n == 0x2028 || n == 0x2029 || n == 0x202f || n == 0x205f ||
    n == 0x3000

def trimStart (cs : List Char) : List Char := cs.dropWhile isBlank

def trimEnd (cs : List Char) : List Char := (cs.reverse.dropWhile isBlank).reverse

/-- A text without the blanks at its two ends. -/
def trim (cs : List Char) : List Char := trimEnd (trimStart cs)

example : trim " \t é \u3000".toList = ['é'] := by decide

/-- A line without the carriage return before its line feed; `reversed` is the line without that
line feed, last character first. -/
def closeLine : (reversed : List Char) → List Char
  | '\r' :: cs => cs.reverse
  | cs => cs.reverse

/-- Splits after each line feed; `current` holds the line so far, last character first. -/
def linesFrom : (current rest : List Char) → List (List Char)
  | [], [] => []
  | current, [] => [current.reverse]
  | current, c :: rest =>
    if c = '\n' then closeLine current :: linesFrom [] rest
    else linesFrom (c :: current) rest

def lines (cs : List Char) : List (List Char) := linesFrom [] cs

example : lines "a\r\n\nb\r".toList = [['a'], [], ['b', '\r']] := by decide

def hexDigits (n : Nat) : List Char := Nat.toDigits 16 n

def quoteChar (c : Char) : List Char :=
  match c with
  | '\x00' => ['\\', '0']
  | '\t' => ['\\', 't']
  | '\r' => ['\\', 'r']
  | '\n' => ['\\', 'n']
  | '\\' => ['\\', '\\']
  | '"' => ['\\', '"']
  | _ =>
    if inRanges extendingMarkRanges c || inRanges fillerRanges c
        || inRanges unprintableRanges c then
      ['\\', 'u', '\x7b'] ++ hexDigits c.toNat ++ ['\x7d']
    else [c]

def quoted (text : String) : String :=
  String.ofList ('"' :: text.toList.flatMap quoteChar ++ ['"'])

def upperChar (c : Char) : List Char := mapCase upperRuns upperLonger c

def lowerChar (c : Char) : List Char := mapCase lowerRuns lowerLonger c

def toUpper (cs : List Char) : List Char := cs.flatMap upperChar

/-- Whether the first character that is not case-ignorable is cased. -/
def startsCased (cs : List Char) : Bool :=
  match cs.dropWhile (inRanges caseIgnorableRanges) with
  | [] => false
  | c :: _ => inRanges casedRanges c

/-- The lower case of capital sigma after `before`, which is reversed, and in front of `after`. -/
def lowerSigma (before after : List Char) : Char :=
  if startsCased before && !startsCased after then 'ς' else 'σ'

/-- Lower case of `cs` behind the reversed `before`. -/
def toLowerAfter (before : List Char) : List Char → List Char
  | [] => []
  | c :: cs =>
    (if c = 'Σ' then [lowerSigma before cs] else lowerChar c) ++ toLowerAfter (c :: before) cs

def toLower (cs : List Char) : List Char := toLowerAfter [] cs

end ScriptDebugger.Text
