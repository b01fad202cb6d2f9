/-!
# Delimiters and operators

`Punct.longest?` reads the longest delimiter or operator that a text starts
with. It looks through `Punct.all`, where longer ones stand first.
-/

namespace ScriptDebugger

inductive Punct where
  | leftParen | rightParen | leftBrace | rightBrace | leftBracket | rightBracket
  | semicolon | comma | dot | colon | question
  | plus | minus | star | slash | percent | increment | decrement
  | assign | plusAssign | minusAssign | starAssign | slashAssign | percentAssign
  | bang | equal | notEqual | strictEqual | strictNotEqual
  | less | lessEqual | greater | greaterEqual | and | or
  /-- Read only so that arrow functions can be refused by name. -/
  | arrow
  deriving DecidableEq, Repr, Inhabited

namespace Punct

def chars : Punct → List Char
  | leftParen => ['(']
  | rightParen => [')']
  | leftBrace => ['\x7b']
  | rightBrace => ['\x7d']
  | leftBracket => ['[']
  | rightBracket => [']']
  | semicolon => [';']
  | comma => [',']
  | dot => ['.']
  | colon => [':']
  | question => ['?']
  | plus => ['+']
  | minus => ['-']
  | star => ['*']
  | slash => ['/']
  | percent => ['%']
  | increment => ['+', '+']
  | decrement => ['-', '-']
  | assign => ['=']
  | plusAssign => ['+', '=']
  | minusAssign => ['-', '=']
  | starAssign => ['*', '=']
  | slashAssign => ['/', '=']
  | percentAssign => ['%', '=']
  | bang => ['!']
  | equal => ['=', '=']
  | notEqual => ['!', '=']
  | strictEqual => ['=', '=', '=']
  | strictNotEqual => ['!', '=', '=']
  | less => ['<']
  | lessEqual => ['<', '=']
  | greater => ['>']
  | greaterEqual => ['>', '=']
  | and => ['&', '&']
  | or => ['|', '|']
  | arrow => ['=', '>']

def text (p : Punct) : String := String.ofList p.chars

/-- Longer ones first. -/
def all : List Punct :=
  [strictEqual, strictNotEqual,
    increment, decrement, plusAssign, minusAssign, starAssign, slashAssign, percentAssign, equal,
    notEqual, lessEqual, greaterEqual, and, or, arrow,
    leftParen, rightParen, leftBrace, rightBrace, leftBracket, rightBracket, semicolon, comma, dot,
    colon, question, plus, minus, star, slash, percent, assign, bang, less, greater]

/-- The longest one that starts a text. -/
def longest? (cs : List Char) : Option Punct := all.find? fun p => p.chars.isPrefixOf cs

end Punct

end ScriptDebugger
