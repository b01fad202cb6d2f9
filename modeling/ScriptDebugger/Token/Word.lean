/-!
# Keywords and reserved words

A word of a script is a keyword, a word reserved for constructs that scripts
do not have, or an identifier. `Keyword.ofText?` and `isReserved` decide
which, and no word is both.
-/

namespace ScriptDebugger

/-- The words with a meaning of their own. -/
inductive Keyword where
  | varWord | letWord | constWord | functionWord | returnWord | ifWord | elseWord | forWord
  | whileWord | breakWord | continueWord | throwWord | debuggerWord | newWord | trueWord
  | falseWord | nullWord | typeofWord
  deriving DecidableEq, Repr, Inhabited

namespace Keyword

def all : List Keyword :=
  [varWord, letWord, constWord, functionWord, returnWord, ifWord, elseWord, forWord, whileWord,
    breakWord, continueWord, throwWord, debuggerWord, newWord, trueWord, falseWord, nullWord,
    typeofWord]

def text : Keyword → String
  | varWord => "var"
  | letWord => "let"
  | constWord => "const"
  | functionWord => "function"
  | returnWord => "return"
  | ifWord => "if"
  | elseWord => "else"
  | forWord => "for"
  | whileWord => "while"
  | breakWord => "break"
  | continueWord => "continue"
  | throwWord => "throw"
  | debuggerWord => "debugger"
  | newWord => "new"
  | trueWord => "true"
  | falseWord => "false"
  | nullWord => "null"
  | typeofWord => "typeof"

def ofText? (word : String) : Option Keyword := all.find? fun k => k.text == word

end Keyword

/-- Words that no script may use as a name. -/
def reservedWords : List String :=
  ["async", "await", "case", "catch", "class", "default", "delete", "do", "enum", "export",
    "extends", "finally", "import", "in", "instanceof", "of", "super", "switch", "this", "try",
    "void", "with", "yield"]

def isReserved (word : String) : Bool := reservedWords.contains word

end ScriptDebugger
