/-!
# JSON

JSON values whose numbers are natural, and their texts: on one line without
blanks, and over several lines with two spaces to a level. Members keep their
order. In a string just the quote, the backslash and the characters below
U+0020 are escaped.
-/

namespace ScriptDebugger

inductive JsonValue where
  | null
  | bool (b : Bool)
  | number (n : Nat)
  | string (s : String)
  | array (items : List JsonValue)
  | object (members : List (String × JsonValue))
  deriving Repr, Inhabited

namespace JsonValue

/-- Null in place of nothing. -/
def ofOption {α : Type} (f : α → JsonValue) (x : Option α) : JsonValue := x.elim null f

def escapeChar (c : Char) : List Char :=
  match c with
  | '"' => ['\\', '"']
  | '\\' => ['\\', '\\']
  | '\x08' => ['\\', 'b']
  | '\x0c' => ['\\', 'f']
  | '\n' => ['\\', 'n']
  | '\r' => ['\\', 'r']
  | '\t' => ['\\', 't']
  | _ =>
    if c.toNat < 0x20 then
      ['\\', 'u', '0', '0', Nat.digitChar (c.toNat / 16), Nat.digitChar (c.toNat % 16)]
    else [c]

def stringText (s : String) : String :=
  String.ofList ('"' :: s.toList.flatMap escapeChar ++ ['"'])

/-- The line break before an entry at `level`. -/
def newLine (level : Nat) : String := "\n" ++ String.ofList (List.replicate (2 * level) ' ')

mutual

/-- The text on one line. -/
def compact : JsonValue → String
  | null => "null"
  | bool b => if b then "true" else "false"
  | number n => toString n
  | string s => stringText s
  | array items => "[" ++ String.intercalate "," (compactItems items) ++ "]"
  | object members => "\x7b" ++ String.intercalate "," (compactMembers members) ++ "\x7d"

def compactItems : List JsonValue → List String
  | [] => []
  | v :: rest => compact v :: compactItems rest

def compactMembers : List (String × JsonValue) → List String
  | [] => []
  | (key, v) :: rest => (stringText key ++ ":" ++ compact v) :: compactMembers rest

end

mutual

/-- The text over several lines, for a value at `level`; an empty array or object takes one. -/
def indented (level : Nat) : JsonValue → String
  | array (v :: rest) =>
    "[" ++ newLine (level + 1) ++
      String.intercalate ("," ++ newLine (level + 1)) (indentedItems (level + 1) (v :: rest)) ++
      newLine level ++ "]"
  | object (m :: rest) =>
    "\x7b" ++ newLine (level + 1) ++
      String.intercalate ("," ++ newLine (level + 1)) (indentedMembers (level + 1) (m :: rest)) ++
      newLine level ++ "\x7d"
  | v => compact v

def indentedItems (level : Nat) : List JsonValue → List String
  | [] => []
  | v :: rest => indented level v :: indentedItems level rest

def indentedMembers (level : Nat) : List (String × JsonValue) → List String
  | [] => []
  | (key, v) :: rest => (stringText key ++ ": " ++ indented level v) :: indentedMembers level rest

end

/-- The text over several lines. -/
def pretty (v : JsonValue) : String := indented 0 v

end JsonValue

end ScriptDebugger
