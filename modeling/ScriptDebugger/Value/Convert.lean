import ScriptDebugger.Number.Decimal
import ScriptDebugger.Number.Notation
import ScriptDebugger.Text.Basic
import ScriptDebugger.Value.Store

/-!
# Conversions

Texts and numbers that values convert to. An array converts through its
elements, so its text is read off the store. An array that stands inside itself
has no text, since reading it off never ends; here it is cut off where arrays
nest deeper than there are arrays, and what comes of that means nothing.
-/

namespace ScriptDebugger

/-- The number that characters write: a decimal number, a hexadecimal one, an infinity, or zero for
no character at all. An infinity has one word here; with the letters of any other word but the mark
of an exponent characters write no number. -/
def Number.ofChars : List Char → Float
  | [] => 0
  | '0' :: 'x' :: ds | '0' :: 'X' :: ds => (Number.readHex? ds).getD Binary64.nan
  | cs =>
    if cs = "Infinity".toList ∨ cs = "+Infinity".toList then Binary64.infinity
    else if cs = "-Infinity".toList then Binary64.negInfinity
    else if cs.any fun c => c.isAlpha && c != 'e' && c != 'E' then Binary64.nan
    else (Number.readFloat? cs).getD Binary64.nan

/-- The number that a text writes, blanks at its ends aside. -/
def Number.ofText (text : String) : Float := Number.ofChars (Text.trim text.toList)

namespace Store

/-- How an element shows in the text of its array; what has no value shows as nothing. -/
def elementText (display : Value → String) : Value → String
  | .undefined | .null => ""
  | v => display v

/-- The text of a value whose arrays nest at most `depth` deep. -/
def displayWithin (s : Store) : (depth : Nat) → Value → String
  | _, .undefined => "undefined"
  | _, .null => "null"
  | _, .bool b => if b then "true" else "false"
  | _, .number x => Number.format x
  | _, .string t => t
  | 0, .array _ => ""
  | depth + 1, .array ref =>
    String.intercalate "," ((s.array ref).toList.map (elementText (s.displayWithin depth)))
  | _, .object _ => "[object Object]"
  | _, .function ref => (s.closure ref).text
  | _, .builtin ref => "function " ++ (s.builtin ref).builtin.name ++ "() \x7b [native code] \x7d"
  | _, .error ref =>
    let e := s.error ref
    if e.message.isEmpty then e.name else s!"{e.name}: {e.message}"

/-- The text of a value whose arrays nest finitely. An array that stands inside itself has no text,
and what is given for one is not to be relied on. -/
def display (s : Store) (v : Value) : String := s.displayWithin (s.arrays.size + 1) v

/-- The texts of the elements of an array between separators. -/
def join (s : Store) (items : Array Value) (separator : String) : String :=
  String.intercalate separator (items.toList.map (elementText s.display))

def toNumber (s : Store) (v : Value) : Float :=
  match v with
  | .undefined => Binary64.nan
  | .null => 0
  | .bool b => if b then 1 else 0
  | .number x => x
  | .string t => Number.ofText t
  | .array _ => Number.ofText (s.display v)
  | .object _ | .function _ | .builtin _ | .error _ => Binary64.nan

/-- How a container shows its parts: blanks inside the delimiters, nothing between empty ones. -/
def enclose (opening closing : String) (parts : List String) : String :=
  if parts.isEmpty then opening ++ closing
  else opening ++ " " ++ String.intercalate ", " parts ++ " " ++ closing

/-- How the console shows a value inside a container; below `levels` further levels containers
show as dots. -/
def inspectWithin (s : Store) : (levels : Nat) → Value → String
  | _, .string t => "'" ++ t ++ "'"
  | 0, .array _ | 0, .object _ => "[...]"
  | levels + 1, .array ref =>
    enclose "[" "]" ((s.array ref).toList.map (s.inspectWithin levels))
  | levels + 1, .object ref =>
    enclose "\x7b" "\x7d"
      ((s.record ref).properties.map fun (k, v) => k ++ ": " ++ s.inspectWithin levels v)
  | _, .function ref =>
    match (s.closure ref).name with
    | some name => s!"[Function: {name}]"
    | none => "[Function (anonymous)]"
  | _, .builtin ref => s!"[Function: {(s.builtin ref).builtin.name}]"
  | _, v => s.display v

/-- How the console shows a value: a text as it is, a container three levels deep. -/
def inspect (s : Store) : Value → String
  | .string t => t
  | v => s.inspectWithin 3 v

/-- What `==` decides. -/
def looseEq (s : Store) (a b : Value) : Bool :=
  match a, b with
  | .undefined, .undefined | .undefined, .null | .null, .undefined | .null, .null => true
  | .undefined, _ | .null, _ | _, .undefined | _, .null => false
  | .number _, .string _ | .string _, .number _ | .bool _, _ | _, .bool _ =>
    s.toNumber a == s.toNumber b
  | .array _, .string t => s.display a == t
  | .string t, .array _ => t == s.display b
  | .array _, .number _ | .number _, .array _ => s.toNumber a == s.toNumber b
  | _, _ => a.strictEq b

end Store

end ScriptDebugger
