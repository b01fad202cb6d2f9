/-!
# Options

The arguments that follow a command: a breakpoint line, a switch for JSON, and
one argument without a dash. The last of several breakpoint lines counts.
-/

namespace ScriptDebugger

structure DebugOptions where
  /-- A line counted from 1. -/
  breakpointLine : Option Nat
  json : Bool
  deriving DecidableEq, Repr, Inhabited

namespace DebugOptions

/-- No breakpoint line and no JSON. -/
def standard : DebugOptions := { breakpointLine := none, json := false }

/-- The largest line number that an option takes. -/
def maxLine : Nat := UInt64.size - 1

/-- Reads digits that come after `n`. -/
def digitsFrom? : (n : Nat) → List Char → Option Nat
  | n, [] => some n
  | n, c :: cs => if '0' ≤ c ∧ c ≤ '9' then digitsFrom? (10 * n + (c.toNat - 48)) cs else none

/-- One digit at least, behind a plus sign or not, for a number between 1 and `maxLine`. -/
def readLine? (cs : List Char) : Option Nat :=
  let digits := match cs with
    | '+' :: rest => rest
    | _ => cs
  if digits.isEmpty then none
  else (digitsFrom? 0 digits).filter fun n => 0 < n && n ≤ maxLine

/-- What follows `lead` in a text that begins with it. -/
def after? : (lead cs : List Char) → Option (List Char)
  | [], cs => some cs
  | _ :: _, [] => none
  | l :: lead, c :: cs => if l = c then after? lead cs else none

/-- An argument as the options so far take it: with the argument without a dash, if there has
been one. -/
def takeArgument (positional : Option String) (options : DebugOptions) (arg : String) :
    Except String (Option String × DebugOptions) :=
  match after? "--break=".toList arg.toList with
  | some line =>
    match readLine? line with
    | some n => .ok (positional, { options with breakpointLine := some n })
    | none => .error s!"invalid breakpoint line '{String.ofList line}'"
  | none =>
    if arg = "--json" then .ok (positional, { options with json := true })
    else if arg.toList.head? = some '-' then .error s!"unknown option '{arg}'"
    else
      match positional with
      | none => .ok (some arg, options)
      | some _ => .error s!"unexpected argument '{arg}'"

def readFrom (positional : Option String) (options : DebugOptions) :
    List String → Except String (Option String × DebugOptions)
  | [] => .ok (positional, options)
  | arg :: rest =>
    match takeArgument positional options arg with
    | .ok (positional, options) => readFrom positional options rest
    | .error e => .error e

/-- The argument without a dash and the options, or what is wrong with the first bad argument. -/
def read (args : List String) : Except String (Option String × DebugOptions) :=
  readFrom none standard args

end DebugOptions

end ScriptDebugger
