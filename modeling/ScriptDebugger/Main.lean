import ScriptDebugger.Command.Request

/-!
# The program

Reads the file that a request needs, writes the reply, and ends with its code.
-/

namespace ScriptDebugger

/-- More steps than a script takes in a lifetime. -/
def stepBound : Nat := 1000000000000000000

/-- Why a file cannot be read. -/
def reason : IO.Error → String
  | .inappropriateType _ code details | .permissionDenied _ code details
  | .invalidArgument _ code details => s!"{details} (os error {code})"
  | e => e.toString

/-- Reads a file, telling apart the ways to fail. -/
def readContents (path : String) : IO FileContents := do
  try
    return .ofBytes (← (← IO.FS.Handle.mk path .read).readBinToEnd)
  catch
    | .noFileOrDirectory .. => return .missing
    | e => return .unreadable (reason e)

end ScriptDebugger

open ScriptDebugger in
/-- Answers a command line. -/
def main (args : List String) : IO UInt32 := do
  let request := Request.ofArgs args
  let file ← match request.path? with
    | some path => readContents path
    | none => pure .missing
  match request.answer stepBound file with
  | some reply =>
    IO.eprint reply.err
    IO.print reply.out
    return UInt32.ofNat reply.code
  | none =>
    IO.eprintln "error: the script takes too many steps"
    return 1
