import ScriptDebugger.Command.Show

/-!
# Commands

`Request.ofArgs` reads a command line; at most one file belongs to a request.
`Request.answer` says, given what became of reading that file, what the program
writes to its two outputs and the code it ends with.
-/

namespace ScriptDebugger

/-- What the program says when asked for its version. -/
def versionText : String := "Stepwise 0.1.0"

inductive Request where
  /-- Show how the program is used. -/
  | help
  | version
  | listExamples
  /-- Debug a file. -/
  | debug (path : String) (mode : Mode) (options : DebugOptions)
  /-- List an example and debug it. -/
  | debugExample (name : String) (mode : Mode) (options : DebugOptions)
  /-- Show the outline of a file's syntax tree. -/
  | outline (path : String)
  | unknownCommand (command : String)
  /-- The arguments do not fit the command. -/
  | refused (message : String)
  deriving DecidableEq, Repr, Inhabited

namespace Request

def usage : String :=
  String.intercalate "\n" [
    "Stepwise - source-level stepping debugger",
    "",
    "Usage: stepwise <command> [options]",
    "",
    "Commands:",
    "  step <file.js>       Interpret directly, stopping at the breakpoint",
    "  run <file.js>        Run as a function body; `debugger` suspends",
    "  example [name]       Show and run a built-in example (default: error)",
    "  examples             List built-in examples",
    "  ast <file.js>        Print the syntax tree outline",
    "  help                 Show this help message",
    "  version              Show version information",
    "",
    "Options:",
    "  --break=<line>       Breakpoint line, 1-based (step only)",
    "  --json               Print the debug view as JSON",
    "  --step               With `example`: use the step path",
    "",
    "Environment:",
    "  RUST_LOG             Enable tracing (e.g. RUST_LOG=stepwise_debug=debug)",
    "",
    "Examples:",
    "  stepwise step prog.js --break=5",
    "  stepwise run prog.js --json",
    "  stepwise example fibonacci --step --break=3",
    ""]

def ofDebugArgs (command : String) (mode : Mode) (args : List String) : Request :=
  match DebugOptions.read args with
  | .error e => refused s!"error: {e}\n"
  | .ok (some path, options) => debug path mode options
  | .ok (none, _) =>
    refused ("error: missing file path\n" ++
      s!"Usage: stepwise {command} <file.js> [--break=<line>] [--json]\n")

def ofExampleArgs (args : List String) : Request :=
  let mode := if args.contains "--step" then Mode.step else .run
  match DebugOptions.read (args.filter (· ≠ "--step")) with
  | .error e => refused s!"error: {e}\n"
  | .ok (name, options) => debugExample (name.getD Example.error.name) mode options

/-- Reads the arguments after the program's name. -/
def ofArgs : List String → Request
  | [] => help
  | command :: args =>
    match command with
    | "step" => ofDebugArgs command .step args
    | "run" => ofDebugArgs command .run args
    | "example" => ofExampleArgs args
    | "examples" => listExamples
    | "ast" =>
      match args with
      | path :: _ => outline path
      | [] => refused "Usage: stepwise ast <file.js>\n"
    | "help" | "--help" | "-h" => help
    | "version" | "--version" | "-v" => version
    | _ => unknownCommand command

/-- The file that a request needs. -/
def path? : Request → Option String
  | debug path _ _ | outline path => some path
  | _ => none

end Request

/-- What became of reading a file. -/
inductive FileContents where
  | text (s : String)
  | missing
  /-- The bytes are no UTF-8 text. -/
  | notText
  | unreadable (reason : String)
  deriving DecidableEq, Repr, Inhabited

namespace FileContents

def ofBytes (bytes : ByteArray) : FileContents := (String.fromUTF8? bytes).elim notText text

/-- The text of a file, or what to say of a file that has none. -/
def read (path : String) : FileContents → Except String String
  | text s => .ok s
  | missing => .error s!"cannot find file '{path}'"
  | notText => .error s!"'{path}' contains invalid UTF-8 data"
  | unreadable reason => .error s!"error reading '{path}': {reason}"

end FileContents

/-- What a program writes to its two outputs and the code it ends with. -/
structure Reply where
  code : Nat
  out : String
  err : String
  deriving DecidableEq, Repr, Inhabited

namespace Reply

def success (out : String) : Reply := { code := 0, out, err := "" }

def failure (err : String) : Reply := { code := 1, out := "", err }

/-- The reply for a text to print, or for why there is none. -/
def ofResult : Except DebugError String → Reply
  | .ok text => success text
  | .error e => failure s!"error: {e.message}\n"

/-- Puts text before what is written. -/
def after (r : Reply) (out err : String) : Reply :=
  { r with out := out ++ r.out, err := err ++ r.err }

end Reply

namespace Request

/-- The warning for a breakpoint that a request does not heed. -/
def warning (mode : Mode) (options : DebugOptions) : String :=
  if mode = .run ∧ options.breakpointLine.isSome then
    "warning: `run` ignores --break; use `step` to stop at a line\n"
  else ""

/-- The reply to a request, `file` being what became of reading its file; nothing if a script
takes more than `fuel` steps. -/
def answer (fuel : Nat) (r : Request) (file : FileContents) : Option Reply :=
  match r with
  | help => some (.success usage)
  | version => some (.success (versionText ++ "\n"))
  | listExamples => some (.success (Example.names ++ "\n"))
  | debug path mode options =>
    let reply := match file.read path with
      | .error message => some (Reply.failure (message ++ "\n"))
      | .ok source => (debugSource fuel source mode options).map Reply.ofResult
    reply.map fun reply => reply.after "" (warning mode options)
  | debugExample name mode options =>
    match exampleSource name with
    | .error message => some (.failure s!"error: {message}\n")
    | .ok source =>
      let listing := if options.json then "" else numbered source ++ "\n\n"
      (debugSource fuel source mode options).map fun result =>
        (Reply.ofResult result).after listing ""
  | outline path =>
    some (match file.read path with
      | .error message => .failure (message ++ "\n")
      | .ok source => .ofResult (outlineSource source))
  | unknownCommand command =>
    some { code := 1, out := usage, err := s!"Unknown command: {command}\n\n" }
  | refused message => some (.failure message)

end Request

end ScriptDebugger
