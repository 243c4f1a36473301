import XBytecode.Console.Basic
import XBytecode.Machine.Run
import XBytecode.Program.Listing
import XBytecode.Program.Load

/-!
# The command line

What the command line does is a function of its arguments, the files that they name and the input:
it gives an exit code and the texts for the two output streams. The exit code is 0 for success, 1
for wrong usage or unreadable files and 3 for a program that fails.
-/

namespace XBytecode.CommandLine

/-- Why a file cannot be read. -/
inductive FileError where
  /-- There is no such file. -/
  | missing
  /-- The file is a directory. -/
  | directory
  /-- The path goes through a file that is no directory. -/
  | notDirectory
  /-- The file is not UTF-8 text. -/
  | notText
  /-- Another reason that the operating system gives. -/
  | other (reason : String)
  deriving DecidableEq, Repr

/-- The text of a file error. -/
def FileError.message : FileError → String
  | missing => "No such file or directory (os error 2)"
  | directory => "Is a directory (os error 21)"
  | notDirectory => "Not a directory (os error 20)"
  | notText => "stream did not contain valid UTF-8"
  | other reason => reason

/-- The contents of files by name. -/
abbrev Files := String → Except FileError ByteArray

/-- What the arguments ask for. -/
inductive Request where
  /-- There are no arguments. -/
  | nothing
  /-- An explanation of the arguments. -/
  | help
  /-- A command that does not exist. -/
  | unknown (word : String)
  /-- The execution of a program. -/
  | run (file : Option String)
  /-- A debug session on the program and the source of this name. -/
  | debug (base : Option String)
  /-- The listing of a program. -/
  | list (file : Option String)
  deriving DecidableEq, Repr

/-- The request that the arguments spell. Arguments behind those that a command takes are
ignored. -/
def Request.ofArgs : List String → Request
  | [] => .nothing
  | "run" :: "-d" :: rest => .debug rest.head?
  | "run" :: rest => .run rest.head?
  | "list" :: rest => .list rest.head?
  | "--help" :: _ | "-h" :: _ | "help" :: _ => .help
  | word :: _ => .unknown word

/-- The source file of a debug session. -/
def sourceFile (base : String) : String :=
  base ++ ".x"

/-- The bytecode file of a debug session. -/
def codeFile (base : String) : String :=
  base ++ ".x.cod"

/-- The files that a request may read. -/
def Request.files : Request → List String
  | run (some file) | list (some file) => [file]
  | debug (some base) => [sourceFile base, codeFile base]
  | _ => []

/-- The outcome of a command line. -/
structure Report where
  /-- The exit code. -/
  code : UInt32
  /-- The text for the standard output. -/
  out : String := ""
  /-- The text for the standard error stream. -/
  err : String := ""
  deriving DecidableEq, Repr

/-- The explanation of the arguments. -/
def usage : String :=
  "Usage: xlang <command> [args]\n\nCommands:\n" ++
    "  run <file.x.cod>       Execute a bytecode program\n" ++
    "  run -d <basename>      Debug <basename>.x.cod against <basename>.x\n" ++
    "  list <file.x.cod>      Print the resolved program listing\n"

/-- The text of a file. -/
def readText (files : Files) (name : String) : Except FileError String := do
  match String.fromUTF8? (← files name) with
  | some text => .ok text
  | none => .error .notText

/-- The complaint about a file that cannot be read. -/
def unreadable (name : String) (e : FileError) : String :=
  "error: cannot read '" ++ name ++ "': " ++ e.message ++ "\n"

/-- The warnings about a loaded text: the lines skipped, then the faults in its names. -/
def warnings (l : Loaded) : String :=
  String.join ((l.diagnostics.map LoadError.message ++ l.resolveErrors.map ResolveError.message).map
    fun message => "warning: " ++ message ++ "\n")

/-- Loads a program and hands it to `use` with the warnings about it; a file that cannot be read is
reported instead. -/
def withProgram (files : Files) (name : String) (use : Program → String → Report) : Report :=
  match readText files name with
  | .ok text =>
    let loaded := Program.load text
    use loaded.program (warnings loaded)
  | .error e => { code := 1, err := unreadable name e }

/-- Executes a program. -/
def runReport (files : Files) (input : List UInt8) (fuel : Nat) (file : String) : Report :=
  withProgram files file fun p err =>
    match Machine.execute p fuel (Machine.start { input }) with
    | .ok .halted m => { code := 0, out := m.channel.written, err }
    | .ok .outOfFuel m =>
      { code := 3, out := m.channel.written, err := err ++ "runtime error: out of fuel\n" }
    | .error f m =>
      { code := 3, out := m.channel.written, err := err ++ "runtime error: " ++ f.message ++ "\n" }

/-- The line that opens a debug session, with an empty line behind it. -/
def debugHeading (base : String) : String :=
  "****Debugging " ++ sourceFile base ++ "****\n\n"

/-- The session on a source text at its start, its heading printed. -/
def debugStart (source : String) (input : List UInt8) (base : String) : Session :=
  Session.start (Source.ofText source) { input, written := debugHeading base }

/-- Holds a debug session. -/
def debugReport (files : Files) (input : List UInt8) (fuel : Nat) (base : String) : Report :=
  match readText files (sourceFile base) with
  | .error e =>
    { code := 1
      err := unreadable (sourceFile base) e ++ "make sure both '" ++ sourceFile base ++ "' and '" ++
        codeFile base ++ "' exist\n" }
  | .ok source =>
    withProgram files (codeFile base) fun p err =>
      match Console.run p fuel (debugStart source input base) with
      | .ok _ s => { code := 0, out := s.machine.channel.written, err }
      | .error (.device e) s =>
        { code := 1, out := s.machine.channel.written
          err := err ++ "error: " ++ (Console.Error.device e).message ++ "\n" }
      | .error e s =>
        { code := 3, out := s.machine.channel.written
          err := err ++ "runtime error: " ++ e.message ++ "\n" }

/-- Lists a program. -/
def listReport (files : Files) (file : String) : Report :=
  withProgram files file fun p err => { code := 0, out := p.listing, err }

/-- Answers a request. Programs and conversations are given `fuel` steps. -/
def Request.report (files : Files) (input : List UInt8) (fuel : Nat) : Request → Report
  | nothing => { code := 1, err := usage }
  | help => { code := 0, err := usage }
  | unknown word => { code := 1, err := "error: unknown command '" ++ word ++ "'\n\n" ++ usage }
  | run (some file) => runReport files input fuel file
  | run none =>
    { code := 1
      err := "error: run requires an input file\n" ++
        "Usage: xlang run <file.x.cod> | xlang run -d <basename>\n" }
  | debug (some base) => debugReport files input fuel base
  | debug none =>
    { code := 1
      err := "error: run -d requires a program basename\n" ++
        "Usage: xlang run -d <basename>\n" }
  | list (some file) => listReport files file
  | list none =>
    { code := 1
      err := "error: list requires an input file\n" ++ "Usage: xlang list <file.x.cod>\n" }

/-! ## Waiting for input -/

/-- What a program has written when it asks for a line that is not there. -/
def runAwaits? (files : Files) (input : List UInt8) (fuel : Nat) (file : String) :
    Option String := do
  let text ← (readText files file).toOption
  match Machine.execute (Program.load text).program fuel (Machine.start { input }) with
  | .error ⟨_, .endOfInput⟩ m => some m.channel.written
  | _ => none

/-- What a debug session has written when it, or the program, asks for a line that is not there. -/
def debugAwaits? (files : Files) (input : List UInt8) (fuel : Nat) (base : String) :
    Option String := do
  let source ← (readText files (sourceFile base)).toOption
  let text ← (readText files (codeFile base)).toOption
  match Console.talk (Program.load text).program fuel (debugStart source input base) with
  | .ok .inputClosed s => some s.machine.channel.written
  | .error (.session (.fault ⟨_, .endOfInput⟩)) s => some s.machine.channel.written
  | _ => none

/-- What has been written when the input turns out to be too short; none if the input suffices. -/
def Request.awaits? (files : Files) (input : List UInt8) (fuel : Nat) : Request → Option String
  | run (some file) => runAwaits? files input fuel file
  | debug (some base) => debugAwaits? files input fuel base
  | _ => none

end XBytecode.CommandLine
