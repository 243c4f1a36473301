import XBytecode.Session.Mode
import XBytecode.Text.Blank

/-!
# Console commands

A command is one line: a word, in any mix of letter cases, and for some commands line numbers or a
switch behind it.
-/

namespace XBytecode.Console

/-- What the user can ask for. -/
inductive Command where
  /-- The list of commands. -/
  | help
  /-- The list of breakpoints. -/
  | listBreakpoints
  /-- A breakpoint at each of the lines. -/
  | setBreakpoints (lines : List Nat)
  /-- No breakpoint at any of the lines. -/
  | clearBreakpoints (lines : List Nat)
  /-- Execution, as far as the mode says. -/
  | step (mode : Session.Mode)
  /-- The source of the current function. -/
  | function
  /-- The functions being executed. -/
  | callStack
  /-- Logging of calls and returns, on or off. -/
  | trace (on : Bool)
  /-- The variables of the current function. -/
  | showVariables
  /-- The end of the session. -/
  | quit
  /-- An empty screen. -/
  | clearScreen
  deriving DecidableEq, Repr

/-- A line that is no command. -/
structure InvalidCommand where
  /-- The line as typed, without the blanks around it. -/
  line : String
  deriving DecidableEq, Repr

/-- The text of the complaint about a line. -/
def InvalidCommand.message (e : InvalidCommand) : String :=
  "'" ++ e.line ++ "' is not a valid command"

namespace Command

/-- The bound on line numbers in commands, `2^64`. -/
def lineLimit : Nat :=
  0x10000000000000000

/-- Reads a line number, which has to be below the limit. -/
def lineNumber? (word : String) : Option Nat :=
  match Numeral.nat? word with
  | some n => if n < lineLimit then some n else none
  | none => none

/-- The command that small-letter words spell. Line numbers are all valid or the line is no
command. -/
def ofWords? : List String → Option Command
  | ["?"] | ["h"] | ["help"] => some .help
  | ["b"] => some .listBreakpoints
  | "b" :: lines => .setBreakpoints <$> lines.mapM lineNumber?
  | ["bc"] => none
  | "bc" :: lines => .clearBreakpoints <$> lines.mapM lineNumber?
  | ["c"] => some (.step .resume)
  | ["i"] => some (.step .into)
  | ["o"] => some (.step .out)
  | ["n"] => some (.step .over)
  | ["f"] => some .function
  | ["p"] => some .callStack
  | ["t", "on"] => some (.trace true)
  | ["t", "off"] => some (.trace false)
  | ["v"] => some .showVariables
  | ["q"] | ["quit"] => some .quit
  | ["z"] | ["clear"] => some .clearScreen
  | _ => none

/-- The command of a line. Only ASCII letters are made small: no other letter is the capital of a
letter in a command word. -/
def parse (line : String) : Except InvalidCommand Command :=
  match ofWords? (Text.words line.toLower) with
  | some command => .ok command
  | none => .error ⟨Text.trim line⟩

end Command

end XBytecode.Console
