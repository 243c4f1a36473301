import XBytecode.Console.Command
import XBytecode.Console.Window

/-!
# The debug console

The console reads commands, one a line, from the input that the program reads from too, and prints
to the program's output. A line that is no command and a breakpoint that is refused are reported and
the conversation goes on; a failing program or channel ends it.
-/

namespace XBytecode.Console

/-- What ends a conversation early. -/
inductive Error where
  /-- The channel fails. -/
  | device (e : DeviceError)
  /-- The session fails. -/
  | session (e : Session.Error)
  /-- The steps allowed have been taken. -/
  | outOfFuel
  deriving DecidableEq, Repr

/-- The text of a console error. -/
def Error.message : Error → String
  | device e => "console i/o failed: " ++ e.message
  | session e => e.message
  | outOfFuel => "out of fuel"

/-- How a conversation ends. -/
inductive Ending where
  /-- The program has stopped. -/
  | finished
  /-- The user has quit. -/
  | quit
  /-- There are no more commands to read. -/
  | inputClosed
  deriving DecidableEq, Repr

/-- What is printed at the end of a conversation. -/
def Ending.banner : Ending → String
  | finished => "******Execution Finished******"
  | quit | inputClosed => "******Execution Halted*******"

/-- An action of the console on a session. -/
abbrev Act := EStateM Error Session

/-- Performs an action of the session. -/
@[inline]
def onSession {α : Type} (act : Session.Act α) : Act α := fun s =>
  match act s with
  | .ok a s => .ok a s
  | .error e s => .error (.session e) s

/-- Performs an action of the session and gives its error, if it fails, as a value. -/
@[inline]
def attempt {α : Type} (act : Session.Act α) : Act (Except Session.Error α) := fun s =>
  match act s with
  | .ok a s => .ok (.ok a) s
  | .error e s => .ok (.error e) s

/-- Performs an action of the channel. -/
@[inline]
def onChannel {α : Type} (act : Channel.Act α) : Act α := fun s =>
  match act s.machine.channel with
  | .ok a channel => .ok a { s with machine := { s.machine with channel } }
  | .error e channel => .error (.device e) { s with machine := { s.machine with channel } }

/-- Writes a text and makes sure that it is seen. -/
def print (text : String) : Act Unit := do
  onChannel (Channel.write text)
  onChannel Channel.flush

/-! ## Answers -/

/-- The commands and what they do. -/
def helpTable : List (String × String) :=
  [("?", "Show a list of available debugging commands."),
    ("b", "Show a list of current breakpoints."),
    ("b <n ...>", "Set a breakpoint at each line n."),
    ("bc <n ...>", "Clear the breakpoint at each line n."),
    ("c", "Continue execution until the next breakpoint."),
    ("f", "Show the source of the current function."),
    ("i", "Step into the next function call; otherwise step over."),
    ("o", "Step out of the current function."),
    ("n", "Step over the current line."),
    ("p", "Print the call stack with the current line of each function."),
    ("t <on|off>", "Turn function call tracing on or off."),
    ("v", "Show the variables of the current function."),
    ("q", "Quit the debugger."),
    ("z", "Clear the screen.")]

/-- The list of commands. -/
def helpText : String :=
  Text.alignLeft 20 "Debugger commands:" ++ " Description:\n" ++
    String.join (helpTable.map fun (command, description) =>
      Text.alignLeft 20 command ++ " -- " ++ description ++ "\n") ++ "\n"

/-- Line numbers with spaces between them. -/
def numbersText (lines : List Nat) : String :=
  " ".intercalate (lines.map toString)

/-- The list of breakpoints. -/
def breakpointsText (s : Session) : String :=
  match s.source.breakpoints.toList with
  | [] => "No breakpoints currently set.\n\n"
  | lines => "Current breakpoints: " ++ numbersText lines ++ "\n\n"

/-- The functions being executed, innermost first, with the lines that they have reached. -/
def callStackText (s : Session) : String :=
  String.join (s.callStack.map fun a => a.display ++ ": " ++ Numeral.ofWord a.line ++ "\n") ++ "\n"

/-- The variables of the current function with their values. -/
def variablesText (s : Session) : String :=
  match s.variableList with
  | [] => "No variables currently set.\n\n"
  | list =>
    String.join (list.map fun (name, value) =>
      " " ++ name ++ ": " ++ Machine.valueText value ++ "\n") ++ "\n"

/-- What clears a terminal's screen. -/
def clearScreenText : String :=
  "\x1b[H\x1b[2J"

/-- Shows the window of the current function. -/
def showFunction : Act Unit := do
  print (functionWindow (← get) ++ "\n")

/-! ## Commands -/

/-- Changes the breakpoint of each line in turn, reports the lines that are refused and gives the
others. -/
def eachLine (change : Nat → Session.Act Unit) : List Nat → Act (List Nat)
  | [] => return []
  | line :: rest => do
    match ← attempt (change line) with
    | .ok _ => return line :: (← eachLine change rest)
    | .error e =>
      print ("error: " ++ e.message ++ "\n")
      eachLine change rest

/-- Changes the breakpoints of lines and confirms those that were accepted, if any. -/
def changeBreakpoints (change : Nat → Session.Act Unit) (done : String) (lines : List Nat) :
    Act Unit := do
  match ← eachLine change lines with
  | [] => return
  | accepted => print ("Breakpoint " ++ done ++ ": " ++ numbersText accepted ++ "\n\n")

/-- Prints the log of calls and returns, if they are logged and there were any. -/
def showLog : Act Unit := do
  if (← get).tracing then
    let log ← modifyGet Session.takeLog
    if !log.isEmpty then print (log ++ "\n")

/-- Executes instructions as the mode says and shows where that led. -/
def step (p : Program) (fuel : Nat) (mode : Session.Mode) : Act Unit := do
  match ← onSession (Session.runMode p fuel mode) with
  | .outOfFuel => throw .outOfFuel
  | .paused | .finished =>
    showLog
    showFunction

/-- Executes a command. A step command takes at most `fuel` steps. -/
def execute (p : Program) (fuel : Nat) : Command → Act Unit
  | .help => print helpText
  | .listBreakpoints => do print (breakpointsText (← get))
  | .setBreakpoints lines => changeBreakpoints Session.setBreakpoint "set" lines
  | .clearBreakpoints lines => changeBreakpoints Session.clearBreakpoint "cleared" lines
  | .step mode => step p fuel mode
  | .function => showFunction
  | .callStack => do print (callStackText (← get))
  | .trace on => do
    modify (Session.setTracing on)
    print ("Tracing " ++ (if on then "on" else "off") ++ "\n\n")
  | .showVariables => do print (variablesText (← get))
  | .quit => modify Session.halt
  | .clearScreen => print clearScreenText

/-! ## Conversations -/

/-- What is printed before a command is read. -/
def promptText : String :=
  "Type ? for help\n>> "

/-- Reads and executes commands, at most `count` of them, until the program stops or the user
leaves. -/
def converse (p : Program) (fuel : Nat) : Nat → Act Ending
  | 0 => throw .outOfFuel
  | count + 1 => do
    if (← get).machine.running then
      print promptText
      match ← onChannel Channel.readLine with
      | none =>
        modify Session.halt
        return .inputClosed
      | some line =>
        match Command.parse line with
        | .ok .quit =>
          modify Session.halt
          return .quit
        | .ok command =>
          execute p fuel command
          converse p fuel count
        | .error e =>
          print ("error: " ++ e.message ++ "\n\n")
          converse p fuel count
    else return .finished

/-- A conversation up to its end: the window of the base activation and the commands. It takes at
most `fuel` commands, each of at most `fuel` steps. -/
def talk (p : Program) (fuel : Nat) : Act Ending := do
  showFunction
  converse p fuel fuel

/-- A whole conversation, with the banner that closes it. -/
def run (p : Program) (fuel : Nat) : Act Ending := do
  let ending ← talk p fuel
  print (ending.banner ++ "\n")
  return ending

end XBytecode.Console
