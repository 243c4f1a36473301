import XBytecode.Activation
import XBytecode.Machine.Basic
import XBytecode.Source

/-!
# Debug sessions

A debug session is a machine together with what the debugger keeps about the program that it runs:
the source, the activations of its functions, and a log of calls and returns. The machine does not
show its instructions itself, for the debugger owns the output.
-/

namespace XBytecode

/-- The state of a debug session. -/
structure Session where
  /-- The machine that executes the program. -/
  machine : Machine
  /-- The source and its breakpoints. -/
  source : Source
  /-- The activation below all function calls. -/
  base : Activation
  /-- The activations of the functions called, outermost first. -/
  calls : Array Activation := #[]
  /-- A source line has been reached since this was last asked. -/
  lineChanged : Bool := false
  /-- Calls and returns are logged. -/
  tracing : Bool := false
  /-- The log of calls and returns. -/
  log : String := ""
  /-- The instruction executed last. -/
  last : Option Instruction := none
  deriving Inhabited

namespace Session

/-- What can go wrong in a debug session. -/
inductive Error where
  /-- The machine fails. -/
  | fault (f : Fault)
  /-- The bindings of the current function do not match the instruction at `address`. -/
  | scope (address : Nat) (e : Scope.Error)
  /-- A breakpoint is refused. -/
  | source (e : Source.Error)
  /-- The current function has no such variable, or it has no slot. -/
  | unknownVariable (name : String)
  deriving DecidableEq, Repr

/-- The text of a session error. -/
def Error.message : Error → String
  | fault f => f.message
  | scope address e => e.message ++ " at instruction " ++ toString address
  | source e => e.message
  | unknownVariable name => "unknown variable '" ++ name ++ "'"

/-- Whether the program cannot go on after the error. -/
def Error.isFatal : Error → Bool
  | fault _ | scope _ _ => true
  | source _ | unknownVariable _ => false

/-- An action on a session. An action that fails also says what it leaves behind. -/
abbrev Act := EStateM Error Session

/-- A session at the start of its program. -/
def start (source : Source) (channel : Channel) : Session :=
  { machine := (Machine.start channel).suppressDump
    source
    base := Activation.base source.size }

/-- Performs an action of the machine. -/
@[inline]
def onMachine {α : Type} (act : Machine.Act α) : Act α := fun s =>
  match act s.machine with
  | .ok a machine => .ok a { s with machine }
  | .error f machine => .error (.fault f) { s with machine }

/-- Stops the machine. -/
def halt (s : Session) : Session :=
  { s with machine := s.machine.halt }

/-! ## Activations -/

/-- The number of activations, the base included. -/
def depth (s : Session) : Nat :=
  s.calls.size + 1

/-- All activations, outermost first. The first one is the base. -/
def records (s : Session) : List Activation :=
  s.base :: s.calls.toList

/-- The innermost activation. -/
def current (s : Session) : Activation :=
  s.calls.back?.getD s.base

/-- Changes the innermost activation. -/
def updateCurrent (f : Activation → Activation) (s : Session) : Session :=
  match s.calls.back? with
  | some a => { s with calls := s.calls.pop.push (f a) }
  | none => { s with base := f s.base }

/-- The activations of the functions called, innermost first. -/
def callStack (s : Session) : List Activation :=
  s.calls.toList.reverse

/-! ## Variables -/

/-- The value of a variable of the current function, if it has a slot. -/
def value? (s : Session) (name : String) : Option Int32 :=
  match s.current.scope.lookup name with
  | .ok offset => s.machine.stack.slot? offset
  | .error _ => none

/-- The variables of the current function, sorted by name, with their values. -/
def variableList (s : Session) : List (String × Option Int32) :=
  s.current.scope.names.map fun name => (name, s.value? name)

/-- The value of a variable of the current function. -/
def valueOf (s : Session) (name : String) : Except Error Int32 :=
  match s.value? name with
  | some v => .ok v
  | none => .error (.unknownVariable name)

/-! ## Breakpoints and tracing -/

/-- Sets a breakpoint. -/
def setBreakpoint (line : Nat) : Act Unit := fun s =>
  match s.source.setBreakpoint line with
  | .ok source => .ok () { s with source }
  | .error e => .error (.source e) s

/-- Clears a breakpoint. -/
def clearBreakpoint (line : Nat) : Act Unit := fun s =>
  match s.source.clearBreakpoint line with
  | .ok source => .ok () { s with source }
  | .error e => .error (.source e) s

/-- Turns tracing on, with an empty log, or off. -/
def setTracing (on : Bool) (s : Session) : Session :=
  { s with tracing := on, log := if on then "" else s.log }

/-- Hands over the log and starts afresh. -/
def takeLog (s : Session) : String × Session :=
  (s.log, { s with log := "" })

end Session

end XBytecode
