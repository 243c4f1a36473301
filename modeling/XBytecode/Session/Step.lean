import XBytecode.Machine.Step
import XBytecode.Session.Basic

/-!
# Executing instructions in a session

The machine executes an instruction first; then the session follows what the instruction says about
variables, functions and lines. A failure of the machine leaves the session's own books untouched.
-/

namespace XBytecode.Session

/-- Adds a line to the log, indented by the number of activations, if calls are logged. -/
@[inline]
def trace (entry : String) (s : Session) : Session :=
  if s.tracing then
    { s with log := s.log ++ String.ofList (List.replicate s.depth ' ') ++ entry ++ "\n" }
  else s

/-- Binds a variable of the current function to a slot. -/
def declare (name : String) (slot : Nat) : Session → Session :=
  updateCurrent fun a => { a with scope := a.scope.enter name slot }

/-- Takes back the latest `count` declarations of the current function, made before the instruction
at `address`. -/
def retract (address count : Nat) : Act Unit := fun s =>
  match s.current.scope.undo count with
  | .ok scope => .ok () (s.updateCurrent fun a => { a with scope })
  | .error e => .error (.scope address e) s

/-- Whether the innermost activation is that of the machine's active frame. A function's frame is
opened by its caller and its activation by the function itself. -/
def inStep (s : Session) : Bool :=
  s.depth == s.machine.stack.frameCount + 1

/-- Notes that a source line has been reached. Markers of functions without source carry negative
lines, and a marker met between the opening of a frame and that of its activation belongs to
neither; both are ignored. -/
def reachLine (line : Int32) (s : Session) : Session :=
  if 0 ≤ line && s.inStep then
    { s.updateCurrent (fun a => { a with line }) with lineChanged := true }
  else s

/-- Opens the activation of a function, at the line of its caller until its own is reached. -/
def enterFunction (name : String) (first last : Int32) (s : Session) : Session :=
  let opened := { s with calls := s.calls.push { name, first, last, line := s.current.line } }
  (opened.reachLine first).trace
    (displayName name ++ "(" ++ Machine.argumentsText s.machine.stack ++ ")")

/-- Closes the activation of a function; the base outlives every return. -/
def exitFunction (s : Session) : Session :=
  let logged := s.trace
    ("exit: " ++ s.current.display ++ ": " ++ Machine.valueText s.machine.stack.peek.toOption)
  { logged with calls := logged.calls.pop }

/-- Follows an instruction that the machine has executed from `address`. -/
def follow (address : Nat) : Instruction → Act Unit
  | .lit _ (some name) => modify fun s => s.declare name (s.machine.stack.size - 1)
  | .pop count => retract address count
  | .formal name offset => modify fun s => s.declare name (s.machine.stack.address offset)
  | .function name first last => modify (enterFunction name first last)
  | .line number => modify (reachLine number)
  | .ret _ => modify exitFunction
  | _ => pure ()

/-- The address of the next instruction. -/
@[noinline]
def nextAddress : Act Nat := fun s =>
  .ok s.machine.pc s

/-- Executes one instruction and gives it. -/
def step (p : Program) : Act Instruction := do
  let address ← nextAddress
  let instr ← onMachine (Machine.step p)
  modify fun s => { s with last := some instr }
  follow address instr
  return instr

end XBytecode.Session
