import XBytecode.Channel
import XBytecode.Stack.Basic

/-!
# The machine

The state of a running program: its stack, the addresses to return to, the program counter, the
dump mode and the channel to the user. An action on a machine may fail with a fault, and a fault
carries the address of the instruction that the program counter stood at when it arose.
-/

namespace XBytecode

/-- Whether executed instructions are shown. -/
structure DumpMode where
  /-- Instructions are shown. -/
  on : Bool := false
  /-- The mode has been on since an instruction was last shown, so that the instruction that turns
  it off is still shown. -/
  lingering : Bool := false
  /-- `DUMP` instructions have no effect. -/
  suppressed : Bool := false
  deriving DecidableEq, Repr, Inhabited

namespace DumpMode

/-- Turns the mode on or off. -/
def set (d : DumpMode) (on : Bool) : DumpMode :=
  { d with on, lingering := d.lingering || on }

/-- Turns the mode off at once and makes `DUMP` instructions ineffective. -/
def suppress (_ : DumpMode) : DumpMode :=
  { on := false, lingering := false, suppressed := true }

/-- Whether the instruction just performed is shown. -/
def shows (d : DumpMode) : Bool :=
  d.on || d.lingering

/-- The mode after an instruction has been shown. -/
def settle (d : DumpMode) : DumpMode :=
  if d.on then d else { d with lingering := false }

end DumpMode

/-- The state of a running program. -/
structure Machine where
  /-- The run-time stack. -/
  stack : Stack := {}
  /-- The addresses of the calls that have not returned, outermost first. -/
  returns : Array Nat := #[]
  /-- The address of the next instruction. -/
  pc : Nat := 0
  /-- No `HALT` has been performed. -/
  running : Bool := true
  /-- Whether executed instructions are shown. -/
  dump : DumpMode := {}
  /-- The channel to the user. -/
  channel : Channel := {}
  deriving Inhabited

/-- Why an instruction cannot be performed. -/
inductive Fault.Cause where
  /-- The stack refuses an operation. -/
  | stack (e : Stack.Error)
  /-- The right operand of a division is zero. -/
  | divisionByZero
  /-- The stack is full. -/
  | stackOverflow
  /-- The jump leads to a name without a place. -/
  | unresolvedJump (label : String)
  /-- There is no call to return from. -/
  | noReturnAddress
  /-- There is no instruction at the program counter. -/
  | outsideProgram
  /-- The line typed is no machine word. -/
  | invalidInput (line : String)
  /-- There is no line to read. -/
  | endOfInput
  /-- The channel fails. -/
  | device (e : DeviceError)
  deriving DecidableEq, Repr

/-- A failure of the machine. -/
structure Fault where
  /-- The program counter when it failed. -/
  address : Nat
  /-- Why it failed. -/
  cause : Fault.Cause
  deriving DecidableEq, Repr

/-- The text of a fault. -/
def Fault.message (f : Fault) : String :=
  let place := " at instruction " ++ toString f.address
  match f.cause with
  | .stack e => e.message ++ place
  | .divisionByZero => "division by zero" ++ place
  | .stackOverflow => "stack overflow" ++ place
  | .unresolvedJump label => "jump to unresolved label '" ++ label ++ "'" ++ place
  | .noReturnAddress => "return without a matching call" ++ place
  | .outsideProgram => "program counter " ++ toString f.address ++ " is outside the program"
  | .invalidInput line => "invalid integer input '" ++ line ++ "'" ++ place
  | .endOfInput => "end of input" ++ place
  | .device e => "i/o error" ++ place ++ ": " ++ e.message

namespace Machine

/-- An action on a machine. An action that fails also says what it leaves behind. -/
abbrev Act := EStateM Fault Machine

/-- The number of slots that a stack can hold. -/
def capacity : Nat :=
  65536

/-- A machine at the start of its program. -/
def start (channel : Channel) : Machine :=
  { channel }

/-- Stops the machine. -/
def halt (m : Machine) : Machine :=
  { m with running := false }

/-- Turns the dump on or off. -/
def setDump (m : Machine) (on : Bool) : Machine :=
  { m with dump := m.dump.set on }

/-- Turns the dump off for good, as far as the program is concerned. -/
def suppressDump (m : Machine) : Machine :=
  { m with dump := m.dump.suppress }

/-- Fails at the program counter. -/
def fail {α : Type} (cause : Fault.Cause) : Act α := fun m =>
  .error ⟨m.pc, cause⟩ m

/-- Performs an operation of the stack. -/
@[inline]
def onStack {α : Type} (f : Stack → Except Stack.Error (α × Stack)) : Act α := fun m =>
  match f m.stack with
  | .ok (a, stack) => .ok a { m with stack }
  | .error e => .error ⟨m.pc, .stack e⟩ m

/-- Performs an action of the channel. -/
@[inline]
def onChannel {α : Type} (act : Channel.Act α) : Act α := fun m =>
  match act m.channel with
  | .ok a channel => .ok a { m with channel }
  | .error e channel => .error ⟨m.pc, .device e⟩ { m with channel }

/-- Pushes a value if there is room for it. -/
def push (v : Int32) : Act Unit := fun m =>
  if m.stack.size < capacity then .ok () { m with stack := m.stack.push v }
  else .error ⟨m.pc, .stackOverflow⟩ m

end Machine

end XBytecode
