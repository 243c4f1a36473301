import XBytecode.Machine.Dump
import XBytecode.Text.Blank

/-!
# Executing instructions

A step fetches the instruction at the program counter, performs it, shows it if the dump is on, and
moves the program counter on. A jump sets the program counter to the place it leads to, which is
then stepped over; a call leaves it there, so that the place itself is executed.
-/

namespace XBytecode.Machine

/-- What `READ` asks its user. -/
def readPrompt : String :=
  "Input an integer: "

/-- Performs an operation of the stack whose value is of no interest. -/
@[inline]
def changeStack {α : Type} (f : Stack → Except Stack.Error (α × Stack)) : Act Unit := do
  let _ ← onStack f
  pure ()

/-- The address that a jump leads to. -/
def target (jump : Jump) : Act Nat :=
  match jump.target with
  | some address => pure address
  | none => fail (.unresolvedJump jump.label)

/-- Sets the program counter to the place that a jump leads to. -/
def jumpTo (jump : Jump) : Act Unit := do
  let address ← target jump
  modify fun m => { m with pc := address }

/-- Takes the right operand, then the left one, and pushes the result. -/
def operate (op : Operator) : Act Unit := do
  let right ← onStack Stack.pop
  let left ← onStack Stack.pop
  match op.apply left right with
  | some v => push v
  | none => fail .divisionByZero

/-- Remembers where to return to and jumps. -/
def enterCall (jump : Jump) : Act Unit := do
  let address ← target jump
  modify fun m => { m with returns := m.returns.push m.pc, pc := address }

/-- Closes the frame over its top value and sets the program counter to the call. -/
def leaveCall : Act Unit := do
  match (← get).returns.back? with
  | some address =>
    changeStack Stack.unwind
    modify fun m => { m with returns := m.returns.pop, pc := address }
  | none => fail .noReturnAddress

/-- Pushes a copy of a slot. A full stack is reported before a wrong offset. -/
def loadSlot (offset : Nat) : Act Unit := do
  if (← get).stack.size < capacity then changeStack (·.load offset)
  else fail .stackOverflow

/-- Asks for an integer and pushes it. -/
def readInteger : Act Unit := do
  onChannel (Channel.write readPrompt)
  onChannel Channel.flush
  match ← onChannel Channel.readLine with
  | some line =>
    match Numeral.word? (Text.trim line) with
    | some v => push v
    | none => fail (.invalidInput line)
  | none => fail .endOfInput

/-- Prints the top value on a line. -/
def writeTop : Act Unit := do
  let v ← onStack fun s => s.peek.map (·, s)
  onChannel (Channel.write (Numeral.ofWord v ++ "\n"))

/-- What an instruction does, the advance to the next one apart. -/
def perform : Instruction → Act Unit
  | .args count => changeStack (·.openFrame count)
  | .bop op => operate op
  | .call jump => enterCall jump
  | .falseBranch jump => do
    let v ← onStack Stack.pop
    if v = 0 then jumpTo jump
  | .goto jump => jumpTo jump
  | .halt => modify halt
  | .lit value _ => push value
  | .load offset _ => loadSlot offset
  | .pop count => modify fun m => { m with stack := (m.stack.discard count).2 }
  | .read => readInteger
  | .ret _ => leaveCall
  | .store offset _ => changeStack (·.store offset)
  | .write => writeTop
  | .dump on => modify fun m => if m.dump.suppressed then m else m.setDump on
  | .label _ | .formal _ _ | .function _ _ _ | .line _ => pure ()

/-- Moves the program counter on, except behind a call. -/
def advance : Instruction → Act Unit
  | .call _ => pure ()
  | _ => modify fun m => { m with pc := m.pc + 1 }

/-- The instruction at the program counter. -/
def fetch (p : Program) : Act Instruction := fun m =>
  match p.get? m.pc with
  | some instr => .ok instr m
  | none => .error ⟨m.pc, .outsideProgram⟩ m

/-- Executes one instruction and gives it. -/
def step (p : Program) : Act Instruction := do
  let instr ← fetch p
  perform instr
  showDump p instr
  advance instr
  return instr

end XBytecode.Machine
