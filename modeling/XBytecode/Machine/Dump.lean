import XBytecode.Machine.Basic
import XBytecode.Program.Basic
import XBytecode.Stack.Layout

/-!
# The dump

While the dump is on, every instruction is shown after it has been performed and before the program
counter moves on: a line for the instruction, with what it did, and a line for the stack. The
instruction that turns the dump off is shown too.
-/

namespace XBytecode.Machine

/-- A value that may be missing. -/
def valueText : Option Int32 → String
  | some v => Numeral.ofWord v
  | none => "?"

/-- The values of the active frame, with commas between them. -/
def argumentsText (s : Stack) : String :=
  ",".intercalate (s.frameValues.map Numeral.ofWord)

/-- The line for an instruction, annotated from the state that the instruction left. Behind a
`RETURN` the program counter stands at the call that was returned from. -/
def dumpLine (p : Program) (m : Machine) (instr : Instruction) : String :=
  match instr with
  | .lit _ (some name) => instr.text ++ "\tint " ++ name
  | .load _ name => instr.text ++ "\t<load " ++ name ++ ">"
  | .store offset name =>
    instr.text ++ "\t" ++ name ++ " = " ++ valueText (m.stack.slot? (m.stack.address offset))
  | .call jump =>
    instr.resolvedText ++ "\t" ++ displayName jump.label ++ "(" ++ argumentsText m.stack ++ ")"
  | .ret (some name) =>
    let callee := match (p.get? m.pc).bind Instruction.jump? with
      | some jump => jump.describe
      | none => name
    "RETURN " ++ callee ++ "\texit: " ++ valueText m.stack.peek.toOption
  | _ => instr.resolvedText

/-- Shows an instruction that has just been performed, if the dump mode asks for it. -/
def showDump (p : Program) (instr : Instruction) : Act Unit := do
  let m ← get
  if m.dump.shows then
    onChannel (Channel.write (m.dumpLine p instr ++ "\n" ++ m.stack.layout ++ "\n"))
    modify fun m => { m with dump := m.dump.settle }

end XBytecode.Machine
