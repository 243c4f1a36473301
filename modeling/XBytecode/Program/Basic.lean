import Std.Data.ExtTreeMap
import XBytecode.Instruction

/-!
# Programs

A program is a sequence of instructions and a table of the addresses that its names stand for.
Programs come out of `Program.resolve`, which fills in both the table and the targets of the
jumps.
-/

namespace XBytecode

/-- The address that each name stands for. -/
abbrev LabelTable := Std.ExtTreeMap String Nat

/-- A program whose names have been resolved. -/
structure Program where
  /-- The instructions, in order of address. -/
  instructions : Array Instruction
  /-- The addresses of the named places. -/
  labels : LabelTable

namespace Program

/-- The instruction at an address. -/
def get? (p : Program) (address : Nat) : Option Instruction :=
  p.instructions[address]?

/-- The address that a name stands for. -/
def addressOf? (p : Program) (name : String) : Option Nat :=
  p.labels[name]?

/-- The number of instructions. -/
def size (p : Program) : Nat :=
  p.instructions.size

end Program

end XBytecode
