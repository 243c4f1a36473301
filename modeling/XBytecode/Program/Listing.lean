import XBytecode.Program.Basic
import XBytecode.Text.Align

/-!
# Listings

A listing shows one instruction a line behind its address. Addresses are right-aligned to the width
of the last one, and a resolved jump shows its target's address.
-/

namespace XBytecode.Program

/-- The width of the column of addresses. -/
def addressWidth (p : Program) : Nat :=
  (toString (p.size - 1)).length

/-- The line of one instruction, without its line feed. -/
def listingLine (width : Nat) (instr : Instruction) (address : Nat) : String :=
  Text.alignRight width (toString address) ++ ": " ++ instr.resolvedText

/-- The numbered text of a program. -/
def listing (p : Program) : String :=
  String.join (p.instructions.toList.zipIdx.map fun (instr, address) =>
    listingLine p.addressWidth instr address ++ "\n")

end XBytecode.Program
