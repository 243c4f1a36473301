import XBytecode.Opcode
import XBytecode.Operator
import XBytecode.Text.Numeral

/-!
# Instructions

An instruction is an opcode with its operands. `GOTO`, `FALSEBRANCH` and `CALL` carry a jump: the
name of a place and, once the program is resolved, its address. `Instruction.text` is the
canonical text, which names the place and leaves the address out.
-/

namespace XBytecode

/-- The characters before the first `<<`, or all of them when there is none. -/
def beforeSuffix : List Char → List Char
  | [] => []
  | c :: cs => if ['<', '<'].isPrefixOf (c :: cs) then [] else c :: beforeSuffix cs

/-- The name as shown to a user: the suffix that makes a label unique starts at the first `<<`. -/
def displayName (name : String) : String :=
  String.ofList (beforeSuffix name.toList)

/-- The place that a control transfer leads to. -/
structure Jump where
  /-- The name of the place, as written. -/
  label : String
  /-- The address of the place, if it is known. -/
  target : Option Nat := none
  deriving DecidableEq, Repr, Inhabited

/-- A resolved jump shows its address in place of the label's suffix; an unresolved one shows its
label. -/
def Jump.describe (jump : Jump) : String :=
  match jump.target with
  | some target => displayName jump.label ++ "<<" ++ toString target ++ ">>"
  | none => jump.label

/-- One instruction of the X machine. -/
inductive Instruction where
  /-- Open a frame whose first slots are the top `count` values. -/
  | args (count : Nat)
  /-- Replace the two top values by the operator's result. -/
  | bop (op : Operator)
  /-- Remember this place and go to another. -/
  | call (jump : Jump)
  /-- Pop a value and jump if it is zero. -/
  | falseBranch (jump : Jump)
  /-- Jump. -/
  | goto (jump : Jump)
  /-- Stop the machine. -/
  | halt
  /-- Name a place. -/
  | label (name : String)
  /-- Push a value; with a name, declare a variable in its slot. -/
  | lit (value : Int32) (name : Option String)
  /-- Push the value in slot `offset` of the active frame. -/
  | load (offset : Nat) (name : String)
  /-- Discard the top `count` values. -/
  | pop (count : Nat)
  /-- Ask for an integer and push it. -/
  | read
  /-- Close the frame, keep its top value, and go back behind the call. -/
  | ret (name : Option String)
  /-- Pop a value into slot `offset` of the active frame. -/
  | store (offset : Nat) (name : String)
  /-- Print the top value. -/
  | write
  /-- Turn the dump on or off. -/
  | dump (on : Bool)
  /-- Mark slot `offset` of the active frame as a parameter. -/
  | formal (name : String) (offset : Nat)
  /-- Mark the start of a function and its first and last source line. -/
  | function (name : String) (first last : Int32)
  /-- Mark the start of a source line. -/
  | line (number : Int32)
  deriving DecidableEq, Repr, Inhabited

namespace Instruction

/-- The operation of an instruction. -/
def opcode : Instruction → Opcode
  | args _ => .args
  | bop _ => .bop
  | call _ => .call
  | falseBranch _ => .falseBranch
  | goto _ => .goto
  | halt => .halt
  | label _ => .label
  | lit _ _ => .lit
  | load _ _ => .load
  | pop _ => .pop
  | read => .read
  | ret _ => .ret
  | store _ _ => .store
  | write => .write
  | dump _ => .dump
  | formal _ _ => .formal
  | function _ _ _ => .function
  | line _ => .line

/-- The jump of a control transfer. -/
def jump? : Instruction → Option Jump
  | call jump | falseBranch jump | goto jump => some jump
  | _ => none

/-- The name that an instruction gives to its place. -/
def definedName? : Instruction → Option String
  | label name | function name _ _ => some name
  | _ => none

/-- The instruction with the address of its jump, if it has one, replaced. -/
def retarget (target : Option Nat) : Instruction → Instruction
  | call jump => call { jump with target }
  | falseBranch jump => falseBranch { jump with target }
  | goto jump => goto { jump with target }
  | other => other

/-- The texts of the operands, in order. -/
def operands : Instruction → List String
  | args count | pop count => [toString count]
  | bop op => [op.symbol]
  | call jump | falseBranch jump | goto jump => [jump.label]
  | halt | read | write => []
  | label name => [name]
  | lit value name => Numeral.ofWord value :: name.toList
  | load offset name | store offset name => [toString offset, name]
  | ret name => name.toList
  | dump on => [if on then "ON" else "OFF"]
  | formal name offset => [name, toString offset]
  | function name first last => [name, Numeral.ofWord first, Numeral.ofWord last]
  | line number => [Numeral.ofWord number]

/-- The canonical text: the keyword and the operands, with one space between them. -/
def text (instr : Instruction) : String :=
  " ".intercalate (instr.opcode.keyword :: instr.operands)

/-- The text with a jump described by its address where that is known. -/
def resolvedText (instr : Instruction) : String :=
  match instr.jump? with
  | some jump => " ".intercalate [instr.opcode.keyword, jump.describe]
  | none => instr.text

end Instruction

end XBytecode
