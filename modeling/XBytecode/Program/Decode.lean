import XBytecode.Instruction

/-!
# Decoding one line

A line of bytecode text is a keyword and its operands, separated by blanks. Operands are read from
left to right and the first one that is missing or ill-formed decides the error. Words behind the
operands that an opcode takes are ignored.
-/

namespace XBytecode

/-- Why the words of a line are no instruction. -/
inductive DecodeError where
  /-- The first word is no keyword. -/
  | unknownOpcode (token : String)
  /-- An operand of the opcode is missing. -/
  | missingOperand (opcode : Opcode)
  /-- The token is no number, or one outside the operand's range. -/
  | invalidNumber (token : String)
  /-- The token is no operator. -/
  | unknownOperator (token : String)
  /-- The token is neither `ON` nor `OFF`. -/
  | invalidDumpMode (token : String)
  deriving DecidableEq, Repr

/-- The text of a decoding error. -/
def DecodeError.message : DecodeError → String
  | unknownOpcode token => "unknown opcode '" ++ token ++ "'"
  | missingOperand opcode =>
    opcode.keyword ++ " expects " ++ toString opcode.arity ++ " operand(s)"
  | invalidNumber token => "invalid number '" ++ token ++ "'"
  | unknownOperator token => "unknown operator '" ++ token ++ "'"
  | invalidDumpMode token => "DUMP expects ON or OFF, found '" ++ token ++ "'"

/-- The dump mode that `word` spells, in any mix of ASCII letter cases. -/
def dumpMode? (word : String) : Option Bool :=
  if word.toUpper == "ON" then some true
  else if word.toUpper == "OFF" then some false
  else none

namespace Operands

/-- The operand at a position, as written. -/
def name (op : Opcode) (tokens : List String) (i : Nat) : Except DecodeError String :=
  match tokens[i]? with
  | some token => .ok token
  | none => .error (.missingOperand op)

/-- The operand at a position, read by `read?` and otherwise refused with `bad`. -/
def value {α : Type} (read? : String → Option α) (bad : String → DecodeError) (op : Opcode)
    (tokens : List String) (i : Nat) : Except DecodeError α := do
  let token ← name op tokens i
  match read? token with
  | some a => .ok a
  | none => .error (bad token)

/-- The operand at a position, as a machine word. -/
def word : Opcode → List String → Nat → Except DecodeError Int32 :=
  value Numeral.word? .invalidNumber

/-- The operand at a position, as a count. -/
def count : Opcode → List String → Nat → Except DecodeError Nat :=
  value Numeral.count? .invalidNumber

end Operands

namespace Instruction

open Operands in
/-- The instruction with the opcode `op` and the operands `tokens`. -/
def ofOperands (op : Opcode) (tokens : List String) : Except DecodeError Instruction :=
  match op with
  | .halt => .ok .halt
  | .read => .ok .read
  | .write => .ok .write
  | .ret => .ok (.ret tokens[0]?)
  | .args => return .args (← count op tokens 0)
  | .pop => return .pop (← count op tokens 0)
  | .call => return .call ⟨← name op tokens 0, none⟩
  | .falseBranch => return .falseBranch ⟨← name op tokens 0, none⟩
  | .goto => return .goto ⟨← name op tokens 0, none⟩
  | .label => return .label (← name op tokens 0)
  | .lit => return .lit (← word op tokens 0) tokens[1]?
  | .load => return .load (← count op tokens 0) (← name op tokens 1)
  | .store => return .store (← count op tokens 0) (← name op tokens 1)
  | .bop => return .bop (← value Operator.ofSymbol? .unknownOperator op tokens 0)
  | .dump => return .dump (← value dumpMode? .invalidDumpMode op tokens 0)
  | .formal => return .formal (← name op tokens 0) (← count op tokens 1)
  | .function => return .function (← name op tokens 0) (← word op tokens 1) (← word op tokens 2)
  | .line => return .line (← word op tokens 0)

/-- The instruction that the words of a line spell; no words spell none. -/
def decode : List String → Except DecodeError (Option Instruction)
  | [] => .ok none
  | word :: tokens =>
    match Opcode.ofKeyword? word with
    | none => .error (.unknownOpcode word)
    | some op => some <$> ofOperands op tokens

end Instruction

end XBytecode
