import XBytecode.Program.Decode
import XBytecode.Program.Resolve
import XBytecode.Text.Blank
import XBytecode.Text.Lines

/-!
# Loading bytecode text

Loading is best-effort: a line that does not decode is skipped and reported with its number, and
the instructions of the other lines are resolved. A program always comes out.
-/

namespace XBytecode

/-- A line that does not decode. -/
structure LoadError where
  /-- The number of the line, from 1. -/
  line : Nat
  /-- Why the line is no instruction. -/
  cause : DecodeError
  deriving DecidableEq, Repr

/-- The text of a loading error. -/
def LoadError.message (e : LoadError) : String :=
  "line " ++ toString e.line ++ ": " ++ e.cause.message

/-- What loading a text gives. -/
structure Loaded where
  /-- The program of the lines that decode. -/
  program : Program
  /-- The lines that do not decode, in order. -/
  diagnostics : List LoadError
  /-- The faults in the program's names. -/
  resolveErrors : List ResolveError

/-- Whether loading met no fault. -/
def Loaded.isClean (l : Loaded) : Bool :=
  l.diagnostics.isEmpty && l.resolveErrors.isEmpty

namespace Program

/-- Every line of a text, decoded, with its number. -/
def decodeLines (text : String) : List (Except DecodeError (Option Instruction) × Nat) :=
  ((Text.lines text).map fun line => Instruction.decode (Text.words line)).zipIdx 1

/-- The instruction of a decoded line. -/
def lineInstruction? : Except DecodeError (Option Instruction) × Nat → Option Instruction
  | (.ok instr, _) => instr
  | (.error _, _) => none

/-- The error of a decoded line. -/
def lineError? : Except DecodeError (Option Instruction) × Nat → Option LoadError
  | (.ok _, _) => none
  | (.error cause, line) => some { line, cause }

/-- The program of a bytecode text, with all that is wrong with the text. -/
def load (text : String) : Loaded :=
  let decoded := decodeLines text
  let code := decoded.filterMap lineInstruction?
  { program := resolve code
    diagnostics := decoded.filterMap lineError?
    resolveErrors := resolveErrors code }

end Program

end XBytecode
