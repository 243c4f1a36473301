import XBytecode.Instruction
import XBytecode.Scope

/-!
# Activations

What the debugger knows of a function being executed: its name, its place in the source, the line
that it has reached and its variables.
-/

namespace XBytecode

/-- A function being executed. -/
structure Activation where
  /-- The name of the function, with its suffix. -/
  name : String
  /-- The first source line of the function. -/
  first : Int32
  /-- The last source line of the function. -/
  last : Int32
  /-- The source line that has been reached. -/
  line : Int32
  /-- The variables in scope. -/
  scope : Scope := {}
  deriving DecidableEq, Inhabited

namespace Activation

/-- The activation that lies below all function calls. It spans the source, as far as machine words
can number its lines. -/
def base (lineCount : Nat) : Activation :=
  { name := "main", first := 1, line := 1
    last := if lineCount ≤ Int32.maxValue.toInt.toNat then Int32.ofNat lineCount
      else Int32.maxValue }

/-- The name without its suffix. -/
def display (a : Activation) : String :=
  displayName a.name

/-- Whether the function has no source, as the functions of the language's library have none. -/
def isIntrinsic (a : Activation) : Bool :=
  a.first ≤ 0

end Activation

end XBytecode
