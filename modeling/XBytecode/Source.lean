import Std.Data.ExtTreeSet
import XBytecode.Text.Lines

/-!
# Source text and breakpoints

The source of a program is kept beside it by lines, numbered from 1 as the `LINE` markers number
them. A breakpoint can be set on a line that holds some text that only a declaration, a statement or
the start of a block holds.
-/

namespace XBytecode

/-- The lines of a source text and the breakpoints set on them. -/
structure Source where
  /-- The lines, in order. -/
  lines : Array String
  /-- The numbers of the lines with a breakpoint. -/
  breakpoints : Std.ExtTreeSet Nat := ∅
  deriving DecidableEq, Inhabited

namespace Source

/-- Why a breakpoint is refused. -/
inductive Error where
  /-- The source has `count` lines and `line` is not the number of one. -/
  | outOfRange (line count : Nat)
  /-- Execution cannot stop at the line. -/
  | notBreakable (line : Nat)
  deriving DecidableEq, Repr

/-- The text of a breakpoint error. -/
def Error.message : Error → String
  | outOfRange line count =>
    "line " ++ toString line ++ " is outside the source (1 to " ++ toString count ++ ")"
  | notBreakable line => "line " ++ toString line ++ " cannot hold a breakpoint"

/-- The source of a text, without breakpoints. -/
def ofText (text : String) : Source :=
  { lines := (Text.lines text).toArray }

/-- The number of lines. -/
def size (s : Source) : Nat :=
  s.lines.size

/-- The text of a line. -/
def line? (s : Source) (number : Nat) : Option String :=
  if number = 0 then none else s.lines[number - 1]?

/-- A line has a text exactly if its number is one of those of the source. -/
theorem exists_line?_iff {source : Source} {number : Nat} :
    (∃ text, source.line? number = some text) ↔ 1 ≤ number ∧ number ≤ source.size := by
  unfold line? size
  split
  · next hzero =>
    constructor
    · rintro ⟨text, htext⟩
      cases htext
    · omega
  · next hpos =>
    have hiff : (∃ text, source.lines[number - 1]? = some text) ↔
        number - 1 < source.lines.size := by
      rw [← Option.isSome_iff_exists]
      simp
    rw [hiff]
    omega

/-- The texts that make a line breakable. -/
def breakableTexts : List String :=
  ["int", "boolean", "if", "while", "=", "\x7b", "return"]

/-- Whether `part` occurs in a text, in one piece. -/
def occursIn (part : List Char) : List Char → Bool
  | [] => part.isEmpty
  | c :: cs => part.isPrefixOf (c :: cs) || occursIn part cs

/-- Whether a line with this text can hold a breakpoint. -/
def isBreakable (text : String) : Bool :=
  breakableTexts.any fun part => occursIn part.toList text.toList

/-- The text of a line that has to exist. -/
def lineOrError (s : Source) (number : Nat) : Except Error String :=
  match s.line? number with
  | some text => .ok text
  | none => .error (.outOfRange number s.size)

/-- Sets a breakpoint. -/
def setBreakpoint (s : Source) (number : Nat) : Except Error Source := do
  let text ← s.lineOrError number
  if isBreakable text then .ok { s with breakpoints := s.breakpoints.insert number }
  else .error (.notBreakable number)

/-- Clears a breakpoint; a line of the source need not have one. -/
def clearBreakpoint (s : Source) (number : Nat) : Except Error Source := do
  let _ ← s.lineOrError number
  .ok { s with breakpoints := s.breakpoints.erase number }

/-- Whether a line, numbered as in a `LINE` marker, has a breakpoint. -/
def hasBreakpoint (s : Source) (line : Int32) : Bool :=
  0 ≤ line && s.breakpoints.contains line.toInt.toNat

/-- A line marker is at a breakpoint exactly if its line is listed as one. -/
theorem hasBreakpoint_iff {source : Source} {line : Int32} :
    source.hasBreakpoint line = true ↔ ∃ n ∈ source.breakpoints.toList, line.toInt = n := by
  simp only [hasBreakpoint, Bool.and_eq_true, decide_eq_true_eq, Std.ExtTreeSet.contains_iff_mem,
    Std.ExtTreeSet.mem_toList, Int32.le_iff_toInt_le, Int32.toInt_zero]
  constructor
  · rintro ⟨hpos, hmem⟩
    exact ⟨_, hmem, (Int.toNat_of_nonneg hpos).symm⟩
  · rintro ⟨n, hmem, hline⟩
    rw [hline, Int.toNat_natCast]
    exact ⟨by omega, hmem⟩

end Source

end XBytecode
