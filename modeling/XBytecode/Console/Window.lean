import XBytecode.Session.Basic
import XBytecode.Text.Align
import XBytecode.Text.Uppercase

/-!
# The function window

The window shows the source lines of the current function with their numbers. A star marks a line
with a breakpoint and an arrow the line that has been reached. A function without source shows its
name.
-/

namespace XBytecode.Console

/-- One line of the window, without its line feed. -/
def windowLine (s : Session) (number : Nat) (text : String) : String :=
  (if s.source.breakpoints.contains number then "*" else " ") ++
    Text.alignRight 4 (toString number ++ ".") ++ " " ++ text ++
    (if (number : Int) = s.current.line.toInt then " <-----" else "")

/-- The numbers of the source lines that belong to a function, when the source has `count` lines. -/
def windowNumbers (a : Activation) (count : Nat) : List Nat :=
  let first := a.first.toInt.toNat
  let last := min a.last.toInt.toNat count
  List.range' first (last + 1 - first)

/-- The lines of the window of a function with source. -/
def windowLines (s : Session) : List String :=
  (windowNumbers s.current s.source.size).filterMap fun number =>
    (s.source.line? number).map (windowLine s number)

/-- The text of the window. -/
def functionWindow (s : Session) : String :=
  if s.current.isIntrinsic then "****" ++ Text.uppercase s.current.display ++ "****\n"
  else String.join ((windowLines s).map (· ++ "\n"))

end XBytecode.Console
