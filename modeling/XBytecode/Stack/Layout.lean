import XBytecode.Stack.Basic
import XBytecode.Text.Numeral

/-!
# The layout of a stack

A stack is shown frame by frame, outermost first, each frame as its values in brackets. A frame
ends where the next one starts. Slots may have been discarded from under an opened frame, so the
bases are held to the slots that exist.
-/

namespace XBytecode.Stack

/-- The values in the slots from `first` up to but not including `stop`, as far as they exist. -/
def slice (slots : Array Int32) (first stop : Nat) : List Int32 :=
  (slots.extract first stop).toList

/-- The values of each frame, outermost first. -/
def frames (s : Stack) : List (List Int32) :=
  List.zipWith (slice s.slots) (0 :: s.bases.toList) (s.bases.toList ++ [s.size])

/-- The ends of the groups, the second one excluded. The second end of a group is the next base, and
both ends are held to the slots. -/
def ranges (size : Nat) : List Nat → List (Nat × Nat)
  | [] => []
  | base :: rest =>
    let stop := min (rest.head?.getD size) size
    (min base stop, stop) :: ranges size rest

/-- The values of one frame in brackets. -/
def frameText (values : List Int32) : String :=
  "[" ++ ",".intercalate (values.map Numeral.ofWord) ++ "]"

/-- The values of all frames. -/
def layout (s : Stack) : String :=
  " ".intercalate (s.frames.map frameText)

end XBytecode.Stack
