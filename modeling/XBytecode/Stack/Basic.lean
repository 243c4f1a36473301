import XBytecode.Address

/-!
# The run-time stack

Slots of machine words grow and shrink at the top. Frames are opened over the top slots, and the
innermost one is active: offsets count from its base. Below all opened frames lies one frame with
base 0 that cannot be closed, so it is not stored.

Every operation that can fail checks first and changes nothing when it fails. A slot is found by the
sum of a base and an offset, which wraps around when it is too large to be an address.
-/

namespace XBytecode

/-- Slots and the bases of the frames opened on them. -/
structure Stack where
  /-- The values, bottom first. -/
  slots : Array Int32 := #[]
  /-- The bases of the opened frames, outermost first. -/
  bases : Array Nat := #[]
  deriving DecidableEq, Inhabited

namespace Stack

/-- Why a stack operation is refused. -/
inductive Error where
  /-- There is no value to take. -/
  | underflow
  /-- No frame has been opened. -/
  | noActiveFrame
  /-- Slot `index` lies outside the `size` slots that could be meant. -/
  | outOfRange (index size : Nat)
  deriving DecidableEq, Repr

/-- The text of a stack error. -/
def Error.message : Error → String
  | underflow => "stack underflow"
  | noActiveFrame => "no active frame to pop"
  | outOfRange index size =>
    "slot " ++ toString index ++ " is outside a stack of " ++ toString size ++ " values"

/-- The number of slots. -/
def size (s : Stack) : Nat :=
  s.slots.size

/-- Where the active frame starts. -/
def frameBase (s : Stack) : Nat :=
  s.bases.back?.getD 0

/-- The bases of all frames, the one at the bottom included, outermost first. -/
def frameBases (s : Stack) : List Nat :=
  0 :: s.bases.toList

/-- The number of frames, the one at the bottom included. -/
def frameCount (s : Stack) : Nat :=
  s.bases.size + 1

/-- The value in a slot, counted from the bottom. -/
def slot? (s : Stack) (index : Nat) : Option Int32 :=
  s.slots[index]?

/-- The slot that an offset of the active frame stands for. -/
@[inline]
def address (s : Stack) (offset : Nat) : Nat :=
  Address.add s.frameBase offset

/-- The values from the base of the active frame to the top. -/
def frameValues (s : Stack) : List Int32 :=
  (s.slots.extract s.frameBase s.size).toList

/-- Adds a value on top. -/
@[inline]
def push (s : Stack) (v : Int32) : Stack :=
  { s with slots := s.slots.push v }

/-- The top value. -/
@[inline]
def peek (s : Stack) : Except Error Int32 :=
  match s.slots.back? with
  | some v => .ok v
  | none => .error .underflow

/-- Takes the top value. -/
@[inline]
def pop (s : Stack) : Except Error (Int32 × Stack) :=
  match s.slots.back? with
  | some v => .ok (v, { s with slots := s.slots.pop })
  | none => .error .underflow

/-- Opens a frame over the top `count` slots and gives its base. -/
@[inline]
def openFrame (s : Stack) (count : Nat) : Except Error (Nat × Stack) :=
  if count ≤ s.size then .ok (s.size - count, { s with bases := s.bases.push (s.size - count) })
  else .error (.outOfRange count s.size)

/-- Closes the active frame, leaving the slots alone, and gives its base. -/
@[inline]
def closeFrame (s : Stack) : Except Error (Nat × Stack) :=
  match s.bases.back? with
  | some base => .ok (base, { s with bases := s.bases.pop })
  | none => .error .noActiveFrame

/-- Pushes a copy of the slot at an offset of the active frame. -/
@[inline]
def load (s : Stack) (offset : Nat) : Except Error (Int32 × Stack) :=
  match s.slots[s.address offset]? with
  | some v => .ok (v, s.push v)
  | none => .error (.outOfRange (s.address offset) s.size)

/-- Pops the top value into the slot at an offset of the active frame. The slot that the value
leaves cannot be meant. -/
@[inline]
def store (s : Stack) (offset : Nat) : Except Error (Int32 × Stack) :=
  match s.slots.back? with
  | some v =>
    let index := s.address offset
    if index < s.size - 1 then .ok (v, { s with slots := s.slots.pop.setIfInBounds index v })
    else .error (.outOfRange index (s.size - 1))
  | none => .error .underflow

/-- Discards the top `count` values if fewer than all are asked for, and otherwise none. Gives the
number of values discarded. -/
@[inline]
def discard (s : Stack) (count : Nat) : Nat × Stack :=
  if count < s.size then (count, { s with slots := s.slots.shrink (s.size - count) }) else (0, s)

/-- Closes the active frame and leaves its top value in place of all its slots. -/
@[inline]
def unwind (s : Stack) : Except Error (Int32 × Stack) :=
  match s.bases.back? with
  | none => .error .noActiveFrame
  | some base =>
    match s.slots.back? with
    | none => .error .underflow
    | some v => .ok (v, { slots := (s.slots.pop.shrink base).push v, bases := s.bases.pop })

end Stack

end XBytecode
