/-!
# Addresses

Addresses, offsets and sizes are numbers of 64 bits, and the sum of two of them may be none. The
engines can be built in two ways. One build lets such a sum wrap around (`Address.add`), and the
other one checks every sum and panics. In both of them an engine panics when it takes an element for
granted that is not there. A collection holds fewer elements than there are addresses, so that
counting on within a program or a stack is never a matter of wrapping around.

The engines are written once, and without the checks. What they rely on at a place is computed
beside them, from what they do there, as a `Guard`: it holds, or it says how the engine panics. A
`Guarded` action is an action of the engine behind its guards, so that the two builds cannot come to
differ in anything else.
-/

namespace XBytecode

/-- Why an engine breaks off. -/
inductive Panic where
  /-- A sum is too large, or a difference would be below zero. -/
  | overflow
  /-- There is no such element, or no such range of elements. -/
  | outOfBounds
  deriving DecidableEq, Repr

/-- What an engine relies on at a place. -/
abbrev Guard := Except Panic Unit

namespace Address

/-- Every address is below this. -/
def limit : Nat :=
  0x10000000000000000

/-- The sum of two addresses. One that is too large wraps around. -/
def add (a b : Nat) : Nat :=
  (a + b) % limit

/-- A sum that is an address does not wrap around. -/
theorem add_eq {a b : Nat} (h : a + b < limit) : add a b = a + b :=
  Nat.mod_eq_of_lt h

/-- The sum is an address. -/
def sum (a b : Nat) : Guard :=
  if a + b < limit then .ok () else .error .overflow

/-- The difference is not below zero. -/
def difference (a b : Nat) : Guard :=
  if b ≤ a then .ok () else .error .overflow

/-- There is an element at the index, in a collection of a size. -/
def index (i size : Nat) : Guard :=
  if i < size then .ok () else .error .outOfBounds

/-- There are elements from `first` up to but not including `stop`, in a collection of a size. -/
def range (first stop size : Nat) : Guard :=
  if first ≤ stop ∧ stop ≤ size then .ok () else .error .outOfBounds

end Address

/-- How a guarded action fails. -/
inductive Guarded.Failure (ε : Type) where
  /-- It panics. -/
  | panic (p : Panic)
  /-- It fails with an error of its own. -/
  | error (e : ε)
  deriving DecidableEq, Repr

/-- An action that may panic. -/
abbrev Guarded (ε σ : Type) := EStateM (Guarded.Failure ε) σ

namespace Guarded

variable {ε σ α : Type}

/-- Performs an action that does not panic. -/
def free (act : EStateM ε σ α) : Guarded ε σ α := fun s =>
  match act s with
  | .ok a t => .ok a t
  | .error e t => .error (.error e) t

/-- Performs an action where its guard holds, and panics elsewhere. -/
def behind (guard : σ → Guard) (act : EStateM ε σ α) : Guarded ε σ α := fun s =>
  match guard s with
  | .ok () => free act s
  | .error p => .error (.panic p) s

end Guarded

end XBytecode
