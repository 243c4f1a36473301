import XBytecode.Machine.Step

/-!
# The machine with its checks

Each part of a step has a guard: what the part relies on, in the state that it is performed in. A
build with checks performs the parts of the step behind their guards, and is in all else the machine
itself. Most guards follow from what the machine has looked at before; the sums do not.
-/

namespace XBytecode

namespace Stack

/-- A load relies on the sum, and on the slot that it copies. -/
def loadGuard (s : Stack) (offset : Nat) : Guard := do
  Address.sum s.frameBase offset
  match s.load offset with
  | .ok _ => Address.index (s.address offset) s.size
  | .error _ => pure ()

/-- A store relies on the sum, unless there is nothing to store, and on the slot it replaces. -/
def storeGuard (s : Stack) (offset : Nat) : Guard :=
  match s.store offset with
  | .ok (_, rest) => do
    Address.sum s.frameBase offset
    Address.index (s.address offset) rest.size
  | .error .underflow => pure ()
  | .error _ => Address.sum s.frameBase offset

/-- Discarding relies on the difference that is the number of slots left. -/
def discardGuard (s : Stack) (count : Nat) : Guard :=
  Address.difference s.size (s.discard count).1

/-- The values of the active frame are a range of the slots. A base above the slots is held to
them. -/
def frameGuard (s : Stack) : Guard :=
  Address.range (min s.frameBase s.size) s.size s.size

/-- The values of every frame are a range of the slots. -/
def layoutGuard (s : Stack) : Guard :=
  (ranges s.size s.frameBases).forM fun (first, stop) => Address.range first stop s.size

end Stack

namespace Machine

/-- What performing an instruction relies on. A full stack refuses a load before its offset is
looked at. -/
def performGuard (instr : Instruction) (m : Machine) : Guard :=
  match instr with
  | .load offset _ => if m.stack.size < capacity then m.stack.loadGuard offset else pure ()
  | .store offset _ => m.stack.storeGuard offset
  | .pop count => m.stack.discardGuard count
  | _ => pure ()

/-- What the line for an instruction relies on. -/
def lineGuard (instr : Instruction) (m : Machine) : Guard :=
  match instr with
  | .store offset _ => Address.sum m.stack.frameBase offset
  | .call _ => m.stack.frameGuard
  | _ => pure ()

/-- What showing an instruction relies on, if it is shown. -/
def dumpGuard (instr : Instruction) (m : Machine) : Guard :=
  if m.dump.shows then do
    m.lineGuard instr
    m.stack.layoutGuard
  else pure ()

/-- What moving the program counter on relies on. -/
def advanceGuard (instr : Instruction) (m : Machine) : Guard :=
  match instr with
  | .call _ => pure ()
  | _ => Address.sum m.pc 1

open Guarded (free behind) in
/-- Executes one instruction and gives it, or panics. -/
def Checked.step (p : Program) : Guarded Fault Machine Instruction := do
  let instr ← free (fetch p)
  behind (performGuard instr) (perform instr)
  behind (dumpGuard instr) (showDump p instr)
  behind (advanceGuard instr) (advance instr)
  return instr

end Machine

/-- The two ways in which the engines can be built. -/
inductive Build where
  /-- A sum that is too large wraps around. -/
  | wrapping
  /-- A sum that is too large makes the engine panic. -/
  | checked
  deriving DecidableEq, Repr

/-- `b.Steps p m instr m'`: in the build, a step of the program succeeds on `m`. It executes the
instruction and makes `m'` of the machine. -/
def Build.Steps : Build → Program → Machine → Instruction → Machine → Prop
  | wrapping, p, m, instr, m' => Machine.step p m = .ok instr m'
  | checked, p, m, instr, m' => Machine.Checked.step p m = .ok instr m'

end XBytecode
