import XBytecode.Session.Step

/-!
# Stepping

A session executes instructions until its mode says that it has come far enough. The mode decides
from three things: whether a source line has just been reached, whether that line has a breakpoint,
and how the number of activations compares with the number at the start.
-/

namespace XBytecode.Session

/-- How far execution goes. -/
inductive Mode where
  /-- To the next breakpoint. -/
  | resume
  /-- Into the next function called, or to the next breakpoint. -/
  | into
  /-- To the next line reached. -/
  | over
  /-- Out of the current function, or to the next breakpoint. -/
  | out
  deriving DecidableEq, Repr

/-- How an execution without an error ends. -/
inductive Stop where
  /-- The mode's goal is reached. -/
  | paused
  /-- The machine has stopped. -/
  | finished
  /-- The steps allowed have been taken. -/
  | outOfFuel
  deriving DecidableEq, Repr

/-- Whether a line with a breakpoint has just been reached. -/
def arrived (s : Session) : Bool :=
  s.lineChanged && s.source.hasBreakpoint s.current.line

/-- Whether the last instruction was the marker of a function with source. -/
def justEntered (s : Session) : Bool :=
  match s.last with
  | some (.function ..) => !s.current.isIntrinsic
  | _ => false

/-- Whether execution in a mode goes on from here, when it started with `depth` activations. Into a
function means behind its marker, even if there is a breakpoint at the marker. -/
def goesOn (mode : Mode) (depth : Nat) (s : Session) : Bool :=
  match mode with
  | .resume => !s.arrived
  | .out => depth ≤ s.depth && !s.arrived
  | .into => if depth < s.depth then s.justEntered else !s.arrived
  | .over => !s.lineChanged

/-- Asks whether execution goes on, which settles that the line reached has been noticed. -/
def decideToGo (mode : Mode) (depth : Nat) : Act Bool := fun s =>
  .ok (s.goesOn mode depth) { s with lineChanged := false }

/-- Executes instructions as the mode says, at most `fuel` of them, when execution started with
`depth` activations. -/
def proceed (p : Program) (mode : Mode) (depth : Nat) : Nat → Act Stop
  | 0 => return .outOfFuel
  | fuel + 1 => do
    if (← get).machine.running then
      if ← decideToGo mode depth then
        let _ ← step p
        proceed p mode depth fuel
      else return .paused
    else return .finished

/-- Executes instructions as the mode says, at most `fuel` of them. -/
def runMode (p : Program) (fuel : Nat) (mode : Mode) : Act Stop := do
  proceed p mode (← get).depth fuel

end XBytecode.Session
