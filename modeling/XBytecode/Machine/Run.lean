import XBytecode.Machine.Step

/-!
# Running a program

A program runs until it halts or an instruction fails. Since it may do neither, a run is given a
number of steps that it may take, and says when they did not suffice.
-/

namespace XBytecode.Machine

/-- How a run without a fault ends. -/
inductive Ending where
  /-- The machine has stopped. -/
  | halted
  /-- The steps allowed have been taken. -/
  | outOfFuel
  deriving DecidableEq, Repr

/-- Executes instructions until the machine stops, at most `fuel` of them. -/
def execute (p : Program) : Nat → Act Ending
  | 0 => return if (← get).running then .outOfFuel else .halted
  | fuel + 1 => do
    if (← get).running then
      let _ ← step p
      execute p fuel
    else return .halted

end XBytecode.Machine
