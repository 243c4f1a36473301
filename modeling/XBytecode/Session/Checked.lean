import XBytecode.Machine.Checked
import XBytecode.Session.Step

/-!
# Sessions with their checks

A session relies on little beyond what its machine does: that there is an innermost activation, that
as many bindings can be counted down as are undone, and that the slot of a parameter is an address.
-/

namespace XBytecode

/-- Undoing bindings relies on counting each of them down. -/
def Scope.undoGuard : Nat → Scope → Guard
  | 0, _ => pure ()
  | n + 1, s =>
    match s.undoLast? with
    | some rest => do
      Address.difference s.live 1
      undoGuard n rest
    | none => pure ()

namespace Session

/-- The innermost activation is the record at the last index. -/
def currentGuard (s : Session) : Guard := do
  Address.difference s.depth 1
  Address.index (s.depth - 1) s.records.length

/-- What following an instruction relies on. Where a function is entered, its own activation is the
innermost one then. -/
def followGuard (instr : Instruction) (s : Session) : Guard :=
  match instr with
  | .lit _ (some _) | .line _ | .ret _ => s.currentGuard
  | .pop count => do
    s.currentGuard
    match s.current.scope.undo count with
    | .ok _ => s.current.scope.undoGuard count
    | .error _ => pure ()
  | .formal _ offset => do
    Address.sum s.machine.stack.frameBase offset
    s.currentGuard
  | .function name first last => do
    s.currentGuard
    (s.enterFunction name first last).currentGuard
    if s.tracing then s.machine.stack.frameGuard else pure ()
  | _ => pure ()

/-- Performs a guarded action of the machine. -/
def onGuarded {α : Type} (act : Guarded Fault Machine α) : Guarded Error Session α := fun s =>
  match act s.machine with
  | .ok a machine => .ok a { s with machine }
  | .error (.panic p) machine => .error (.panic p) { s with machine }
  | .error (.error f) machine => .error (.error (.fault f)) { s with machine }

open Guarded (free behind) in
/-- Executes one instruction and gives it, or panics. -/
def Checked.step (p : Program) : Guarded Error Session Instruction := do
  let address ← free nextAddress
  let instr ← onGuarded (Machine.Checked.step p)
  modify fun s => { s with last := some instr }
  behind (followGuard instr) (follow address instr)
  return instr

end Session

end XBytecode
