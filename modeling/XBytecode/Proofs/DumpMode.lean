import XBytecode.Machine.Run
import XBytecode.Proofs.Effect
import XBytecode.Proofs.Transport

/-!
# The dump mode and the rest of the machine

No instruction but `DUMP` reads or changes the dump mode (`perform_withDump`). A machine that shows
nothing therefore performs its instructions and moves on, as long as it meets no `DUMP`
(`step_of_hidden`), and two such machines take the same steps, whatever else their modes are
(`step_withDump`).
-/

namespace XBytecode.Machine

open EStateM (bind_of_ok bind_of_error pure_apply get_bind_apply)

/-- The machine in another dump mode. -/
def withDump (d : DumpMode) (m : Machine) : Machine :=
  { m with dump := d }

/-- A machine has its own dump mode already. -/
@[simp]
theorem withDump_dump (m : Machine) : m.withDump m.dump = m := rfl

/-- The replacement of the dump mode alone. -/
def Transport.toMode (d : DumpMode) : Transport where
  address := id
  mode _ := d

/-- Carrying a machine to a dump mode gives it that mode. -/
theorem Transport.machine_toMode (d : DumpMode) (m : Machine) :
    (toMode d).machine m = m.withDump d := by
  simp [machine, toMode, withDump]

/-- Every instruction but `DUMP` ignores the dump mode: in another mode it does the same, and leaves
that mode behind. -/
theorem perform_withDump {instr : Instruction} (h : ∀ on, instr ≠ .dump on) (m : Machine)
    (d : DumpMode) : perform instr (m.withDump d) = (perform instr m).mapState (withDump d) := by
  have hcarries := (Transport.toMode d).carries_perform h m
  have hinstr : instr.mapTarget (Transport.toMode d).address = instr := instr.mapTarget_id
  rw [hinstr, Transport.machine_toMode] at hcarries
  rw [hcarries]
  cases perform instr m with
  | ok a m' => rw [Transport.result_ok, Transport.machine_toMode, EStateM.Result.mapState_ok]
  | error f m' =>
    rw [Transport.result_error, Transport.machine_toMode, EStateM.Result.mapState_error]
    rfl

/-- An instruction other than `DUMP` leaves the machine in its mode, whether it succeeds or not. -/
theorem dump_state_perform {instr : Instruction} (hinstr : ∀ on, instr ≠ .dump on) (m : Machine) :
    (perform instr m).state.dump = m.dump := by
  have hkeep := perform_withDump hinstr m m.dump
  rw [withDump_dump] at hkeep
  rw [hkeep, EStateM.Result.state_mapState]
  rfl

/-- An instruction other than `DUMP` that succeeds leaves the machine in its mode. -/
theorem dump_of_perform {instr : Instruction} {m m' : Machine} (hinstr : ∀ on, instr ≠ .dump on)
    (h : perform instr m = .ok () m') : m'.dump = m.dump := by
  have hkeep := dump_state_perform hinstr m
  rwa [h] at hkeep

/-! ## Steps of a machine that shows nothing -/

/-- In a mode that shows nothing, nothing is shown and the machine stays as it is. -/
theorem showDump_of_hidden {m : Machine} (p : Program) (instr : Instruction)
    (h : m.dump.shows = false) : showDump p instr m = .ok () m := by
  unfold showDump
  rw [get_bind_apply, h]
  rfl

/-- While nothing is shown, an instruction other than `DUMP` is executed and no more. -/
theorem step_of_hidden {p : Program} {m : Machine} {instr : Instruction}
    (h : p.get? m.pc = some instr) (hinstr : ∀ on, instr ≠ .dump on)
    (hhidden : m.dump.shows = false) :
    step p m = (do perform instr; advance instr; return instr : Act Instruction) m := by
  rw [step_apply h]
  cases hm : perform instr m with
  | ok _ m' =>
    -- The instruction has left the mode alone, so nothing is shown behind it either.
    have hsame := dump_of_perform hinstr hm
    rw [bind_of_ok hm, bind_of_ok hm, bind_of_ok (showDump_of_hidden p instr (by rwa [hsame]))]
  | error f m' => rw [bind_of_error hm, bind_of_error hm]

/-- Where there is no `DUMP` and nothing is shown, a step in one mode is a step in another. -/
theorem step_withDump {p : Program} {m : Machine} {d : DumpMode}
    (hinstr : ∀ on, p.get? m.pc ≠ some (.dump on)) (hhidden : m.dump.shows = false)
    (hd : d.shows = false) : step p (m.withDump d) = (step p m).mapState (withDump d) := by
  have hpc : (m.withDump d).pc = m.pc := rfl
  cases hget : p.get? m.pc with
  | none =>
    rw [step_of_outside hget, step_of_outside (by rw [hpc, hget])]
    rfl
  | some instr =>
    have hnot : ∀ on, instr ≠ .dump on := by
      rintro on rfl
      exact hinstr on hget
    rw [step_of_hidden hget hnot hhidden, step_of_hidden (by rw [hpc, hget]) hnot hd]
    have hperform := perform_withDump hnot m d
    cases hm : perform instr m with
    | ok _ m' =>
      rw [hm] at hperform
      rw [bind_of_ok hm, bind_of_ok hperform, bind_of_ok (advance_apply instr m'),
        bind_of_ok (advance_apply instr (m'.withDump d))]
      rfl
    | error f m' =>
      rw [hm] at hperform
      rw [bind_of_error hm, bind_of_error hperform]
      rfl

end XBytecode.Machine
