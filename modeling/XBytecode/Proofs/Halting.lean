import XBytecode.Proofs.Lockstep
import XBytecode.Proofs.Operation

/-!
# What a run keeps, and when it halts

No action of the machine exchanges its device (`KeepsDevice`), and no instruction but `HALT` stops
the machine (`Effect.running_iff`). Both facts are carried from one step to the loop of a mode: the
device is the same behind a run (`device_proceed`), and the machine has stopped behind a run that
does not fail exactly if one of the run's attempts has executed a `HALT` (`halts_iff_proceed`).
-/

namespace XBytecode

open EStateM (Result bind_of_ok bind_of_error get_bind_apply pure_apply)

namespace Channel

/-- Writing leaves the device as it is. -/
theorem device_write (text : String) (c : Channel) : (write text c).state.device = c.device := by
  unfold write
  simp only
  split <;> rfl

/-- Flushing leaves the device as it is. -/
theorem device_flush (c : Channel) : (flush c).state.device = c.device := by
  unfold flush
  simp only
  split <;> rfl

/-- Reading a line leaves the device as it is. -/
theorem device_readLine (c : Channel) : (readLine c).state.device = c.device := by
  unfold readLine
  split
  · rfl
  · simp only
    split <;> rfl

end Channel

namespace Machine

/-! ## The device -/

/-- The action leaves the machine with the device that it has. -/
def KeepsDevice {α : Type} (act : Act α) : Prop :=
  ∀ m, (act m).state.channel.device = m.channel.device

section Device

variable {α β : Type}

/-- Actions that keep the device can be put one behind the other. -/
theorem KeepsDevice.bind {act : Act α} {next : α → Act β} (hact : KeepsDevice act)
    (hnext : ∀ a, KeepsDevice (next a)) : KeepsDevice (act >>= next) := by
  intro m
  have hkeep := hact m
  cases h : act m with
  | ok a m₁ =>
    rw [h, Result.state_ok] at hkeep
    rw [bind_of_ok h, hnext a m₁, hkeep]
  | error g m₁ =>
    rw [h] at hkeep
    rw [bind_of_error h]
    exact hkeep

/-- An action of the channel that keeps the device does so on the machine. -/
theorem keepsDevice_onChannel {act : Channel.Act α}
    (h : ∀ c, (act c).state.device = c.device) : KeepsDevice (onChannel act) := by
  intro m
  have hkeep := h m.channel
  unfold onChannel
  cases hact : act m.channel with
  | ok a c => rwa [hact] at hkeep
  | error e c => rwa [hact] at hkeep

/-- What leaves mode and channel alone keeps the device. -/
theorem Quiet.keepsDevice {act : Act α} (h : Quiet act) : KeepsDevice act := by
  intro m
  have hsame : act m = (act m).mapState (reseat m.dump m.channel) := h m.dump m.channel m
  rw [hsame, Result.state_mapState]
  rfl

/-- Performing an instruction leaves the device as it is. -/
theorem keepsDevice_perform (instr : Instruction) : KeepsDevice (perform instr) := by
  cases instr with
  | dump on =>
    intro m
    show (if m.dump.suppressed then m else m.setDump on).channel.device = m.channel.device
    split <;> rfl
  | read =>
    refine (keepsDevice_onChannel (Channel.device_write _)).bind fun _ =>
      (keepsDevice_onChannel Channel.device_flush).bind fun _ =>
      (keepsDevice_onChannel Channel.device_readLine).bind fun line => ?_
    split
    · split
      · exact (quiet_push _).keepsDevice
      · exact (quiet_fail _).keepsDevice
    · exact (quiet_fail _).keepsDevice
  | write =>
    exact (quiet_onStack _).keepsDevice.bind fun _ =>
      keepsDevice_onChannel (Channel.device_write _)
  | _ => exact (quiet_perform rfl).keepsDevice

/-- Showing an instruction leaves the device as it is. -/
theorem keepsDevice_showDump (p : Program) (instr : Instruction) :
    KeepsDevice (showDump p instr) := by
  intro m
  rw [showDump, get_bind_apply]
  split
  · exact ((keepsDevice_onChannel (Channel.device_write _)).bind fun _ => fun _ => rfl) m
  · rfl

/-- A step keeps the device, whether it succeeds or fails. -/
theorem keepsDevice_step (p : Program) : KeepsDevice (step p) := by
  intro m
  cases hget : p.get? m.pc with
  | none =>
    rw [step_of_outside hget]
    rfl
  | some instr =>
    rw [step_apply hget]
    refine ((keepsDevice_perform instr).bind fun _ =>
      (keepsDevice_showDump p instr).bind fun _ => ?_) m
    intro m₁
    rw [bind_of_ok (advance_apply instr m₁)]
    rfl

end Device

/-! ## The end of a program -/

/-- The machine has stopped behind an instruction exactly if it had before or the instruction is a
`HALT`. -/
theorem Effect.running_iff {instr : Instruction} {m m' : Machine} (h : Effect instr m m') :
    m'.running = false ↔ m.running = false ∨ instr = .halt := by
  cases h with
  | halt => simp
  | dump => split <;> simp [setDump]
  | _ => simp

/-- The machine has stopped behind a step exactly if it had before or the step executed a `HALT`. -/
theorem running_of_step {p : Program} {instr : Instruction} {m m' : Machine}
    (h : step p m = .ok instr m') : m'.running = false ↔ m.running = false ∨ instr = .halt := by
  obtain ⟨-, m₁, heffect, hm'⟩ := effect_of_step h
  rw [hm']
  exact heffect.running_iff

end Machine

namespace Session

variable {p : Program} {mode : Mode} {depth fuel : Nat} {s t : Session} {instr : Instruction}

/-- An attempt of a session executes a `HALT`. -/
def ExecutesHalt (p : Program) (a : Session) : Prop :=
  ∃ m, Machine.step p a.machine = .ok .halt m

/-- A step that succeeds behind a running machine stops it exactly if it executes a `HALT`. -/
theorem running_of_step (h : step p s = .ok instr t) (hrunning : s.machine.running = true) :
    t.machine.running = false ↔ ExecutesHalt p s := by
  have hm := machine_of_ok h
  rw [Machine.running_of_step hm, hrunning, ExecutesHalt, hm]
  simp

/-- A step that fails executes no `HALT`. -/
theorem not_executesHalt {e : Error} (h : step p s = .error e t) : ¬ ExecutesHalt p s := by
  rintro ⟨m, hm⟩
  -- Behind a `HALT` there is nothing that the session could fail to follow.
  rw [step_of_ok hm] at h
  cases h

/-- The loop of a mode keeps the device. -/
theorem device_proceed (p : Program) (mode : Mode) (depth fuel : Nat) (s : Session) :
    (proceed p mode depth fuel s).state.machine.channel.device = s.machine.channel.device := by
  induction fuel generalizing s with
  | zero => rfl
  | succ fuel ih =>
    have hstep := step_machine p s.settled
    have hdevice := Machine.keepsDevice_step p s.machine
    obtain ⟨-, hp, -⟩ | ⟨-, hp, -⟩ | ⟨-, e, t, ht, hp, -⟩ | ⟨-, instr, t, ht, hp, -⟩ :=
      proceed_cases p mode depth fuel s
    · rw [hp]
      rfl
    · rw [hp]
      rfl
    · rw [ht, Result.state_error] at hstep
      rw [hp, Result.state_error, hstep]
      exact hdevice
    · rw [ht, Result.state_ok] at hstep
      rw [hp, ih, hstep]
      exact hdevice

/-- The loop does nothing where the machine has stopped. -/
theorem proceed_stopped (p : Program) (mode : Mode) (depth fuel : Nat)
    (h : s.machine.running = false) : ∃ stop, proceed p mode depth fuel s = .ok stop s := by
  cases fuel with
  | zero => exact ⟨.outOfFuel, rfl⟩
  | succ fuel =>
    rw [proceed_succ, h]
    exact ⟨.finished, rfl⟩

/-- On a running machine, the loop of a mode executes a `HALT` exactly if it does not fail and the
machine has stopped behind it. -/
theorem halts_iff_proceed (hrunning : s.machine.running = true) :
    (∃ a ∈ proceedAttempts p mode depth fuel s, ExecutesHalt p a) ↔
      ∃ stop t, proceed p mode depth fuel s = .ok stop t ∧ t.machine.running = false := by
  induction fuel generalizing s with
  | zero => simp [proceedAttempts, proceed, pure_apply, hrunning]
  | succ fuel ih =>
    obtain ⟨hstopped, -⟩ | ⟨-, hp, ha⟩ | ⟨-, e, t, hstep, hp, ha⟩ | ⟨-, instr, t, hstep, hp, ha⟩ :=
      proceed_cases p mode depth fuel s
    · rw [hrunning] at hstopped
      cases hstopped
    · simp [hp, ha, hrunning]
    · simp [hp, ha, not_executesHalt hstep]
    · have hstops : t.machine.running = false ↔ ExecutesHalt p s.settled :=
        running_of_step hstep hrunning
      simp only [hp, ha, List.mem_cons, exists_eq_or_imp, ← hstops]
      cases ht : t.machine.running with
      | true => rw [ih ht]; simp
      | false =>
        -- The machine has just been stopped, and the loop ends with it.
        obtain ⟨stop, hend⟩ := proceed_stopped p mode depth fuel ht
        exact iff_of_true (.inl rfl) ⟨stop, t, hend, ht⟩

end Session

end XBytecode
