import XBytecode.Proofs.Action
import XBytecode.Session.Mode

/-!
# What a step of a session does

A step of a session is a step of its machine, after which the session follows the instruction in its
own books. `step_of_fault` and `step_of_ok` say so, and the rest of the theory does not open the
definition again. Following an instruction never touches the machine (`follow_keeps`) and fails
only behind a `POP` of more values than the innermost activation has bindings (`follow_eq_error`).

`proceed_succ` is the equation of the loop that executes instructions in a mode.
-/

namespace XBytecode.Session

open EStateM (modify_apply pure_apply get_bind_apply bind_eq_ok bind_eq_error bind_of_ok
  bind_of_error)

/-! ## Following an instruction -/

/-- Changing the innermost activation leaves the machine alone. -/
@[simp]
theorem updateCurrent_machine (f : Activation → Activation) (s : Session) :
    (s.updateCurrent f).machine = s.machine := by
  unfold updateCurrent
  split <;> rfl

/-- Logging leaves the machine alone. -/
@[simp]
theorem trace_machine (entry : String) (s : Session) : (s.trace entry).machine = s.machine := by
  unfold trace
  split <;> rfl

/-- Reaching a line leaves the machine alone. -/
@[simp]
theorem reachLine_machine (line : Int32) (s : Session) :
    (s.reachLine line).machine = s.machine := by
  unfold reachLine
  split
  · simp
  · rfl

/-- Changing the innermost activation leaves the source alone. -/
@[simp]
theorem updateCurrent_source (f : Activation → Activation) (s : Session) :
    (s.updateCurrent f).source = s.source := by
  unfold updateCurrent
  split <;> rfl

/-- Logging leaves the source alone. -/
@[simp]
theorem trace_source (entry : String) (s : Session) : (s.trace entry).source = s.source := by
  unfold trace
  split <;> rfl

/-- Reaching a line leaves the source alone. -/
@[simp]
theorem reachLine_source (line : Int32) (s : Session) : (s.reachLine line).source = s.source := by
  unfold reachLine
  split
  · simp
  · rfl

/-- Following an instruction leaves the machine as the instruction left it, and the source with its
breakpoints alone. -/
theorem follow_keeps (address : Nat) (instr : Instruction) (s : Session) :
    (follow address instr s).state.machine = s.machine ∧
      (follow address instr s).state.source = s.source := by
  unfold follow
  split
  · simp [modify_apply, declare]
  · unfold retract
    split <;> simp
  · simp [modify_apply, declare]
  · simp [modify_apply, enterFunction]
  · simp [modify_apply]
  · simp [modify_apply, exitFunction]
  · exact ⟨rfl, rfl⟩

/-- A session cannot follow an instruction exactly when it is a `POP` of more values than the
innermost activation has bindings. Its books are then left as they were. -/
theorem follow_eq_error {address : Nat} {instr : Instruction} {s t : Session} {e : Error} :
    follow address instr s = .error e t ↔
      ∃ n, instr = .pop n ∧ s.current.scope.live < n ∧
        e = .scope address (.undoUnderflow n s.current.scope.live) ∧ t = s := by
  constructor
  · intro h
    unfold follow at h
    split at h
    case h_2 count =>
      unfold retract Scope.undo at h
      split at h
      · cases h
      · next hundo =>
        split at hundo
        · cases hundo
        · next hlive =>
          cases hundo
          cases h
          exact ⟨count, rfl, Nat.lt_of_not_le hlive, rfl, rfl⟩
    -- Every other instruction is followed without a failure.
    all_goals cases h
  · rintro ⟨n, rfl, hlive, rfl, rfl⟩
    simp [follow, retract, Scope.undo, Nat.not_le.mpr hlive]

/-! ## One step -/

/-- When the machine fails, the step fails with its fault and the books stay as they are. -/
theorem step_of_fault {p : Program} {s : Session} {f : Fault} {m : Machine}
    (h : Machine.step p s.machine = .error f m) :
    step p s = .error (.fault f) { s with machine := m } := by
  simp only [step, onMachine, nextAddress, bind, EStateM.bind, h]

/-- When the machine executes an instruction, the session follows it. -/
theorem step_of_ok {p : Program} {s : Session} {instr : Instruction} {m : Machine}
    (h : Machine.step p s.machine = .ok instr m) :
    step p s = (follow s.machine.pc instr >>= fun _ => pure instr)
      { s with machine := m, last := some instr } := by
  simp only [step, onMachine, nextAddress, bind, EStateM.bind, h]
  rfl

/-- A step succeeds exactly when the machine's does and the session can follow it. -/
theorem step_eq_ok {p : Program} {s t : Session} {instr : Instruction} :
    step p s = .ok instr t ↔
      ∃ m, Machine.step p s.machine = .ok instr m ∧
        follow s.machine.pc instr { s with machine := m, last := some instr } = .ok () t := by
  cases hm : Machine.step p s.machine with
  | error f m => simp [step_of_fault hm]
  | ok performed m =>
    rw [step_of_ok hm, bind_eq_ok]
    simp only [pure_apply, EStateM.Result.ok.injEq]
    constructor
    · rintro ⟨_, u, hfollow, rfl, rfl⟩
      exact ⟨m, ⟨rfl, rfl⟩, hfollow⟩
    · rintro ⟨m', ⟨rfl, rfl⟩, hfollow⟩
      exact ⟨(), t, hfollow, rfl, rfl⟩

/-- A step leaves the source and its breakpoints alone. -/
theorem source_of_step {p : Program} {s t : Session} {instr : Instruction}
    (h : step p s = .ok instr t) : t.source = s.source := by
  obtain ⟨m, -, hfollow⟩ := step_eq_ok.mp h
  have hkeep := (follow_keeps s.machine.pc instr { s with machine := m, last := some instr }).2
  rwa [hfollow] at hkeep

/-- The machine of a session takes a step of its own, whatever the session makes of it. -/
theorem step_machine (p : Program) (s : Session) :
    (step p s).state.machine = (Machine.step p s.machine).state := by
  cases hm : Machine.step p s.machine with
  | error f m => rw [step_of_fault hm]; rfl
  | ok instr m =>
    rw [step_of_ok hm]
    have hkeep := (follow_keeps s.machine.pc instr { s with machine := m, last := some instr }).1
    cases hfollow : follow s.machine.pc instr { s with machine := m, last := some instr } with
    | ok _ t => rw [bind_of_ok hfollow]; rwa [hfollow] at hkeep
    | error e t => rw [bind_of_error hfollow]; rwa [hfollow] at hkeep

/-- When a session executes an instruction, its machine does. -/
theorem machine_of_ok {p : Program} {s t : Session} {instr : Instruction}
    (h : step p s = .ok instr t) : Machine.step p s.machine = .ok instr t.machine := by
  obtain ⟨m, hm, -⟩ := step_eq_ok.mp h
  have hmachine : t.machine = m := by
    have hstate := step_machine p s
    rwa [h, hm] at hstate
  rw [hm, hmachine]

/-- A step fails with a fault exactly when the machine does, and the fault is the machine's. -/
theorem step_eq_fault {p : Program} {s : Session} {f : Fault} :
    (∃ t, step p s = .error (.fault f) t) ↔ ∃ m, Machine.step p s.machine = .error f m := by
  cases hm : Machine.step p s.machine with
  | error g m => simp [step_of_fault hm]
  | ok instr m =>
    rw [step_of_ok hm]
    constructor
    · rintro ⟨t, h⟩
      cases hfollow : follow s.machine.pc instr { s with machine := m, last := some instr } with
      | ok _ u => rw [bind_of_ok hfollow] at h; cases h
      | error e u =>
        obtain ⟨n, -, -, rfl, -⟩ := follow_eq_error.mp hfollow
        rw [bind_of_error hfollow] at h
        cases h
    · rintro ⟨_, h⟩
      cases h

/-- A step fails over the bindings exactly when the machine has executed a `POP` of more values than
the innermost activation has bindings. -/
theorem step_eq_scope {p : Program} {s : Session} {address : Nat} {e : Scope.Error} :
    (∃ t, step p s = .error (.scope address e) t) ↔
      ∃ n m, Machine.step p s.machine = .ok (.pop n) m ∧ s.current.scope.live < n ∧
        address = s.machine.pc ∧ e = .undoUnderflow n s.current.scope.live := by
  cases hm : Machine.step p s.machine with
  | error f m => simp [step_of_fault hm]
  | ok instr m =>
    rw [step_of_ok hm]
    constructor
    · rintro ⟨t, h⟩
      cases hfollow : follow s.machine.pc instr { s with machine := m, last := some instr } with
      | ok _ u => rw [bind_of_ok hfollow] at h; cases h
      | error e' u =>
        obtain ⟨n, rfl, hlive, rfl, -⟩ := follow_eq_error.mp hfollow
        rw [bind_of_error hfollow] at h
        cases h
        exact ⟨n, m, rfl, hlive, rfl, rfl⟩
    · rintro ⟨n, m', heq, hlive, rfl, rfl⟩
      cases heq
      -- The innermost activation is the same one behind the machine's step.
      have hfollow : follow s.machine.pc (.pop n) { s with machine := m, last := some (.pop n) } =
          .error (.scope s.machine.pc (.undoUnderflow n s.current.scope.live)) _ :=
        follow_eq_error.mpr ⟨n, rfl, hlive, rfl, rfl⟩
      exact ⟨_, bind_of_error hfollow _⟩

/-- A step that fails has failed over the machine, or over the bindings behind a `POP`. The books of
the session are left as they were, but for the instruction executed last. -/
theorem step_error_cases {p : Program} {s t : Session} {e : Error} (h : step p s = .error e t) :
    (∃ f m, Machine.step p s.machine = .error f m ∧ e = .fault f ∧ t = { s with machine := m }) ∨
      ∃ n m, Machine.step p s.machine = .ok (.pop n) m ∧
        e = .scope s.machine.pc (.undoUnderflow n s.current.scope.live) ∧
        t = { s with machine := m, last := some (.pop n) } := by
  cases hm : Machine.step p s.machine with
  | error f m =>
    rw [step_of_fault hm] at h
    cases h
    exact .inl ⟨f, m, rfl, rfl, rfl⟩
  | ok instr m =>
    rw [step_of_ok hm] at h
    obtain hfollow | ⟨_, _, _, hpure⟩ := bind_eq_error.mp h
    · obtain ⟨n, rfl, -, rfl, rfl⟩ := follow_eq_error.mp hfollow
      exact .inr ⟨n, m, rfl, rfl, rfl⟩
    · cases hpure

/-! ## The loop of a mode -/

/-- The session once it has been noticed that a line was reached. -/
def settled (s : Session) : Session :=
  { s with lineChanged := false }

/-- The machine of a settled session is the same. -/
@[simp]
theorem settled_machine (s : Session) : s.settled.machine = s.machine := rfl

/-- One round of the loop: stop if the machine has stopped or the mode's goal is reached, and
otherwise execute an instruction. -/
theorem proceed_succ (p : Program) (mode : Mode) (depth fuel : Nat) (s : Session) :
    proceed p mode depth (fuel + 1) s =
      if s.machine.running then
        if s.goesOn mode depth then (step p >>= fun _ => proceed p mode depth fuel) s.settled
        else .ok .paused s.settled
      else .ok .finished s := by
  rw [proceed, get_bind_apply]
  by_cases hr : s.machine.running = true
  · have hdecide : decideToGo mode depth s = .ok (s.goesOn mode depth) s.settled := rfl
    rw [if_pos hr, if_pos hr, bind_of_ok hdecide]
    split <;> rfl
  · rw [if_neg hr, if_neg hr, pure_apply]

/-- A run in a mode is its loop, started with the present number of activations. -/
theorem runMode_apply (p : Program) (fuel : Nat) (mode : Mode) (s : Session) :
    runMode p fuel mode s = proceed p mode s.depth fuel s := rfl

end XBytecode.Session
