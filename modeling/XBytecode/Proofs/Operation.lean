import XBytecode.Proofs.SessionStep

/-!
# Operations on a session

What the user of a session can ask of it, as data, so that statements can range over every sequence
of requests. An operation gives an answer or an error, and a session goes on after both. A run is
given a number of instructions that it may execute: as many as it needs, when it returns, and any
number of them when it is watched before it has.

`Operation.attempts` lists the states in which an operation sets out to execute an instruction. An
operation fails fatally exactly when one of these attempts does (`perform_eq_fatal`).
-/

namespace XBytecode.Session

open EStateM (pure_apply get_bind_apply bind_eq_ok bind_of_ok bind_of_error state_bind_pure)

/-- A request to a session. -/
inductive Operation where
  /-- Execute one instruction. -/
  | step
  /-- Execute instructions as a mode says, at most `fuel` of them. -/
  | run (mode : Mode) (fuel : Nat)
  /-- Set a breakpoint. -/
  | setBreakpoint (line : Nat)
  /-- Clear a breakpoint. -/
  | clearBreakpoint (line : Nat)
  /-- Turn tracing on or off. -/
  | setTracing (on : Bool)
  /-- Hand over the log. -/
  | takeLog
  /-- Give the value of a variable. -/
  | valueOf (name : String)
  /-- List the variables. -/
  | listVariables
  deriving DecidableEq, Repr

/-- What a request is answered with. -/
inductive Answer where
  /-- The request has been carried out. -/
  | done
  /-- The instruction executed. -/
  | executed (instr : Instruction)
  /-- How a run ended. -/
  | stopped (stop : Stop)
  /-- The log. -/
  | log (text : String)
  /-- The value of a variable. -/
  | value (v : Int32)
  /-- The variables and their values. -/
  | listing (list : List (String × Option Int32))
  deriving DecidableEq, Repr

namespace Operation

/-- Carries out a request. -/
def perform (p : Program) : Operation → Act Answer
  | .step => return .executed (← Session.step p)
  | .run mode fuel => return .stopped (← runMode p fuel mode)
  | .setBreakpoint line => do
    Session.setBreakpoint line
    return .done
  | .clearBreakpoint line => do
    Session.clearBreakpoint line
    return .done
  | .setTracing on => do
    modify (Session.setTracing on)
    return .done
  | .takeLog => return .log (← modifyGet Session.takeLog)
  | .valueOf name => do
    match (← get).valueOf name with
    | .ok v => return .value v
    | .error e => throw e
  | .listVariables => return .listing (← get).variableList

end Operation

/-- The session behind a sequence of requests. -/
def after (p : Program) : List Operation → Session → Session
  | [], s => s
  | op :: ops, s => after p ops (op.perform p s).state

/-- The answer or the error that a request is met with. -/
def Operation.answer (p : Program) (op : Operation) (s : Session) : Except Error Answer :=
  match op.perform p s with
  | .ok a _ => .ok a
  | .error e _ => .error e

/-- The answers and errors that a sequence of requests is met with, in order. -/
def answers (p : Program) : List Operation → Session → List (Except Error Answer)
  | [], _ => []
  | op :: ops, s => op.answer p s :: answers p ops (op.perform p s).state

/-! ## Attempts to execute an instruction -/

/-- The states in which the loop of a mode sets out to execute an instruction, in order. -/
def proceedAttempts (p : Program) (mode : Mode) (depth : Nat) : Nat → Session → List Session
  | 0, _ => []
  | fuel + 1, s =>
    if s.machine.running && s.goesOn mode depth then
      s.settled ::
        match Session.step p s.settled with
        | .ok _ t => proceedAttempts p mode depth fuel t
        | .error _ _ => []
    else []

/-- The states in which an operation sets out to execute an instruction, in order. -/
def Operation.attempts (p : Program) : Operation → Session → List Session
  | .step, s => [s]
  | .run mode fuel, s => proceedAttempts p mode s.depth fuel s
  | _, _ => []

/-- The states in which a sequence of operations sets out to execute an instruction, in order. -/
def attempts (p : Program) : List Operation → Session → List Session
  | [], _ => []
  | op :: ops, s => op.attempts p s ++ attempts p ops (op.perform p s).state

/-- One round of the loop of a mode, with the attempt that it makes. Either the machine has stopped,
or the mode's goal is reached, or the instruction attempted fails, or the loop goes on behind it. -/
theorem proceed_cases (p : Program) (mode : Mode) (depth fuel : Nat) (s : Session) :
    (s.machine.running = false ∧ proceed p mode depth (fuel + 1) s = .ok .finished s ∧
        proceedAttempts p mode depth (fuel + 1) s = []) ∨
      (s.machine.running = true ∧ proceed p mode depth (fuel + 1) s = .ok .paused s.settled ∧
        proceedAttempts p mode depth (fuel + 1) s = []) ∨
      (s.machine.running = true ∧ ∃ e t, step p s.settled = .error e t ∧
        proceed p mode depth (fuel + 1) s = .error e t ∧
        proceedAttempts p mode depth (fuel + 1) s = [s.settled]) ∨
      (s.machine.running = true ∧ ∃ instr t, step p s.settled = .ok instr t ∧
        proceed p mode depth (fuel + 1) s = proceed p mode depth fuel t ∧
        proceedAttempts p mode depth (fuel + 1) s =
          s.settled :: proceedAttempts p mode depth fuel t) := by
  rw [proceed_succ, proceedAttempts]
  cases hr : s.machine.running with
  | false => exact .inl ⟨rfl, rfl, rfl⟩
  | true =>
    cases hg : s.goesOn mode depth with
    | false => exact .inr (.inl ⟨rfl, rfl, rfl⟩)
    | true =>
      cases hstep : step p s.settled with
      | error e t =>
        exact .inr (.inr (.inl ⟨rfl, e, t, rfl, by simp [bind_of_error hstep], rfl⟩))
      | ok instr t =>
        exact .inr (.inr (.inr ⟨rfl, instr, t, rfl, by simp [bind_of_ok hstep], rfl⟩))

/-- The loop of a mode fails exactly when one of its attempts does, with the same error. -/
theorem proceed_eq_error {p : Program} {mode : Mode} {depth fuel : Nat} {s : Session} {e : Error} :
    (∃ t, proceed p mode depth fuel s = .error e t) ↔
      ∃ a ∈ proceedAttempts p mode depth fuel s, ∃ t, step p a = .error e t := by
  induction fuel generalizing s with
  | zero => simp [proceed, proceedAttempts, pure_apply]
  | succ fuel ih =>
    obtain ⟨-, hp, ha⟩ | ⟨-, hp, ha⟩ | ⟨-, e', t, hstep, hp, ha⟩ | ⟨-, instr, t, hstep, hp, ha⟩ :=
      proceed_cases p mode depth fuel s
    · simp [hp, ha]
    · simp [hp, ha]
    · simp [hp, ha, hstep]
    · simp [hp, ha, hstep, ih]

/-- The loop of a mode only executes instructions while the machine runs. -/
theorem running_of_mem_proceedAttempts {p : Program} {mode : Mode} {depth fuel : Nat}
    {s a : Session} (h : a ∈ proceedAttempts p mode depth fuel s) : a.machine.running = true := by
  induction fuel generalizing s with
  | zero => cases h
  | succ fuel ih =>
    obtain ⟨-, -, ha⟩ | ⟨-, -, ha⟩ | ⟨hr, -, -, -, -, ha⟩ | ⟨hr, -, t, -, -, ha⟩ :=
      proceed_cases p mode depth fuel s
    · simp [ha] at h
    · simp [ha] at h
    · rw [ha, List.mem_singleton] at h
      rw [h]
      exact hr
    · rw [ha, List.mem_cons] at h
      rcases h with rfl | h
      · exact hr
      · exact ih h

/-- When the loop of a mode finishes, the machine has stopped. -/
theorem stopped_of_proceed {p : Program} {mode : Mode} {depth fuel : Nat} {s t : Session}
    (h : proceed p mode depth fuel s = .ok .finished t) : t.machine.running = false := by
  induction fuel generalizing s with
  | zero => cases h
  | succ fuel ih =>
    obtain ⟨hr, hp, -⟩ | ⟨-, hp, -⟩ | ⟨-, e, u, -, hp, -⟩ | ⟨-, instr, u, -, hp, -⟩ :=
      proceed_cases p mode depth fuel s
    · rw [hp] at h
      cases h
      exact hr
    · rw [hp] at h
      cases h
    · rw [hp] at h
      cases h
    · exact ih (hp ▸ h)

namespace Operation

/-- A run gives the end of its loop as its answer. -/
theorem perform_run (p : Program) (mode : Mode) (fuel : Nat) (s : Session) :
    (run mode fuel).perform p s =
      (proceed p mode s.depth fuel >>= fun stop => pure (.stopped stop)) s := rfl

/-- Only a run is answered with how it ended, which is how its loop ended. -/
theorem perform_eq_stopped {p : Program} {op : Operation} {s t : Session} {stop : Stop}
    (h : op.perform p s = .ok (.stopped stop) t) :
    ∃ mode fuel, op = .run mode fuel ∧ proceed p mode s.depth fuel s = .ok stop t := by
  cases op with
  | run mode fuel =>
    rw [perform_run, bind_eq_ok] at h
    obtain ⟨stop', u, hp, hpure⟩ := h
    cases hpure
    exact ⟨mode, fuel, rfl, hp⟩
  | step | setBreakpoint line | clearBreakpoint line =>
    rw [perform, bind_eq_ok] at h
    obtain ⟨_, _, _, hpure⟩ := h
    cases hpure
  | valueOf name =>
    rw [perform, get_bind_apply] at h
    cases hv : s.valueOf name with
    | ok v => rw [hv] at h; cases h
    | error e => rw [hv] at h; cases h
  | setTracing on => cases h
  | takeLog => cases h
  | listVariables => cases h

/-- A request that executes no instructions leaves the machine alone and never fails fatally. -/
theorem perform_of_quiet {p : Program} {op : Operation} {s : Session} (hstep : op ≠ .step)
    (hrun : ∀ mode fuel, op ≠ .run mode fuel) :
    (op.perform p s).state.machine = s.machine ∧
      ∀ e t, op.perform p s = .error e t → e.isFatal = false := by
  cases op with
  | step => exact absurd rfl hstep
  | run mode fuel => exact absurd rfl (hrun mode fuel)
  | setBreakpoint line =>
    cases hline : s.source.setBreakpoint line with
    | ok source =>
      have h : Session.setBreakpoint line s = .ok () { s with source } := by
        rw [Session.setBreakpoint, hline]
      simp [perform, bind_of_ok h, pure_apply]
    | error refusal =>
      have h : Session.setBreakpoint line s = .error (.source refusal) s := by
        rw [Session.setBreakpoint, hline]
      simp [perform, bind_of_error h, Error.isFatal]
  | clearBreakpoint line =>
    cases hline : s.source.clearBreakpoint line with
    | ok source =>
      have h : Session.clearBreakpoint line s = .ok () { s with source } := by
        rw [Session.clearBreakpoint, hline]
      simp [perform, bind_of_ok h, pure_apply]
    | error refusal =>
      have h : Session.clearBreakpoint line s = .error (.source refusal) s := by
        rw [Session.clearBreakpoint, hline]
      simp [perform, bind_of_error h, Error.isFatal]
  | setTracing on => exact ⟨rfl, fun e t h => by cases h⟩
  | takeLog => exact ⟨rfl, fun e t h => by cases h⟩
  | valueOf name =>
    simp only [perform, get_bind_apply, Session.valueOf]
    cases s.value? name with
    | some v => exact ⟨rfl, fun e t h => by cases h⟩
    | none => exact ⟨rfl, fun e t h => by cases h; rfl⟩
  | listVariables => exact ⟨rfl, fun e t h => by cases h⟩

/-- A request that executes no instructions changes the breakpoints, the tracing and the log
only. -/
theorem state_of_quiet {p : Program} {op : Operation} {s : Session} (hstep : op ≠ .step)
    (hrun : ∀ mode fuel, op ≠ .run mode fuel) :
    ∃ source tracing log, (op.perform p s).state = { s with source, tracing, log } := by
  cases op with
  | step => exact absurd rfl hstep
  | run mode fuel => exact absurd rfl (hrun mode fuel)
  | setBreakpoint line =>
    rw [perform, state_bind_pure, Session.setBreakpoint]
    split
    · exact ⟨_, _, _, rfl⟩
    · exact ⟨_, _, _, rfl⟩
  | clearBreakpoint line =>
    rw [perform, state_bind_pure, Session.clearBreakpoint]
    split
    · exact ⟨_, _, _, rfl⟩
    · exact ⟨_, _, _, rfl⟩
  | valueOf name =>
    rw [perform, get_bind_apply]
    cases s.valueOf name <;> exact ⟨_, _, _, rfl⟩
  | setTracing on | takeLog | listVariables => exact ⟨_, _, _, rfl⟩

/-- An operation fails fatally exactly when one of its attempts to execute an instruction does, with
the same error. -/
theorem perform_eq_fatal {p : Program} {op : Operation} {s : Session} {e : Error}
    (he : e.isFatal = true) :
    (∃ t, op.perform p s = .error e t) ↔
      ∃ a ∈ op.attempts p s, ∃ t, Session.step p a = .error e t := by
  by_cases hstep : op = .step
  · subst hstep
    simp only [attempts, List.mem_singleton, exists_eq_left]
    cases h : Session.step p s with
    | ok instr t => simp [perform, bind_of_ok h, pure_apply]
    | error e' t => simp [perform, bind_of_error h]
  by_cases hrun : ∃ mode fuel, op = .run mode fuel
  · obtain ⟨mode, fuel, rfl⟩ := hrun
    rw [attempts, ← proceed_eq_error, perform_run]
    cases h : proceed p mode s.depth fuel s with
    | ok stop t => simp [bind_of_ok h, pure_apply]
    | error e' t => simp [bind_of_error h]
  -- What remains makes no attempt, and its errors are not fatal.
  have hquiet := (perform_of_quiet (p := p) (s := s) hstep (by grind)).2
  have hnone : op.attempts p s = [] := by
    cases op <;> grind [attempts]
  rw [hnone]
  constructor
  · rintro ⟨t, h⟩
    rw [hquiet e t h] at he
    cases he
  · simp

end Operation

end XBytecode.Session
