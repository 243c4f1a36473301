import Mathlib.Control.Monad.Basic
import XBytecode.Proofs.DumpMode
import XBytecode.Proofs.Operation

/-!
# Debugging is transparent

A session executes its program as a machine on its own does. `Machine.afterSteps` is the machine
after a number of attempts to execute an instruction. The machine of a session is, after any
sequence of operations, the plain machine after as many attempts as the session has made
(`after_machine`), and the same holds at each attempt (`attempts_machine`), so that the session's
faults are the plain machine's. `session_transparent` puts this together with the exact condition of
a failure over the bindings.

A session that only runs in modes makes its attempts while the machine runs, as `Machine.execute`
does. If it meets no fault and no `DUMP` and finishes, then the program executed without a debugger
halts with the same machine, the dump mode apart.
-/

namespace XBytecode

open EStateM (pure_apply get_bind_apply bind_of_ok bind_of_error)

namespace Machine

/-- The machine after `n` attempts to execute an instruction, whether they succeed or fail. -/
def afterSteps (p : Program) : Nat → Machine → Machine
  | 0, m => m
  | n + 1, m => afterSteps p n (step p m).state

/-- Attempts can be counted in two parts. -/
theorem afterSteps_add (p : Program) (i j : Nat) (m : Machine) :
    afterSteps p (i + j) m = afterSteps p j (afterSteps p i m) := by
  induction i generalizing m with
  | zero => rw [Nat.zero_add, afterSteps]
  | succ i ih => rw [Nat.succ_add, afterSteps, ih, afterSteps]

/-- A program whose instructions succeed as long as the machine runs is executed to its end. -/
theorem execute_of_afterSteps {p : Program} {n : Nat} {m : Machine}
    (hrun : ∀ j < n, (afterSteps p j m).running = true)
    (hok : ∀ j < n, ∀ f m', step p (afterSteps p j m) ≠ .error f m')
    (hend : (afterSteps p n m).running = false) :
    execute p n m = .ok .halted (afterSteps p n m) := by
  induction n generalizing m with
  | zero =>
    rw [afterSteps] at hend
    rw [execute, get_bind_apply, hend]
    rfl
  | succ n ih =>
    have hr : m.running = true := hrun 0 (Nat.succ_pos n)
    rw [execute, get_bind_apply, if_pos hr]
    cases hstep : step p m with
    | error f m' => exact absurd hstep (hok 0 (Nat.succ_pos n) f m')
    | ok instr m' =>
      have hnext : ∀ j, afterSteps p (j + 1) m = afterSteps p j m' := by
        intro j
        rw [afterSteps, hstep]
        rfl
      rw [bind_of_ok hstep, hnext]
      apply ih
      · intro j hj
        rw [← hnext]
        exact hrun (j + 1) (by omega)
      · intro j hj
        rw [← hnext]
        exact hok (j + 1) (by omega)
      · rw [← hnext]
        exact hend

/-- Without a `DUMP` in the program, a machine that shows nothing goes the same way in every other
mode that shows nothing, and stays in its mode. -/
theorem afterSteps_withDump {p : Program} (hp : ∀ on, .dump on ∉ p.instructions) {m : Machine}
    {d : DumpMode} (hm : m.dump.shows = false) (hd : d.shows = false) (n : Nat) :
    afterSteps p n (m.withDump d) = (afterSteps p n m).withDump d ∧
      (afterSteps p n m).dump = m.dump := by
  have hinstr : ∀ m' : Machine, ∀ on, p.get? m'.pc ≠ some (.dump on) :=
    fun m' on h => hp on (Array.mem_of_getElem? h)
  induction n generalizing m with
  | zero => exact ⟨rfl, rfl⟩
  | succ n ih =>
    have hstep : ∀ d' : DumpMode, d'.shows = false →
        (step p (m.withDump d')).state = (step p m).state.withDump d' := by
      intro d' hd'
      rw [step_withDump (hinstr m) hm hd']
      cases step p m <;> rfl
    -- The step leaves the machine in its mode, so that the induction goes on from there.
    have hkeep : (step p m).state.dump = m.dump := by
      have h := hstep m.dump hm
      rw [withDump_dump] at h
      rw [h]
      rfl
    rw [afterSteps, afterSteps, hstep d hd]
    obtain ⟨hsame, hdump⟩ := ih (by rwa [hkeep])
    exact ⟨hsame, hdump.trans hkeep⟩

end Machine

namespace Session

/-! ## The machine of a session -/

/-- The loop of a mode takes the machine as far as its attempts go. -/
theorem proceed_machine (p : Program) (mode : Mode) (depth fuel : Nat) (s : Session) :
    (proceed p mode depth fuel s).state.machine =
      s.machine.afterSteps p (proceedAttempts p mode depth fuel s).length := by
  induction fuel generalizing s with
  | zero => rfl
  | succ fuel ih =>
    obtain ⟨-, hp, ha⟩ | ⟨-, hp, ha⟩ | ⟨-, e, t, hstep, hp, ha⟩ | ⟨-, instr, t, hstep, hp, ha⟩ :=
      proceed_cases p mode depth fuel s
    · rw [hp, ha]
      rfl
    · rw [hp, ha]
      rfl
    · have hm := step_machine p s.settled
      rw [hstep] at hm
      rw [hp, ha]
      exact hm
    · have hm := step_machine p s.settled
      rw [hstep] at hm
      -- The first attempt is a step of the machine, and the rest are counted from behind it.
      rw [hp, ha, ih, List.length_cons, Machine.afterSteps]
      exact congrArg (Machine.afterSteps p _) hm

/-- The attempts of the loop of a mode are the machine's, one by one. -/
theorem proceedAttempts_machine {p : Program} {mode : Mode} {depth fuel : Nat} {s a : Session}
    {j : Nat} (h : (proceedAttempts p mode depth fuel s)[j]? = some a) :
    a.machine = s.machine.afterSteps p j := by
  induction fuel generalizing s j with
  | zero => simp [proceedAttempts] at h
  | succ fuel ih =>
    obtain ⟨-, -, ha⟩ | ⟨-, -, ha⟩ | ⟨-, e, t, -, -, ha⟩ | ⟨-, instr, t, hstep, -, ha⟩ :=
      proceed_cases p mode depth fuel s
    · simp [ha] at h
    · simp [ha] at h
    · rw [ha] at h
      cases j with
      | zero => cases h; rfl
      | succ j => simp at h
    · rw [ha] at h
      cases j with
      | zero => cases h; rfl
      | succ j =>
        have hm := step_machine p s.settled
        rw [hstep] at hm
        rw [ih h, Machine.afterSteps]
        exact congrArg (Machine.afterSteps p _) hm

/-- An operation takes the machine as far as its attempts go. -/
theorem Operation.perform_machine (p : Program) (op : Operation) (s : Session) :
    (op.perform p s).state.machine = s.machine.afterSteps p (op.attempts p s).length := by
  cases op with
  | step =>
    have hm := step_machine p s
    cases h : Session.step p s with
    | ok instr t =>
      rw [h] at hm
      rw [perform, bind_of_ok h]
      exact hm
    | error e t =>
      rw [h] at hm
      rw [perform, bind_of_error h]
      exact hm
  | run mode fuel =>
    have hm := proceed_machine p mode s.depth fuel s
    rw [perform_run, attempts, ← hm]
    cases h : proceed p mode s.depth fuel s with
    | ok stop t => rw [bind_of_ok h]; rfl
    | error e t => rw [bind_of_error h]; rfl
  | _ => exact (perform_of_quiet (by simp) (by simp)).1

/-- The attempts of an operation are the machine's, one by one. -/
theorem Operation.attempts_machine {p : Program} {op : Operation} {s a : Session} {j : Nat}
    (h : (op.attempts p s)[j]? = some a) : a.machine = s.machine.afterSteps p j := by
  cases op with
  | step =>
    cases j with
    | zero => cases h; rfl
    | succ j => simp [attempts] at h
  | run mode fuel => exact proceedAttempts_machine h
  | _ => simp [attempts] at h

/-- A sequence of operations takes the machine as far as its attempts go. -/
theorem after_machine (p : Program) (ops : List Operation) (s : Session) :
    (after p ops s).machine = s.machine.afterSteps p (attempts p ops s).length := by
  induction ops generalizing s with
  | nil => rfl
  | cons op ops ih =>
    rw [after, ih, Operation.perform_machine, attempts, List.length_append,
      Machine.afterSteps_add]

/-- The attempts of a sequence of operations are the machine's, one by one. -/
theorem attempts_machine {p : Program} {ops : List Operation} {s a : Session} {j : Nat}
    (h : (attempts p ops s)[j]? = some a) : a.machine = s.machine.afterSteps p j := by
  induction ops generalizing s j with
  | nil => simp [attempts] at h
  | cons op ops ih =>
    rw [attempts, List.getElem?_append] at h
    split at h
    · exact Operation.attempts_machine h
    · next hj =>
      -- The attempt belongs to a later operation, which starts where the first one has come to.
      rw [ih h, Operation.perform_machine, ← Machine.afterSteps_add]
      congr 1
      omega

/-! ## Sessions that finish -/

/-- A sequence of operations without single steps makes its attempts while the machine runs. -/
theorem running_of_mem_attempts {p : Program} {ops : List Operation} {s a : Session}
    (hops : ∀ op ∈ ops, op ≠ .step) (h : a ∈ attempts p ops s) : a.machine.running = true := by
  induction ops generalizing s with
  | nil => cases h
  | cons op ops ih =>
    rw [attempts, List.mem_append] at h
    rcases h with h | h
    · cases op with
      | step => exact absurd rfl (hops _ List.mem_cons_self)
      | run mode fuel => exact running_of_mem_proceedAttempts h
      | _ => cases h
    · exact ih (fun op hop => hops op (List.mem_cons_of_mem _ hop)) h

/-- A fault at an attempt is among the answers. -/
theorem fault_mem_answers {p : Program} {ops : List Operation} {s a : Session} {f : Fault}
    {m : Machine} (h : a ∈ attempts p ops s) (hf : Machine.step p a.machine = .error f m) :
    .error (.fault f) ∈ answers p ops s := by
  induction ops generalizing s with
  | nil => cases h
  | cons op ops ih =>
    rw [attempts, List.mem_append] at h
    rw [answers, List.mem_cons]
    rcases h with h | h
    · left
      obtain ⟨t, ht⟩ := (Operation.perform_eq_fatal (e := .fault f) rfl).mpr
        ⟨a, h, step_eq_fault.mpr ⟨m, hf⟩⟩
      rw [Operation.answer, ht]
    · exact .inr (ih h)

/-- When the last answer is that the run has finished, the machine has stopped. -/
theorem stopped_of_answers {p : Program} {ops : List Operation} {s : Session}
    (h : (answers p ops s).getLast? = some (.ok (.stopped .finished))) :
    (after p ops s).machine.running = false := by
  induction ops generalizing s with
  | nil => cases h
  | cons op ops ih =>
    cases ops with
    | cons op' ops =>
      -- The last answer is that of a later operation.
      apply ih
      rwa [answers, answers, List.getLast?_cons_cons] at h
    | nil =>
      rw [answers, answers, List.getLast?_singleton, Option.some.injEq, Operation.answer] at h
      cases hop : op.perform p s with
      | error e t => rw [hop] at h; cases h
      | ok answer t =>
        rw [hop, Except.ok.injEq] at h
        subst h
        obtain ⟨mode, fuel, -, hp⟩ := Operation.perform_eq_stopped hop
        rw [after, after, hop]
        exact stopped_of_proceed hp

/-- A session without single steps that meets no fault and no `DUMP` and finishes has executed the
program as `Machine.execute` does, and leaves the same machine, the dump mode apart. -/
theorem execute_of_finished {p : Program} {source : Source} {channel : Channel}
    {ops : List Operation} (hp : ∀ on, .dump on ∉ p.instructions) (hops : ∀ op ∈ ops, op ≠ .step)
    (hfault : ∀ f, .error (.fault f) ∉ answers p ops (start source channel))
    (hfinished : (answers p ops (start source channel)).getLast? =
      some (.ok (.stopped .finished))) :
    ∃ m, Machine.execute p (attempts p ops (start source channel)).length
        (Machine.start channel) = .ok .halted m ∧
      m.suppressDump = (after p ops (start source channel)).machine := by
  have hend := stopped_of_answers hfinished
  rw [after_machine] at hend ⊢
  have hattempt : ∀ {a : Session} {j : Nat},
      (attempts p ops (start source channel))[j]? = some a →
      a.machine = (Machine.start channel).suppressDump.afterSteps p j := attempts_machine
  have hrun : ∀ {a : Session}, a ∈ attempts p ops (start source channel) →
      a.machine.running = true := running_of_mem_attempts hops
  have hok : ∀ {a : Session}, a ∈ attempts p ops (start source channel) →
      ∀ f m, Machine.step p a.machine ≠ .error f m :=
    fun ha f m hf => hfault f (fault_mem_answers ha hf)
  generalize attempts p ops (start source channel) = as at hend hattempt hrun hok ⊢
  -- With its dump suppressed or not, the machine goes the same way.
  have hway : ∀ n, (Machine.start channel).suppressDump.afterSteps p n =
      ((Machine.start channel).afterSteps p n).suppressDump :=
    fun n => (Machine.afterSteps_withDump hp rfl rfl n).1
  have hhidden : ∀ n, ((Machine.start channel).afterSteps p n).dump.shows = false := by
    intro n
    rw [(Machine.afterSteps_withDump hp rfl (d := (Machine.start channel).dump) rfl n).2]
    rfl
  -- What the session's attempts show of the machine with its dump suppressed carries over.
  refine ⟨_, Machine.execute_of_afterSteps ?_ ?_ ?_, (hway _).symm⟩
  · intro j hj
    have hr := hrun (List.getElem_mem hj)
    rw [hattempt (List.getElem?_eq_getElem hj), hway] at hr
    exact hr
  · intro j hj f m hf
    apply hok (List.getElem_mem hj) f m.suppressDump
    rw [hattempt (List.getElem?_eq_getElem hj), hway]
    have hstep := Machine.step_withDump (d := (Machine.start channel).suppressDump.dump)
      (fun on h => hp on (Array.mem_of_getElem? h)) (hhidden j) rfl
    rw [hf] at hstep
    exact hstep
  · have hstart : (start source channel).machine = (Machine.start channel).suppressDump := rfl
    rw [hstart, hway] at hend
    exact hend

/-- Debugging is transparent. After any operations the machine of a session is the plain machine,
its dump suppressed, after as many attempts to execute an instruction as the session has made. The
next operation fails with a fault exactly when the plain machine fails with it at one of the
operation's attempts, and over the bindings exactly when the plain machine executes, at one of these
attempts, a `POP` of more values than the innermost activation then has bindings.

If the operations are no single steps, meet no fault and end with a run that finishes, and the
program has no `DUMP`, then the program on its own halts after as many instructions and leaves the
same machine, the dump mode apart. -/
theorem session_transparent (p : Program) (source : Source) (channel : Channel)
    (ops : List Operation) :
    let s₀ := start source channel
    let s := after p ops s₀
    let k := (attempts p ops s₀).length
    let plain := fun n => (Machine.start channel).suppressDump.afterSteps p n
    s.machine = plain k ∧
      (∀ (op : Operation) (f : Fault),
        (∃ t, op.perform p s = .error (.fault f) t) ↔
          ∃ j < (op.attempts p s).length, ∃ m, Machine.step p (plain (k + j)) = .error f m) ∧
      (∀ (op : Operation) (address : Nat) (e : Scope.Error),
        (∃ t, op.perform p s = .error (.scope address e) t) ↔
          ∃ j a n m, (op.attempts p s)[j]? = some a ∧
            Machine.step p (plain (k + j)) = .ok (.pop n) m ∧ a.current.scope.live < n ∧
            address = (plain (k + j)).pc ∧ e = .undoUnderflow n a.current.scope.live) ∧
      ((∀ on, .dump on ∉ p.instructions) → (∀ op ∈ ops, op ≠ .step) →
        (∀ f, .error (.fault f) ∉ answers p ops s₀) →
        (answers p ops s₀).getLast? = some (.ok (.stopped .finished)) →
          ∃ m, Machine.execute p k (Machine.start channel) = .ok .halted m ∧
            m.suppressDump = s.machine) := by
  intro s₀ s k plain
  have hmachine : s.machine = plain k := after_machine p ops s₀
  -- The plain machine at attempt `k + j` is the session's at attempt `j` of the next operation.
  have hattempt : ∀ (op : Operation) (j : Nat) (a : Session), (op.attempts p s)[j]? = some a →
      a.machine = plain (k + j) := by
    intro op j a h
    rw [Operation.attempts_machine h, hmachine, ← Machine.afterSteps_add]
  refine ⟨hmachine, ?_, ?_, ?_⟩
  · intro op f
    rw [Operation.perform_eq_fatal rfl]
    constructor
    · rintro ⟨a, ha, hfail⟩
      obtain ⟨j, hj, rfl⟩ := List.getElem_of_mem ha
      rw [step_eq_fault, hattempt op j _ (List.getElem?_eq_getElem hj)] at hfail
      exact ⟨j, hj, hfail⟩
    · rintro ⟨j, hj, hfail⟩
      refine ⟨(op.attempts p s)[j], List.getElem_mem hj, ?_⟩
      rwa [step_eq_fault, hattempt op j _ (List.getElem?_eq_getElem hj)]
  · intro op address e
    rw [Operation.perform_eq_fatal rfl]
    constructor
    · rintro ⟨a, ha, hfail⟩
      obtain ⟨j, hj⟩ := List.getElem?_of_mem ha
      obtain ⟨n, m, hpop, hlive, rfl, rfl⟩ := step_eq_scope.mp hfail
      rw [hattempt op j a hj] at hpop ⊢
      exact ⟨j, a, n, m, hj, hpop, hlive, rfl, rfl⟩
    · rintro ⟨j, a, n, m, hj, hpop, hlive, rfl, rfl⟩
      rw [← hattempt op j a hj] at hpop ⊢
      exact ⟨a, List.mem_of_getElem? hj, step_eq_scope.mpr ⟨n, m, hpop, hlive, rfl, rfl⟩⟩
  · exact execute_of_finished

/-- A program of one function, which declares a variable, prints it and gives it up. -/
def sampleProgram : Program :=
  { instructions := #[.function "main" 1 3, .lit 5 (some "x"), .line 2, .write, .pop 1, .line 3,
      .halt]
    labels := ∅ }

/-- The source of `sampleProgram`. -/
def sampleSource : Source :=
  { lines := #["program", "int x = 5", "return x"] }

/-- A session with a breakpoint, with tracing and with runs in three modes. -/
def sampleOperations : List Operation :=
  [.setTracing true, .setBreakpoint 2, .run .over 9, .run .resume 9, .takeLog, .valueOf "x",
    .run .into 9]

/-- The sample session finishes, and the sample program on its own halts with the same machine. -/
theorem session_transparent_sample :
    (∀ on, .dump on ∉ sampleProgram.instructions) ∧ (∀ op ∈ sampleOperations, op ≠ .step) ∧
      (∀ f, .error (.fault f) ∉ answers sampleProgram sampleOperations (start sampleSource {})) ∧
      (answers sampleProgram sampleOperations (start sampleSource {})).getLast? =
        some (.ok (.stopped .finished)) ∧
      ∃ m, Machine.execute sampleProgram
            (attempts sampleProgram sampleOperations (start sampleSource {})).length
            (Machine.start {}) = .ok .halted m ∧
          m.suppressDump =
            (after sampleProgram sampleOperations (start sampleSource {})).machine := by
  have hp : ∀ on, .dump on ∉ sampleProgram.instructions := by simp [sampleProgram]
  have hops : ∀ op ∈ sampleOperations, op ≠ .step := by decide
  have hanswers : answers sampleProgram sampleOperations (start sampleSource {}) =
      [.ok .done, .ok .done, .ok (.stopped .paused), .ok (.stopped .paused),
        .ok (.log "  main()\n"), .ok (.value 5), .ok (.stopped .finished)] := by decide +kernel
  have hfault : ∀ f, .error (.fault f) ∉
      answers sampleProgram sampleOperations (start sampleSource {}) := by
    rw [hanswers]
    simp
  have hfinished : (answers sampleProgram sampleOperations (start sampleSource {})).getLast? =
      some (.ok (.stopped .finished)) := by
    rw [hanswers]
    rfl
  exact ⟨hp, hops, hfault, hfinished,
    (session_transparent sampleProgram sampleSource {} sampleOperations).2.2.2 hp hops hfault
      hfinished⟩

end Session

end XBytecode
