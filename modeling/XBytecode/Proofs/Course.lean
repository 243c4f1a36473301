import XBytecode.Proofs.DumpMode
import XBytecode.Proofs.Operation
import XBytecode.Proofs.Outcome

/-!
# The course of a session

A `Course` is everything that can happen to a session from its start on: requests of all kinds in
any order, whether they succeed or fail, a stop of the machine from outside, and whatever is done to
its channel. With the present state it keeps the states in which an instruction was attempted.
However a course is made up, only attempts touch the activations, the frames and the addresses to
return to, so what holds at the start and is kept by every step and by everything else holds in the
whole course (`Course.induction`).

The machine of a session is muted: its dump is off for good (`Course.muted`). A step of such a
machine is an instruction and the advance to the next one, and fails only if the instruction is
refused (`step_eq_ok_of_muted`, `step_eq_error_of_muted`).
-/

namespace XBytecode

namespace Machine

open EStateM (bind_eq_ok bind_eq_error bind_of_ok bind_of_error modify_apply pure_apply)

/-- The dump is off, and no `DUMP` can turn it on. -/
def Muted (m : Machine) : Prop :=
  m.dump = { suppressed := true }

variable {p : Program} {instr : Instruction} {m m' : Machine} {g : Fault}

/-- An instruction leaves a muted machine muted. -/
theorem Muted.perform (h : m.Muted) (instr : Instruction) : (perform instr m).state.Muted := by
  by_cases hdump : ∃ on, instr = .dump on
  · obtain ⟨on, rfl⟩ := hdump
    have hignored : Machine.perform (.dump on) m = .ok () m := by
      rw [Machine.perform, modify_apply, if_pos (by rw [h])]
    rwa [hignored]
  · rw [Muted, dump_state_perform (fun on heq => hdump ⟨on, heq⟩)]
    exact h

/-- A step of a muted machine shows nothing. -/
theorem step_of_muted (h : m.Muted) (hget : p.get? m.pc = some instr) :
    step p m = (do perform instr; advance instr; return instr : Act Instruction) m := by
  have hkeep := h.perform instr
  rw [step_apply hget]
  cases hperform : perform instr m with
  | ok _ m₁ =>
    rw [hperform] at hkeep
    have hhidden : m₁.dump.shows = false := by rw [show m₁.dump = _ from hkeep]; rfl
    rw [bind_of_ok hperform, bind_of_ok hperform, bind_of_ok (showDump_of_hidden p instr hhidden)]
  | error f m₁ => rw [bind_of_error hperform, bind_of_error hperform]

/-- A step of a muted machine succeeds exactly if the instruction at the program counter can be
performed. -/
theorem step_eq_ok_of_muted (h : m.Muted) :
    step p m = .ok instr m' ↔ p.get? m.pc = some instr ∧
      ∃ m₁, Effect instr m m₁ ∧ m' = { m₁ with pc := following m₁.pc instr } := by
  constructor
  · intro hstep
    have hget := (effect_of_step hstep).1
    rw [step_of_muted h hget] at hstep
    obtain ⟨_, m₁, hperform, hstep⟩ := bind_eq_ok.mp hstep
    rw [bind_of_ok (advance_apply instr m₁), pure_apply] at hstep
    exact ⟨hget, m₁, effect_of_perform hperform, (EStateM.Result.ok.inj hstep).2.symm⟩
  · rintro ⟨hget, m₁, heffect, rfl⟩
    rw [step_of_muted h hget, bind_of_ok (perform_of_effect heffect),
      bind_of_ok (advance_apply instr m₁), pure_apply]

/-- A step of a muted machine that fails finds no instruction or one that is refused. -/
theorem step_eq_error_of_muted (h : m.Muted) (hstep : step p m = .error g m') :
    m' = m ∨ ∃ instr, Refusal instr m g.cause m' := by
  cases hget : p.get? m.pc with
  | none =>
    rw [step_of_outside hget] at hstep
    exact .inl (EStateM.Result.error.inj hstep).2.symm
  | some instr =>
    rw [step_of_muted h hget] at hstep
    obtain hperform | ⟨_, m₁, -, hadvance⟩ := bind_eq_error.mp hstep
    · exact .inr ⟨instr, (refusal_of_perform hperform).2⟩
    · rw [bind_of_ok (advance_apply instr m₁)] at hadvance
      cases hadvance

/-- A step leaves a muted machine muted. -/
theorem Muted.step (h : m.Muted) (p : Program) : (step p m).state.Muted := by
  cases hget : p.get? m.pc with
  | none =>
    rw [step_of_outside hget]
    exact h
  | some instr =>
    have hkeep := h.perform instr
    rw [step_of_muted h hget]
    cases hperform : Machine.perform instr m with
    | ok _ m₁ =>
      rw [hperform] at hkeep
      rw [bind_of_ok hperform, bind_of_ok (advance_apply instr m₁)]
      exact hkeep
    | error f m₁ =>
      rw [hperform] at hkeep
      rw [bind_of_error hperform]
      exact hkeep

end Machine

namespace Session

open EStateM (state_bind_pure)

/-- `Aside s t`: what has led from one state to the other has left alone the activations, the
stack, the addresses to return to and the dump mode. -/
structure Aside (s t : Session) : Prop where
  base : t.base = s.base
  calls : t.calls = s.calls
  stack : t.machine.stack = s.machine.stack
  returns : t.machine.returns = s.machine.returns
  dump : t.machine.dump = s.machine.dump

/-- `Course p source channel l s`: from a new session, started with a source and a channel, requests
and interventions have led to the state `s`, and an instruction has been attempted in each of the
states `l`, in order. -/
inductive Course (p : Program) (source : Source) (channel : Channel) :
    List Session → Session → Prop where
  /-- A new session. -/
  | start : Course p source channel [] (start source channel)
  /-- A request, whether it succeeds or fails. -/
  | request {l : List Session} {s : Session} (h : Course p source channel l s) (op : Operation) :
    Course p source channel (l ++ op.attempts p s) (op.perform p s).state
  /-- The machine is stopped. -/
  | halt {l : List Session} {s : Session} (h : Course p source channel l s) :
    Course p source channel l s.halt
  /-- Something is done to the channel. -/
  | reconnect {l : List Session} {s : Session} (h : Course p source channel l s) (c : Channel) :
    Course p source channel l { s with machine := { s.machine with channel := c } }

variable {p : Program} {source : Source} {channel : Channel} {l : List Session} {s : Session}
  {P : List Session → Session → Prop}

/-- A request to execute no instructions attempts none, and leaves the activations and the stacks of
the machine alone. -/
theorem Operation.aside_of_quiet {op : Operation} (hstep : op ≠ .step)
    (hrun : ∀ mode fuel, op ≠ .run mode fuel) :
    op.attempts p s = [] ∧ Aside s (op.perform p s).state := by
  constructor
  · cases op with
    | step => exact absurd rfl hstep
    | run mode fuel => exact absurd rfl (hrun mode fuel)
    | _ => rfl
  · obtain ⟨source, tracing, log, hstate⟩ := state_of_quiet (p := p) (s := s) hstep hrun
    rw [hstate]
    exact ⟨rfl, rfl, rfl, rfl, rfl⟩

/-- What every step and everything else keeps is kept by the loop of a mode. -/
theorem keeps_proceed (hstep : ∀ l s, P l s → P (l ++ [s]) (step p s).state)
    (haside : ∀ l s t, P l s → Aside s t → P l t) (mode : Mode) (depth fuel : Nat) (h : P l s) :
    P (l ++ proceedAttempts p mode depth fuel s) (proceed p mode depth fuel s).state := by
  induction fuel generalizing l s with
  | zero =>
    rw [proceedAttempts, List.append_nil]
    exact h
  | succ fuel ih =>
    have hsettled : P l s.settled := haside l s _ h ⟨rfl, rfl, rfl, rfl, rfl⟩
    obtain ⟨-, hp, ha⟩ | ⟨-, hp, ha⟩ | ⟨-, e, t, hfails, hp, ha⟩ | ⟨-, instr, t, hok, hp, ha⟩ :=
      proceed_cases p mode depth fuel s
    · rw [hp, ha, List.append_nil]
      exact h
    · rw [hp, ha, List.append_nil]
      exact hsettled
    · rw [hp, ha]
      have hnext := hstep l _ hsettled
      rwa [hfails] at hnext
    · rw [hp, ha, List.append_cons]
      have hnext := hstep l _ hsettled
      rw [hok] at hnext
      exact ih hnext

/-- What holds at the start, and is kept by every step and by everything else, holds in the whole
course of a session. -/
theorem Course.induction (h : Course p source channel l s)
    (hstart : P [] (Session.start source channel))
    (hstep : ∀ l s, P l s → P (l ++ [s]) (step p s).state)
    (haside : ∀ l s t, P l s → Aside s t → P l t) : P l s := by
  induction h with
  | start => exact hstart
  | halt _ ih => exact haside _ _ _ ih ⟨rfl, rfl, rfl, rfl, rfl⟩
  | reconnect _ c ih => exact haside _ _ _ ih ⟨rfl, rfl, rfl, rfl, rfl⟩
  | @request l s _ op ih =>
    by_cases hop : op = .step
    · subst hop
      rw [Operation.perform, state_bind_pure]
      exact hstep l s ih
    by_cases hrun : ∃ mode fuel, op = .run mode fuel
    · obtain ⟨mode, fuel, rfl⟩ := hrun
      rw [Operation.perform_run, state_bind_pure]
      exact keeps_proceed hstep haside mode s.depth fuel ih
    obtain ⟨hnone, hkeep⟩ := Operation.aside_of_quiet (p := p) (s := s) hop
      fun mode fuel heq => hrun ⟨mode, fuel, heq⟩
    rw [hnone, List.append_nil]
    exact haside l s _ ih hkeep

/-- The machine of a session is muted. -/
theorem Course.muted (h : Course p source channel l s) : s.machine.Muted := by
  refine h.induction (P := fun _ s => s.machine.Muted) rfl ?_ ?_
  · intro l s hs
    rw [step_machine]
    exact hs.step p
  · intro l s t hs haside
    rw [Machine.Muted, haside.dump]
    exact hs

/-- A step continues a course. -/
theorem Course.step (h : Course p source channel l s) :
    Course p source channel (l ++ [s]) (step p s).state := by
  have hnext := h.request .step
  rwa [Operation.perform, state_bind_pure] at hnext

/-- Any sequence of requests continues a course. -/
theorem Course.after (h : Course p source channel l s) (ops : List Operation) :
    Course p source channel (l ++ attempts p ops s) (Session.after p ops s) := by
  induction ops generalizing l s with
  | nil =>
    rw [attempts, List.append_nil]
    exact h
  | cons op ops ih =>
    rw [attempts, ← List.append_assoc]
    exact ih (h.request op)

end Session

end XBytecode
