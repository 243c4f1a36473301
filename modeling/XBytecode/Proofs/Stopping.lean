import XBytecode.Proofs.Operation
import XBytecode.Proofs.Pauses

/-!
# Where a run in a mode stops

A run in a mode executes instructions up to the first state in which the machine has stopped, the
next instruction fails or the goal of the mode is reached. `Mode.Goal` states the goals without the
loop: they depend on the number of activations at the start and on whether the last instruction
reached a line. `positions` lists the states that the instructions lead through, each with whether a
line was reached there, and `returns_iff` says that the run stops at the first of them that it has
to.

The note that a line was reached outlives a run that pauses or fails only as a note that has been
taken back (`lineChanged_after`). A session that executes instructions in modes only therefore never
starts a run with a line still to be noticed, and so no run on a machine that is running stops
before it has attempted an instruction.
-/

namespace XBytecode.Session

open EStateM (Result bind_of_ok bind_of_error state_bind_pure)

/-! ## The goals of the modes -/

/-- The instruction executed last is the marker of a function with source. -/
def BehindMarker (s : Session) : Prop :=
  (∃ name first last, s.last = some (.function name first last)) ∧ 0 < s.current.first

/-- The goal of a mode is reached in a state, where the instruction before it has reached a line as
`changed` says, when execution started with `depth` activations. -/
def Mode.Goal (mode : Mode) (depth : Nat) (changed : Bool) (s : Session) : Prop :=
  let arrived := changed = true ∧ s.source.hasBreakpoint s.current.line = true
  match mode with
  | .resume => arrived
  | .out => s.depth < depth ∨ arrived
  | .over => changed = true
  | .into => (depth < s.depth ∧ ¬ s.BehindMarker) ∨ (s.depth ≤ depth ∧ arrived)

/-- Whether the last instruction was the marker of a function with source, as the loop asks it. -/
theorem justEntered_iff (s : Session) : s.justEntered = true ↔ s.BehindMarker := by
  have hsource : (!s.current.isIntrinsic) = true ↔ 0 < s.current.first := by
    simp [Activation.isIntrinsic, Int32.not_le]
  unfold justEntered BehindMarker
  split
  · next name first last hlast => simp [hlast, hsource]
  · next hlast =>
    constructor
    · intro h
      cases h
    · rintro ⟨⟨name, first, last, h⟩, -⟩
      exact absurd h (hlast name first last)

/-- The loop goes on exactly where the goal of its mode is not reached. -/
theorem goesOn_eq_false_iff (mode : Mode) (depth : Nat) (s : Session) :
    s.goesOn mode depth = false ↔ mode.Goal depth s.lineChanged s := by
  have harrived : s.arrived = true ↔
      s.lineChanged = true ∧ s.source.hasBreakpoint s.current.line = true := Bool.and_eq_true_iff
  match mode with
  | .resume => rw [goesOn, Bool.not_eq_false', harrived]; rfl
  | .over => rw [goesOn, Bool.not_eq_false']; rfl
  | .out =>
    rw [goesOn, Bool.and_eq_false_iff, Bool.not_eq_false', harrived, decide_eq_false_iff_not,
      Nat.not_le]
    rfl
  | .into =>
    have hnot : s.justEntered = false ↔ ¬ s.BehindMarker := by
      rw [← justEntered_iff, Bool.not_eq_true]
    simp only [goesOn, Mode.Goal]
    split
    · next hdepth => rw [hnot]; simp [hdepth, Nat.not_le.mpr hdepth]
    · next hdepth => rw [Bool.not_eq_false', harrived]; simp [hdepth, Nat.not_lt.mp hdepth]

/-! ## One run -/

/-- The states that a trail leads through from a state in which it is noted, as `changed` says, that
a line was reached. Each one stands with whether a line was reached there. -/
def positions (changed : Bool) (s : Session) (trail : List (Instruction × Session)) :
    List (Bool × Session) :=
  (changed, s) :: trail.map fun entry => (reached entry.1 entry.2, entry.2)

/-- How a run stops in a state, when it started with `depth` activations. -/
inductive StopsAt (p : Program) (mode : Mode) (depth : Nat) :
    Bool → Session → Result Error Session Stop → Prop where
  /-- The machine has stopped. -/
  | finished {changed : Bool} {v : Session} (hstopped : v.machine.running = false) :
    StopsAt p mode depth changed v (.ok .finished (v.flag changed))
  /-- The goal of the mode is reached. -/
  | paused {changed : Bool} {v : Session} (hrunning : v.machine.running = true)
    (hgoal : mode.Goal depth changed v) :
    StopsAt p mode depth changed v (.ok .paused v.settled)
  /-- The next instruction fails. -/
  | failed {changed : Bool} {v w : Session} {e : Error} (hrunning : v.machine.running = true)
    (hgoal : ¬ mode.Goal depth changed v) (hstep : step p v = .error e w) :
    StopsAt p mode depth changed v (.error e w.settled)

/-- A run stops in the first state of its trail in which it has to. -/
def StopsFirst (p : Program) (mode : Mode) (depth : Nat) (changed : Bool) (s : Session)
    (r : Result Error Session Stop) : Prop :=
  ∃ trail v before last, Trail p s trail v ∧
    positions changed s trail = before ++ [(last, v)] ∧
    (∀ position ∈ before, ¬ mode.Goal depth position.1 position.2) ∧
    StopsAt p mode depth last v r

section Loop

variable {p : Program} {mode : Mode} {depth fuel : Nat} {s t : Session} {changed : Bool}
  {instr : Instruction} {r : Result Error Session Stop}

/-- A mode stops exactly where its goal is reached. -/
theorem goesOn_flag_iff :
    (s.flag changed).goesOn mode depth = false ↔ mode.Goal depth changed s :=
  goesOn_eq_false_iff mode depth (s.flag changed)

/-- A run that has to stop at once stops first there. -/
theorem StopsAt.stopsFirst (h : StopsAt p mode depth changed s r) :
    StopsFirst p mode depth changed s r :=
  ⟨[], s, [], changed, .nil, rfl, by simp, h⟩

/-- Where the goal is not reached and the next instruction succeeds, a run stops where one from
behind the instruction does. -/
theorem StopsFirst.cons (hrunning : s.machine.running = true)
    (hgoal : ¬ mode.Goal depth changed s) (hstep : step p s = .ok instr t)
    (h : StopsFirst p mode depth (reached instr t) t r) :
    StopsFirst p mode depth changed s r := by
  obtain ⟨trail, v, before, last, htrail, hpositions, hbefore, hstop⟩ := h
  refine ⟨(instr, t) :: trail, v, (changed, s) :: before, last, .cons hrunning hstep htrail, ?_, ?_,
    hstop⟩
  · rw [List.cons_append, ← hpositions]
    rfl
  · exact List.forall_mem_cons.mpr ⟨hgoal, hbefore⟩

/-- One round of the loop at a state in which it has to stop. -/
theorem proceed_of_stopsAt (h : StopsAt p mode depth changed s r) :
    proceed p mode depth (fuel + 1) (s.flag changed) = r := by
  rw [proceed_succ, flag_machine]
  cases h with
  | finished hstopped => rw [hstopped]; rfl
  | paused hrunning hgoal => rw [hrunning, goesOn_flag_iff.mpr hgoal]; rfl
  | failed hrunning hgoal hstep =>
    have hgoes : (s.flag changed).goesOn mode depth = true := by
      rwa [← Bool.not_eq_false, goesOn_flag_iff]
    rw [hrunning, hgoes]
    exact bind_of_error (step_flag_of_error hstep false) _

/-- One round of the loop at a state in which it goes on. -/
theorem proceed_of_step (hrunning : s.machine.running = true)
    (hgoal : ¬ mode.Goal depth changed s) (hstep : step p s = .ok instr t) :
    proceed p mode depth (fuel + 1) (s.flag changed) =
      proceed p mode depth fuel (t.flag (reached instr t)) := by
  have hgoes : (s.flag changed).goesOn mode depth = true := by
    rwa [← Bool.not_eq_false, goesOn_flag_iff]
  rw [proceed_succ, flag_machine, hrunning, hgoes]
  exact bind_of_ok (step_flag_of_ok hstep false) _

/-- Where a run has to stop at a state, if it has to. -/
theorem stopsAt_or_step (p : Program) (mode : Mode) (depth : Nat) (changed : Bool) (s : Session) :
    (∃ r, StopsAt p mode depth changed s r) ∨
      (s.machine.running = true ∧ ¬ mode.Goal depth changed s ∧
        ∃ instr t, step p s = .ok instr t) := by
  cases hrunning : s.machine.running with
  | false => exact .inl ⟨_, .finished hrunning⟩
  | true =>
    by_cases hgoal : mode.Goal depth changed s
    · exact .inl ⟨_, .paused hrunning hgoal⟩
    · cases hstep : step p s with
      | error e w => exact .inl ⟨_, .failed hrunning hgoal hstep⟩
      | ok instr t => exact .inr ⟨rfl, hgoal, instr, t, rfl⟩

/-- A loop that ends in time has stopped in the first state in which it had to. -/
theorem stopsFirst_of_proceed (h : proceed p mode depth fuel (s.flag changed) = r)
    (hr : ∀ t, r ≠ .ok .outOfFuel t) : StopsFirst p mode depth changed s r := by
  induction fuel generalizing s changed with
  | zero => exact absurd h.symm (hr _)
  | succ fuel ih =>
    obtain ⟨r', hstop⟩ | ⟨hrunning, hgoal, instr, t, hstep⟩ :=
      stopsAt_or_step p mode depth changed s
    · rw [proceed_of_stopsAt hstop] at h
      subst h
      exact hstop.stopsFirst
    · rw [proceed_of_step hrunning hgoal hstep] at h
      exact .cons hrunning hgoal hstep (ih h)

/-- The loop stops in the first state in which it has to, with one round more than instructions. -/
theorem proceed_of_stopsFirst (h : StopsFirst p mode depth changed s r) :
    ∃ fuel, proceed p mode depth fuel (s.flag changed) = r := by
  obtain ⟨trail, v, before, last, htrail, hpositions, hbefore, hstop⟩ := h
  refine ⟨trail.length + 1, ?_⟩
  induction htrail generalizing changed before with
  | nil =>
    have hsingle : [] ++ [(changed, _)] = before ++ [(last, _)] := hpositions
    obtain ⟨-, hlast⟩ := List.append_inj' hsingle rfl
    obtain ⟨rfl, -⟩ := Prod.mk.inj (List.singleton_inj.mp hlast)
    exact proceed_of_stopsAt hstop
  | @cons s t u instr trail hrunning hstep hrest ih =>
    -- The first position is not the last one, so the goal is not reached there.
    cases before with
    | nil => simp [positions] at hpositions
    | cons position before =>
      obtain ⟨rfl, hrest⟩ := List.cons.inj hpositions
      obtain ⟨hgoal, hbefore⟩ := List.forall_mem_cons.mp hbefore
      rw [List.length_cons, proceed_of_step hrunning hgoal hstep]
      exact ih before hrest hbefore hstop

/-- A run ends with a result exactly if it stops with it in the first state in which it has to. -/
theorem returns_iff : Returns p mode s r ↔ StopsFirst p mode s.depth s.lineChanged s r := by
  have hflag : s.flag s.lineChanged = s := rfl
  constructor
  · rintro ⟨fuel, hrun, hr⟩
    exact stopsFirst_of_proceed (by rwa [hflag]) hr
  · intro h
    obtain ⟨fuel, hrun⟩ := proceed_of_stopsFirst h
    refine ⟨fuel, by rwa [hflag] at hrun, ?_⟩
    obtain ⟨-, v, -, last, -, -, -, hstop⟩ := h
    cases hstop <;> simp

end Loop

/-! ## Sessions that execute instructions in modes only -/

section Sessions

variable {p : Program} {mode : Mode} {depth fuel : Nat} {s t : Session} {instr : Instruction}
  {e : Error}

/-- Behind an instruction it is noted whether it reached a line, if nothing was noted before. -/
theorem lineChanged_of_ok (h : step p s.settled = .ok instr t) :
    t.lineChanged = reached instr t := by
  have hsame : step p s.settled = _ := step_flag_of_ok h false
  rw [h, Bool.false_or] at hsame
  rw [(Result.ok.inj hsame).2, flag_lineChanged]
  rfl

/-- An instruction that fails notes nothing. -/
theorem lineChanged_of_error (h : step p s.settled = .error e t) : t.lineChanged = false := by
  have hsame : step p s.settled = _ := step_flag_of_error h false
  rw [h] at hsame
  rw [(Result.error.inj hsame).2, flag_lineChanged]

/-- A run that ends leaves no line to be noticed. Where it starts there may be one, as long as the
machine runs: where the machine has stopped, nobody would notice it. -/
theorem lineChanged_of_proceed (hs : s.lineChanged = true → s.machine.running = true)
    (hr : ∀ t, proceed p mode depth fuel s ≠ .ok .outOfFuel t) :
    (proceed p mode depth fuel s).state.lineChanged = false := by
  induction fuel generalizing s with
  | zero => exact absurd rfl (hr s)
  | succ fuel ih =>
    obtain ⟨hstopped, hp, -⟩ | ⟨-, hp, -⟩ | ⟨-, e, t, hstep, hp, -⟩ |
      ⟨hrunning, instr, t, hstep, hp, -⟩ := proceed_cases p mode depth fuel s
    · rw [hp, Result.state_ok, Bool.eq_false_iff]
      intro hset
      rw [hs hset] at hstopped
      cases hstopped
    · rw [hp]
      rfl
    · rw [hp]
      exact lineChanged_of_error hstep
    · rw [hp] at hr ⊢
      refine ih ?_ hr
      rw [lineChanged_of_ok hstep]
      exact running_of_reached hstep hrunning

/-- A request other than to execute a single instruction leaves no line to be noticed, if there was
none before and it is answered. -/
theorem Operation.lineChanged_of_perform {op : Operation} (hop : op ≠ .step)
    (hanswer : op.answer p s ≠ .ok (.stopped .outOfFuel)) (hs : s.lineChanged = false) :
    (op.perform p s).state.lineChanged = false := by
  by_cases hrun : ∃ mode fuel, op = .run mode fuel
  · obtain ⟨mode, fuel, rfl⟩ := hrun
    rw [Operation.perform_run, state_bind_pure]
    refine lineChanged_of_proceed (by simp [hs]) ?_
    intro t ht
    rw [Operation.answer, Operation.perform_run, bind_of_ok ht] at hanswer
    exact hanswer rfl
  · obtain ⟨source, tracing, log, hstate⟩ :=
      Operation.state_of_quiet (p := p) (s := s) hop fun mode fuel h => hrun ⟨mode, fuel, h⟩
    rw [hstate]
    exact hs

/-- A session that executes instructions in modes only has no line to be noticed between its
requests. -/
theorem lineChanged_after {ops : List Operation} (hops : ∀ op ∈ ops, op ≠ .step)
    (hanswers : ∀ a ∈ answers p ops s, a ≠ .ok (.stopped .outOfFuel))
    (hs : s.lineChanged = false) : (after p ops s).lineChanged = false := by
  induction ops generalizing s with
  | nil => exact hs
  | cons op ops ih =>
    obtain ⟨hop, hops⟩ := List.forall_mem_cons.mp hops
    obtain ⟨hanswer, hanswers⟩ := List.forall_mem_cons.mp hanswers
    exact ih hops hanswers (Operation.lineChanged_of_perform hop hanswer hs)

/-- Where no line is to be noticed, the goal of no mode is reached at the start of a run. -/
theorem Mode.not_goal_start (mode : Mode) (s : Session) : ¬ mode.Goal s.depth false s := by
  cases mode <;> simp [Mode.Goal]

/-- A run on a machine that is running attempts the next instruction, if no line is to be
noticed. -/
theorem attempts_run (hrunning : s.machine.running = true) (hs : s.lineChanged = false)
    (mode : Mode) (fuel : Nat) :
    ∃ rest, (Operation.run mode (fuel + 1)).attempts p s = s :: rest := by
  have hgoes : s.goesOn mode s.depth = true := by
    rw [← Bool.not_eq_false, goesOn_eq_false_iff, hs]
    exact mode.not_goal_start s
  have hsettled : s.settled = s := by
    rw [settled, ← hs]
  rw [Operation.attempts, proceedAttempts, hrunning, hgoes, hsettled]
  exact ⟨_, rfl⟩

end Sessions

/-- A run in a mode stops first where it has to, and always gets somewhere. From any state a run
ends with a result exactly if its trail leads, through states in which the machine runs, the goal of
the mode is not reached and the next instruction succeeds, to a state in which the machine has
stopped, or the goal is reached, or the next instruction fails, and the result says which. And in a
session that executes instructions in runs only, also behind errors, no line is left to be noticed
when a request is made, so that every run on a machine that is running attempts at least the next
instruction. -/
theorem run_stops_first (p : Program) :
    (∀ mode s r, Returns p mode s r ↔ StopsFirst p mode s.depth s.lineChanged s r) ∧
      ∀ source channel ops, (∀ op ∈ ops, op ≠ .step) →
        (∀ a ∈ answers p ops (start source channel), a ≠ .ok (.stopped .outOfFuel)) →
        (after p ops (start source channel)).lineChanged = false ∧
          ((after p ops (start source channel)).machine.running = true →
            ∀ mode fuel, ∃ rest,
              (Operation.run mode (fuel + 1)).attempts p (after p ops (start source channel)) =
                after p ops (start source channel) :: rest) := by
  refine ⟨fun mode s r => returns_iff, ?_⟩
  intro source channel ops hops hanswers
  have hclear := lineChanged_after hops hanswers rfl
  exact ⟨hclear, fun hrunning => attempts_run hrunning hclear⟩

/-- A program that gives up a variable which it has not declared. -/
def brokenProgram : Program :=
  { instructions := #[.function "main" 1 3, .line 2, .pop 1, .line 3, .halt]
    labels := ∅ }

/-- The source of `brokenProgram`. -/
def brokenSource : Source :=
  { lines := #["program", "int x", "return x"] }

/-- A session that pauses twice, the second time at a breakpoint, and then fails. -/
def brokenOperations : List Operation :=
  [.run .over 9, .setBreakpoint 2, .run .resume 9, .run .over 9]

/-- Behind the failure the session goes on with the next instruction. -/
theorem run_stops_first_broken :
    answers brokenProgram brokenOperations (start brokenSource {}) =
        [.ok (.stopped .paused), .ok .done, .ok (.stopped .paused),
          .error (.scope 2 (.undoUnderflow 1 0))] ∧
      (after brokenProgram brokenOperations (start brokenSource {})).machine.pc = 3 ∧
      (after brokenProgram brokenOperations (start brokenSource {})).lineChanged = false ∧
      ∃ rest, (Operation.run .into 9).attempts brokenProgram
          (after brokenProgram brokenOperations (start brokenSource {})) =
        after brokenProgram brokenOperations (start brokenSource {}) :: rest := by
  have hanswers : answers brokenProgram brokenOperations (start brokenSource {}) =
      [.ok (.stopped .paused), .ok .done, .ok (.stopped .paused),
        .error (.scope 2 (.undoUnderflow 1 0))] := rfl
  obtain ⟨hclear, hattempts⟩ := (run_stops_first brokenProgram).2 brokenSource {} brokenOperations
    (by decide) (by rw [hanswers]; simp)
  exact ⟨hanswers, rfl, hclear, hattempts rfl .into 8⟩

end XBytecode.Session
