import Mathlib.Algebra.Group.Int.Defs
import XBytecode.Proofs.Activations
import XBytecode.Proofs.Course
import XBytecode.Proofs.Stopping

/-!
# The base activation

Below all function calls lies the base activation, and nothing that happens to a session closes it
or moves it to another line. It is closed by no `RETURN`, and a line is only reached where the
innermost activation belongs to a frame of its own, of which there is always one less than
activations: so the activation that is moved is never the base (`two_le_depth_of_inStep`). Only
variables can be bound in it. `base_step` says so for one step and `Course.rooted` for everything
that can happen.

For the same reason no run in the modes that go on to a line pauses at the base. This needs that a
line is not noticed later than it was reached, as it can be where instructions are executed one by
one: between two runs, a line that is still to be noticed has been reached in the present state
(`lineChanged_depth_after`).
-/

namespace XBytecode

namespace Activation

/-- The activation without its variables. -/
def emptied (a : Activation) : Activation :=
  { a with scope := {} }

/-- The base ends at the last line of the source, or at the greatest number that a line can have. -/
theorem toInt_last_base (lineCount : Nat) :
    (base lineCount).last.toInt = min (lineCount : Int) (2 ^ 31 - 1) := by
  have hmax : Int32.maxValue.toInt = 2147483647 := by decide
  have hlast : (base lineCount).last = if lineCount ≤ Int32.maxValue.toInt.toNat
      then Int32.ofNat lineCount else Int32.maxValue := rfl
  rw [hlast, hmax]
  split
  · rw [Int32.toInt_ofNat_of_lt (by omega)]
    omega
  · rw [hmax]
    omega

end Activation

namespace Session

open EStateM (modify_apply pure_apply state_bind_pure)

/-! ## What a step does to the base -/

/-- Where a line can be reached, the innermost activation is not the base. -/
theorem two_le_depth_of_inStep {s : Session} (h : s.inStep = true) : 2 ≤ s.depth := by
  rw [inStep, beq_iff_eq, Stack.frameCount] at h
  omega

/-- A change of the innermost activation's variables leaves the rest of the base alone. -/
theorem base_updateScope (f : Activation → Scope) (s : Session) :
    (s.updateCurrent fun a => { a with scope := f a }).base.emptied = s.base.emptied := by
  unfold updateCurrent
  split <;> rfl

/-- No line is reached in the base. -/
theorem base_reachLine (number : Int32) (s : Session) : (s.reachLine number).base = s.base := by
  unfold reachLine
  split
  · next h =>
    have hdepth := two_le_depth_of_inStep (Bool.and_eq_true_iff.mp h).2
    obtain ⟨rest, a, hcalls⟩ := Array.exists_push_of_size_pos (Nat.lt_of_succ_lt_succ hdepth)
    simp [updateCurrent, hcalls]
  · rfl

/-- Logging leaves the base alone. -/
theorem base_trace (entry : String) (s : Session) : (s.trace entry).base = s.base := by
  unfold trace
  split <;> rfl

/-- To follow an instruction, a session changes at most the variables of its base. -/
theorem base_follow (address : Nat) (instr : Instruction) (s : Session) :
    (follow address instr s).state.base.emptied = s.base.emptied := by
  unfold follow
  split
  · rw [modify_apply, EStateM.Result.state_ok, declare]
    exact base_updateScope _ s
  · unfold retract
    split
    · exact base_updateScope (fun _ => _) s
    · rfl
  · rw [modify_apply, EStateM.Result.state_ok, declare]
    exact base_updateScope _ s
  · rw [modify_apply, EStateM.Result.state_ok, enterFunction, base_trace, base_reachLine]
  · rw [modify_apply, EStateM.Result.state_ok, base_reachLine]
  · rw [modify_apply, EStateM.Result.state_ok, exitFunction, base_trace]
  · rfl

/-- A step changes at most the variables of the base. -/
theorem base_step (p : Program) (s : Session) :
    (step p s).state.base.emptied = s.base.emptied := by
  cases hstep : step p s with
  | ok instr t =>
    obtain ⟨m, -, hfollow⟩ := step_eq_ok.mp hstep
    have hkeep := base_follow s.machine.pc instr { s with machine := m, last := some instr }
    rwa [hfollow] at hkeep
  | error e t =>
    obtain ⟨f, m, -, -, rfl⟩ | ⟨n, m, -, -, rfl⟩ := step_error_cases hstep
    · rfl
    · rfl

/-- In the whole course of a session its base is the one that it started with, but for the
variables. -/
theorem Course.rooted {p : Program} {source : Source} {channel : Channel} {l : List Session}
    {s : Session} (h : Course p source channel l s) :
    s.base.emptied = Activation.base source.size := by
  refine h.induction (P := fun _ s => s.base.emptied = Activation.base source.size) rfl ?_ ?_
  · intro l s hs
    rw [base_step, hs]
  · intro l s t hs haside
    rw [haside.base, hs]

/-! ## Where runs pause -/

section Runs

variable {p : Program} {mode : Mode} {depth fuel : Nat} {s t : Session}

/-- A run leaves a line to be noticed only above the base, if it finds one only there. -/
theorem lineChanged_depth_proceed (hs : s.lineChanged = true → 2 ≤ s.depth)
    (hset : (proceed p mode depth fuel s).state.lineChanged = true) :
    2 ≤ (proceed p mode depth fuel s).state.depth := by
  induction fuel generalizing s with
  | zero => exact hs hset
  | succ fuel ih =>
    obtain ⟨-, hp, -⟩ | ⟨-, hp, -⟩ | ⟨-, e, t, hstep, hp, -⟩ | ⟨-, instr, t, hstep, hp, -⟩ :=
      proceed_cases p mode depth fuel s
    · rw [hp] at hset ⊢
      exact hs hset
    · -- A pause takes the note back.
      rw [hp] at hset
      cases hset
    · rw [hp, EStateM.Result.state_error, lineChanged_of_error hstep] at hset
      cases hset
    · rw [hp] at hset ⊢
      refine ih ?_ hset
      intro hchanged
      rw [lineChanged_of_ok hstep] at hchanged
      exact two_le_depth_of_inStep (Bool.and_eq_true_iff.mp hchanged).2

/-- In a session that executes instructions in modes only, a line is left to be noticed only above
the base. -/
theorem lineChanged_depth_after {ops : List Operation} (hops : ∀ op ∈ ops, op ≠ .step)
    (hs : s.lineChanged = true → 2 ≤ s.depth)
    (hset : (after p ops s).lineChanged = true) : 2 ≤ (after p ops s).depth := by
  induction ops generalizing s with
  | nil => exact hs hset
  | cons op ops ih =>
    obtain ⟨hop, hops⟩ := List.forall_mem_cons.mp hops
    refine ih hops ?_ hset
    by_cases hrun : ∃ mode fuel, op = .run mode fuel
    · obtain ⟨mode, fuel, rfl⟩ := hrun
      rw [Operation.perform_run, state_bind_pure]
      exact lineChanged_depth_proceed hs
    · obtain ⟨source, tracing, log, hstate⟩ :=
        Operation.state_of_quiet (p := p) (s := s) hop fun mode fuel h => hrun ⟨mode, fuel, h⟩
      rw [hstate]
      exact hs

/-- A run to a line or to a breakpoint pauses above the base, if no line is left to be noticed
elsewhere when it starts. -/
theorem two_le_depth_of_paused (hmode : mode = .resume ∨ mode = .over)
    (hs : s.lineChanged = true → 2 ≤ s.depth)
    (h : proceed p mode s.depth fuel s = .ok .paused t) : 2 ≤ t.depth := by
  have hreturns : Returns p mode s (.ok .paused t) := ⟨fuel, h, by simp⟩
  obtain ⟨trail, v, before, last, -, hpositions, -, hstop⟩ := returns_iff.mp hreturns
  cases hstop with
  | paused hrunning hgoal =>
    have hlast : last = true := by
      obtain rfl | rfl := hmode
      · exact hgoal.1
      · exact hgoal
    have hmem : (last, v) ∈ positions s.lineChanged s trail := by
      rw [hpositions]
      exact List.mem_append_right _ (List.mem_singleton_self _)
    -- The line was reached before the run or by one of its instructions.
    rw [positions, List.mem_cons, List.mem_map] at hmem
    obtain hstart | ⟨entry, -, hentry⟩ := hmem
    · obtain ⟨hflag, rfl⟩ := Prod.mk.inj hstart
      exact hs (hflag.symm.trans hlast)
    · obtain ⟨hreached, rfl⟩ := Prod.mk.inj hentry
      exact two_le_depth_of_inStep (Bool.and_eq_true_iff.mp (hreached.trans hlast)).2

end Runs

/-- The base activation is permanent and never moves. Whatever happens to a session, its outermost
activation is the one of the name `main` that spans the lines of the source, as far as machine words
can number them, and stands at line 1, and the activations of the functions called are the others.
And a session that executes instructions in modes only pauses above the base whenever it goes on to
the next line or to the next breakpoint. -/
theorem base_permanent (p : Program) (source : Source) (channel : Channel) :
    (∀ l s, Course p source channel l s →
      ∃ base rest, s.records = base :: rest ∧ base.name = "main" ∧ base.first = 1 ∧
        base.last.toInt = min (source.size : Int) (2 ^ 31 - 1) ∧ base.line = 1 ∧
        s.depth = rest.length + 1 ∧ s.current = rest.getLastD base ∧
        s.callStack = rest.reverse) ∧
    ∀ ops, (∀ op ∈ ops, op ≠ .step) → ∀ mode fuel t, mode = .resume ∨ mode = .over →
      (Operation.run mode fuel).perform p (after p ops (start source channel)) =
        .ok (.stopped .paused) t → 2 ≤ t.depth := by
  constructor
  · intro l s hcourse
    have hrooted := hcourse.rooted
    refine ⟨s.base, s.calls.toList, rfl, ?_, ?_, ?_, ?_, ?_, ?_, rfl⟩
    · exact congrArg Activation.name hrooted
    · exact congrArg Activation.first hrooted
    · have hlast := congrArg (fun a : Activation => a.last.toInt) hrooted
      exact hlast.trans (Activation.toInt_last_base source.size)
    · exact congrArg Activation.line hrooted
    · rw [depth, Array.length_toList]
    · rw [current, List.getLastD_eq_getLast?, Array.getLast?_toList]
  · intro ops hops mode fuel t hmode hperform
    obtain ⟨mode', fuel', heq, hproceed⟩ := Operation.perform_eq_stopped hperform
    cases heq
    refine two_le_depth_of_paused hmode ?_ hproceed
    exact lineChanged_depth_after hops (by simp [start])

/-- Behind a failure the session goes on to line 3, at which it pauses above the base. The base is
still at line 1. -/
theorem base_permanent_broken :
    ∃ t, (Operation.run .over 9).perform brokenProgram
          (after brokenProgram brokenOperations (start brokenSource {})) =
        .ok (.stopped .paused) t ∧
      t.current.line = 3 ∧ 2 ≤ t.depth ∧
      ∃ base rest, t.records = base :: rest ∧ base.name = "main" ∧ base.last.toInt = 3 ∧
        base.line = 1 := by
  obtain ⟨hbase, hdepth⟩ := base_permanent brokenProgram brokenSource {}
  have hbegun : Course brokenProgram brokenSource {}
      ([] ++ attempts brokenProgram brokenOperations (start brokenSource {})) _ :=
    Course.start.after brokenOperations
  have hcourse := hbegun.request (.run .over 9)
  have hanswer : (Operation.run .over 9).answer brokenProgram
      (after brokenProgram brokenOperations (start brokenSource {})) =
      .ok (.stopped .paused) := rfl
  have hline : ((Operation.run .over 9).perform brokenProgram
      (after brokenProgram brokenOperations (start brokenSource {}))).state.current.line = 3 := by
    rfl
  cases hperform : (Operation.run .over 9).perform brokenProgram
      (after brokenProgram brokenOperations (start brokenSource {})) with
  | ok a t =>
    rw [Operation.answer, hperform] at hanswer
    obtain rfl := Except.ok.inj hanswer
    rw [hperform] at hcourse hline
    obtain ⟨base, rest, hrecords, hname, -, hlast, hfirst, -⟩ := hbase _ _ hcourse
    exact ⟨t, rfl, hline, hdepth brokenOperations (by decide) .over 9 t (.inr rfl) hperform,
      base, rest, hrecords, hname, hlast, hfirst⟩
  | error e t =>
    rw [Operation.answer, hperform] at hanswer
    cases hanswer

end Session

end XBytecode
