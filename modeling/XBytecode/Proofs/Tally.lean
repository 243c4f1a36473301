import XBytecode.Proofs.Activations
import XBytecode.Proofs.ControlFlow
import XBytecode.Proofs.Course
import XBytecode.Proofs.LineChange

/-!
# Frames, calls and activations by count

An instruction of its own opens each of three things: `ARGS` a frame, `CALL` the way back to the
caller and `FUNCTION` an activation. `RETURN` alone closes them, one of each, except that the base
activation stays. So the number of each is known from how often these instructions have been
executed in the course of a session (`Course.tallied`), by induction from what one step does
(`Machine.tally_step`, `depth_tally`). An instruction that fails opens and closes nothing.

A line is reached only where there is one activation more than frames (`inStep`). In the difference
of the two numbers the returns cancel out, but for those at the base, and what is left is a count of
`FUNCTION` and `ARGS` (`Course.inStep_iff`).
-/

namespace XBytecode

/-- The line that an instruction marks, as written. -/
def Instruction.marked? : Instruction → Option Int32
  | .line number => some number
  | .function _ first _ => some first
  | _ => none

/-- Whether the line that an instruction marks is one of the source. -/
theorem Instruction.marksLine_of_marked {instr : Instruction} {number : Int32}
    (h : instr.marked? = some number) : instr.marksLine = decide (0 ≤ number) := by
  cases instr with
  | line found =>
    obtain rfl := Option.some.inj h
    rfl
  | function name first last =>
    obtain rfl := Option.some.inj h
    rfl
  | _ => cases h

namespace Machine

variable {p : Program} {instr : Instruction} {m m' : Machine}

/-- Whether the next step executes an instruction with the opcode. -/
def executes (p : Program) (op : Opcode) (m : Machine) : Bool :=
  match step p m with
  | .ok instr _ => instr.opcode = op
  | .error _ _ => false

/-- A step that succeeds executes the operation of its instruction and no other. -/
theorem executes_of_ok (h : step p m = .ok instr m') (op : Opcode) :
    m.executes p op = decide (instr.opcode = op) := by
  rw [executes, h]

/-- A step that fails executes nothing. -/
theorem executes_of_error {g : Fault} (h : step p m = .error g m') (op : Opcode) :
    m.executes p op = false := by
  rw [executes, h]

/-- Frames are opened by `ARGS` and closed by `RETURN`, and addresses to return to are remembered by
`CALL` and taken back by `RETURN`. -/
theorem Effect.tally (h : Effect instr m m') :
    m'.stack.frameCount + (decide (instr.opcode = .ret)).toNat =
        m.stack.frameCount + (decide (instr.opcode = .args)).toNat ∧
      m'.returns.size + (decide (instr.opcode = .ret)).toNat =
        m.returns.size + (decide (instr.opcode = .call)).toNat := by
  cases h with
  | args hcount => simp [Stack.frameCount, Instruction.opcode]
  | call htarget => simp [Instruction.opcode]
  | ret hreturns hbases hslots =>
    simp [Stack.frameCount, Instruction.opcode, hreturns, hbases]
  | @pop _ count =>
    have hbases : (m.stack.discard count).2.bases = m.stack.bases := by
      unfold Stack.discard
      split <;> rfl
    exact ⟨congrArg (·.size + 1) hbases, rfl⟩
  | dump =>
    split
    · exact ⟨rfl, rfl⟩
    · exact ⟨rfl, rfl⟩
  | _ => exact ⟨rfl, rfl⟩

/-- An instruction that is refused leaves the frames as they were. -/
theorem Refusal.bases {cause : Fault.Cause} (h : Refusal instr m cause m') :
    m'.stack.bases = m.stack.bases := by
  cases h <;> rfl

/-- What a step of a muted machine does to the number of frames and of addresses to return to. -/
theorem tally_step (h : m.Muted) (p : Program) :
    (step p m).state.stack.frameCount + (m.executes p .ret).toNat =
        m.stack.frameCount + (m.executes p .args).toNat ∧
      (step p m).state.returns.size + (m.executes p .ret).toNat =
        m.returns.size + (m.executes p .call).toNat := by
  cases hstep : step p m with
  | ok instr m' =>
    obtain ⟨-, m₁, heffect, rfl⟩ := (step_eq_ok_of_muted h).mp hstep
    simp only [executes_of_ok hstep]
    exact heffect.tally
  | error g m' =>
    simp only [executes_of_error hstep]
    obtain rfl | ⟨instr, hrefusal⟩ := step_eq_error_of_muted h hstep
    · exact ⟨rfl, rfl⟩
    · obtain ⟨-, hreturns⟩ := hrefusal.addresses
      exact ⟨congrArg (·.size + 1) hrefusal.bases, congrArg Array.size hreturns⟩

/-- On a muted machine a `RETURN` succeeds exactly if there are a call, a frame and a value. -/
theorem step_ret_iff (h : m.Muted) {name : Option String}
    (hget : p.get? m.pc = some (.ret name)) :
    (∃ m', step p m = .ok (.ret name) m') ↔
      0 < m.returns.size ∧ 1 < m.stack.frameCount ∧ 0 < m.stack.size := by
  simp only [step_eq_ok_of_muted h, hget, true_and]
  constructor
  · rintro ⟨m', m₁, heffect, -⟩
    cases heffect with
    | ret hreturns hbases hslots =>
      simp [Stack.frameCount, Stack.size, hreturns, hbases, hslots]
  · rintro ⟨hcalls, hframes, hvalues⟩
    obtain ⟨returns, address, hreturns⟩ := Array.exists_push_of_size_pos hcalls
    obtain ⟨bases, base, hbases⟩ := Array.exists_push_of_size_pos (Nat.lt_of_succ_lt_succ hframes)
    obtain ⟨below, v, hslots⟩ := Array.exists_push_of_size_pos hvalues
    exact ⟨_, _, .ret hreturns hbases hslots, rfl⟩

end Machine

namespace Session

/-! ## One step -/

section Step

variable {p : Program} {s t : Session} {instr : Instruction}

/-- Only a `POP` can be executed and not followed. -/
theorem exists_step_iff (hpop : ∀ count, instr ≠ .pop count) :
    (∃ t, step p s = .ok instr t) ↔ ∃ m, Machine.step p s.machine = .ok instr m := by
  constructor
  · rintro ⟨t, hstep⟩
    exact ⟨t.machine, machine_of_ok hstep⟩
  · rintro ⟨m, hm⟩
    cases hstep : step p s with
    | ok found t =>
      have hfound := machine_of_ok hstep
      rw [hm] at hfound
      obtain rfl := (EStateM.Result.ok.inj hfound).1
      exact ⟨t, rfl⟩
    | error e t =>
      obtain ⟨f, m', hfault, -⟩ | ⟨count, m', hcount, -⟩ := step_error_cases hstep
      · rw [hm] at hfault
        cases hfault
      · rw [hm] at hcount
        exact absurd (EStateM.Result.ok.inj hcount).1 (hpop count)

/-- An instruction other than a `POP` is executed by the session exactly if it is by its machine. -/
theorem executes_iff {op : Opcode} (hop : op ≠ .pop) :
    s.machine.executes p op = true ↔ ∃ instr t, step p s = .ok instr t ∧ instr.opcode = op := by
  constructor
  · intro h
    cases hm : Machine.step p s.machine with
    | ok instr m =>
      rw [Machine.executes_of_ok hm, decide_eq_true_iff] at h
      have hpop : ∀ count, instr ≠ .pop count := by
        rintro count rfl
        exact hop h.symm
      obtain ⟨t, hstep⟩ := (exists_step_iff hpop).mpr ⟨m, hm⟩
      exact ⟨instr, t, hstep, h⟩
    | error f m =>
      rw [Machine.executes_of_error hm] at h
      cases h
  · rintro ⟨instr, t, hstep, rfl⟩
    rw [Machine.executes_of_ok (machine_of_ok hstep), decide_eq_true_iff]

/-- A function is entered exactly if its marker is executed. -/
theorem enters_iff : Enters p s ↔ s.machine.executes p .function = true := by
  rw [executes_iff (by decide)]
  constructor
  · rintro ⟨name, first, last, t, hstep⟩
    exact ⟨_, t, hstep, rfl⟩
  · rintro ⟨instr, t, hstep, hopcode⟩
    cases instr with
    | function name first last => exact ⟨name, first, last, t, hstep⟩
    | _ => cases hopcode

/-- A function is left exactly if a `RETURN` is executed. -/
theorem leaves_iff : Leaves p s ↔ s.machine.executes p .ret = true := by
  rw [executes_iff (by decide)]
  constructor
  · rintro ⟨name, t, hstep⟩
    exact ⟨_, t, hstep, rfl⟩
  · rintro ⟨instr, t, hstep, hopcode⟩
    cases instr with
    | ret name => exact ⟨name, t, hstep⟩
    | _ => cases hopcode

/-- What a step does to the number of activations. A `RETURN` at the base closes none. -/
theorem depth_tally (p : Program) (s : Session) :
    (step p s).state.depth + (s.machine.executes p .ret).toNat =
      s.depth + (s.machine.executes p .function).toNat +
        (s.machine.executes p .ret && s.depth = 1 : Bool).toNat := by
  have hpos := s.depth_pos
  obtain ⟨hup, hdown, hone⟩ := depth_step p s
  rw [enters_iff] at hup
  rw [leaves_iff] at hdown
  cases hret : s.machine.executes p .ret with
  | true =>
    have hfunction : s.machine.executes p .function = false := by
      rw [← Bool.not_eq_true, ← enters_iff]
      exact (leaves_iff.mpr hret).not_enters
    have hnotUp : (step p s).state.depth ≠ s.depth + 1 := by simpa [hfunction] using hup
    have hifAbove : (step p s).state.depth + 1 = s.depth ↔ 2 ≤ s.depth := by
      simpa [hret] using hdown
    rw [hfunction, Bool.true_and]
    by_cases hbase : s.depth = 1
    · rw [decide_eq_true hbase, Bool.toNat_true, Bool.toNat_false]
      omega
    · rw [decide_eq_false hbase, Bool.toNat_true, Bool.toNat_false]
      omega
  | false =>
    have hnotDown : (step p s).state.depth + 1 ≠ s.depth := by simpa [hret] using hdown
    rw [Bool.false_and, Bool.toNat_false]
    cases hfunction : s.machine.executes p .function with
    | true =>
      rw [hup.mpr hfunction, Bool.toNat_true]
    | false =>
      have hnotUp : (step p s).state.depth ≠ s.depth + 1 := by simpa [hfunction] using hup
      rw [Bool.toNat_false]
      omega

/-- Behind an instruction it is noted that a line was reached if this was noted before or the
instruction reached one. -/
theorem lineChanged_step (h : step p s = .ok instr t) :
    t.lineChanged = (s.lineChanged || reached instr t) := by
  have hsame : step p s = _ := step_flag_of_ok h s.lineChanged
  rw [h] at hsame
  rw [(EStateM.Result.ok.inj hsame).2, flag_lineChanged]
  rfl

/-- The innermost activation is the one that is changed. -/
theorem current_updateCurrent (f : Activation → Activation) (s : Session) :
    (s.updateCurrent f).current = f s.current := by
  unfold updateCurrent current
  cases h : s.calls.back? with
  | none => simp [h]
  | some a => simp

/-- The log has no part in the activations. -/
theorem current_trace (entry : String) (s : Session) : (s.trace entry).current = s.current := by
  unfold trace
  split <;> rfl

/-- A line that is reached becomes the line of the innermost activation, and another one does
not. -/
theorem current_line_reachLine (number : Int32) (s : Session) :
    (s.reachLine number).current.line =
      if (0 ≤ number && s.inStep) = true then number else s.current.line := by
  unfold reachLine
  split
  · exact congrArg Activation.line (current_updateCurrent _ s)
  · rfl

/-- The marker of a line is always executed. -/
theorem step_of_marked {number : Int32} (hmuted : s.machine.Muted)
    (hget : p.get? s.machine.pc = some instr) (hmarked : instr.marked? = some number) :
    ∃ t, step p s = .ok instr t := by
  have heffect : Machine.Effect instr s.machine s.machine := by
    cases instr with
    | line number => exact .line
    | function name first last => exact .function
    | _ => cases hmarked
  have hpop : ∀ count, instr ≠ .pop count := by
    rintro count rfl
    cases hmarked
  exact (exists_step_iff hpop).mpr
    ⟨_, (Machine.step_eq_ok_of_muted hmuted).mpr ⟨hget, s.machine, heffect, rfl⟩⟩

/-- Behind the marker of a line, the line is that of the innermost activation if it was reached, and
otherwise the innermost activation is still at the line before. -/
theorem current_line_of_marked {number : Int32} (h : step p s = .ok instr t)
    (hmarked : instr.marked? = some number) :
    t.current.line = if reached instr t then number else s.current.line := by
  obtain ⟨m, -, hfollow⟩ := step_eq_ok.mp h
  cases instr with
  | line found =>
    obtain rfl := Option.some.inj hmarked
    obtain rfl := (EStateM.Result.ok.inj hfollow).2
    rw [current_line_reachLine, reached, reachLine_inStep]
    rfl
  | function name first last =>
    obtain rfl := Option.some.inj hmarked
    obtain rfl := (EStateM.Result.ok.inj hfollow).2
    -- The new activation stands at the line of its caller when its own line is looked at.
    rw [reached, enterFunction, trace_inStep, reachLine_inStep, current_trace,
      current_line_reachLine]
    simp [current, Instruction.marksLine]
  | _ => cases hmarked

end Step

/-! ## The course of a session -/

/-- How often an instruction with the opcode has been executed in the states. -/
def executions (p : Program) (op : Opcode) (l : List Session) : Nat :=
  l.countP fun s => s.machine.executes p op

/-- How often a `RETURN` has been executed in a state without an activation above the base. -/
def bareReturns (p : Program) (l : List Session) : Nat :=
  l.countP fun s => s.machine.executes p .ret && s.depth = 1

/-- Counting the returns at the base as well, one `FUNCTION` more than `ARGS` has been executed. -/
def Balanced (p : Program) (l : List Session) : Prop :=
  executions p .function l + bareReturns p l = executions p .args l + 1

/-- Whether a course is balanced can be computed. -/
instance (p : Program) (l : List Session) : Decidable (Balanced p l) :=
  inferInstanceAs (Decidable (_ = _))

/-- `Tallied p l s`: in the state `s` there are as many frames, addresses to return to and
activations as the instructions executed in the states `l` have opened and not closed. -/
structure Tallied (p : Program) (l : List Session) (s : Session) : Prop where
  frames : s.machine.stack.frameCount + executions p .ret l = 1 + executions p .args l
  calls : s.machine.returns.size + executions p .ret l = executions p .call l
  depth : s.depth + executions p .ret l = 1 + executions p .function l + bareReturns p l

/-- The last step of a course is counted behind the others. -/
theorem executions_concat (p : Program) (op : Opcode) (l : List Session) (s : Session) :
    executions p op (l ++ [s]) = executions p op l + (s.machine.executes p op).toNat := by
  rw [executions, List.countP_append, List.countP_singleton]
  cases s.machine.executes p op <;> rfl

/-- The last step of a course is counted too if it returns at the base. -/
theorem bareReturns_concat (p : Program) (l : List Session) (s : Session) :
    bareReturns p (l ++ [s]) =
      bareReturns p l + (s.machine.executes p .ret && s.depth = 1 : Bool).toNat := by
  rw [bareReturns, List.countP_append, List.countP_singleton]
  cases (s.machine.executes p .ret && s.depth = 1 : Bool) <;> rfl

section Courses

variable {p : Program} {source : Source} {channel : Channel} {l : List Session} {s : Session}

/-- A step keeps the tally, if the machine is muted. -/
theorem Tallied.step (h : Tallied p l s) (hmuted : s.machine.Muted) :
    Tallied p (l ++ [s]) (step p s).state := by
  obtain ⟨hframes, hcalls, hdepth⟩ := h
  obtain ⟨hframes', hcalls'⟩ := Machine.tally_step hmuted p
  have hdepth' := depth_tally p s
  constructor
  · rw [executions_concat, executions_concat, step_machine]
    omega
  · rw [executions_concat, executions_concat, step_machine]
    omega
  · rw [executions_concat, executions_concat, bareReturns_concat]
    omega

/-- The tally is right in the whole course of a session. -/
theorem Course.tallied (h : Course p source channel l s) : Tallied p l s := by
  -- The induction keeps the machine muted along with the tally, for a step needs both.
  have hall : s.machine.Muted ∧ Tallied p l s := by
    refine h.induction (P := fun l s => s.machine.Muted ∧ Tallied p l s) ⟨rfl, rfl, rfl, rfl⟩ ?_ ?_
    · rintro l s ⟨hmuted, htallied⟩
      rw [step_machine]
      exact ⟨hmuted.step p, htallied.step hmuted⟩
    · rintro l s t ⟨hmuted, hframes, hcalls, hdepth⟩ haside
      have hsame : t.depth = s.depth := by rw [depth, depth, haside.calls]
      rw [← haside.stack] at hframes
      rw [← haside.returns] at hcalls
      rw [← hsame] at hdepth
      exact ⟨haside.dump.trans hmuted, hframes, hcalls, hdepth⟩
  exact hall.2

/-- The innermost activation is that of the active frame exactly if the count says so. -/
theorem Course.inStep_iff (h : Course p source channel l s) :
    s.inStep = true ↔ Balanced p l := by
  obtain ⟨hframes, -, hdepth⟩ := h.tallied
  rw [inStep, beq_iff_eq, Balanced]
  omega

/-- Lines are accepted by count. In the course of a session there are as many frames, addresses to
return to and activations as `ARGS`, `CALL` and `FUNCTION` have opened and `RETURN` has closed. The
base is there from the start and outlives the returns that find no other activation. So the marker
of a line, or of a function that begins at one, makes the line the current one exactly if, the
marker itself and the returns at the base counted, one `FUNCTION` more than `ARGS` has been
executed. And a `RETURN` succeeds exactly if there are a call to return from, a frame to close and a
value to leave. -/
theorem lines_accepted_by_count (h : Course p source channel l s) :
    ((s.machine.stack.frameCount : Int) = 1 + executions p .args l - executions p .ret l ∧
      (s.machine.returns.size : Int) = executions p .call l - executions p .ret l ∧
      (s.depth : Int) =
        1 + executions p .function l - executions p .ret l + bareReturns p l) ∧
    (∀ instr number, p.get? s.machine.pc = some instr → instr.marked? = some number → 0 ≤ number →
      ∃ t, step p s = .ok instr t ∧
        t.lineChanged = (s.lineChanged || Balanced p (l ++ [s])) ∧
        t.current.line = if Balanced p (l ++ [s]) then number else s.current.line) ∧
    ∀ name, p.get? s.machine.pc = some (.ret name) →
      ((∃ t, step p s = .ok (.ret name) t) ↔
        0 < s.machine.returns.size ∧ 1 < s.machine.stack.frameCount ∧
          0 < s.machine.stack.size) := by
  refine ⟨?_, ?_, ?_⟩
  · obtain ⟨hframes, hcalls, hdepth⟩ := h.tallied
    refine ⟨?_, ?_, ?_⟩ <;> omega
  · intro instr number hget hmarked hnumber
    obtain ⟨t, hstep⟩ := step_of_marked h.muted hget hmarked
    have hnext : Course p source channel (l ++ [s]) t := by
      have hstate := h.step
      rwa [hstep] at hstate
    have hreached : reached instr t = decide (Balanced p (l ++ [s])) := by
      rw [reached, Instruction.marksLine_of_marked hmarked, decide_eq_true hnumber, Bool.true_and,
        Bool.eq_iff_iff, hnext.inStep_iff, decide_eq_true_iff]
    refine ⟨t, hstep, ?_, ?_⟩
    · rw [lineChanged_step hstep, hreached]
    · simp only [current_line_of_marked hstep hmarked, hreached, decide_eq_true_eq]
  · intro name hget
    rw [exists_step_iff (by simp), Machine.step_ret_iff h.muted hget]

end Courses

/-- A program that calls a function without a marker and then meets one that begins at line 2. -/
def unmarkedProgram : Program :=
  { instructions := #[.lit 5 none, .args 0, .call ⟨"f", some 5⟩, .function "g" 2 4, .halt,
      .label "f", .ret none]
    labels := ∅ }

/-- A session with `unmarkedProgram` after a number of steps. -/
def unmarked (k : Nat) : Session :=
  after unmarkedProgram (List.replicate k .step) (start { lines := #["a", "b", "c", "d"] } {})

/-- The return from the function without a marker is counted as one at the base, and so the line of
the marker behind it is accepted, with one `ARGS` and no other `FUNCTION` before it. -/
theorem lines_accepted_by_count_unmarked :
    bareReturns unmarkedProgram ((List.range 5).map unmarked) = 1 ∧
      Balanced unmarkedProgram ((List.range 5).map unmarked ++ [unmarked 5]) ∧
      (unmarked 5).depth = 1 ∧
      ∃ t, step unmarkedProgram (unmarked 5) = .ok (.function "g" 2 4) t ∧
        t.lineChanged = true ∧ t.current.line = 2 := by
  have hcourse : Course unmarkedProgram { lines := #["a", "b", "c", "d"] } {}
      ((List.range 5).map unmarked) (unmarked 5) := Course.start.after (List.replicate 5 .step)
  have hreturns : executions unmarkedProgram .ret ((List.range 5).map unmarked) = 1 := rfl
  have hfunctions : executions unmarkedProgram .function ((List.range 5).map unmarked) = 0 := rfl
  have hbare : bareReturns unmarkedProgram ((List.range 5).map unmarked) = 1 := rfl
  have hbalanced : Balanced unmarkedProgram ((List.range 5).map unmarked ++ [unmarked 5]) := by
    rfl
  obtain ⟨⟨-, -, hdepth⟩, hmarked, -⟩ := lines_accepted_by_count hcourse
  obtain ⟨t, hstep, hchanged, hline⟩ := hmarked (.function "g" 2 4) 2 rfl rfl (by decide)
  rw [hreturns, hfunctions, hbare] at hdepth
  rw [if_pos hbalanced] at hline
  exact ⟨hbare, hbalanced, by omega, t, hstep, by rw [hchanged]; simp [hbalanced], hline⟩

end Session

end XBytecode
