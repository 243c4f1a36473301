import XBytecode.Proofs.Effect
import XBytecode.Proofs.SessionStep

/-!
# Reaching a line

An instruction reaches a line when it is a marker with a line of the source and the innermost
activation is that of the machine's active frame (`reached`). The session notes it with a flag that
it only sets while it executes instructions and that no instruction reads: sessions that differ in
the flag (`flag`) execute the same instructions, and behind one of them the flag is set exactly if
it was set before or the instruction reached a line (`step_flag_of_ok`).
-/

namespace XBytecode

open EStateM (modify_apply pure_apply bind_of_ok bind_of_error)

/-- Whether an instruction is the marker of a line of the source, or of a function that begins at
one. -/
def Instruction.marksLine : Instruction → Bool
  | .line number => 0 ≤ number
  | .function _ first _ => 0 ≤ first
  | _ => false

/-- The marker of a line leaves the machine running. -/
theorem Machine.running_of_marksLine {p : Program} {instr : Instruction} {m m' : Machine}
    (hstep : step p m = .ok instr m') (hmarks : instr.marksLine = true) :
    m'.running = m.running := by
  obtain ⟨-, m₁, heffect, hm'⟩ := effect_of_step hstep
  rw [hm']
  cases instr with
  | line number => cases heffect; rfl
  | function name first last => cases heffect; rfl
  | _ => cases hmarks

namespace Session

/-- Whether the instruction that led to a state reached a line there. -/
def reached (instr : Instruction) (t : Session) : Bool :=
  instr.marksLine && t.inStep

/-- The session with another note on whether a line was reached. -/
def flag (b : Bool) (s : Session) : Session :=
  { s with lineChanged := b }

/-- The flag is no part of the machine. -/
@[simp]
theorem flag_machine (b : Bool) (s : Session) : (s.flag b).machine = s.machine := rfl

/-- The flag is as it has been set. -/
@[simp]
theorem flag_lineChanged (b : Bool) (s : Session) : (s.flag b).lineChanged = b := rfl

/-! ## Following an instruction -/

/-- Changing the innermost activation does not look at the flag. -/
theorem updateCurrent_flag (f : Activation → Activation) (b : Bool) (s : Session) :
    (s.flag b).updateCurrent f = (s.updateCurrent f).flag b := by
  unfold updateCurrent
  cases h : s.calls.back? with
  | some a => simp only [flag, h]
  | none => simp only [flag, h]

/-- Logging does not look at the flag. -/
theorem trace_flag (entry : String) (b : Bool) (s : Session) :
    (s.flag b).trace entry = (s.trace entry).flag b := by
  unfold trace
  cases h : s.tracing with
  | true => simp only [flag, h, if_true]; rfl
  | false => simp only [flag, h, Bool.false_eq_true, if_false]

/-- Changing the innermost activation keeps it in step with the frames or out of it. -/
@[simp]
theorem updateCurrent_inStep (f : Activation → Activation) (s : Session) :
    (s.updateCurrent f).inStep = s.inStep := by
  cases h : s.calls.back? with
  | none => simp only [inStep, depth, updateCurrent, h]
  | some a =>
    obtain ⟨calls, hcalls⟩ := Array.back?_eq_some_iff.mp h
    simp [inStep, depth, updateCurrent, hcalls]

/-- Logging does not bring the activations out of step with the frames. -/
@[simp]
theorem trace_inStep (entry : String) (s : Session) : (s.trace entry).inStep = s.inStep := by
  unfold trace
  split <;> rfl

/-- Reaching a line does not bring the activations out of step with the frames. -/
@[simp]
theorem reachLine_inStep (line : Int32) (s : Session) : (s.reachLine line).inStep = s.inStep := by
  unfold reachLine
  split
  · exact updateCurrent_inStep _ s
  · rfl

/-- A line that is reached sets the flag, and nothing else changes it. -/
theorem reachLine_flag (line : Int32) (b : Bool) (s : Session) :
    (s.flag b).reachLine line = (s.reachLine line).flag (b || (0 ≤ line && s.inStep)) := by
  have hinStep : (s.flag b).inStep = s.inStep := rfl
  unfold reachLine
  rw [hinStep, updateCurrent_flag]
  cases decide (0 ≤ line) && s.inStep with
  | true => simp [flag]
  | false => simp

/-- Opening an activation sets the flag exactly if the function's first line is reached. -/
theorem enterFunction_flag (name : String) (first last : Int32) (b : Bool) (s : Session) :
    (s.flag b).enterFunction name first last =
      (s.enterFunction name first last).flag
        (b || (0 ≤ first && (s.enterFunction name first last).inStep)) := by
  -- The line is looked at when the activation is open, and the log does not change that.
  let opened : Session :=
    { s with calls := s.calls.push { name, first, last, line := s.current.line } }
  have hopened : (s.enterFunction name first last).inStep = opened.inStep := by
    rw [enterFunction, trace_inStep, reachLine_inStep]
  rw [hopened]
  unfold enterFunction
  rw [← trace_flag, ← reachLine_flag]
  rfl

/-- Closing an activation leaves the flag alone. -/
theorem exitFunction_flag (b : Bool) (s : Session) :
    (s.flag b).exitFunction = s.exitFunction.flag b := by
  have hcurrent : (s.flag b).current = s.current := rfl
  unfold exitFunction
  rw [hcurrent, trace_flag]
  rfl

/-- Following an instruction sets the flag exactly if the instruction reaches a line. -/
theorem follow_flag (address : Nat) (instr : Instruction) (b : Bool) (s : Session) :
    follow address instr (s.flag b) =
      (follow address instr s).mapState fun t => t.flag (b || reached instr t) := by
  cases instr with
  | lit value name =>
    cases name with
    | none => simp [follow, pure_apply, reached, Instruction.marksLine]
    | some name =>
      simp [follow, modify_apply, declare, updateCurrent_flag, reached, Instruction.marksLine]
  | pop count =>
    have hcurrent : (s.flag b).current = s.current := rfl
    simp only [follow, retract, hcurrent]
    split <;> simp [updateCurrent_flag, reached, Instruction.marksLine]
  | formal name offset =>
    simp [follow, modify_apply, declare, updateCurrent_flag, reached, Instruction.marksLine]
  -- Only the two markers touch the flag.
  | function name first last =>
    simp [follow, modify_apply, enterFunction_flag, reached, Instruction.marksLine]
  | line number =>
    simp [follow, modify_apply, reachLine_flag, reached, Instruction.marksLine]
  | ret name =>
    simp [follow, modify_apply, exitFunction_flag, reached, Instruction.marksLine]
  | _ => simp [follow, pure_apply, reached, Instruction.marksLine]

/-! ## One step -/

section Step

variable {p : Program} {s t : Session} {instr : Instruction} {e : Error}

/-- A step that succeeds does so whatever the flag is, and sets it exactly if it reaches a line. -/
theorem step_flag_of_ok (h : step p s = .ok instr t) (b : Bool) :
    step p (s.flag b) = .ok instr (t.flag (b || reached instr t)) := by
  obtain ⟨m, hm, hfollow⟩ := step_eq_ok.mp h
  refine step_eq_ok.mpr ⟨m, hm, ?_⟩
  have hflag := follow_flag s.machine.pc instr b { s with machine := m, last := some instr }
  rw [hfollow, EStateM.Result.mapState_ok] at hflag
  exact hflag

/-- A step that fails does so whatever the flag is, and leaves it alone. -/
theorem step_flag_of_error (h : step p s = .error e t) (b : Bool) :
    step p (s.flag b) = .error e (t.flag b) := by
  cases hm : Machine.step p s.machine with
  | error f m =>
    rw [step_of_fault hm] at h
    cases h
    exact step_of_fault hm
  | ok performed m =>
    rw [step_of_ok hm] at h
    have hstep : step p (s.flag b) = _ := step_of_ok hm
    rw [hstep]
    have hflag := follow_flag s.machine.pc performed b
      { s with machine := m, last := some performed }
    cases hfollow : follow s.machine.pc performed
        { s with machine := m, last := some performed } with
    | ok _ u => rw [bind_of_ok hfollow] at h; cases h
    | error e' u =>
      rw [bind_of_error hfollow] at h
      cases h
      obtain ⟨n, rfl, -⟩ := follow_eq_error.mp hfollow
      rw [hfollow, EStateM.Result.mapState_error] at hflag
      -- Only a `POP` cannot be followed, and it reaches no line.
      simp only [reached, Instruction.marksLine, Bool.false_and, Bool.or_false] at hflag
      exact bind_of_error hflag _

/-- A machine that runs still does so behind a step that reaches a line. -/
theorem running_of_reached (h : step p s = .ok instr t) (hrunning : s.machine.running = true)
    (hreached : reached instr t = true) : t.machine.running = true := by
  obtain ⟨m, hm, -⟩ := step_eq_ok.mp h
  have hmachine := step_machine p s
  rw [h, hm, EStateM.Result.state_ok, EStateM.Result.state_ok] at hmachine
  rw [hmachine, Machine.running_of_marksLine hm (Bool.and_eq_true_iff.mp hreached).1, hrunning]

end Step

end Session

end XBytecode
