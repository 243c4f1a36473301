import XBytecode.Proofs.Log

/-!
# Taking the log loses nothing

An operation that is not about the log does the same with more in the log before, and leaves that
there (`IgnoresLog`). The log that is left when some of it has been taken is therefore the end of
the one that there would be otherwise, and what was taken is the rest of it (`transcript_eq_log`).
-/

namespace XBytecode.Session

open EStateM (Result modify_apply get_bind_apply bind_of_ok bind_of_error)

variable {p : Program}

/-- The session with more in its log before. -/
def prepend (earlier : String) (s : Session) : Session :=
  { s with log := earlier ++ s.log }

/-- Changing the innermost activation does not look at the log. -/
theorem updateCurrent_prepend (f : Activation → Activation) (earlier : String) (s : Session) :
    (s.prepend earlier).updateCurrent f = (s.updateCurrent f).prepend earlier := by
  unfold updateCurrent
  cases h : s.calls.back? with
  | some a => simp only [prepend, h]
  | none => simp only [prepend, h]

/-- Logging does not look at what has been logged before. -/
theorem trace_prepend (entry : String) (earlier : String) (s : Session) :
    (s.prepend earlier).trace entry = (s.trace entry).prepend earlier := by
  have htracing : (s.prepend earlier).tracing = s.tracing := rfl
  unfold trace
  rw [htracing]
  split
  · simp only [prepend, String.append_assoc]
    rfl
  · rfl

/-- Reaching a line does not look at the log. -/
theorem reachLine_prepend (line : Int32) (earlier : String) (s : Session) :
    (s.prepend earlier).reachLine line = (s.reachLine line).prepend earlier := by
  have hinStep : (s.prepend earlier).inStep = s.inStep := rfl
  unfold reachLine
  rw [hinStep, updateCurrent_prepend]
  split <;> rfl

/-- The action does the same with more in the log before, and leaves it there. -/
def IgnoresLog {α : Type} (act : Act α) : Prop :=
  ∀ earlier s, act (s.prepend earlier) = (act s).mapState (prepend earlier)

/-- Actions that ignore the log can be put one behind the other. -/
theorem IgnoresLog.bind {α β : Type} {act : Act α} {next : α → Act β} (hact : IgnoresLog act)
    (hnext : ∀ a, IgnoresLog (next a)) : IgnoresLog (act >>= next) := by
  intro earlier s
  have hfirst := hact earlier s
  cases h : act s with
  | ok a t =>
    rw [h, Result.mapState_ok] at hfirst
    rw [bind_of_ok h, bind_of_ok hfirst, hnext a]
  | error e t =>
    rw [h, Result.mapState_error] at hfirst
    rw [bind_of_error h, bind_of_error hfirst, Result.mapState_error]

/-- Doing nothing ignores the log. -/
theorem ignoresLog_pure {α : Type} (a : α) : IgnoresLog (pure a) :=
  fun _ _ => rfl

/-- What the machine does ignores the log. -/
theorem ignoresLog_onMachine {α : Type} (act : Machine.Act α) : IgnoresLog (onMachine act) := by
  intro earlier s
  have hmachine : (s.prepend earlier).machine = s.machine := rfl
  unfold onMachine
  rw [hmachine]
  cases act s.machine <;> rfl

/-- Following an instruction ignores the log. -/
theorem ignoresLog_follow (address : Nat) (instr : Instruction) :
    IgnoresLog (follow address instr) := by
  intro earlier s
  have hcurrent : (s.prepend earlier).current = s.current := rfl
  cases instr with
  | lit value name =>
    cases name with
    | none => rfl
    | some name =>
      rw [follow, modify_apply, modify_apply, declare, updateCurrent_prepend]
      rfl
  | pop count =>
    simp only [follow, retract, hcurrent, updateCurrent_prepend]
    split <;> rfl
  | formal name offset =>
    rw [follow, modify_apply, modify_apply, declare, updateCurrent_prepend]
    rfl
  | function name first last =>
    rw [follow, modify_apply, modify_apply, enterFunction, enterFunction, Result.mapState_ok,
      ← trace_prepend, ← reachLine_prepend]
    rfl
  | line number =>
    rw [follow, modify_apply, modify_apply, reachLine_prepend]
    rfl
  | ret name =>
    rw [follow, modify_apply, modify_apply, exitFunction, trace_prepend]
    rfl
  | _ => rfl

/-- A step ignores the log. -/
theorem ignoresLog_step (p : Program) : IgnoresLog (step p) := by
  have haddress : IgnoresLog nextAddress := fun _ _ => rfl
  have hlast : ∀ instr, IgnoresLog (modify fun s : Session => { s with last := some instr }) :=
    fun _ _ _ => rfl
  exact haddress.bind fun address => (ignoresLog_onMachine _).bind fun instr =>
    (hlast instr).bind fun _ => (ignoresLog_follow address instr).bind fun _ => ignoresLog_pure _

/-- Going on in a mode ignores the log. -/
theorem ignoresLog_proceed (p : Program) (mode : Mode) (depth fuel : Nat) :
    IgnoresLog (proceed p mode depth fuel) := by
  induction fuel with
  | zero => exact ignoresLog_pure _
  | succ fuel ih =>
    intro earlier s
    have hrunning : (s.prepend earlier).machine.running = s.machine.running := rfl
    have hgoes : (s.prepend earlier).goesOn mode depth = s.goesOn mode depth := rfl
    have hsettled : (s.prepend earlier).settled = s.settled.prepend earlier := rfl
    have hround := (ignoresLog_step p).bind (fun _ => ih) earlier s.settled
    rw [proceed_succ, proceed_succ, hrunning, hgoes, hsettled, hround]
    split
    · split <;> rfl
    · rfl

/-- Changing the source ignores the log. -/
theorem ignoresLog_changeSource (change : Source → Except Source.Error Source) :
    IgnoresLog fun s =>
      match change s.source with
      | .ok source => .ok () { s with source }
      | .error e => .error (.source e) s := by
  intro earlier s
  have hsource : (s.prepend earlier).source = s.source := rfl
  simp only [hsource]
  cases change s.source <;> rfl

/-- An operation that is not about the log ignores it. -/
theorem Operation.ignoresLog_perform (p : Program) {op : Operation}
    (htracing : ∀ on, op ≠ .setTracing on) (htake : op ≠ .takeLog) :
    IgnoresLog (op.perform p) := by
  cases op with
  | step => exact (ignoresLog_step p).bind fun _ => ignoresLog_pure _
  | run mode fuel =>
    intro earlier s
    exact ((ignoresLog_proceed p mode s.depth fuel).bind fun _ => ignoresLog_pure _) earlier s
  | setTracing on => exact absurd rfl (htracing on)
  | takeLog => exact absurd rfl htake
  | setBreakpoint line =>
    exact (ignoresLog_changeSource (·.setBreakpoint line)).bind fun _ => ignoresLog_pure _
  | clearBreakpoint line =>
    exact (ignoresLog_changeSource (·.clearBreakpoint line)).bind fun _ => ignoresLog_pure _
  | valueOf name =>
    intro earlier s
    have hvalue : (s.prepend earlier).valueOf name = s.valueOf name := rfl
    rw [perform, get_bind_apply, get_bind_apply, hvalue]
    cases s.valueOf name <;> rfl
  | listVariables => exact fun _ _ => rfl

/-- Operations that are not about the log leave what was in it before. -/
theorem after_prepend {ops : List Operation}
    (h : ∀ op ∈ ops, (∀ on, op ≠ .setTracing on) ∧ op ≠ .takeLog) (earlier : String)
    (s : Session) : after p ops (s.prepend earlier) = (after p ops s).prepend earlier := by
  induction ops generalizing s with
  | nil => rfl
  | cons op ops ih =>
    obtain ⟨hop, hrest⟩ := List.forall_mem_cons.mp h
    rw [after, op.ignoresLog_perform p hop.1 hop.2 earlier s, Result.state_mapState, ih hrest]
    rfl

/-- All that is logged is in the log if it is never taken. -/
theorem transcript_eq_log {ops : List Operation} (hops : ∀ op ∈ ops, ∀ on, op ≠ .setTracing on)
    (s : Session) : transcript p ops s = (after p (ops.filter (· ≠ .takeLog)) s).log := by
  induction ops generalizing s with
  | nil => simp [transcript, drained, answers, after]
  | cons op ops ih =>
    obtain ⟨hop, hrest⟩ := List.forall_mem_cons.mp hops
    by_cases htake : op = .takeLog
    · subst htake
      have hkept : ∀ op ∈ ops.filter (· ≠ .takeLog),
          (∀ on, op ≠ .setTracing on) ∧ op ≠ .takeLog := by
        intro op hmem
        obtain ⟨hmem, hne⟩ := List.mem_filter.mp hmem
        exact ⟨hrest op hmem, of_decide_eq_true hne⟩
      have hearlier : s = prepend s.log { s with log := "" } := by
        simp [prepend]
      rw [transcript_takeLog, ih hrest, List.filter_cons_of_neg (by simp)]
      conv_rhs => rw [hearlier, after_prepend hkept]
      rfl
    · rw [transcript_cons p ops s htake, ih hrest, List.filter_cons_of_pos (by simp [htake])]
      rfl

end XBytecode.Session
