import XBytecode.Proofs.LineChange

/-!
# Where a session pauses

The uninterrupted run of a session executes one instruction after the other while its machine runs
(`Trail`). A debugger that calls a mode again and again sees the states in which the calls pause
(`Pauses`). For the modes that go on to the next breakpoint and to the next line, these are the
states of the uninterrupted run in which a line is reached that has a breakpoint, or any line at
all: in the same order, each once, and none is missed (`PausesExactly`). The calls end where the
uninterrupted run ends.

Whether a line was reached is noted in a flag that outlives a call. While a call is under way the
flag is set exactly if the last instruction reached a line (`step_flag_of_ok`), and a call that
pauses takes it back. What a call has still to report on is therefore the line reached last, if the
mode pauses there (`pending`).
-/

namespace XBytecode.Session

open EStateM (bind_of_ok bind_of_error)

/-- `Trail p s trail t`: instructions are executed one after the other from `s` to `t`, as long as
the machine runs. The trail lists each instruction with the state behind it. -/
inductive Trail (p : Program) : Session → List (Instruction × Session) → Session → Prop where
  /-- Nothing is executed. -/
  | nil {s : Session} : Trail p s [] s
  /-- An instruction is executed before the others. -/
  | cons {s t u : Session} {instr : Instruction} {trail : List (Instruction × Session)}
    (hrunning : s.machine.running = true) (hstep : step p s = .ok instr t)
    (hrest : Trail p t trail u) : Trail p s ((instr, t) :: trail) u

/-- The states of a trail in which a line is reached, as far as they are chosen, in order. That the
line was reached has been noticed. -/
def linesReached (chosen : Session → Bool) (trail : List (Instruction × Session)) :
    List Session :=
  (trail.filter fun entry => reached entry.1 entry.2 && chosen entry.2).map fun entry =>
    entry.2.settled

/-- A call of a mode ends with a result, when it may execute as many instructions as it takes. -/
def Returns (p : Program) (mode : Mode) (s : Session) (r : EStateM.Result Error Session Stop) :
    Prop :=
  ∃ fuel, runMode p fuel mode s = r ∧ ∀ t, r ≠ .ok .outOfFuel t

/-- `Pauses p mode s states t`: calls of a mode, one after the other from `s` to `t`, all pause, in
the states listed. -/
inductive Pauses (p : Program) (mode : Mode) : Session → List Session → Session → Prop where
  /-- There is no call. -/
  | nil {s : Session} : Pauses p mode s [] s
  /-- A call pauses before the others. -/
  | cons {s t u : Session} {states : List Session} (hcall : Returns p mode s (.ok .paused t))
    (hrest : Pauses p mode t states u) : Pauses p mode s (t :: states) u

/-- Calls of a mode pause in the chosen states of the uninterrupted run in which a line is reached,
and end where the uninterrupted run ends. -/
structure PausesExactly (p : Program) (mode : Mode) (chosen : Session → Bool) (s : Session) :
    Prop where
  /-- The calls pause in these states, in order, and in no other ones. -/
  paused : ∀ states, (∃ u, Pauses p mode s states u) ↔
    ∃ trail v, Trail p s trail v ∧ linesReached chosen trail = states
  /-- The last call finishes exactly if the uninterrupted run stops. -/
  finished : ∀ states t,
    (∃ u, Pauses p mode s states u ∧ Returns p mode u (.ok .finished t)) ↔
      ∃ trail v, Trail p s trail v ∧ linesReached chosen trail = states ∧
        v.machine.running = false ∧ t = v.settled
  /-- The last call fails exactly if the uninterrupted run does, with the same error. -/
  failed : ∀ states e t,
    (∃ u, Pauses p mode s states u ∧ Returns p mode u (.error e t)) ↔
      ∃ trail v w, Trail p s trail v ∧ linesReached chosen trail = states ∧
        v.machine.running = true ∧ step p v = .error e w ∧ t = w.settled

/-! ## Trails -/

section Trails

variable {p : Program} {s t u : Session} {trail rest : List (Instruction × Session)}

/-- A trail can be taken up where another one ends. -/
theorem Trail.append (h : Trail p s trail t) (hrest : Trail p t rest u) :
    Trail p s (trail ++ rest) u := by
  induction h with
  | nil => exact hrest
  | cons hrunning hstep _ ih => exact .cons hrunning hstep (ih hrest)

/-- The source and its breakpoints are the same along a trail. -/
theorem Trail.source (h : Trail p s trail t) : ∀ entry ∈ trail, entry.2.source = s.source := by
  induction h with
  | nil => simp
  | cons hrunning hstep _ ih =>
    have hsource := source_of_step hstep
    intro entry hentry
    rcases List.mem_cons.mp hentry with rfl | hentry
    · exact hsource
    · rw [ih entry hentry, hsource]

/-- The state that a call has still to report on, if a line was reached there as `b` says. -/
def pending (chosen : Session → Bool) (b : Bool) (s : Session) : List Session :=
  if b && chosen s then [s.settled] else []

/-- The first instruction of a trail comes before the rest. -/
theorem linesReached_cons (chosen : Session → Bool) (instr : Instruction) (s : Session)
    (trail : List (Instruction × Session)) :
    linesReached chosen ((instr, s) :: trail) =
      pending chosen (reached instr s) s ++ linesReached chosen trail := by
  unfold linesReached pending
  cases h : reached instr s && chosen s with
  | true => simp [h]
  | false => simp [h]

/-- The lines of a trail come before those of a trail taken up where it ends. -/
theorem linesReached_append (chosen : Session → Bool)
    (trail rest : List (Instruction × Session)) :
    linesReached chosen (trail ++ rest) =
      linesReached chosen trail ++ linesReached chosen rest := by
  simp [linesReached]

end Trails

/-! ## One call

From here on the mode pauses in the chosen states in which a line was reached, whatever the number
of activations at the start of the call, and the choice does not depend on the flag. -/

section Calls

variable {p : Program} {mode : Mode} {chosen : Session → Bool}
  (hgoes : ∀ depth s, s.goesOn mode depth = !(s.lineChanged && chosen s))
  (hchosen : ∀ b s, chosen (s.flag b) = chosen s)

/-- How a call ends that comes to `v`, with the states that it reports on. -/
inductive EndsAt (p : Program) : EStateM.Result Error Session Stop → List Session → Session → Prop
    where
  /-- The call pauses and reports on the state. -/
  | paused {v : Session} : EndsAt p (.ok .paused v.settled) [v.settled] v
  /-- The machine has stopped. -/
  | finished {v : Session} (hstopped : v.machine.running = false) :
    EndsAt p (.ok .finished v.settled) [] v
  /-- The next instruction fails. -/
  | failed {v w : Session} {e : Error} (hrunning : v.machine.running = true)
    (hstep : step p v = .error e w) : EndsAt p (.error e w.settled) [] v

/-- The loop finishes at once where the machine has stopped. -/
theorem proceed_of_stopped {depth fuel : Nat} {s : Session} (hstopped : s.machine.running = false) :
    proceed p mode depth (fuel + 1) s = .ok .finished s := by
  rw [proceed_succ, hstopped]
  rfl

include hgoes in
/-- The number of activations at the start of a call makes no difference. -/
theorem proceed_depth (depth depth' fuel : Nat) :
    proceed p mode depth fuel = proceed p mode depth' fuel := by
  induction fuel with
  | zero => rfl
  | succ fuel ih =>
    funext s
    rw [proceed_succ, proceed_succ, hgoes, hgoes, ih]

include hgoes hchosen

section Rounds

variable {depth fuel : Nat} {s t : Session} {b : Bool} {instr : Instruction} {e : Error}
  (hrunning : s.machine.running = true)
include hrunning

/-- The loop pauses where a line was reached that is chosen. -/
theorem proceed_of_pause (hpause : (b && chosen s) = true) :
    proceed p mode depth (fuel + 1) (s.flag b) = .ok .paused s.settled := by
  rw [proceed_succ, flag_machine, if_pos hrunning, hgoes, hchosen, flag_lineChanged, hpause]
  rfl

/-- Anywhere else the loop executes an instruction. -/
theorem proceed_of_go (hgo : (b && chosen s) = false) :
    proceed p mode depth (fuel + 1) (s.flag b) =
      (step p >>= fun _ => proceed p mode depth fuel) s.settled := by
  rw [proceed_succ, flag_machine, if_pos hrunning, hgoes, hchosen, flag_lineChanged, hgo]
  rfl

/-- The loop fails with the instruction. -/
theorem proceed_of_error (hgo : (b && chosen s) = false) (hstep : step p s = .error e t) :
    proceed p mode depth (fuel + 1) (s.flag b) = .error e t.settled := by
  rw [proceed_of_go hgoes hchosen hrunning hgo]
  exact bind_of_error (step_flag_of_error hstep false) _

/-- Behind an instruction the loop goes on, and the flag tells whether it reached a line. -/
theorem proceed_of_ok (hgo : (b && chosen s) = false) (hstep : step p s = .ok instr t) :
    proceed p mode depth (fuel + 1) (s.flag b) =
      proceed p mode depth fuel (t.flag (reached instr t)) := by
  rw [proceed_of_go hgoes hchosen hrunning hgo]
  exact bind_of_ok (step_flag_of_ok hstep false) _

end Rounds

/-! ## What the calls report on lies on the trail -/

/-- A call that has noticed all lines reached before, or stands at one, ends where a trail leads,
and reports on the lines of the trail. -/
theorem endsAt_of_proceed {depth fuel : Nat} {s : Session} {b : Bool}
    {r : EStateM.Result Error Session Stop} (hb : b = true → s.machine.running = true)
    (h : proceed p mode depth fuel (s.flag b) = r) (hr : ∀ t, r ≠ .ok .outOfFuel t) :
    ∃ trail v, Trail p s trail v ∧
      EndsAt p r (pending chosen b s ++ linesReached chosen trail) v := by
  induction fuel generalizing s b with
  | zero => exact absurd h.symm (hr _)
  | succ fuel ih =>
    cases hrunning : s.machine.running with
    | false =>
      -- A machine that has stopped has left no line to report on.
      have hquiet : b = false := by
        cases b with
        | true => rw [hb rfl] at hrunning; cases hrunning
        | false => rfl
      rw [proceed_of_stopped (s := s.flag b) hrunning] at h
      subst h hquiet
      exact ⟨[], s, .nil, .finished hrunning⟩
    | true =>
      cases hpause : b && chosen s with
      | true =>
        rw [proceed_of_pause hgoes hchosen hrunning hpause] at h
        subst h
        refine ⟨[], s, .nil, ?_⟩
        rw [pending, hpause]
        exact .paused
      | false =>
        have hpending : pending chosen b s = [] := by
          rw [pending, hpause]
          rfl
        cases hstep : step p s with
        | error e w =>
          rw [proceed_of_error hgoes hchosen hrunning hpause hstep] at h
          subst h
          refine ⟨[], s, .nil, ?_⟩
          rw [hpending]
          exact .failed hrunning hstep
        | ok instr t =>
          rw [proceed_of_ok hgoes hchosen hrunning hpause hstep] at h
          -- The flag is set only behind a marker, so the machine still runs where it is.
          obtain ⟨trail, v, htrail, hend⟩ := ih (running_of_reached hstep hrunning) h
          refine ⟨(instr, t) :: trail, v, .cons hrunning hstep htrail, ?_⟩
          rwa [linesReached_cons, hpending, List.nil_append]

/-- A call from a state in which no line waits to be noticed ends where a trail leads. -/
theorem endsAt_of_returns {s : Session} {r : EStateM.Result Error Session Stop}
    (h : Returns p mode s.settled r) :
    ∃ trail v, Trail p s trail v ∧ EndsAt p r (linesReached chosen trail) v := by
  obtain ⟨fuel, hrun, hr⟩ := h
  rw [runMode_apply] at hrun
  exact endsAt_of_proceed (b := false) hgoes hchosen (by simp) hrun hr

/-- Calls that all pause follow a trail and report on the lines of it. -/
theorem trail_of_pauses {s u : Session} {states : List Session}
    (h : Pauses p mode s.settled states u) :
    ∃ trail v, Trail p s trail v ∧ linesReached chosen trail = states ∧ u = v.settled := by
  generalize hs : s.settled = s' at h
  induction h generalizing s with
  | nil => exact ⟨[], s, .nil, rfl, hs.symm⟩
  | cons hcall _ ih =>
    subst hs
    obtain ⟨trail, v, htrail, hend⟩ := endsAt_of_returns hgoes hchosen hcall
    generalize hfirst : linesReached chosen trail = first at hend
    cases hend
    obtain ⟨rest, w, hrest, hlines, hu⟩ := ih rfl
    refine ⟨trail ++ rest, w, htrail.append hrest, ?_, hu⟩
    rw [linesReached_append, hfirst, hlines, List.singleton_append]

/-- The call behind those that pause goes on along the trail. -/
theorem trail_of_returns {s u : Session} {states : List Session}
    {r : EStateM.Result Error Session Stop} (h : Pauses p mode s.settled states u)
    (hr : Returns p mode u r) :
    ∃ trail v last, Trail p s trail v ∧ linesReached chosen trail = states ++ last ∧
      EndsAt p r last v := by
  obtain ⟨trail, v, htrail, hlines, rfl⟩ := trail_of_pauses hgoes hchosen h
  obtain ⟨rest, w, hrest, hend⟩ := endsAt_of_returns hgoes hchosen hr
  exact ⟨trail ++ rest, w, _, htrail.append hrest, by rw [linesReached_append, hlines], hend⟩

/-! ## No line of the trail is missed -/

omit hchosen in
/-- Two states from which the loop does the same, one of them perhaps a round later, give the same
result. -/
theorem returns_congr {s t : Session} {k : Nat} (hk : k ≤ 1)
    (h : ∀ fuel, proceed p mode 0 (fuel + 1) s = proceed p mode 0 (fuel + k) t)
    (r : EStateM.Result Error Session Stop) : Returns p mode s r ↔ Returns p mode t r := by
  constructor
  · rintro ⟨fuel, hrun, hr⟩
    rw [runMode_apply, proceed_depth hgoes _ 0] at hrun
    cases fuel with
    | zero => exact absurd hrun.symm (hr _)
    | succ fuel =>
      refine ⟨fuel + k, ?_, hr⟩
      rw [runMode_apply, proceed_depth hgoes _ 0, ← h, hrun]
  · rintro ⟨fuel, hrun, hr⟩
    rw [runMode_apply, proceed_depth hgoes _ 0] at hrun
    cases fuel with
    | zero => exact absurd hrun.symm (hr _)
    | succ fuel =>
      refine ⟨fuel + 1 - k + 1, ?_, hr⟩
      have hfuel : fuel + 1 - k + k = fuel + 1 := by omega
      rw [runMode_apply, proceed_depth hgoes _ 0, h, hfuel, hrun]

omit hgoes hchosen in
/-- Calls from `s` pause in the states listed, and the one behind them comes to `v`: it ends as a
call from there does. -/
def PausesTo (p : Program) (mode : Mode) (s : Session) (states : List Session) (v : Session) :
    Prop :=
  ∃ u, Pauses p mode s states u ∧ ∀ r, Returns p mode u r ↔ Returns p mode v r

omit hgoes hchosen in
/-- A call under way can be taken up where it has come to. -/
theorem PausesTo.trans {s t v : Session} {states rest : List Session}
    (h : PausesTo p mode s states t) (hrest : PausesTo p mode t rest v) :
    PausesTo p mode s (states ++ rest) v := by
  obtain ⟨u, hpauses, hu⟩ := h
  -- The last of the first calls and the first of the other ones are the same call.
  induction hpauses with
  | nil =>
    obtain ⟨w, hpauses, hw⟩ := hrest
    cases hpauses with
    | nil => exact ⟨_, .nil, fun r => (hu r).trans (hw r)⟩
    | cons hcall hnext => exact ⟨w, .cons ((hu _).mpr hcall) hnext, hw⟩
  | cons hcall _ ih =>
    obtain ⟨w, hnext, hw⟩ := ih hu
    exact ⟨w, .cons hcall hnext, hw⟩

/-- A line that was reached is reported on, if it is chosen, and noticed in any case. -/
theorem pausesTo_settled {s : Session} {b : Bool} (hb : b = true → s.machine.running = true) :
    PausesTo p mode (s.flag b) (pending chosen b s) s.settled := by
  cases b with
  | false => exact ⟨s.settled, .nil, fun r => Iff.rfl⟩
  | true =>
    have hrunning := hb rfl
    unfold pending
    cases hpause : true && chosen s with
    | true =>
      have hcall : Returns p mode (s.flag true) (.ok .paused s.settled) :=
        ⟨1, proceed_of_pause hgoes hchosen hrunning hpause, by simp⟩
      exact ⟨s.settled, .cons hcall .nil, fun r => Iff.rfl⟩
    | false =>
      -- A line that is not chosen is passed in the same round.
      refine ⟨s.flag true, .nil, returns_congr hgoes (k := 1) (by omega) fun fuel => ?_⟩
      rw [proceed_of_go hgoes hchosen hrunning hpause]
      exact (proceed_of_go hgoes hchosen (b := false) hrunning rfl).symm

/-- A call that has noticed all lines reached before goes on behind the next instruction. -/
theorem pausesTo_of_step {s t : Session} {instr : Instruction}
    (hrunning : s.machine.running = true) (hstep : step p s = .ok instr t) :
    PausesTo p mode s.settled [] (t.flag (reached instr t)) :=
  ⟨s.settled, .nil, returns_congr hgoes (k := 0) (by omega) fun _ =>
    proceed_of_ok hgoes hchosen (b := false) hrunning rfl hstep⟩

/-- Calls report on every line of a trail and come to its end. -/
theorem pausesTo_of_trail {s v : Session} {trail : List (Instruction × Session)}
    (h : Trail p s trail v) {b : Bool} (hb : b = true → s.machine.running = true) :
    PausesTo p mode (s.flag b) (pending chosen b s ++ linesReached chosen trail) v.settled := by
  induction h generalizing b with
  | nil =>
    rw [show linesReached chosen [] = [] from rfl, List.append_nil]
    exact pausesTo_settled hgoes hchosen hb
  | @cons s t u instr trail hrunning hstep _ ih =>
    have hrest := ih (running_of_reached hstep hrunning)
    rw [linesReached_cons]
    -- The line reached before is dealt with, then the step is taken and then the rest follows.
    have hgo := (pausesTo_of_step hgoes hchosen hrunning hstep).trans hrest
    exact (pausesTo_settled hgoes hchosen hb).trans hgo

/-- A call ends at once at the end of the uninterrupted run. -/
theorem returns_of_endsAt {v : Session} {r : EStateM.Result Error Session Stop}
    (h : EndsAt p r [] v) : Returns p mode v.settled r := by
  cases h with
  | finished hstopped => exact ⟨1, proceed_of_stopped hstopped, by simp⟩
  | failed hrunning hstep =>
    exact ⟨1, proceed_of_error hgoes hchosen (b := false) hrunning rfl hstep, by simp⟩

/-- Where the uninterrupted run ends, so do the calls. -/
theorem returns_of_trail {s v : Session} {trail : List (Instruction × Session)}
    {r : EStateM.Result Error Session Stop} (h : Trail p s trail v) (hend : EndsAt p r [] v) :
    ∃ u, Pauses p mode s.settled (linesReached chosen trail) u ∧ Returns p mode u r := by
  obtain ⟨u, hpauses, hu⟩ := pausesTo_of_trail hgoes hchosen (b := false) h (by simp)
  exact ⟨u, hpauses, (hu r).mpr (returns_of_endsAt hgoes hchosen hend)⟩

/-- A mode that goes on except behind chosen lines pauses exactly in the states in which a chosen
line is reached. -/
theorem pausesExactly_of_goesOn (s : Session) : PausesExactly p mode chosen s.settled where
  paused states := by
    constructor
    · rintro ⟨u, hpauses⟩
      obtain ⟨trail, v, htrail, hlines, -⟩ :=
        trail_of_pauses (s := s.settled) hgoes hchosen hpauses
      exact ⟨trail, v, htrail, hlines⟩
    · rintro ⟨trail, v, htrail, rfl⟩
      obtain ⟨u, hpauses, -⟩ := pausesTo_of_trail hgoes hchosen (b := false) htrail (by simp)
      exact ⟨u, hpauses⟩
  finished states t := by
    constructor
    · rintro ⟨u, hpauses, hend⟩
      obtain ⟨trail, v, _, htrail, hlines, hend⟩ :=
        trail_of_returns (s := s.settled) hgoes hchosen hpauses hend
      cases hend with
      | finished hstopped =>
        rw [List.append_nil] at hlines
        exact ⟨trail, v, htrail, hlines, hstopped, rfl⟩
    · rintro ⟨trail, v, htrail, rfl, hstopped, rfl⟩
      exact returns_of_trail (s := s.settled) hgoes hchosen htrail (.finished hstopped)
  failed states e t := by
    constructor
    · rintro ⟨u, hpauses, hend⟩
      obtain ⟨trail, v, _, htrail, hlines, hend⟩ :=
        trail_of_returns (s := s.settled) hgoes hchosen hpauses hend
      cases hend with
      | @failed _ w _ hrunning hstep =>
        rw [List.append_nil] at hlines
        exact ⟨trail, v, w, htrail, hlines, hrunning, hstep, rfl⟩
    · rintro ⟨trail, v, w, htrail, rfl, hrunning, hstep, rfl⟩
      exact returns_of_trail (s := s.settled) hgoes hchosen htrail (.failed hrunning hstep)

end Calls

/-- Whether the current line of a session is one of those with a breakpoint. -/
def atBreakpoint (source : Source) (s : Session) : Bool :=
  source.breakpoints.toList.any fun n => s.current.line.toInt == n

/-- Before the next breakpoint is reached, a session goes on. -/
theorem goesOn_resume (depth : Nat) (s : Session) :
    s.goesOn .resume depth = !(s.lineChanged && s.atBreakpoint s.source) := by
  have hmem : s.source.hasBreakpoint s.current.line = s.atBreakpoint s.source := by
    rw [Bool.eq_iff_iff, Source.hasBreakpoint_iff, atBreakpoint, List.any_eq_true]
    simp only [beq_iff_eq]
  rw [← hmem]
  rfl

/-- Along a trail the breakpoints are those of the start. -/
theorem Trail.linesReached_atBreakpoint {p : Program} {s t : Session}
    {trail : List (Instruction × Session)} (h : Trail p s trail t) :
    linesReached (fun u => u.atBreakpoint u.source) trail =
      linesReached (atBreakpoint s.source) trail := by
  unfold linesReached
  congr 1
  apply List.filter_congr
  intro entry hentry
  simp only [h.source entry hentry]

/-- Whatever the program, the source with its breakpoints and the input: calls that go on to the
next breakpoint pause exactly in the states of the uninterrupted run in which a line with a
breakpoint is reached, and calls that go on to the next line exactly in those in which a line is
reached, in order and each once. -/
theorem pauses_once_per_line (p : Program) (source : Source) (channel : Channel) :
    PausesExactly p .resume (atBreakpoint source) (start source channel) ∧
      PausesExactly p .over (fun _ => true) (start source channel) := by
  constructor
  · have h : PausesExactly p .resume (fun s => s.atBreakpoint s.source) (start source channel) :=
      pausesExactly_of_goesOn goesOn_resume (fun _ _ => rfl) (start source channel)
    -- No step changes the breakpoints.
    have hlines {trail v} (htrail : Trail p (start source channel) trail v) :
        linesReached (fun s => s.atBreakpoint s.source) trail =
          linesReached (atBreakpoint source) trail := htrail.linesReached_atBreakpoint
    constructor
    · intro states
      exact (h.paused states).trans <| exists_congr fun trail => exists_congr fun v =>
        and_congr_right fun htrail => by rw [hlines htrail]
    · intro states t
      exact (h.finished states t).trans <| exists_congr fun trail => exists_congr fun v =>
        and_congr_right fun htrail => by rw [hlines htrail]
    · intro states e t
      exact (h.failed states e t).trans <| exists_congr fun trail => exists_congr fun v =>
        exists_congr fun w => and_congr_right fun htrail => by rw [hlines htrail]
  · exact pausesExactly_of_goesOn (fun _ s => by rw [goesOn, Bool.and_true]) (fun _ _ => rfl)
      (start source channel)

/-- A program with three lines. -/
def threeLines : Program :=
  { instructions := #[.function "main" 1 3, .line 2, .lit 0 (some "x"), .line 3, .halt]
    labels := ∅ }

/-- Its source, with a breakpoint on the last line but one. -/
def threeLinesSource : Source :=
  { lines := #["program \x7b", "int x", "\x7d"], breakpoints := {2} }

-- The first call passes by the line 1 and pauses, and the second one passes by the line 3.
example :
    let s := (runMode threeLines 3 .resume (start threeLinesSource {})).state
    let t := (runMode threeLines 4 .resume s).state
    Pauses threeLines .resume (start threeLinesSource {}) [s] s ∧ s.current.line = 2 ∧
      Returns threeLines .resume s (.ok .finished t) :=
  ⟨.cons ⟨3, rfl, by simp⟩ .nil, rfl, 4, rfl, by simp⟩

end XBytecode.Session
