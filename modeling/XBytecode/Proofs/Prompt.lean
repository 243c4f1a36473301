import XBytecode.Console.Basic
import XBytecode.Proofs.Halting

/-!
# One round of a conversation

At a prompt the console reads a line of the input that is left (`heard`), and what becomes of the
conversation depends on the line: it is over, or the line is answered and the console prompts again.
`Turn` lists what a round can do when the output device works, one rule for each kind of line, and
`turn_cases` says that this is all. A line that is no command and a command that executes no
instructions are answered without a failure and leave the machine alone, but for the output
(`Shows`). That holds of breakpoints that are refused too: the source behind the command is the one
with the accepted lines changed (`Command.settle`).
-/

namespace XBytecode

open EStateM (Result bind_of_ok bind_of_error get_bind_apply)

/-- The source behind a request to change the breakpoint of a line. A request that is refused
changes nothing. -/
def Source.changed (change : Source → Nat → Except Source.Error Source) (source : Source)
    (line : Nat) : Source :=
  (change source line).toOption.getD source

namespace Session

/-! ## Output -/

/-- The session once a text has been written and passed on. -/
def shown (text : String) (s : Session) : Session :=
  { s with
    machine.channel.written := s.machine.channel.written ++ text
    machine.channel.requests := .flush :: .write text :: s.machine.channel.requests }

/-- The second session is the first one with more output. -/
def Shows (s t : Session) : Prop :=
  ∃ text requests, t =
    { s with
      machine.channel.written := s.machine.channel.written ++ text
      machine.channel.requests := requests }

variable {s t u : Session}

/-- An action that does nothing shows nothing. -/
theorem Shows.refl (s : Session) : Shows s s :=
  ⟨"", s.machine.channel.requests, by rw [String.append_empty]⟩

/-- Showing twice is showing. -/
theorem Shows.trans (h : Shows s t) (h' : Shows t u) : Shows s u := by
  obtain ⟨text, requests, rfl⟩ := h
  obtain ⟨text', requests', rfl⟩ := h'
  exact ⟨text ++ text', requests', by simp [String.append_assoc]⟩

/-- Showing a text does no more than that. -/
theorem shows_shown (text : String) (s : Session) : Shows s (s.shown text) :=
  ⟨text, _, rfl⟩

/-- Showing leaves the device as it is. -/
theorem Shows.device (h : Shows s t) : t.machine.channel.device = s.machine.channel.device := by
  obtain ⟨_, _, rfl⟩ := h
  rfl

/-- Showing does not stop the machine. -/
theorem Shows.running (h : Shows s t) : t.machine.running = s.machine.running := by
  obtain ⟨_, _, rfl⟩ := h
  rfl

/-- Output does not get in the way of another source. -/
theorem Shows.withSource (h : Shows s t) (source : Source) :
    Shows { s with source } { t with source } := by
  obtain ⟨text, requests, rfl⟩ := h
  exact ⟨text, requests, rfl⟩

end Session

namespace Console

open Session (Shows shows_shown)

variable {p : Program} {fuel : Nat} {mode : Session.Mode} {s t : Session}

/-- What is written on a device that works is shown. -/
theorem print_of_works (h : s.machine.channel.device.Works) (text : String) :
    print text s = .ok () (s.shown text) := by
  have hwrite := Channel.write_of_works h text
  have hflush := Channel.flush_of_works
    (c := { s.machine.channel with
      written := s.machine.channel.written ++ text
      requests := .write text :: s.machine.channel.requests }) h
  simp only [print, onChannel, bind, EStateM.bind, hwrite, hflush]
  rfl

/-! ## What is read -/

/-- What is read at a prompt. -/
inductive Heard where
  /-- The input is at its end. -/
  | nothing
  /-- The line is not UTF-8 text. -/
  | garbled
  /-- The line is no command. -/
  | invalid (e : InvalidCommand)
  /-- The line is a command. -/
  | command (c : Command)
  deriving DecidableEq, Repr

/-- What is read at a prompt in this state of the session. -/
def heard (s : Session) : Heard :=
  if s.machine.channel.input.isEmpty then .nothing
  else
    match String.fromUTF8? (ByteArray.mk (Channel.cutLine s.machine.channel.input).1.toArray) with
    | none => .garbled
    | some text =>
      match Command.parse (Channel.stripEnd text) with
      | .ok c => .command c
      | .error e => .invalid e

/-- The session once the prompt is shown and the line is read. -/
def asked (s : Session) : Session :=
  { s.shown promptText with
    machine.channel.input := (Channel.cutLine s.machine.channel.input).2 }

/-- One round of a conversation: the prompt, and the line read there. It gives how the line ends the
conversation, if it does. -/
def turn (p : Program) (fuel : Nat) : Act (Option Ending) := do
  print promptText
  match ← onChannel Channel.readLine with
  | none =>
    modify Session.halt
    return some .inputClosed
  | some line =>
    match Command.parse line with
    | .ok .quit =>
      modify Session.halt
      return some .quit
    | .ok command =>
      execute p fuel command
      return none
    | .error e =>
      print ("error: " ++ e.message ++ "\n\n")
      return none

/-- A conversation is a sequence of rounds. -/
theorem converse_succ (p : Program) (fuel count : Nat) (s : Session) :
    converse p fuel (count + 1) s =
      if s.machine.running then
        (turn p fuel >>= fun ending? =>
          match ending? with
          | some ending => pure ending
          | none => converse p fuel count) s
      else .ok .finished s := by
  rw [converse, get_bind_apply]
  split
  · simp only [turn, bind_assoc]
    refine congrFun (bind_congr fun _ => bind_congr fun line => ?_) s
    cases line with
    | none => rfl
    | some line =>
      cases hparse : Command.parse line with
      | error e => simp only [hparse, bind_assoc, pure_bind]
      | ok c => cases c <;> simp only [hparse, bind_assoc, pure_bind]
  · rfl

/-- What the console reads behind the prompt. -/
theorem readLine_shown (s : Session) :
    onChannel Channel.readLine (s.shown promptText) =
      if s.machine.channel.input.isEmpty then .ok none (asked s)
      else
        match String.fromUTF8?
          (ByteArray.mk (Channel.cutLine s.machine.channel.input).1.toArray) with
        | some text => .ok (some (Channel.stripEnd text)) (asked s)
        | none => .error (.device .notText) (asked s) := by
  have hinput : (s.shown promptText).machine.channel.input = s.machine.channel.input := rfl
  rw [onChannel, Channel.readLine, hinput]
  by_cases hempty : s.machine.channel.input.isEmpty = true
  · -- Nothing is left, and nothing is cut off.
    have hcut : (Channel.cutLine s.machine.channel.input).2 = s.machine.channel.input := by
      rw [List.isEmpty_iff.mp hempty]
      rfl
    rw [if_pos hempty, if_pos hempty, asked, hcut]
    rfl
  · rw [if_neg hempty, if_neg hempty]
    simp only
    cases String.fromUTF8?
      (ByteArray.mk (Channel.cutLine s.machine.channel.input).1.toArray) <;> rfl

/-- A round on a device that works, by what is read. -/
theorem turn_of_works (p : Program) (fuel : Nat) (h : s.machine.channel.device.Works) :
    turn p fuel s =
      match heard s with
      | .nothing => .ok (some .inputClosed) (asked s).halt
      | .garbled => .error (.device .notText) (asked s)
      | .invalid e => .ok none ((asked s).shown ("error: " ++ e.message ++ "\n\n"))
      | .command c =>
        if c = .quit then .ok (some .quit) (asked s).halt
        else (execute p fuel c >>= fun _ => pure none) (asked s) := by
  have hasked : (asked s).machine.channel.device.Works := h
  have hread := readLine_shown s
  rw [turn, bind_of_ok (print_of_works h promptText), heard]
  split at hread
  · next hempty =>
    rw [bind_of_ok hread, if_pos hempty]
    rfl
  · next hempty =>
    rw [if_neg hempty]
    split at hread
    · next text htext =>
      rw [bind_of_ok hread, htext]
      simp only
      cases Command.parse (Channel.stripEnd text) with
      | error e => exact bind_of_ok (print_of_works hasked _) _
      | ok c => cases c <;> rfl
    · next htext =>
      rw [bind_of_error hread, htext]

/-! ## Commands that execute no instructions -/

/-- Whether a command executes no instructions and does not end the session. -/
def Command.isQuiet : Command → Bool
  | .step _ | .quit => false
  | _ => true

/-- The session behind a command that executes no instructions, but for the output. -/
def Command.settle : Command → Session → Session
  | .setBreakpoints lines, s =>
    { s with source := lines.foldl (Source.changed Source.setBreakpoint) s.source }
  | .clearBreakpoints lines, s =>
    { s with source := lines.foldl (Source.changed Source.clearBreakpoint) s.source }
  | .trace on, s => s.setTracing on
  | _, s => s

/-- A command that executes no instructions leaves the machine alone. -/
theorem Command.machine_settle (c : Command) (s : Session) :
    (c.settle s).machine = s.machine := by
  cases c <;> rfl

section Breakpoints

/-- The action changes the breakpoint of a line as the function says, or is refused by it. -/
def Changes (change : Source → Nat → Except Source.Error Source) (act : Nat → Session.Act Unit) :
    Prop :=
  ∀ line s, act line s =
    match change s.source line with
    | .ok source => .ok () { s with source }
    | .error e => .error (.source e) s

variable {change : Source → Nat → Except Source.Error Source} {act : Nat → Session.Act Unit}
  (hact : Changes change act)
include hact

/-- Changing the breakpoints of lines never fails. The refused lines are reported and change
nothing. -/
theorem eachLine_of_works (lines : List Nat) (h : s.machine.channel.device.Works) :
    ∃ accepted t, eachLine act lines s = .ok accepted t ∧
      Shows { s with source := lines.foldl (Source.changed change) s.source } t := by
  induction lines generalizing s with
  | nil => exact ⟨[], s, rfl, .refl s⟩
  | cons line rest ih =>
    rw [eachLine, List.foldl_cons]
    cases hline : change s.source line with
    | ok source =>
      have hattempt : attempt (act line) s = .ok (.ok ()) { s with source } := by
        rw [attempt, hact, hline]
      obtain ⟨accepted, t, ht, hshows⟩ := ih (s := { s with source }) h
      rw [bind_of_ok hattempt, Source.changed, hline]
      exact ⟨line :: accepted, t, bind_of_ok ht _, hshows⟩
    | error e =>
      have hattempt : attempt (act line) s = .ok (.error (.source e)) s := by
        rw [attempt, hact, hline]
      obtain ⟨accepted, t, ht, hshows⟩ :=
        ih (s := s.shown ("error: " ++ (Session.Error.source e).message ++ "\n")) h
      rw [bind_of_ok hattempt, Source.changed, hline]
      refine ⟨accepted, t, (bind_of_ok (print_of_works h _) _).trans ht, ?_⟩
      exact ((shows_shown _ s).withSource _).trans hshows

/-- On a device that works the breakpoints are changed line by line, and the rest is shown. -/
theorem changeBreakpoints_of_works (done : String) (lines : List Nat)
    (h : s.machine.channel.device.Works) :
    ∃ t, changeBreakpoints act done lines s = .ok () t ∧
      Shows { s with source := lines.foldl (Source.changed change) s.source } t := by
  obtain ⟨accepted, t, ht, hshows⟩ := eachLine_of_works hact lines h
  rw [changeBreakpoints, bind_of_ok ht]
  cases accepted with
  | nil => exact ⟨t, rfl, hshows⟩
  | cons first rest =>
    have hworks : t.machine.channel.device.Works := hshows.device ▸ h
    exact ⟨_, print_of_works hworks _, hshows.trans (shows_shown _ t)⟩

end Breakpoints

/-- A command that executes no instructions is carried out without a failure. -/
theorem execute_of_quiet (p : Program) (fuel : Nat) {c : Command} (hc : c.isQuiet = true)
    (h : s.machine.channel.device.Works) :
    ∃ t, execute p fuel c s = .ok () t ∧ Shows (c.settle s) t := by
  cases c with
  | step mode => cases hc
  | quit => cases hc
  | setBreakpoints lines => exact changeBreakpoints_of_works (fun _ _ => rfl) "set" lines h
  | clearBreakpoints lines => exact changeBreakpoints_of_works (fun _ _ => rfl) "cleared" lines h
  | trace on =>
    have hworks : (s.setTracing on).machine.channel.device.Works := h
    exact ⟨_, print_of_works hworks _, shows_shown _ _⟩
  | _ => exact ⟨_, print_of_works h _, shows_shown _ s⟩

/-! ## Commands that execute instructions -/

/-- Showing the log never fails, and takes it at most. -/
theorem showLog_of_works (h : s.machine.channel.device.Works) :
    ∃ log t, showLog s = .ok () t ∧ Shows { s with log } t := by
  rw [showLog, get_bind_apply]
  split
  · have htake : (modifyGet Session.takeLog : Act String) s = .ok s.log { s with log := "" } := rfl
    rw [bind_of_ok htake]
    split
    · exact ⟨"", _, print_of_works (s := { s with log := "" }) h _, shows_shown _ _⟩
    · exact ⟨"", _, rfl, .refl _⟩
  · exact ⟨s.log, s, rfl, .refl s⟩

/-- A run that fails is reported as an error of the session. -/
theorem step_of_error {e : Session.Error} (h : Session.runMode p fuel mode s = .error e t) :
    step p fuel mode s = .error (.session e) t := by
  have hrun : onSession (Session.runMode p fuel mode) s = .error (.session e) t := by
    rw [onSession, h]
  rw [step, bind_of_error hrun]

/-- A run that takes too many steps is reported as such. -/
theorem step_of_outOfFuel (h : Session.runMode p fuel mode s = .ok .outOfFuel t) :
    step p fuel mode s = .error .outOfFuel t := by
  have hrun : onSession (Session.runMode p fuel mode) s = .ok .outOfFuel t := by
    rw [onSession, h]
  rw [step, bind_of_ok hrun]
  rfl

/-- Behind a run that ends, the log and the window are shown. -/
theorem step_of_ok {stop : Session.Stop} (h : Session.runMode p fuel mode s = .ok stop t)
    (hstop : stop ≠ .outOfFuel) (hworks : t.machine.channel.device.Works) :
    ∃ log u, step p fuel mode s = .ok () u ∧ Shows { t with log } u := by
  have hrun : onSession (Session.runMode p fuel mode) s = .ok stop t := by
    rw [onSession, h]
  obtain ⟨log, u, hlog, hshows⟩ := showLog_of_works hworks
  have hu : u.machine.channel.device.Works := hshows.device ▸ hworks
  have hshow : (showLog >>= fun _ => showFunction) t = .ok () _ :=
    (bind_of_ok hlog _).trans (print_of_works hu _)
  refine ⟨log, _, ?_, hshows.trans (shows_shown (functionWindow u ++ "\n") u)⟩
  rw [step, bind_of_ok hrun]
  cases stop with
  | outOfFuel => exact absurd rfl hstop
  | paused => exact hshow
  | finished => exact hshow

/-! ## The rounds -/

/-- What a round of a conversation can do, by what is read. -/
inductive Turn (p : Program) (fuel : Nat) (s : Session) :
    Result Error Session (Option Ending) → Prop where
  /-- There are no more commands. -/
  | closed (hheard : heard s = .nothing) : Turn p fuel s (.ok (some .inputClosed) (asked s).halt)
  /-- The line is not text. -/
  | garbled (hheard : heard s = .garbled) : Turn p fuel s (.error (.device .notText) (asked s))
  /-- The line is no command, and the user is told so. -/
  | invalid {e : InvalidCommand} {t : Session} (hheard : heard s = .invalid e)
    (hshows : Shows (asked s) t) : Turn p fuel s (.ok none t)
  /-- The user leaves. -/
  | quit (hheard : heard s = .command .quit) : Turn p fuel s (.ok (some .quit) (asked s).halt)
  /-- The command executes no instructions. -/
  | quiet {c : Command} {t : Session} (hheard : heard s = .command c) (hc : c.isQuiet = true)
    (hshows : Shows (c.settle (asked s)) t) : Turn p fuel s (.ok none t)
  /-- The program fails. -/
  | failed {mode : Session.Mode} {e : Session.Error} {t : Session}
    (hheard : heard s = .command (.step mode))
    (hrun : Session.runMode p fuel mode (asked s) = .error e t) :
    Turn p fuel s (.error (.session e) t)
  /-- The steps allowed have been taken. -/
  | outOfFuel {mode : Session.Mode} {t : Session} (hheard : heard s = .command (.step mode))
    (hrun : Session.runMode p fuel mode (asked s) = .ok .outOfFuel t) :
    Turn p fuel s (.error .outOfFuel t)
  /-- The program pauses or has stopped. -/
  | stepped {mode : Session.Mode} {stop : Session.Stop} {log : String} {t u : Session}
    (hheard : heard s = .command (.step mode))
    (hrun : Session.runMode p fuel mode (asked s) = .ok stop t) (hstop : stop ≠ .outOfFuel)
    (hshows : Shows { t with log } u) : Turn p fuel s (.ok none u)

/-- The device is the same behind a run in a mode. -/
theorem device_of_runMode {stop : Session.Stop}
    (h : Session.runMode p fuel mode s = .ok stop t) :
    t.machine.channel.device = s.machine.channel.device := by
  have hdevice := Session.device_proceed p mode s.depth fuel s
  rwa [← Session.runMode_apply, h, Result.state_ok] at hdevice

/-- A round on a device that works does what one of the rules says. -/
theorem turn_cases (p : Program) (fuel : Nat) (h : s.machine.channel.device.Works) :
    Turn p fuel s (turn p fuel s) := by
  have hasked : (asked s).machine.channel.device.Works := h
  rw [turn_of_works p fuel h]
  cases hheard : heard s with
  | nothing => exact .closed hheard
  | garbled => exact .garbled hheard
  | invalid e => exact .invalid hheard (shows_shown _ _)
  | command c =>
    simp only
    split
    · next hc => exact .quit (hc ▸ hheard)
    · next hc =>
      by_cases hquiet : c.isQuiet = true
      · obtain ⟨t, ht, hshows⟩ := execute_of_quiet p fuel hquiet hasked
        rw [bind_of_ok ht]
        exact .quiet hheard hquiet hshows
      · obtain ⟨mode, rfl⟩ : ∃ mode, c = .step mode := by
          cases c <;> simp_all [Command.isQuiet]
        rw [execute]
        cases hrun : Session.runMode p fuel mode (asked s) with
        | error e t =>
          rw [bind_of_error (step_of_error hrun)]
          exact .failed hheard hrun
        | ok stop t =>
          by_cases hstop : stop = .outOfFuel
          · subst hstop
            rw [bind_of_error (step_of_outOfFuel hrun)]
            exact .outOfFuel hheard hrun
          · have hworks : t.machine.channel.device.Works := device_of_runMode hrun ▸ hasked
            obtain ⟨log, u, hu, hshows⟩ := step_of_ok hrun hstop hworks
            rw [bind_of_ok hu]
            exact .stepped hheard hrun hstop hshows

end Console

end XBytecode
