import Mathlib.Control.Monad.Basic
import XBytecode.Proofs.Prompt

/-!
# How a conversation ends

`prompts` lists the states in which the console prompts for a command. On a device that works, every
prompt but the last is answered in a way that keeps the conversation going, and the line read at the
last one decides how it ends (`prompts_last`). What decides is `verdict`, and for each way in which
a conversation ends there is a lemma that says which lines lead to it.
-/

namespace XBytecode.Console

open EStateM (Result bind_eq_ok bind_of_ok bind_of_error)
open Session (Shows shows_shown ExecutesHalt Operation)

variable {p : Program} {fuel count : Nat} {s t : Session} {o : Except Error Ending}

/-- How a round ends the conversation, if it does. A conversation is also over when the program has
stopped. -/
def verdict : Result Error Session (Option Ending) → Option (Except Error Ending)
  | .ok (some ending) _ => some (.ok ending)
  | .ok none t => if t.machine.running then none else some (.ok .finished)
  | .error e _ => some (.error e)

/-- The states in which a conversation of at most `count` rounds prompts for a command, in order. -/
def prompts (p : Program) (fuel : Nat) : Nat → Session → List Session
  | 0, _ => []
  | count + 1, s =>
    if s.machine.running then
      s ::
        match turn p fuel s with
        | .ok none t => prompts p fuel count t
        | _ => []
    else []

/-! ## The rounds of a conversation -/

/-- A conversation that does not run out of rounds prompts at once while the program runs. -/
theorem prompts_of_running (hrunning : s.machine.running = true)
    (hreturns : (converse p fuel count s).outcome ≠ .error .outOfFuel) :
    ∃ rest, prompts p fuel count s = s :: rest := by
  cases count with
  | zero => exact absurd rfl hreturns
  | succ count =>
    rw [prompts, if_pos hrunning]
    exact ⟨_, rfl⟩

/-- One round of a conversation with the prompt that it makes. -/
theorem converse_cases (p : Program) (fuel count : Nat) (hrunning : s.machine.running = true) :
    ((converse p fuel (count + 1) s).outcome ≠ .error .outOfFuel →
        verdict (turn p fuel s) = some (converse p fuel (count + 1) s).outcome ∧
          prompts p fuel (count + 1) s = [s]) ∨
      ∃ t, turn p fuel s = .ok none t ∧ t.machine.running = true ∧
        converse p fuel (count + 1) s = converse p fuel count t ∧
        prompts p fuel (count + 1) s = s :: prompts p fuel count t := by
  rw [converse_succ, if_pos hrunning, prompts, if_pos hrunning]
  cases hturn : turn p fuel s with
  | error e t =>
    rw [bind_of_error hturn]
    exact .inl fun _ => ⟨rfl, rfl⟩
  | ok ending? t =>
    rw [bind_of_ok hturn]
    cases ending? with
    | some ending => exact .inl fun _ => ⟨rfl, rfl⟩
    | none =>
      cases ht : t.machine.running with
      | true => exact .inr ⟨t, rfl, ht, rfl, rfl⟩
      | false =>
        refine .inl fun hreturns => ?_
        cases count with
        | zero => exact absurd rfl hreturns
        | succ count => simp [verdict, ht, converse_succ, prompts, Result.outcome]

/-- Only the last prompt of a conversation ends it. -/
theorem prompts_last (hrunning : s.machine.running = true)
    (hreturns : (converse p fuel count s).outcome ≠ .error .outOfFuel) :
    ∃ before a, prompts p fuel count s = before ++ [a] ∧
      (∀ b ∈ before, verdict (turn p fuel b) = none) ∧
      verdict (turn p fuel a) = some (converse p fuel count s).outcome := by
  induction count generalizing s with
  | zero => exact absurd rfl hreturns
  | succ count ih =>
    obtain hlast | ⟨t, hturn, ht, hconverse, hprompts⟩ := converse_cases p fuel count hrunning
    · obtain ⟨hverdict, hprompts⟩ := hlast hreturns
      exact ⟨[], s, hprompts, by simp, hverdict⟩
    · rw [hconverse] at hreturns ⊢
      obtain ⟨before, a, hrest, hbefore, hverdict⟩ := ih ht hreturns
      refine ⟨s :: before, a, by rw [hprompts, hrest, List.cons_append], ?_, hverdict⟩
      refine List.forall_mem_cons.mpr ⟨?_, hbefore⟩
      rw [hturn, verdict, if_pos ht]

/-- A prompt that does not end the conversation is followed by the next one. -/
theorem prompts_next {i : Nat} {a : Session}
    (hreturns : (converse p fuel count s).outcome ≠ .error .outOfFuel)
    (hprompt : (prompts p fuel count s)[i]? = some a) (hturn : turn p fuel a = .ok none t)
    (ht : t.machine.running = true) : (prompts p fuel count s)[i + 1]? = some t := by
  induction count generalizing s i with
  | zero => simp [prompts] at hprompt
  | succ count ih =>
    cases hrunning : s.machine.running with
    | false => simp [prompts, hrunning] at hprompt
    | true =>
      obtain hlast | ⟨u, hu, hgoes, hconverse, hprompts⟩ := converse_cases p fuel count hrunning
      · -- The only prompt is one that ends the conversation.
        obtain ⟨hverdict, hprompts⟩ := hlast hreturns
        rw [hprompts] at hprompt
        obtain rfl : a = s := List.mem_singleton.mp (List.mem_of_getElem? hprompt)
        rw [hturn, verdict, if_pos ht] at hverdict
        cases hverdict
      · rw [hconverse] at hreturns
        rw [hprompts] at hprompt ⊢
        cases i with
        | zero =>
          obtain rfl : s = a := by simpa using hprompt
          obtain rfl : u = t := by simpa [hu] using hturn
          obtain ⟨rest, hrest⟩ := prompts_of_running ht hreturns
          simp [hrest]
        | succ i => exact ih hreturns (by simpa using hprompt)

/-- A round keeps a device that works, whether it ends the conversation or not. -/
theorem works_of_turn {ending? : Option Ending} (hworks : s.machine.channel.device.Works)
    (hturn : turn p fuel s = .ok ending? t) : t.machine.channel.device.Works := by
  have hrule := turn_cases p fuel hworks
  rw [hturn] at hrule
  have hdevice : t.machine.channel.device = s.machine.channel.device := by
    cases hrule with
    | closed | quit => rfl
    | invalid _ hshows => exact hshows.device
    | quiet _ _ hshows => rw [hshows.device, Command.machine_settle]; rfl
    | @stepped _ _ _ u _ _ hrun _ hshows =>
      have hu : u.machine.channel.device = (asked s).machine.channel.device :=
        device_of_runMode hrun
      exact hshows.device.trans hu
  rwa [hdevice]

/-- At every prompt the program runs and the device works. -/
theorem ready_of_mem_prompts {a : Session} (hworks : s.machine.channel.device.Works)
    (hprompt : a ∈ prompts p fuel count s) :
    a.machine.running = true ∧ a.machine.channel.device.Works := by
  induction count generalizing s with
  | zero => cases hprompt
  | succ count ih =>
    rw [prompts] at hprompt
    split at hprompt
    · next hrunning =>
      obtain rfl | hrest := List.mem_cons.mp hprompt
      · exact ⟨hrunning, hworks⟩
      · split at hrest
        · next t hturn => exact ih (works_of_turn hworks hturn) hrest
        · cases hrest
    · cases hprompt

/-- A conversation keeps a device that works. -/
theorem works_of_converse {ending : Ending} (hworks : s.machine.channel.device.Works)
    (h : converse p fuel count s = .ok ending t) : t.machine.channel.device.Works := by
  induction count generalizing s with
  | zero => cases h
  | succ count ih =>
    rw [converse_succ] at h
    split at h
    · obtain ⟨ending?, u, hturn, hrest⟩ := bind_eq_ok.mp h
      have hu := works_of_turn hworks hturn
      cases ending? with
      | some ending' => cases hrest; exact hu
      | none => exact ih hu hrest
    · cases h
      exact hworks

/-! ## What decides -/

section Verdicts

variable (hrunning : s.machine.running = true) (hworks : s.machine.channel.device.Works)
include hrunning hworks

/-- What a line makes of a conversation. -/
theorem verdict_turn (p : Program) (fuel : Nat) :
    verdict (turn p fuel s) =
      match heard s with
      | .nothing => some (.ok .inputClosed)
      | .garbled => some (.error (.device .notText))
      | .invalid _ => none
      | .command .quit => some (.ok .quit)
      | .command (.step mode) =>
        match Session.runMode p fuel mode (asked s) with
        | .error e _ => some (.error (.session e))
        | .ok .outOfFuel _ => some (.error .outOfFuel)
        | .ok _ t => if t.machine.running then none else some (.ok .finished)
      | .command _ => none := by
  have hasked : (asked s).machine.running = true := hrunning
  have hrule := turn_cases p fuel hworks
  cases hturn : turn p fuel s with
  | error e t =>
    rw [hturn] at hrule
    cases hrule with
    | garbled hheard => rw [hheard]; rfl
    | failed hheard hrun => rw [hheard]; simp only [hrun]; rfl
    | outOfFuel hheard hrun => rw [hheard]; simp only [hrun]; rfl
  | ok ending? t =>
    rw [hturn] at hrule
    cases hrule with
    | closed hheard => rw [hheard]; rfl
    | quit hheard => rw [hheard]; rfl
    | invalid hheard hshows =>
      rw [hheard, verdict, hshows.running, hasked]
      rfl
    | @quiet c _ hheard hquiet hshows =>
      rw [hheard, verdict, hshows.running, Command.machine_settle, hasked]
      cases c with
      | step mode | quit => cases hquiet
      | _ => rfl
    | stepped hheard hrun hstop hshows =>
      rw [hheard, verdict, hshows.running]
      simp only [hrun]

/-- A turn ends the conversation for want of input exactly if there was nothing to hear. -/
theorem verdict_inputClosed :
    verdict (turn p fuel s) = some (.ok .inputClosed) ↔ heard s = .nothing := by
  rw [verdict_turn hrunning hworks]
  split <;> grind

/-- A turn ends the conversation on request exactly if that is the command heard. -/
theorem verdict_quit :
    verdict (turn p fuel s) = some (.ok .quit) ↔ heard s = .command .quit := by
  rw [verdict_turn hrunning hworks]
  split <;> grind

/-- A turn fails on its device exactly if the line heard was no text. -/
theorem verdict_device {e : DeviceError} :
    verdict (turn p fuel s) = some (.error (.device e)) ↔ e = .notText ∧ heard s = .garbled := by
  rw [verdict_turn hrunning hworks]
  split <;> grind

/-- A turn fails with the session exactly if the command heard was to run it and the run fails. -/
theorem verdict_session {e : Session.Error} :
    verdict (turn p fuel s) = some (.error (.session e)) ↔
      ∃ mode t, heard s = .command (.step mode) ∧
        Session.runMode p fuel mode (asked s) = .error e t := by
  rw [verdict_turn hrunning hworks]
  split <;> grind

/-- A turn finishes the program exactly if the command heard was to run it and a `HALT` is
executed. -/
theorem verdict_finished (hreturns : verdict (turn p fuel s) ≠ some (.error .outOfFuel)) :
    verdict (turn p fuel s) = some (.ok .finished) ↔
      ∃ mode, heard s = .command (.step mode) ∧
        ∃ b ∈ (Operation.run mode fuel).attempts p (asked s), ExecutesHalt p b := by
  have hasked : (asked s).machine.running = true := hrunning
  rw [verdict_turn hrunning hworks] at hreturns ⊢
  split
  case h_5 mode hheard =>
    simp only [hheard, Heard.command.injEq, Command.step.injEq, exists_eq_left', Operation.attempts,
      Session.halts_iff_proceed hasked, ← Session.runMode_apply]
    cases hrun : Session.runMode p fuel mode (asked s) with
    | error e t => simp
    | ok stop t =>
      cases stop with
      | outOfFuel => simp [hheard, hrun] at hreturns
      | paused | finished => simp [and_assoc]
  all_goals simp_all

end Verdicts

/-- A run in a mode fails over the machine or the bindings only. -/
theorem isFatal_of_runMode {mode : Session.Mode} {e : Session.Error}
    (h : Session.runMode p fuel mode s = .error e t) : e.isFatal = true := by
  rw [Session.runMode_apply] at h
  obtain ⟨a, -, u, hstep⟩ := Session.proceed_eq_error.mp ⟨t, h⟩
  obtain ⟨f, m, -, rfl, -⟩ | ⟨n, m, -, rfl, -⟩ := Session.step_error_cases hstep
  · rfl
  · rfl

/-! ## Whole conversations -/

/-- The states in which a whole conversation prompts for a command, in order. -/
def dialogue (p : Program) (fuel : Nat) (s : Session) : List Session :=
  prompts p fuel fuel (s.shown (functionWindow s ++ "\n"))

section Dialogue

variable (hworks : s.machine.channel.device.Works)
include hworks

/-- At every prompt of a whole conversation the program runs and the device works. -/
theorem ready_of_mem_dialogue {a : Session} (h : a ∈ dialogue p fuel s) :
    a.machine.running = true ∧ a.machine.channel.device.Works :=
  ready_of_mem_prompts (s := s.shown (functionWindow s ++ "\n")) hworks h

/-- A whole conversation ends as its rounds do. -/
theorem outcome_run :
    (run p fuel s).outcome =
      (converse p fuel fuel (s.shown (functionWindow s ++ "\n"))).outcome := by
  have hshow : showFunction s = .ok () (s.shown (functionWindow s ++ "\n")) :=
    print_of_works hworks _
  rw [run, talk, bind_assoc, bind_of_ok hshow]
  cases h : converse p fuel fuel (s.shown (functionWindow s ++ "\n")) with
  | error e t => rw [bind_of_error h]
  | ok ending t =>
    have hshown : (s.shown (functionWindow s ++ "\n")).machine.channel.device.Works := hworks
    rw [bind_of_ok h, bind_of_ok (print_of_works (works_of_converse hshown h) _)]
    rfl

variable (hrunning : s.machine.running = true)
  (hreturns : (run p fuel s).outcome ≠ .error .outOfFuel)
include hrunning hreturns

/-- The line read at the last prompt decides how the conversation ends. -/
theorem dialogue_last :
    ∃ before a, dialogue p fuel s = before ++ [a] ∧
      (∀ b ∈ before, verdict (turn p fuel b) = none) ∧
      verdict (turn p fuel a) = some (run p fuel s).outcome := by
  rw [outcome_run hworks] at hreturns ⊢
  exact prompts_last (s := s.shown (functionWindow s ++ "\n")) hrunning hreturns

/-- A conversation ends in a way exactly if a line that leads to it is read at a prompt. -/
theorem run_ends_iff {P : Session → Prop}
    (hP : ∀ a, a.machine.running = true → a.machine.channel.device.Works →
      verdict (turn p fuel a) ≠ some (.error .outOfFuel) →
      (verdict (turn p fuel a) = some o ↔ P a)) :
    (run p fuel s).outcome = o ↔ ∃ a ∈ dialogue p fuel s, P a := by
  obtain ⟨before, a, hdialogue, hbefore, hverdict⟩ := dialogue_last hworks hrunning hreturns
  have hdecide : ∀ b ∈ dialogue p fuel s, (verdict (turn p fuel b) = some o ↔ P b) := by
    intro b hb
    obtain ⟨hrunning, hdevice⟩ := ready_of_mem_dialogue hworks hb
    refine hP b hrunning hdevice fun hfuel => ?_
    rw [hdialogue, List.mem_append, List.mem_singleton] at hb
    obtain hb | rfl := hb
    · rw [hbefore b hb] at hfuel
      cases hfuel
    · rw [hverdict, Option.some.injEq] at hfuel
      exact hreturns hfuel
  constructor
  · rintro rfl
    have ha : a ∈ dialogue p fuel s := by simp [hdialogue]
    exact ⟨a, ha, (hdecide a ha).mp hverdict⟩
  · rintro ⟨b, hb, hPb⟩
    have hend := (hdecide b hb).mpr hPb
    rw [hdialogue, List.mem_append, List.mem_singleton] at hb
    obtain hb | rfl := hb
    · rw [hbefore b hb] at hend
      cases hend
    · rw [hverdict, Option.some.injEq] at hend
      exact hend

/-- A conversation fails with an error of the session exactly if the step command read last does. -/
theorem run_fails_iff {e : Session.Error} :
    (run p fuel s).outcome = .error (.session e) ↔
      ∃ before a mode t, dialogue p fuel s = before ++ [a] ∧ heard a = .command (.step mode) ∧
        Session.runMode p fuel mode (asked a) = .error e t := by
  constructor
  · intro h
    obtain ⟨before, a, hdialogue, -, hverdict⟩ := dialogue_last hworks hrunning hreturns
    have ha : a ∈ dialogue p fuel s := by simp [hdialogue]
    obtain ⟨ha, hdevice⟩ := ready_of_mem_dialogue hworks ha
    rw [h] at hverdict
    obtain ⟨mode, t, hheard, hrun⟩ := (verdict_session ha hdevice).mp hverdict
    exact ⟨before, a, mode, t, hdialogue, hheard, hrun⟩
  · rintro ⟨before, a, mode, t, hdialogue, hheard, hrun⟩
    refine (run_ends_iff hworks hrunning hreturns fun a ha hw _ => verdict_session ha hw).mpr ?_
    exact ⟨a, by simp [hdialogue], mode, t, hheard, hrun⟩

omit hrunning in
/-- A round that leaves the program running is followed by the next prompt. -/
theorem dialogue_next {i : Nat} {a : Session} (hprompt : (dialogue p fuel s)[i]? = some a)
    (hturn : turn p fuel a = .ok none t) (ht : t.machine.running = true) :
    (dialogue p fuel s)[i + 1]? = some t := by
  rw [outcome_run hworks] at hreturns
  exact prompts_next hreturns hprompt hturn ht

omit hrunning in
/-- Behind a line that is no command the console prompts again, with nothing changed. -/
theorem dialogue_invalid {i : Nat} {a : Session} {e : InvalidCommand}
    (hprompt : (dialogue p fuel s)[i]? = some a) (hheard : heard a = .invalid e) :
    ∃ b, (dialogue p fuel s)[i + 1]? = some b ∧ Shows (asked a) b := by
  obtain ⟨ha, hdevice⟩ := ready_of_mem_dialogue hworks (List.mem_of_getElem? hprompt)
  have hturn := turn_of_works p fuel hdevice
  rw [hheard] at hturn
  exact ⟨_, dialogue_next hworks hreturns hprompt hturn ha, shows_shown _ _⟩

omit hrunning in
/-- Behind a command that executes no instructions the console prompts again, with the machine as it
was. -/
theorem dialogue_quiet {i : Nat} {a : Session} {c : Command}
    (hprompt : (dialogue p fuel s)[i]? = some a) (hheard : heard a = .command c)
    (hquiet : c.isQuiet = true) :
    ∃ b, (dialogue p fuel s)[i + 1]? = some b ∧ Shows (c.settle (asked a)) b := by
  obtain ⟨ha, hdevice⟩ := ready_of_mem_dialogue hworks (List.mem_of_getElem? hprompt)
  have hquit : c ≠ .quit := by
    rintro rfl
    cases hquiet
  have hasked : (asked a).machine.channel.device.Works := hdevice
  obtain ⟨b, hb, hshows⟩ := execute_of_quiet p fuel hquiet hasked
  have hrunning : b.machine.running = true := by
    rw [hshows.running, Command.machine_settle]
    exact ha
  have hturn := turn_of_works p fuel hdevice
  rw [hheard] at hturn
  simp only [if_neg hquit] at hturn
  rw [bind_of_ok hb] at hturn
  exact ⟨b, dialogue_next hworks hreturns hprompt hturn hrunning, hshows⟩

end Dialogue

/-- How a conversation ends. On a device that works, a conversation that ends does so because the
program has executed a `HALT` in a step command, or a quit command is read at a prompt, or the input
is at its end there, or a line read there is not text, or the step command read last has failed over
the machine or the bindings. Each ending tells which: it comes about exactly if there is such a
prompt. Lines that are no commands, and commands that execute no instructions, breakpoints that are
refused included, are followed by another prompt and leave the machine alone, but for the output and
the line that has been read. -/
theorem conversation_ends (p : Program) (source : Source) (channel : Channel) (fuel : Nat)
    (hworks : channel.device.Works)
    (hreturns : (run p fuel (.start source channel)).outcome ≠ .error .outOfFuel) :
    let outcome := (run p fuel (.start source channel)).outcome
    let prompts := dialogue p fuel (.start source channel)
    (outcome = .ok .finished ↔
        ∃ a ∈ prompts, ∃ mode, heard a = .command (.step mode) ∧
          ∃ b ∈ (Operation.run mode fuel).attempts p (asked a), ExecutesHalt p b) ∧
      (outcome = .ok .quit ↔ ∃ a ∈ prompts, heard a = .command .quit) ∧
      (outcome = .ok .inputClosed ↔ ∃ a ∈ prompts, heard a = .nothing) ∧
      (∀ e, outcome = .error (.device e) ↔ e = .notText ∧ ∃ a ∈ prompts, heard a = .garbled) ∧
      (∀ e, outcome = .error (.session e) ↔
        ∃ before a mode t, prompts = before ++ [a] ∧ heard a = .command (.step mode) ∧
          Session.runMode p fuel mode (asked a) = .error e t) ∧
      (∀ e, outcome = .error (.session e) → e.isFatal = true) ∧
      ∀ i a, prompts[i]? = some a →
        (∀ e, heard a = .invalid e → ∃ b, prompts[i + 1]? = some b ∧ Shows (asked a) b) ∧
          ∀ c, heard a = .command c → c.isQuiet = true →
            ∃ b, prompts[i + 1]? = some b ∧ Shows (c.settle (asked a)) b ∧
              (c.settle (asked a)).machine = (asked a).machine := by
  have hdevice : (Session.start source channel).machine.channel.device.Works := hworks
  refine ⟨run_ends_iff hdevice rfl hreturns fun a => verdict_finished,
    run_ends_iff hdevice rfl hreturns fun a ha hw _ => verdict_quit ha hw,
    run_ends_iff hdevice rfl hreturns fun a ha hw _ => verdict_inputClosed ha hw, ?_,
    fun e => run_fails_iff hdevice rfl hreturns, ?_, ?_⟩
  · intro e
    rw [run_ends_iff hdevice rfl hreturns fun a ha hw _ => verdict_device ha hw]
    grind
  · intro e he
    obtain ⟨_, _, _, _, _, _, hrun⟩ := (run_fails_iff hdevice rfl hreturns).mp he
    exact isFatal_of_runMode hrun
  · intro i a hprompt
    refine ⟨fun e he => dialogue_invalid hdevice hreturns hprompt he, fun c hc hquiet => ?_⟩
    obtain ⟨b, hb, hshows⟩ := dialogue_quiet hdevice hreturns hprompt hc hquiet
    exact ⟨b, hb, hshows, c.machine_settle _⟩

/-- A program that reaches its only line and stops. -/
def shortProgram : Program :=
  { instructions := #[.line 1, .halt]
    labels := ∅ }

/-- The lines `x`, which is no command, and `c`. -/
def shortInput : Channel :=
  { input := [120, 10, 99, 10] }

/-- The session of `shortProgram` with `shortInput`. -/
def shortSession : Session :=
  .start { lines := #["="] } shortInput

/-- The first line is complained about and the second one lets the program stop. -/
theorem conversation_ends_finished :
    (run shortProgram 9 shortSession).outcome = .ok .finished ∧
      (dialogue shortProgram 9 shortSession).map heard =
        [.invalid ⟨"x"⟩, .command (.step .resume)] ∧
      ∃ a ∈ dialogue shortProgram 9 shortSession, ∃ mode, heard a = .command (.step mode) ∧
        ∃ b ∈ (Operation.run mode 9).attempts shortProgram (asked a),
          ExecutesHalt shortProgram b := by
  have hfinished : (run shortProgram 9 shortSession).outcome = .ok .finished := by decide +kernel
  have hreturns : (run shortProgram 9 shortSession).outcome ≠ .error .outOfFuel := by
    rw [hfinished]
    simp
  have hends := conversation_ends shortProgram { lines := #["="] } shortInput 9 (fun _ _ => rfl)
    hreturns
  exact ⟨hfinished, by decide +kernel, hends.1.mp hfinished⟩

end XBytecode.Console
