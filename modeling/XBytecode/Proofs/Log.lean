import XBytecode.Proofs.Activations
import XBytecode.Proofs.Effect
import XBytecode.Proofs.Words

/-!
# What is logged

A step that executes the marker of a function or a return makes an entry in the log, and no other
step does (`logged?`). The entry has a line of the log as its text, and tells how the names of the
functions that are being executed change: `Ledger` holds both, and `ledger_step` says that a step
records its entry and changes nothing else of them. So does every sequence of operations, one entry
after the other: what it logs, and what is taken from the log on the way, are the lines of its
entries (`transcript_eq`).
-/

namespace XBytecode.Session

open EStateM (Result get_bind_apply bind_apply state_bind_pure)

/-! ## Entries -/

/-- An entry of the log, indented by a number of spaces. -/
inductive Entry where
  /-- A function is entered with these values in its frame. -/
  | opened (indent : Nat) (name : String) (arguments : List Int32)
  /-- A function returns a value. -/
  | closed (indent : Nat) (name : String) (value : Int32)
  deriving DecidableEq, Repr

namespace Entry

/-- The indentation of an entry and the name that it shows. -/
def label : Entry → Nat × String
  | opened indent name _ | closed indent name _ => (indent, name)

/-- The line of an entry. -/
def text : Entry → String
  | opened indent name arguments =>
    String.ofList (List.replicate indent ' ') ++
      (name ++ "(" ++ ",".intercalate (arguments.map Numeral.ofWord) ++ ")")
  | closed indent name value =>
    String.ofList (List.replicate indent ' ') ++ ("exit: " ++ name ++ ": " ++ Numeral.ofWord value)

end Entry

/-- The entry that a step makes, if calls are logged: behind the marker of a function for its new
activation, and behind a return for the activation that it closes, with the value on top of the
stack. -/
def logged? (p : Program) (s : Session) : Option Entry :=
  match step p s with
  | .ok (.function name _ _) t =>
    some (.opened (s.depth + 1) (displayName name) t.machine.stack.frameValues)
  | .ok (.ret _) t =>
    match t.machine.stack.peek with
    | .ok v => some (.closed s.depth s.current.display v)
    | .error _ => none
  | _ => none

/-! ## The ledger -/

/-- The part of a session that its log is about. -/
structure Ledger where
  /-- Calls and returns are logged. -/
  tracing : Bool
  /-- The log of calls and returns. -/
  log : String
  /-- The names shown of the functions called, outermost first. -/
  names : List String

/-- The ledger with an entry made. -/
def Ledger.record (l : Ledger) (e : Entry) : Ledger where
  tracing := l.tracing
  log := if l.tracing then l.log ++ e.text ++ "\n" else l.log
  names :=
    match e with
    | .opened _ name _ => l.names ++ [name]
    | .closed .. => l.names.dropLast

/-- The ledger of a session. -/
def ledger (s : Session) : Ledger where
  tracing := s.tracing
  log := s.log
  names := s.calls.toList.map Activation.display

variable {p : Program} {s t : Session} {instr : Instruction}

/-- Every activation but the base is named. -/
theorem length_names (s : Session) : s.ledger.names.length + 1 = s.depth := by
  simp [ledger, depth]

/-- Changing the innermost activation, but not its name, leaves the ledger alone. -/
theorem ledger_updateCurrent (f : Activation → Activation) (s : Session)
    (hf : ∀ a, (f a).display = a.display) : (s.updateCurrent f).ledger = s.ledger := by
  unfold updateCurrent
  cases h : s.calls.back? with
  | none => rfl
  | some a =>
    obtain ⟨rest, hcalls⟩ := Array.back?_eq_some_iff.mp h
    simp [ledger, hcalls, hf]

/-- Reaching a line leaves the ledger alone. -/
theorem ledger_reachLine (line : Int32) (s : Session) :
    (s.reachLine line).ledger = s.ledger := by
  unfold reachLine
  split
  · exact ledger_updateCurrent (fun a => { a with line }) s fun _ => rfl
  · rfl

/-- A line is added to the log with the indentation of the innermost activation. -/
theorem ledger_trace (entry : String) (s : Session) :
    (s.trace entry).ledger =
      { s.ledger with
        log :=
          if s.ledger.tracing then
            s.ledger.log ++
              (String.ofList (List.replicate (s.ledger.names.length + 1) ' ') ++ entry) ++ "\n"
          else s.ledger.log } := by
  rw [length_names]
  unfold trace ledger
  split <;> simp [String.append_assoc]

/-- A function is entered with an entry for its activation. -/
theorem ledger_enterFunction (name : String) (first last : Int32) (s : Session) :
    (s.enterFunction name first last).ledger =
      s.ledger.record (.opened (s.depth + 1) (displayName name) s.machine.stack.frameValues) := by
  let opened : Session :=
    { s with calls := s.calls.push { name, first, last, line := s.current.line } }
  have hopened : opened.ledger =
      { s.ledger with names := s.ledger.names ++ [displayName name] } := by
    simp [ledger, opened, Activation.display]
  -- The line is written when the activation is open, and is indented by one more.
  rw [enterFunction, ledger_trace, ledger_reachLine, hopened, ← length_names]
  simp [Ledger.record, Entry.text, Machine.argumentsText]

/-- A function is left with an entry for its activation, if there is a value on the stack. -/
theorem ledger_exitFunction {v : Int32} (hv : s.machine.stack.peek = .ok v) :
    s.exitFunction.ledger = s.ledger.record (.closed s.depth s.current.display v) := by
  have hpop : ∀ u : Session, { u with calls := u.calls.pop : Session }.ledger =
      { u.ledger with names := u.ledger.names.dropLast } := by
    intro u
    simp [ledger, List.map_dropLast]
  rw [exitFunction, hpop, ledger_trace, ← length_names, hv]
  rfl

/-- Nothing but markers of functions and returns is recorded. -/
theorem ledger_follow {address : Nat} (h : follow address instr s = .ok () t)
    (hfunction : ∀ name first last, instr ≠ .function name first last)
    (hret : ∀ name, instr ≠ .ret name) : t.ledger = s.ledger := by
  cases instr with
  | function name first last => exact absurd rfl (hfunction name first last)
  | ret name => exact absurd rfl (hret name)
  | formal name offset =>
    obtain rfl := (Result.ok.inj h).2
    exact ledger_updateCurrent _ s fun _ => rfl
  | line number =>
    obtain rfl := (Result.ok.inj h).2
    exact ledger_reachLine number s
  | pop count =>
    rw [follow, retract] at h
    split at h
    · obtain rfl := (Result.ok.inj h).2
      exact ledger_updateCurrent _ s fun _ => rfl
    · cases h
  | lit v name =>
    cases name with
    | none => rw [← (Result.ok.inj h).2]
    | some name =>
      obtain rfl := (Result.ok.inj h).2
      exact ledger_updateCurrent _ s fun _ => rfl
  | _ => rw [← (Result.ok.inj h).2]

/-- Behind a return the value returned is on top of the stack. -/
theorem peek_of_ret {name : Option String} (h : step p s = .ok (.ret name) t) :
    ∃ v, t.machine.stack.peek = .ok v := by
  obtain ⟨-, m, heffect, hm⟩ := Machine.effect_of_step (machine_of_ok h)
  cases heffect with
  | ret hreturns hbases hslots =>
    rw [hm]
    simp [Stack.peek]

/-- A function that is entered is logged as opened, with the values of its frame. -/
theorem logged?_function {name : String} {first last : Int32}
    (h : step p s = .ok (.function name first last) t) :
    logged? p s = some (.opened (s.depth + 1) (displayName name) t.machine.stack.frameValues) := by
  rw [logged?, h]

/-- A function that returns is logged as closed, with the value on top. -/
theorem logged?_ret {name : Option String} {v : Int32} (h : step p s = .ok (.ret name) t)
    (hv : t.machine.stack.peek = .ok v) :
    logged? p s = some (.closed s.depth s.current.display v) := by
  rw [logged?, h]
  simp only [hv]

/-- A step that executes neither a marker of a function nor a return makes no entry. -/
theorem logged?_eq_none (henters : ¬ Enters p s) (hleaves : ¬ Leaves p s) : logged? p s = none := by
  unfold logged?
  split
  · next name first last t h => exact absurd ⟨name, first, last, t, h⟩ henters
  · next name t h => exact absurd ⟨name, t, h⟩ hleaves
  · rfl

/-- A step that fails leaves the ledger as it was. -/
theorem ledger_of_error {e : Error} (h : step p s = .error e t) : t.ledger = s.ledger := by
  obtain ⟨f, m, -, -, rfl⟩ | ⟨n, m, -, -, rfl⟩ := step_error_cases h
  · rfl
  · rfl

/-- A step records its entry. -/
theorem ledger_step (p : Program) (s : Session) :
    (step p s).state.ledger = (logged? p s).toList.foldl Ledger.record s.ledger := by
  cases hstep : step p s with
  | error e t =>
    have hnone : logged? p s = none :=
      logged?_eq_none (by simp [Enters, hstep]) (by simp [Leaves, hstep])
    rw [hnone]
    exact ledger_of_error hstep
  | ok instr t =>
    obtain ⟨m, hm, hfollow⟩ := step_eq_ok.mp hstep
    have hmachine : m = t.machine := (Result.ok.inj (hm.symm.trans (machine_of_ok hstep))).2
    by_cases henters : ∃ name first last, instr = .function name first last
    · obtain ⟨name, first, last, rfl⟩ := henters
      rw [logged?_function hstep, ← hmachine]
      obtain rfl := (Result.ok.inj hfollow).2
      exact ledger_enterFunction name first last _
    by_cases hleaves : ∃ name, instr = .ret name
    · obtain ⟨name, rfl⟩ := hleaves
      obtain ⟨v, hv⟩ := peek_of_ret hstep
      rw [logged?_ret hstep hv]
      rw [← hmachine] at hv
      obtain rfl := (Result.ok.inj hfollow).2
      exact ledger_exitFunction hv
    · have hnone : logged? p s = none :=
        logged?_eq_none (by simpa [Enters, hstep] using henters)
          (by simpa [Leaves, hstep] using hleaves)
      have hkeep := ledger_follow hfollow (fun name first last h => henters ⟨name, first, last, h⟩)
        fun name h => hleaves ⟨name, h⟩
      rw [hnone]
      exact hkeep

/-! ## Runs -/

/-- The entries that attempts to execute an instruction make, in order. -/
def entries (p : Program) (l : List Session) : List Entry :=
  l.filterMap (logged? p)

/-- The entries of a course come before those of what follows it. -/
theorem entries_append (p : Program) (l l' : List Session) :
    entries p (l ++ l') = entries p l ++ entries p l' :=
  List.filterMap_append

/-- A single step makes at most one entry. -/
theorem entries_singleton (p : Program) (s : Session) : entries p [s] = (logged? p s).toList := by
  cases h : logged? p s <;> simp [entries, h]

/-- The loop of a mode records the entries of its attempts. -/
theorem ledger_proceed (p : Program) (mode : Mode) (depth fuel : Nat) (s : Session) :
    (proceed p mode depth fuel s).state.ledger =
      (entries p (proceedAttempts p mode depth fuel s)).foldl Ledger.record s.ledger := by
  induction fuel generalizing s with
  | zero => rfl
  | succ fuel ih =>
    have hstep := ledger_step p s.settled
    have hsettled : s.settled.ledger = s.ledger := rfl
    obtain ⟨-, hp, ha⟩ | ⟨-, hp, ha⟩ | ⟨-, e, t, ht, hp, ha⟩ | ⟨-, instr, t, ht, hp, ha⟩ :=
      proceed_cases p mode depth fuel s
    · rw [hp, ha]
      rfl
    · rw [hp, ha]
      rfl
    · rw [hp, ha, entries_singleton, ← hsettled, ← hstep, ht]
      rfl
    · rw [hp, ha, ih, ← List.singleton_append, entries_append, List.foldl_append, entries_singleton,
        ← hsettled, ← hstep, ht]
      rfl

/-- An operation that neither turns tracing on or off nor takes the log records the entries of its
attempts. -/
theorem Operation.ledger_perform (p : Program) {op : Operation} (s : Session)
    (htracing : ∀ on, op ≠ .setTracing on) (htake : op ≠ .takeLog) :
    (op.perform p s).state.ledger =
      (entries p (op.attempts p s)).foldl Ledger.record s.ledger := by
  cases op with
  | step =>
    rw [perform, state_bind_pure, ledger_step, attempts, entries_singleton]
  | run mode fuel =>
    rw [perform_run, state_bind_pure, ledger_proceed, attempts]
  | setTracing on => exact absurd rfl (htracing on)
  | takeLog => exact absurd rfl htake
  | setBreakpoint line =>
    rw [perform, state_bind_pure, Session.setBreakpoint]
    split <;> rfl
  | clearBreakpoint line =>
    rw [perform, state_bind_pure, Session.clearBreakpoint]
    split <;> rfl
  | valueOf name =>
    rw [perform, get_bind_apply]
    cases s.valueOf name <;> rfl
  | listVariables => rfl

/-- The log with which a request is answered. -/
def Answer.log? : Except Error Answer → Option String
  | .ok (.log text) => some text
  | _ => none

/-- The logs taken in a sequence of requests, one behind the other. -/
def drained (p : Program) (ops : List Operation) (s : Session) : String :=
  String.join ((answers p ops s).filterMap Answer.log?)

/-- Everything that has been logged: the logs taken, and the one that is left. -/
def transcript (p : Program) (ops : List Operation) (s : Session) : String :=
  drained p ops s ++ (after p ops s).log

/-- Only a request for the log is answered with it. -/
theorem Operation.log?_answer {op : Operation} (p : Program) (s : Session) (h : op ≠ .takeLog) :
    Answer.log? (op.answer p s) = none := by
  cases op with
  | takeLog => exact absurd rfl h
  | step =>
    rw [answer, perform, bind_apply]
    cases Session.step p s <;> rfl
  | run mode fuel =>
    rw [answer, perform_run, bind_apply]
    cases proceed p mode s.depth fuel s <;> rfl
  | setBreakpoint line =>
    rw [answer, perform, bind_apply]
    cases Session.setBreakpoint line s <;> rfl
  | clearBreakpoint line =>
    rw [answer, perform, bind_apply]
    cases Session.clearBreakpoint line s <;> rfl
  | valueOf name =>
    rw [answer, perform, get_bind_apply]
    cases s.valueOf name <;> rfl
  | setTracing on | listVariables => rfl

/-- While calls are logged, every entry recorded adds its line to the log. -/
theorem Ledger.foldl_record {l : Ledger} (h : l.tracing = true) (es : List Entry) :
    (es.foldl record l).tracing = true ∧
      (es.foldl record l).log = l.log ++ Text.unlines (es.map Entry.text) := by
  induction es generalizing l with
  | nil => exact ⟨h, by simp [Text.unlines]⟩
  | cons e es ih =>
    obtain ⟨htracing, hlog⟩ := ih (l := l.record e) h
    refine ⟨htracing, ?_⟩
    have hline : (l.record e).log = l.log ++ e.text ++ "\n" := if_pos h
    rw [List.foldl_cons, hlog, hline]
    simp [Text.unlines, String.join_cons, String.append_assoc]

/-- What is taken from the log is not lost. -/
theorem transcript_takeLog (p : Program) (ops : List Operation) (s : Session) :
    transcript p (.takeLog :: ops) s = s.log ++ transcript p ops { s with log := "" } := by
  have hdrained : drained p (.takeLog :: ops) s =
      String.join (s.log :: (answers p ops { s with log := "" }).filterMap Answer.log?) := rfl
  rw [transcript, hdrained, String.join_cons, String.append_assoc]
  rfl

/-- Another operation takes nothing from the log. -/
theorem transcript_cons (p : Program) {op : Operation} (ops : List Operation) (s : Session)
    (h : op ≠ .takeLog) :
    transcript p (op :: ops) s = transcript p ops (op.perform p s).state := by
  rw [transcript, drained, answers, List.filterMap_cons_none (op.log?_answer p s h)]
  rfl

/-- While calls are logged, all that is logged are the lines of the entries. -/
theorem transcript_eq {ops : List Operation} (hops : ∀ op ∈ ops, ∀ on, op ≠ .setTracing on)
    (htracing : s.tracing = true) :
    transcript p ops s =
      s.log ++ Text.unlines ((entries p (attempts p ops s)).map Entry.text) := by
  induction ops generalizing s with
  | nil => simp [transcript, drained, answers, after, attempts, entries, Text.unlines]
  | cons op ops ih =>
    obtain ⟨hop, hrest⟩ := List.forall_mem_cons.mp hops
    by_cases htake : op = .takeLog
    · subst htake
      have hempty := ih hrest (s := { s with log := "" }) htracing
      rw [transcript_takeLog, hempty, String.empty_append]
      rfl
    · obtain ⟨htracing', hlog⟩ :=
        Ledger.foldl_record (l := s.ledger) htracing (entries p (op.attempts p s))
      rw [← op.ledger_perform p s hop htake] at htracing' hlog
      have hlog' : (op.perform p s).state.log =
          s.log ++ Text.unlines ((entries p (op.attempts p s)).map Entry.text) := hlog
      rw [transcript_cons p ops s htake, ih hrest htracing', hlog', attempts, entries_append,
        List.map_append, Text.unlines_append, String.append_assoc]

end XBytecode.Session
