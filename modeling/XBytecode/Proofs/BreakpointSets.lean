import XBytecode.Proofs.Prompt
import XBytecode.Proofs.Words

/-!
# Breakpoint commands act on sets

Setting and clearing are two cases of one thing: a `Change` accepts a line or refuses it by what the
source is, whatever breakpoints there are, and a line that is accepted is put into the set of
breakpoints or taken out of it (`Change.on_eq`). So the loop over the lines of a command decides on
each of them alone, and what it leaves behind and prints can be said at once (`eachLine_prints`):
the accepted lines have been entered into the set, one complaint has been printed for each refused
one, and the accepted ones are given in order for the confirmation. Of the set, only the members of
the list matter (`Change.mem_apply`), which order and repetition do not change.

An `Edit` is one command. Every sequence of edits leaves only breakpoints that can be set
(`Sound.apply`), and this makes clearing a line that does not exist a case of clearing.
-/

namespace XBytecode

open EStateM (bind_of_ok pure_apply)

namespace Source

/-! ## Lines that can hold a breakpoint -/

/-- A part occurs in a text if the text is the part with something before and behind it. -/
theorem occursIn_eq_true_iff {part cs : List Char} : occursIn part cs = true ↔ part <:+: cs := by
  induction cs with
  | nil => rw [occursIn, List.isEmpty_iff, List.infix_nil]
  | cons c cs ih =>
    rw [occursIn, Bool.or_eq_true, ih, List.isPrefixOf_iff_prefix, List.infix_cons_iff]

/-- A text makes its line breakable if one of the parts occurs in it. -/
theorem isBreakable_eq_true_iff {text : String} :
    isBreakable text = true ↔ ∃ part ∈ breakableTexts, part.toList <:+: text.toList := by
  simp only [isBreakable, List.any_eq_true, occursIn_eq_true_iff]

/-- The line is one of the source, and its text holds one of the texts that make it breakable. -/
def Breakable (source : Source) (line : Nat) : Prop :=
  (1 ≤ line ∧ line ≤ source.size) ∧
    ∃ text, source.line? line = some text ∧ ∃ part ∈ breakableTexts, part.toList <:+: text.toList

/-- A line is breakable if it has a text and the text makes it so. -/
theorem breakable_iff {source : Source} {line : Nat} :
    source.Breakable line ↔ (source.line? line).any isBreakable = true := by
  simp only [Breakable, Option.any_eq_true, ← isBreakable_eq_true_iff]
  constructor
  · rintro ⟨-, htext⟩
    exact htext
  · rintro ⟨text, hline, hbreakable⟩
    exact ⟨exists_line?_iff.mp ⟨text, hline⟩, text, hline, hbreakable⟩

/-- Whether a line is breakable can be computed. -/
instance (source : Source) (line : Nat) : Decidable (source.Breakable line) :=
  decidable_of_iff _ breakable_iff.symm

/-- Why a breakpoint is refused: the line is not breakable, if there is such a line. -/
def refusal (source : Source) (line : Nat) : Error :=
  if 1 ≤ line ∧ line ≤ source.size then .notBreakable line else .outOfRange line source.size

/-- Breakpoints are listed in ascending order. -/
theorem pairwise_breakpoints (source : Source) : source.breakpoints.toList.Pairwise (· < ·) :=
  Std.ExtTreeSet.ordered_toList.imp Nat.compare_eq_lt.mp

end Source

namespace Console

/-! ## Setting and clearing -/

/-- What can be done to breakpoints. -/
inductive Change where
  /-- They are set. -/
  | set
  /-- They are cleared. -/
  | clear
  deriving DecidableEq, Repr

namespace Change

/-- The change of the breakpoint of one line. -/
def on : Change → Source → Nat → Except Source.Error Source
  | set => Source.setBreakpoint
  | clear => Source.clearBreakpoint

/-- The action that changes the breakpoint of one line. -/
def act : Change → Nat → Session.Act Unit
  | set => Session.setBreakpoint
  | clear => Session.clearBreakpoint

/-- The command that changes the breakpoints of lines. -/
def command : Change → List Nat → Command
  | set => .setBreakpoints
  | clear => .clearBreakpoints

/-- How the change is confirmed. -/
def done : Change → String
  | set => "set"
  | clear => "cleared"

/-- The line is one whose breakpoint can be changed so. -/
def Accepts : Change → Source → Nat → Prop
  | set, source, line => source.Breakable line
  | clear, source, line => 1 ≤ line ∧ line ≤ source.size

/-- Whether a change accepts a line can be computed. -/
instance (change : Change) (source : Source) (line : Nat) :
    Decidable (change.Accepts source line) :=
  match change with
  | set => inferInstanceAs (Decidable (source.Breakable line))
  | clear => inferInstanceAs (Decidable (1 ≤ line ∧ line ≤ source.size))

/-- The source behind the change of one line that is accepted. -/
def update (change : Change) (source : Source) (line : Nat) : Source :=
  match change with
  | set => { source with breakpoints := source.breakpoints.insert line }
  | clear => { source with breakpoints := source.breakpoints.erase line }

/-- The lines of a command that are accepted. -/
def accepted (change : Change) (source : Source) (lines : List Nat) : List Nat :=
  lines.filter (change.Accepts source ·)

/-- The lines of a command that are refused. -/
def refused (change : Change) (source : Source) (lines : List Nat) : List Nat :=
  lines.filter (¬ change.Accepts source ·)

/-- The first line is decided on apart from the rest. -/
theorem accepted_cons (change : Change) (source : Source) (line : Nat) (rest : List Nat) :
    change.accepted source (line :: rest) =
      if change.Accepts source line then line :: change.accepted source rest
      else change.accepted source rest := by
  simp only [accepted, List.filter_cons, decide_eq_true_eq]

/-- A line is refused exactly if it is not accepted. -/
theorem refused_cons (change : Change) (source : Source) (line : Nat) (rest : List Nat) :
    change.refused source (line :: rest) =
      if change.Accepts source line then change.refused source rest
      else line :: change.refused source rest := by
  simp only [refused, List.filter_cons, decide_eq_true_eq, ite_not]

/-- A line is accepted or refused, and the breakpoints that there are play no part in it. -/
theorem on_eq (change : Change) (source : Source) (line : Nat) :
    change.on source line =
      if change.Accepts source line then .ok (change.update source line)
      else .error (source.refusal line) := by
  have hexists : (∃ text, source.line? line = some text) ↔ 1 ≤ line ∧ line ≤ source.size :=
    Source.exists_line?_iff
  cases hline : source.line? line with
  | none =>
    -- There is no such line, so neither change is possible.
    have hrange : ¬ (1 ≤ line ∧ line ≤ source.size) := by
      rw [← hexists, hline]
      simp
    have hrefuses : ¬ change.Accepts source line := by
      cases change with
      | set => exact fun hbreakable => hrange hbreakable.1
      | clear => exact hrange
    have herror : source.lineOrError line = .error (.outOfRange line source.size) := by
      rw [Source.lineOrError, hline]
    rw [if_neg hrefuses, Source.refusal, if_neg hrange]
    cases change with
    | set =>
      rw [on, Source.setBreakpoint, herror]
      rfl
    | clear =>
      rw [on, Source.clearBreakpoint, herror]
      rfl
  | some text =>
    have hrange : 1 ≤ line ∧ line ≤ source.size := hexists.mp ⟨text, hline⟩
    have hfound : source.lineOrError line = .ok text := by
      rw [Source.lineOrError, hline]
    cases change with
    | set =>
      have haccepts : set.Accepts source line ↔ Source.isBreakable text = true := by
        rw [Accepts, Source.breakable_iff, hline]
        rfl
      have hset : on set source line =
          if Source.isBreakable text = true then
            .ok { source with breakpoints := source.breakpoints.insert line }
          else .error (.notBreakable line) := by
        rw [on, Source.setBreakpoint, hfound]
        rfl
      simp only [hset, haccepts, Source.refusal, if_pos hrange, update]
    | clear =>
      have haccepts : clear.Accepts source line := hrange
      rw [if_pos haccepts, on, Source.clearBreakpoint, hfound]
      rfl

/-- The action of a change makes the change to the source. -/
theorem changes_act (change : Change) : Changes change.on change.act := by
  intro line s
  cases change <;> rfl

/-- The source behind a command. -/
def apply (change : Change) (source : Source) (lines : List Nat) : Source :=
  (change.accepted source lines).foldl change.update source

/-- A change leaves the lines of the source alone. -/
theorem lines_update (change : Change) (source : Source) (line : Nat) :
    (change.update source line).lines = source.lines := by
  cases change <;> rfl

/-- Only the lines of the source decide which lines are accepted. -/
theorem accepts_of_lines {source source' : Source} (h : source'.lines = source.lines)
    (change : Change) : change.Accepts source' = change.Accepts source := by
  have hline : source'.line? = source.line? := by
    funext number
    rw [Source.line?, Source.line?, h]
  have hsize : source'.size = source.size := by rw [Source.size, Source.size, h]
  funext number
  cases change with
  | set => simp only [Accepts, Source.Breakable, hline, hsize]
  | clear => simp only [Accepts, hsize]

/-- Which lines are accepted does not depend on the breakpoints. -/
theorem accepted_of_lines {source source' : Source} (h : source'.lines = source.lines)
    (change : Change) : change.accepted source' = change.accepted source := by
  funext lines
  simp only [accepted, accepts_of_lines h]

/-- Which lines are refused does not depend on the breakpoints. -/
theorem refused_of_lines {source source' : Source} (h : source'.lines = source.lines)
    (change : Change) : change.refused source' = change.refused source := by
  funext lines
  simp only [refused, accepts_of_lines h]

/-- Changing breakpoints leaves the lines alone. -/
theorem lines_apply (change : Change) (source : Source) (lines : List Nat) :
    (change.apply source lines).lines = source.lines := by
  have hfold (accepted : List Nat) (source : Source) :
      (accepted.foldl change.update source).lines = source.lines := by
    induction accepted generalizing source with
    | nil => rfl
    | cons line rest ih => rw [List.foldl_cons, ih, lines_update]
  exact hfold _ source

/-- Setting adds the lines that are accepted to the breakpoints, and clearing takes them away. -/
theorem mem_apply {change : Change} {source : Source} {lines : List Nat} {n : Nat} :
    n ∈ (change.apply source lines).breakpoints ↔
      match change with
      | set => n ∈ source.breakpoints ∨ (n ∈ lines ∧ set.Accepts source n)
      | clear => n ∈ source.breakpoints ∧ ¬ (n ∈ lines ∧ clear.Accepts source n) := by
  have hset (accepted : List Nat) (source : Source) :
      n ∈ (accepted.foldl (update set) source).breakpoints ↔
        n ∈ source.breakpoints ∨ n ∈ accepted := by
    induction accepted generalizing source with
    | nil => simp
    | cons line rest ih =>
      rw [List.foldl_cons, ih, update, Std.ExtTreeSet.mem_insert,
        Std.LawfulEqCmp.compare_eq_iff_eq, List.mem_cons]
      grind
  have hclear (accepted : List Nat) (source : Source) :
      n ∈ (accepted.foldl (update clear) source).breakpoints ↔
        n ∈ source.breakpoints ∧ n ∉ accepted := by
    induction accepted generalizing source with
    | nil => simp
    | cons line rest ih =>
      rw [List.foldl_cons, ih, update, Std.ExtTreeSet.mem_erase, ne_eq,
        Std.LawfulEqCmp.compare_eq_iff_eq, List.mem_cons]
      grind
  cases change with
  | set => rw [apply, hset, accepted, List.mem_filter, decide_eq_true_eq]
  | clear => rw [apply, hclear, accepted, List.mem_filter, decide_eq_true_eq]

/-- Of the lines of a command, only those that are accepted matter, and only which they are. -/
theorem apply_congr {change : Change} {source : Source} {lines lines' : List Nat}
    (h : ∀ n, change.Accepts source n → (n ∈ lines' ↔ n ∈ lines)) :
    change.apply source lines' = change.apply source lines := by
  have hmem : ∀ n, n ∈ (change.apply source lines').breakpoints ↔
      n ∈ (change.apply source lines).breakpoints := by
    intro n
    have hsame : (n ∈ lines' ∧ change.Accepts source n) ↔ (n ∈ lines ∧ change.Accepts source n) :=
      and_congr_left (h n)
    cases change with
    | set => simp only [mem_apply, hsame]
    | clear => simp only [mem_apply, hsame]
  have hlines : (change.apply source lines').lines = (change.apply source lines).lines := by
    rw [lines_apply, lines_apply]
  have hbreakpoints : (change.apply source lines').breakpoints =
      (change.apply source lines).breakpoints := Std.ExtTreeSet.ext_mem hmem
  calc change.apply source lines'
      = ⟨(change.apply source lines').lines, (change.apply source lines').breakpoints⟩ := rfl
    _ = ⟨(change.apply source lines).lines, (change.apply source lines).breakpoints⟩ := by
        rw [hlines, hbreakpoints]
    _ = change.apply source lines := rfl

end Change

/-! ## What a command prints -/

/-- The second session is the first one with just this text written. -/
def Prints (text : String) (s t : Session) : Prop :=
  ∃ requests, t =
    { s with
      machine.channel.written := s.machine.channel.written ++ text
      machine.channel.requests := requests }

variable {s t u : Session} {text text' : String}

/-- An action that changes nothing prints the empty text. -/
theorem prints_nothing (s : Session) : Prints "" s s :=
  ⟨s.machine.channel.requests, by rw [String.append_empty]⟩

/-- Showing a text prints it. -/
theorem prints_shown (text : String) (s : Session) : Prints text s (s.shown text) :=
  ⟨_, rfl⟩

/-- What is printed later stands behind what is printed first. -/
theorem Prints.trans (h : Prints text s t) (h' : Prints text' t u) :
    Prints (text ++ text') s u := by
  obtain ⟨requests, rfl⟩ := h
  obtain ⟨requests', rfl⟩ := h'
  exact ⟨requests', by simp [String.append_assoc]⟩

/-- What has been printed does not get in the way of another source. -/
theorem Prints.withSource (h : Prints text s t) (source : Source) :
    Prints text { s with source } { t with source } := by
  obtain ⟨requests, rfl⟩ := h
  exact ⟨requests, rfl⟩

/-- Printing leaves the device as it is. -/
theorem Prints.device (h : Prints text s t) :
    t.machine.channel.device = s.machine.channel.device := by
  obtain ⟨_, rfl⟩ := h
  rfl

/-- Printing leaves the source alone. -/
theorem Prints.source (h : Prints text s t) : t.source = s.source := by
  obtain ⟨_, rfl⟩ := h
  rfl

/-- What is printed is appended to the output. -/
theorem Prints.written (h : Prints text s t) :
    t.machine.channel.written = s.machine.channel.written ++ text := by
  obtain ⟨_, rfl⟩ := h
  rfl

/-- How a line is complained about. -/
def complaint (source : Source) (line : Nat) : String :=
  "error: " ++ (source.refusal line).message

/-- Complaints do not depend on the breakpoints. -/
theorem complaint_of_lines {source source' : Source} (h : source'.lines = source.lines) :
    complaint source' = complaint source := by
  have hsize : source'.size = source.size := by rw [Source.size, Source.size, h]
  funext line
  rw [complaint, complaint, Source.refusal, Source.refusal, hsize]

/-- The loop over the lines of a command gives those that are accepted, in order, and leaves a
complaint about each of the others. -/
theorem eachLine_prints (change : Change) (lines : List Nat)
    (h : s.machine.channel.device.Works) :
    ∃ t, eachLine change.act lines s = .ok (change.accepted s.source lines) t ∧
      Prints (Text.unlines ((change.refused s.source lines).map (complaint s.source)))
        { s with source := change.apply s.source lines } t := by
  induction lines generalizing s with
  | nil => exact ⟨s, rfl, prints_nothing s⟩
  | cons line rest ih =>
    have hact := change.changes_act line s
    rw [change.on_eq] at hact
    by_cases haccepts : change.Accepts s.source line
    · -- The rest is looked at in a source with another breakpoint, and accepted all the same.
      rw [if_pos haccepts] at hact
      have hattempt : attempt (change.act line) s =
          .ok (.ok ()) { s with source := change.update s.source line } := by
        rw [attempt, hact]
      have hlines : (change.update s.source line).lines = s.source.lines :=
        change.lines_update s.source line
      obtain ⟨t, ht, hprints⟩ := ih (s := { s with source := change.update s.source line }) h
      have happly : change.apply s.source (line :: rest) =
          change.apply (change.update s.source line) rest := by
        rw [Change.apply, Change.apply, Change.accepted_cons, if_pos haccepts,
          Change.accepted_of_lines hlines, List.foldl_cons]
      rw [Change.accepted_of_lines hlines] at ht
      rw [Change.refused_of_lines hlines, complaint_of_lines hlines] at hprints
      refine ⟨t, ?_, ?_⟩
      · rw [eachLine, bind_of_ok hattempt, Change.accepted_cons, if_pos haccepts]
        exact bind_of_ok ht _
      · rw [Change.refused_cons, if_pos haccepts, happly]
        exact hprints
    · -- Nothing changes but for the complaint, which stands before those about the rest.
      rw [if_neg haccepts] at hact
      have hattempt : attempt (change.act line) s =
          .ok (.error (.source (s.source.refusal line))) s := by rw [attempt, hact]
      have happly : change.apply s.source (line :: rest) = change.apply s.source rest := by
        rw [Change.apply, Change.apply, Change.accepted_cons, if_neg haccepts]
      have hlines :
          Text.unlines ((change.refused s.source (line :: rest)).map (complaint s.source)) =
            complaint s.source line ++ "\n" ++
              Text.unlines ((change.refused s.source rest).map (complaint s.source)) := by
        rw [Change.refused_cons, if_neg haccepts, List.map_cons, Text.unlines, List.map_cons,
          String.join_cons]
        rfl
      obtain ⟨t, ht, hprints⟩ := ih (s := s.shown (complaint s.source line ++ "\n")) h
      refine ⟨t, ?_, ?_⟩
      · rw [eachLine, bind_of_ok hattempt, Change.accepted_cons, if_neg haccepts]
        exact (bind_of_ok (print_of_works h _) _).trans ht
      · rw [happly, hlines]
        exact ((prints_shown _ s).withSource _).trans hprints

/-- What a command prints, line by line: the complaints, and a confirmation if any line has been
accepted, with an empty line behind it. -/
def report (change : Change) (source : Source) (lines : List Nat) : List String :=
  (change.refused source lines).map (complaint source) ++
    match change.accepted source lines with
    | [] => []
    | accepted => ["Breakpoint " ++ change.done ++ ": " ++ numbersText accepted, ""]

/-- A command changes the breakpoints of the lines that are accepted, and reports. -/
theorem execute_prints (p : Program) (fuel : Nat) (change : Change) (lines : List Nat)
    (h : s.machine.channel.device.Works) :
    ∃ t, execute p fuel (change.command lines) s = .ok () t ∧
      Prints (Text.unlines (report change s.source lines))
        { s with source := change.apply s.source lines } t := by
  have hexecute : execute p fuel (change.command lines) =
      changeBreakpoints change.act change.done lines := by
    cases change <;> rfl
  obtain ⟨t, ht, hprints⟩ := eachLine_prints change lines h
  rw [hexecute, changeBreakpoints, bind_of_ok ht, report]
  cases haccepted : change.accepted s.source lines with
  | nil =>
    rw [List.append_nil]
    exact ⟨t, rfl, hprints⟩
  | cons first rest =>
    have hworks : t.machine.channel.device.Works := hprints.device ▸ h
    refine ⟨_, print_of_works hworks _, ?_⟩
    have hconfirmation : Text.unlines
        ["Breakpoint " ++ change.done ++ ": " ++ numbersText (first :: rest), ""] =
          "Breakpoint " ++ change.done ++ ": " ++ numbersText (first :: rest) ++ "\n\n" := by
      have hfeeds : ("\n\n" : String) = "\n" ++ "\n" := by decide
      simp [Text.unlines, String.join_cons, hfeeds, String.append_assoc]
    rw [Text.unlines_append, hconfirmation]
    exact hprints.trans (prints_shown _ t)

/-- The lines of a report are lines: none of them has a line feed. -/
theorem lineFeed_not_mem_of_report {change : Change} {source : Source} {lines : List Nat}
    {line : String} (h : line ∈ report change source lines) : '\n' ∉ line.toList := by
  have hcomplaint : ∀ n, '\n' ∉ (complaint source n).toList := by
    intro n
    have hdigits := Numeral.lineFeed_not_mem_toString
    rw [complaint, Source.refusal]
    split
    all_goals
      simp only [Source.Error.message, String.toList_append, List.mem_append, hdigits]
      decide
  have hnumbers : ∀ numbers : List Nat, '\n' ∉ (numbersText numbers).toList := by
    intro numbers hmem
    obtain hspace | ⟨part, hpart, hc⟩ := Text.mem_of_mem_intercalate hmem
    · exact absurd hspace (by decide)
    · obtain ⟨n, -, rfl⟩ := List.mem_map.mp hpart
      exact Numeral.lineFeed_not_mem_toString n hc
  have hdone : '\n' ∉ change.done.toList := by cases change <;> decide
  rw [report, List.mem_append] at h
  rcases h with h | h
  · obtain ⟨n, -, rfl⟩ := List.mem_map.mp h
    exact hcomplaint n
  · split at h
    · cases h
    · simp only [List.mem_cons, List.not_mem_nil, or_false] at h
      rcases h with rfl | rfl
      · simp only [String.toList_append, List.mem_append, hdone, hnumbers]
        decide
      · decide

/-! ## Sequences of commands -/

/-- The source is the one of the text, and its breakpoints are on lines that can hold one. -/
structure Sound (text : String) (source : Source) : Prop where
  lines : source.lines = (Source.ofText text).lines
  breakable : ∀ n ∈ source.breakpoints, source.Breakable n

/-- A source without breakpoints is sound. -/
theorem sound_ofText (text : String) : Sound text (Source.ofText text) where
  lines := rfl
  breakable _ hmem := absurd hmem Std.ExtTreeSet.not_mem_empty

/-- A command leaves breakpoints only on lines that can hold one. -/
theorem Sound.apply {source : Source} (h : Sound text source) (change : Change)
    (lines : List Nat) : Sound text (change.apply source lines) where
  lines := (change.lines_apply source lines).trans h.lines
  breakable n hmem := by
    have hsame : Change.set.Accepts (change.apply source lines) = Change.set.Accepts source :=
      Change.accepts_of_lines (change.lines_apply source lines) .set
    have hbreakable : source.Breakable n := by
      rw [Change.mem_apply] at hmem
      cases change with
      | set =>
        rcases hmem with hmem | ⟨-, haccepts⟩
        · exact h.breakable n hmem
        · exact haccepts
      | clear => exact h.breakable n hmem.1
    exact (congrFun hsame n).mpr hbreakable

/-- One command that changes breakpoints. -/
structure Edit where
  /-- What is done. -/
  change : Change
  /-- The lines it is done to. -/
  lines : List Nat

namespace Edit

/-- The command of an edit. -/
def command (edit : Edit) : Command :=
  edit.change.command edit.lines

/-- The commands of edits are executed, one after the other. -/
def run (p : Program) (fuel : Nat) (edits : List Edit) : Act Unit :=
  edits.forM fun edit => execute p fuel edit.command

/-- The lines that have a breakpoint behind an edit: setting unites the breakpoints with those of
the lines that can hold one, and clearing takes the lines away. -/
def Leaves (edit : Edit) (source : Source) (n : Nat) : Prop :=
  match edit.change with
  | .set => n ∈ source.breakpoints ∨ (n ∈ edit.lines ∧ source.Breakable n)
  | .clear => n ∈ source.breakpoints ∧ n ∉ edit.lines

/-- Where all breakpoints are on lines of the source, the lines that clearing refuses make no
difference. -/
theorem mem_apply_iff_leaves {source : Source} (h : Sound text source) (edit : Edit) (n : Nat) :
    n ∈ (edit.change.apply source edit.lines).breakpoints ↔ edit.Leaves source n := by
  obtain ⟨change, lines⟩ := edit
  rw [Change.mem_apply]
  cases change with
  | set => rfl
  | clear =>
    -- A line that clearing refuses is not in the source, and so it has no breakpoint.
    have hwithin : n ∈ source.breakpoints → Change.clear.Accepts source n :=
      fun hmem => (h.breakable n hmem).1
    show n ∈ source.breakpoints ∧ ¬ (n ∈ lines ∧ Change.clear.Accepts source n) ↔
      n ∈ source.breakpoints ∧ n ∉ lines
    grind

/-- Edits succeed on a device that works, and leave breakpoints only on lines that can hold one. -/
theorem run_of_works (p : Program) (fuel : Nat) (edits : List Edit)
    (h : s.machine.channel.device.Works) (hsound : Sound text s.source) :
    ∃ t, run p fuel edits s = .ok () t ∧ t.machine.channel.device.Works ∧ Sound text t.source := by
  induction edits generalizing s with
  | nil => exact ⟨s, rfl, h, hsound⟩
  | cons edit rest ih =>
    obtain ⟨t, ht, hprints⟩ := execute_prints p fuel edit.change edit.lines h
    have hworks : t.machine.channel.device.Works := hprints.device ▸ h
    have hnext : Sound text t.source := hprints.source ▸ hsound.apply edit.change edit.lines
    obtain ⟨u, hu, hkept⟩ := ih hworks hnext
    exact ⟨u, (bind_of_ok ht _).trans hu, hkept⟩

end Edit

/-- The commands that change breakpoints act on sets. After every sequence of them, all breakpoints
are on lines of the source that can hold one, they are listed in ascending order, and a line marker
is at a breakpoint exactly if its line is listed. One more command then succeeds: setting unites the
breakpoints with those of its lines that can hold one, and clearing takes its lines away. It prints
an error for each line that it refuses, and, if it accepts any, a confirmation that lists those in
their order; nothing else changes. Two commands whose lines differ in order, in how often they are
given or in what is refused leave the same breakpoints. -/
theorem breakpoints_edited_as_sets (p : Program) (fuel : Nat) (text : String) (start : Session)
    (hsource : start.source = Source.ofText text)
    (hworks : start.machine.channel.device.Works) (edits : List Edit) :
    ∃ s, Edit.run p fuel edits start = .ok () s ∧
      s.source.lines = (Source.ofText text).lines ∧
      (∀ n ∈ s.source.breakpoints, s.source.Breakable n) ∧
      s.source.breakpoints.toList.Pairwise (· < ·) ∧
      (∀ line : Int32, s.source.hasBreakpoint line = true ↔
        ∃ n ∈ s.source.breakpoints.toList, line.toInt = n) ∧
      ∀ edit : Edit, ∃ t, execute p fuel edit.command s = .ok () t ∧
        (∀ n, n ∈ t.source.breakpoints ↔ edit.Leaves s.source n) ∧
        Prints (Text.unlines (report edit.change s.source edit.lines))
          { s with source := t.source } t ∧
        (∀ line ∈ report edit.change s.source edit.lines, '\n' ∉ line.toList) ∧
        ∀ lines', (∀ n, edit.change.Accepts s.source n → (n ∈ lines' ↔ n ∈ edit.lines)) →
          ∃ t', execute p fuel (edit.change.command lines') s = .ok () t' ∧
            t'.source = t.source := by
  have hstart : Sound text start.source := hsource ▸ sound_ofText text
  obtain ⟨s, hrun, hworks, hsound⟩ := Edit.run_of_works p fuel edits hworks hstart
  refine ⟨s, hrun, hsound.lines, hsound.breakable, s.source.pairwise_breakpoints,
    fun _ => Source.hasBreakpoint_iff, ?_⟩
  intro edit
  obtain ⟨t, ht, hprints⟩ := execute_prints p fuel edit.change edit.lines hworks
  have happly : t.source = edit.change.apply s.source edit.lines := hprints.source
  refine ⟨t, ht, ?_, ?_, fun _ => lineFeed_not_mem_of_report, ?_⟩
  · intro n
    rw [happly]
    exact Edit.mem_apply_iff_leaves hsound edit n
  · rw [happly]
    exact hprints
  · intro lines' hsame
    obtain ⟨t', ht', hprints'⟩ := execute_prints p fuel edit.change lines' hworks
    exact ⟨t', ht', (hprints'.source.trans (Change.apply_congr hsame)).trans happly.symm⟩

/-- A program of four lines. -/
def fourLines : Program :=
  { instructions := #[.function "main" 1 4, .line 2, .lit 0 (some "x"), .line 3, .lit 2 none,
      .store 0 "x", .line 4, .halt]
    labels := ∅ }

/-- The text of the program. Only the last line cannot hold a breakpoint. -/
def fourLinesText : String :=
  "program \x7b\n    int x\n    x = 2\n\x7d\n"

/-- Two edits with lines that are repeated, that do not exist and that are cleared again. -/
def fourLinesEdits : List Edit :=
  [⟨.set, [3, 9, 1, 3]⟩, ⟨.clear, [0, 1]⟩]

/-- The two edits leave one breakpoint. A third edit adds another one and refuses a line. -/
theorem breakpoints_edited_as_sets_four_lines :
    ∃ s t, Edit.run fourLines 0 fourLinesEdits (.start (.ofText fourLinesText) {}) = .ok () s ∧
      s.source.breakpoints.toList = [3] ∧
      execute fourLines 0 (.setBreakpoints [4, 2]) s = .ok () t ∧
      (2 ∈ t.source.breakpoints ∧ 3 ∈ t.source.breakpoints ∧ 4 ∉ t.source.breakpoints) ∧
      t.machine.channel.written = s.machine.channel.written ++
        "error: line 4 cannot hold a breakpoint\nBreakpoint set: 2\n\n" := by
  obtain ⟨s, hrun, hlines, -, -, -, hedit⟩ :=
    breakpoints_edited_as_sets fourLines 0 fourLinesText (.start (.ofText fourLinesText) {}) rfl
      (fun _ _ => rfl) fourLinesEdits
  obtain ⟨t, ht, hmem, hprints, -, -⟩ := hedit ⟨.set, [4, 2]⟩
  have hlisted : s.source.breakpoints.toList = [3] := by
    have heval :
        (match Edit.run fourLines 0 fourLinesEdits (.start (.ofText fourLinesText) {}) with
          | .ok _ s => s.source.breakpoints.toList
          | .error _ _ => []) = [3] := by decide +kernel
    rw [hrun] at heval
    exact heval
  have hset : ∀ n, n ∈ s.source.breakpoints ↔ n = 3 := by
    intro n
    rw [← Std.ExtTreeSet.mem_toList, hlisted, List.mem_singleton]
  have hbreakable : ∀ n, s.source.Breakable n ↔ (Source.ofText fourLinesText).Breakable n :=
    fun n => iff_of_eq (congrFun (Change.accepts_of_lines hlines .set) n)
  refine ⟨s, t, hrun, hlisted, ht, ⟨?_, ?_, ?_⟩, ?_⟩
  · exact (hmem 2).mpr (.inr ⟨by decide, (hbreakable 2).mpr (by decide +kernel)⟩)
  · exact (hmem 3).mpr (.inl ((hset 3).mpr rfl))
  · rw [hmem, Edit.Leaves, hset, hbreakable]
    decide +kernel
  · have hreport : report .set s.source [4, 2] =
        ["error: line 4 cannot hold a breakpoint", "Breakpoint set: 2", ""] := by
      rw [report, Change.accepted_of_lines hlines, Change.refused_of_lines hlines,
        complaint_of_lines hlines]
      decide +kernel
    rw [hprints.written, hreport]
    rfl

end Console

end XBytecode
