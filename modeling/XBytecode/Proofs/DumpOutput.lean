import Mathlib.Tactic.Choose
import XBytecode.Proofs.Lockstep
import XBytecode.Proofs.Transparency

/-!
# What the dump adds

A machine whose dump is suppressed is watched beside one that dumps as its program says, step by
step, on devices that work (`Watched`). Between two steps the second one lingers in its mode exactly
if the mode is on, so that an instruction is shown exactly if the mode was on before it or is on
behind it (`DumpMode.shows_after`). A step of both has one outcome and leaves them watched, and what
it writes differs by what is shown (`Watched.step`). What whole runs write follows by induction, and
so does where the dump is on: from a `DUMP ON` up to the next `DUMP OFF` (`region_iff`).
-/

namespace XBytecode

open EStateM (Result bind_of_ok bind_of_error pure_apply get_bind_apply modify_apply)

namespace DumpMode

/-- The mode behind an instruction, before anything is shown. -/
def after (d : DumpMode) : Instruction → DumpMode
  | .dump on => d.set on
  | _ => d

/-- An instruction is shown exactly if the mode was on before it or is on behind it. -/
theorem shows_after {d : DumpMode} (h : d.lingering = d.on) (instr : Instruction) :
    (d.after instr).shows = (d.on || (d.after instr).on) := by
  unfold after
  split
  · simp only [shows, set, h]
    cases d.on <;> simp
  · simp only [shows, h]

/-- A mode in which nothing is shown has settled. -/
theorem settle_of_hidden {d : DumpMode} (h : d.shows = false) : d.settle = d := by
  obtain ⟨on, lingering, suppressed⟩ := d
  simp only [shows, Bool.or_eq_false_iff] at h
  simp [settle, h]

/-- A mode that has settled lingers exactly if it is on. -/
theorem lingering_settle_after {d : DumpMode} (h : d.lingering = d.on) (instr : Instruction) :
    (d.after instr).settle.lingering = (d.after instr).on := by
  unfold after
  split
  · next on => cases on <;> simp [settle, set]
  · cases hon : d.on <;> simp [settle, h, hon]

/-- Settling does not turn the dump on or off. -/
@[simp]
theorem on_settle (d : DumpMode) : d.settle.on = d.on := by
  unfold settle
  split <;> rfl

/-- Settling leaves the suppression alone. -/
@[simp]
theorem suppressed_settle (d : DumpMode) : d.settle.suppressed = d.suppressed := by
  unfold settle
  split <;> rfl

/-- No instruction changes the suppression. -/
@[simp]
theorem suppressed_after (d : DumpMode) (instr : Instruction) :
    (d.after instr).suppressed = d.suppressed := by
  unfold after
  split <;> rfl

end DumpMode

namespace Machine

/-! ## What a step shows -/

/-- The lines for an instruction that has been performed, with the stack that it left. -/
def dumpBlock (p : Program) (instr : Instruction) (m : Machine) : String :=
  m.dumpLine p instr ++ "\n" ++ m.stack.layout ++ "\n"

/-- What the dump is to show of the next step: if it succeeds, and the mode was on before it or is
on behind it, the lines for its instruction, on the machine that has performed it and has not yet
advanced. -/
def shown (p : Program) (m : Machine) : String :=
  match step p m with
  | .ok instr m' =>
    if m.dump.on || m'.dump.on then dumpBlock p instr (perform instr m).state else ""
  | .error _ _ => ""

/-- On a device that works, an instruction is shown if the mode asks for it, and this settles it. -/
theorem showDump_of_works {m : Machine} (h : m.channel.device.Works) (p : Program)
    (instr : Instruction) :
    ∃ requests, showDump p instr m = .ok () { m with
      dump := m.dump.settle
      channel := { m.channel with
        written := m.channel.written ++ (if m.dump.shows then dumpBlock p instr m else "")
        requests } } := by
  cases hshows : m.dump.shows with
  | false =>
    refine ⟨m.channel.requests, ?_⟩
    rw [showDump_of_hidden p instr hshows, DumpMode.settle_of_hidden hshows]
    simp
  | true =>
    refine ⟨.write (dumpBlock p instr m) :: m.channel.requests, ?_⟩
    rw [showDump, get_bind_apply, if_pos hshows,
      bind_of_ok (onChannel_of_ok (Channel.write_of_works h _))]
    rfl

/-- A step on a device that works, once its instruction has been performed. -/
theorem step_of_works {p : Program} {instr : Instruction} {m m₁ : Machine}
    (hget : p.get? m.pc = some instr) (hperform : perform instr m = .ok () m₁)
    (hworks : m₁.channel.device.Works) :
    ∃ requests, step p m = .ok instr { m₁ with
      pc := following m₁.pc instr
      dump := m₁.dump.settle
      channel := { m₁.channel with
        written := m₁.channel.written ++ (if m₁.dump.shows then dumpBlock p instr m₁ else "")
        requests } } := by
  obtain ⟨requests, hshow⟩ := showDump_of_works hworks p instr
  refine ⟨requests, ?_⟩
  rw [step_apply hget, bind_of_ok hperform, bind_of_ok hshow, bind_of_ok (advance_apply instr _)]
  rfl

/-! ## A machine that dumps and one whose dump is suppressed -/

/-- A machine `a` that dumps as its program says, beside a machine `b` whose dump is suppressed. -/
structure Watched (a b : Machine) : Prop extends Alike a b where
  /-- The first one's device works. -/
  works : a.channel.device.Works
  /-- The second one's device works. -/
  works' : b.channel.device.Works
  /-- The first one follows `DUMP` instructions. -/
  unsuppressed : a.dump.suppressed = false
  /-- An instruction that has turned the dump off has been shown. -/
  settled : a.dump.lingering = a.dump.on
  /-- The second one shows nothing. -/
  hidden : b.dump = { suppressed := true }

/-- A step has one outcome on both machines and leaves them watched, and what it writes on the first
one is what it writes on the second one and then what is shown. -/
structure SameStep (p : Program) (a b : Machine) : Prop where
  /-- The instructions executed or the faults are the same. -/
  outcome : (step p a).outcome = (step p b).outcome
  /-- The machines can be watched further. -/
  watched : Watched (step p a).state (step p b).state
  /-- What is shown comes behind what is written. -/
  written : ∃ out, (step p b).state.channel.written = b.channel.written ++ out ∧
    (step p a).state.channel.written = a.channel.written ++ (out ++ shown p a)
  /-- The first one's mode is set by `DUMP` instructions. -/
  mode : (step p a).state.dump.on = ((p.get? a.pc).elim a.dump a.dump.after).on

section Watching

variable {a b : Machine} (h : Watched a b)
include h

/-- Performing an instruction has one outcome and writes one text on both machines, and changes the
mode of the first one only. -/
theorem Watched.perform (instr : Instruction) :
    (∃ out, Together out a b (perform instr a) (perform instr b)) ∧
      (Machine.perform instr a).state.dump = a.dump.after instr ∧
      (Machine.perform instr b).state.dump = b.dump := by
  by_cases hinstr : ∃ on, instr = .dump on
  · obtain ⟨on, rfl⟩ := hinstr
    have ha : Machine.perform (.dump on) a = .ok () (a.setDump on) := by
      rw [Machine.perform, modify_apply, h.unsuppressed]
      rfl
    have hb : Machine.perform (.dump on) b = .ok () b := by
      rw [Machine.perform, modify_apply, h.hidden]
      rfl
    rw [ha, hb]
    exact ⟨⟨"", rfl, ⟨h.stack, h.returns, h.pc, h.running, h.input⟩, String.append_empty.symm,
      String.append_empty.symm, rfl, rfl⟩, rfl, rfl⟩
  · rw [not_exists] at hinstr
    have hafter : a.dump.after instr = a.dump := by
      cases instr with
      | dump on => exact absurd rfl (hinstr on)
      | _ => rfl
    rw [hafter]
    exact ⟨lockstep_perform hinstr a b h.toAlike h.works h.works', dump_state_perform hinstr a,
      dump_state_perform hinstr b⟩

/-- Where there is no instruction, both machines fail alike. -/
theorem Watched.step_of_outside {p : Program} (hget : p.get? a.pc = none) : SameStep p a b := by
  have ha := Machine.step_of_outside hget
  have hb := Machine.step_of_outside (h.pc ▸ hget)
  have hshown : shown p a = "" := by rw [shown, ha]
  constructor
  · rw [ha, hb, Result.outcome, Result.outcome, h.pc]
  · rw [ha, hb]
    exact h
  · rw [ha, hb, hshown]
    exact ⟨"", String.append_empty.symm, String.append_empty.symm⟩
  · rw [ha, hget]
    rfl

section Performing

variable {p : Program} {instr : Instruction} {a₁ b₁ : Machine} {out : String}
  (hget : p.get? a.pc = some instr) (hdump : a₁.dump = a.dump.after instr)
  (hdump' : b₁.dump = b.dump)
include hget hdump hdump'

/-- An instruction that fails does so on both machines, and nothing is shown. -/
theorem Watched.step_of_error {g : Fault} (ha : Machine.perform instr a = .error g a₁)
    (hb : Machine.perform instr b = .error g b₁)
    (htogether : Together out a b (Machine.perform instr a) (Machine.perform instr b)) :
    SameStep p a b := by
  rw [ha, hb] at htogether
  have hstep : Machine.step p a = .error g a₁ := by rw [step_apply hget, bind_of_error ha]
  have hstep' : Machine.step p b = .error g b₁ := by
    rw [step_apply (h.pc ▸ hget), bind_of_error hb]
  have hshown : shown p a = "" := by rw [shown, hstep]
  -- A `DUMP` does not fail, so the mode is the one before.
  have hkeep : a₁.dump = a.dump := by
    cases instr with
    | dump on => cases ha
    | _ => exact hdump
  constructor
  · rw [hstep, hstep']
    rfl
  · rw [hstep, hstep']
    exact
      { toAlike := htogether.alike
        works := htogether.device ▸ h.works
        works' := htogether.device' ▸ h.works'
        unsuppressed := by rw [Result.state_error, hkeep]; exact h.unsuppressed
        settled := by rw [Result.state_error, hkeep]; exact h.settled
        hidden := hdump'.trans h.hidden }
  · rw [hstep, hstep', hshown]
    exact ⟨out, htogether.written', by rw [String.append_empty]; exact htogether.written⟩
  · rw [hstep, hget]
    exact congrArg DumpMode.on hdump

/-- An instruction that succeeds does so on both machines, and the first one shows it if its mode
asks for that. -/
theorem Watched.step_of_ok (ha : Machine.perform instr a = .ok () a₁)
    (hb : Machine.perform instr b = .ok () b₁)
    (htogether : Together out a b (Machine.perform instr a) (Machine.perform instr b)) :
    SameStep p a b := by
  rw [ha, hb] at htogether
  have hworks : a₁.channel.device.Works := htogether.device ▸ h.works
  have hworks' : b₁.channel.device.Works := htogether.device' ▸ h.works'
  obtain ⟨requests, hstep⟩ := step_of_works hget ha hworks
  obtain ⟨requests', hstep'⟩ := step_of_works (h.pc ▸ hget) hb hworks'
  -- The mode asks for it exactly if it was on before or is on now.
  have hshows : a₁.dump.shows = (a.dump.on || a₁.dump.on) := by
    rw [hdump, DumpMode.shows_after h.settled]
  have hshown : shown p a = if a₁.dump.shows then dumpBlock p instr a₁ else "" := by
    rw [shown, hstep]
    simp only [DumpMode.on_settle, ha, Result.state_ok, hshows]
  have hhidden : b₁.dump.shows = false := by
    rw [hdump', h.hidden]
    rfl
  constructor
  · rw [hstep, hstep']
    rfl
  · rw [hstep, hstep']
    have halike : Alike a₁ b₁ := htogether.alike
    exact
      { stack := halike.stack
        returns := halike.returns
        pc := congrArg (following · instr) halike.pc
        running := halike.running
        input := halike.input
        works := hworks
        works' := hworks'
        unsuppressed := by simp [hdump, h.unsuppressed]
        settled := by simp [hdump, DumpMode.lingering_settle_after h.settled]
        hidden := (DumpMode.settle_of_hidden hhidden).trans (hdump'.trans h.hidden) }
  · rw [hstep, hstep', hshown, hhidden]
    refine ⟨out, ?_, ?_⟩
    · simpa using htogether.written'
    · rw [← String.append_assoc]
      exact congrArg (· ++ _) htogether.written
  · rw [hstep, hget, Result.state_ok, DumpMode.on_settle]
    exact congrArg DumpMode.on hdump

end Performing

/-- A step on a watched machine is the same as on the one whose dump is suppressed. -/
theorem Watched.step (p : Program) : SameStep p a b := by
  cases hget : p.get? a.pc with
  | none => exact h.step_of_outside hget
  | some instr =>
    obtain ⟨⟨out, htogether⟩, hdump, hdump'⟩ := h.perform instr
    obtain ⟨_, ha, hb⟩ | ⟨g, ha, hb⟩ := eq_of_outcome htogether.outcome
    · exact h.step_of_ok hget hdump hdump' ha hb htogether
    · exact h.step_of_error hget hdump hdump' ha hb htogether

end Watching

/-! ## Whole runs -/

/-- The last attempt of several. -/
theorem afterSteps_succ (p : Program) (n : Nat) (m : Machine) :
    afterSteps p (n + 1) m = (step p (afterSteps p n m)).state := by
  rw [afterSteps_add]
  rfl

/-- A new machine beside one that has been told to show nothing. -/
theorem watched_start {channel : Channel} (h : channel.device.Works) :
    Watched (start channel) (start channel).suppressDump :=
  { stack := rfl
    returns := rfl
    pc := rfl
    running := rfl
    input := rfl
    works := h
    works' := h
    unsuppressed := rfl
    settled := rfl
    hidden := rfl }

section Runs

variable {a b : Machine} (h : Watched a b) (p : Program)
include h

/-- Machines that are watched stay watched, however many steps they take. -/
theorem Watched.afterSteps (n : Nat) : Watched (a.afterSteps p n) (b.afterSteps p n) := by
  induction n with
  | zero => exact h
  | succ n ih =>
    rw [afterSteps_succ, afterSteps_succ]
    exact (ih.step p).watched

/-- What the first machine writes in a run is, step by step, what the second one writes and then
what is shown. -/
theorem Watched.written_afterSteps :
    ∃ out : Nat → String,
      (∀ n, (b.afterSteps p (n + 1)).channel.written =
        (b.afterSteps p n).channel.written ++ out n) ∧
      ∀ n, (a.afterSteps p n).channel.written = a.channel.written ++
        String.join ((List.range n).map fun k => out k ++ shown p (a.afterSteps p k)) := by
  choose out hout hshown using fun n => ((h.afterSteps p n).step p).written
  refine ⟨out, fun n => by rw [afterSteps_succ, hout], fun n => ?_⟩
  induction n with
  | zero => exact String.append_empty.symm
  | succ n ih =>
    rw [afterSteps_succ, hshown, ih, List.range_succ, List.map_append, String.join_append,
      String.append_assoc]
    rfl

/-- The mode after a step is the one that a `DUMP` asks for, or else the one before. -/
theorem Watched.on_succ (n : Nat) :
    (a.afterSteps p (n + 1)).dump.on = true ↔
      p.get? (a.afterSteps p n).pc = some (.dump true) ∨
        (a.afterSteps p n).dump.on = true ∧
          p.get? (a.afterSteps p n).pc ≠ some (.dump false) := by
  rw [afterSteps_succ, ((h.afterSteps p n).step p).mode]
  cases hget : p.get? (a.afterSteps p n).pc with
  | none => simp
  | some instr =>
    cases instr with
    | dump on => cases on <;> simp [DumpMode.after, DumpMode.set]
    | _ => simp [DumpMode.after]

/-- In a run that begins with the mode off, it is on exactly behind a `DUMP ON` that no `DUMP OFF`
has followed. -/
theorem Watched.on_iff (hoff : a.dump.on = false) (n : Nat) :
    (a.afterSteps p n).dump.on = true ↔
      ∃ j < n, p.get? (a.afterSteps p j).pc = some (.dump true) ∧
        ∀ k, j < k → k < n → p.get? (a.afterSteps p k).pc ≠ some (.dump false) := by
  induction n with
  | zero => simp [Machine.afterSteps, hoff]
  | succ n ih =>
    rw [h.on_succ p n, ih]
    constructor
    · rintro (hon | ⟨⟨j, hj, hon, hno⟩, hlast⟩)
      · exact ⟨n, Nat.lt_succ_self n, hon, fun k hk hk' => by omega⟩
      · refine ⟨j, by omega, hon, fun k hk hk' => ?_⟩
        obtain hlt | rfl := Nat.lt_succ_iff_lt_or_eq.mp hk'
        · exact hno k hk hlt
        · exact hlast
    · rintro ⟨j, hj, hon, hno⟩
      obtain hlt | rfl := Nat.lt_succ_iff_lt_or_eq.mp hj
      · exact .inr ⟨⟨j, hlt, hon, fun k hk hk' => hno k hk (by omega)⟩, hno n hlt (by omega)⟩
      · exact .inl hon

/-- In such a run a step is taken with the mode on before it or behind it exactly from a `DUMP ON`
up to the next `DUMP OFF`, both included. -/
theorem Watched.region_iff (hoff : a.dump.on = false) (n : Nat) :
    (a.afterSteps p n).dump.on = true ∨ (a.afterSteps p (n + 1)).dump.on = true ↔
      ∃ j ≤ n, p.get? (a.afterSteps p j).pc = some (.dump true) ∧
        ∀ k, j < k → k < n → p.get? (a.afterSteps p k).pc ≠ some (.dump false) := by
  rw [h.on_succ p n]
  constructor
  · intro hregion
    by_cases hon : (a.afterSteps p n).dump.on = true
    · obtain ⟨j, hj, hregion⟩ := (h.on_iff p hoff n).mp hon
      exact ⟨j, Nat.le_of_lt hj, hregion⟩
    · obtain hon' | hnext | ⟨hon', -⟩ := hregion
      · exact absurd hon' hon
      · exact ⟨n, Nat.le_refl n, hnext, fun k hk hk' => by omega⟩
      · exact absurd hon' hon
  · rintro ⟨j, hj, hregion⟩
    obtain hlt | rfl := Nat.lt_or_eq_of_le hj
    · exact .inl ((h.on_iff p hoff n).mpr ⟨j, hlt, hregion⟩)
    · exact .inr (.inl hregion.1)

end Runs

/-- The dump only observes. Take a new machine and one that has been told to show nothing, on a
device that works, and let both execute a program for any number of steps. They stay alike and have
the same outcomes. What the first one writes is, step by step, what the second one writes and then,
for a step that succeeds with the mode on before or behind it, the lines for the instruction. These
steps run from a `DUMP ON` up to the next `DUMP OFF`, both included. -/
theorem dump_observes (p : Program) {channel : Channel} (h : channel.device.Works) :
    let a := fun n => (start channel).afterSteps p n
    let b := fun n => (start channel).suppressDump.afterSteps p n
    (∀ n, Alike (a n) (b n) ∧ (step p (a n)).outcome = (step p (b n)).outcome) ∧
      (∃ out : Nat → String,
        (∀ n, (b (n + 1)).channel.written = (b n).channel.written ++ out n) ∧
        ∀ n, (a n).channel.written = channel.written ++
          String.join ((List.range n).map fun k => out k ++ shown p (a k))) ∧
      ∀ n, (a n).dump.on = true ∨ (a (n + 1)).dump.on = true ↔
        ∃ j ≤ n, p.get? (a j).pc = some (.dump true) ∧
          ∀ k, j < k → k < n → p.get? (a k).pc ≠ some (.dump false) := by
  intro a b
  have hstart := watched_start h
  have hrun : ∀ n, Watched (a n) (b n) := hstart.afterSteps p
  exact ⟨fun n => ⟨(hrun n).toAlike, ((hrun n).step p).outcome⟩, hstart.written_afterSteps p,
    hstart.region_iff p rfl⟩

/-- A program that has its output dumped. -/
def dumpedProgram : Program :=
  { instructions := #[.lit 2 none, .dump true, .write, .dump false, .halt]
    labels := ∅ }

/-- The three instructions from `DUMP ON` to `DUMP OFF` are shown, and the last of them is the one
that turns the dump off. -/
theorem dump_observes_write :
    Device.working.Works ∧
      ((start {}).suppressDump.afterSteps dumpedProgram 5).channel.written = "2\n" ∧
      ((start {}).afterSteps dumpedProgram 5).channel.written =
        "DUMP ON\n[2]\n" ++ "2\n" ++ "WRITE\n[2]\n" ++ "DUMP OFF\n[2]\n" ∧
      Alike ((start {}).afterSteps dumpedProgram 5)
        ((start {}).suppressDump.afterSteps dumpedProgram 5) ∧
      ∃ j ≤ 3, dumpedProgram.get? ((start {}).afterSteps dumpedProgram j).pc = some (.dump true) ∧
        ∀ k, j < k → k < 3 →
          dumpedProgram.get? ((start {}).afterSteps dumpedProgram k).pc ≠ some (.dump false) := by
  have hworks : Device.working.Works := fun _ _ => rfl
  have hobserves := @dump_observes dumpedProgram {} hworks
  exact ⟨hworks, rfl, rfl, (hobserves.1 5).1, (hobserves.2.2 3).mp (.inl rfl)⟩

end Machine

end XBytecode
