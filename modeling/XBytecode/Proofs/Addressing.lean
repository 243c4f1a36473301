import XBytecode.Proofs.Capacity
import XBytecode.Proofs.Checked
import XBytecode.Proofs.Course
import XBytecode.Proofs.Skipping
import XBytecode.Proofs.Tally
import XBytecode.Proofs.Transparency

/-!
# Addresses stay in range

Three bounds keep every sum that the engines form an address. A frame starts among the slots that
there are when it is opened, so that its base is at most the capacity (`Effect.bases_le`), and it
stays so when the slots below it are taken away. An offset is read as a count, which is at most half
the limit. And an instruction takes a line that is not empty, so that there are at most half as many
instructions as bytes in a text (`Program.two_mul_size_load`).

The first bound is an invariant of the machine (`Bounded`), together with the capacity and the place
of the program counter. The other two are facts about loaded programs.
-/

namespace XBytecode

/-! ## The size of a loaded program -/

/-- A text has at least as many bytes as characters. -/
theorem Text.length_le_utf8ByteSize (text : String) : text.length ≤ text.utf8ByteSize := by
  have hbytes (cs : List Char) : cs.length ≤ String.utf8Len cs := by
    induction cs with
    | nil => exact Nat.le_refl _
    | cons c cs ih =>
      have hchar := c.utf8Size_pos
      rw [List.length_cons, String.utf8Len_cons]
      omega
  have hlength := hbytes text.toList
  rwa [← String.utf8ByteSize_ofList, String.ofList_toList, String.length_toList] at hlength

/-- Of the lines that are not empty, each takes two characters of a text, its end included. The end
of the last line may be missing. -/
theorem Text.two_mul_length_filterMap_linesFrom {α : Type} {f : String → Option α}
    (hf : f "" = none) (held cs : List Char) :
    2 * ((linesFrom held cs).filterMap f).length ≤ held.length + cs.length + 1 := by
  have hline {line : List Char} (a : α) (h : f (String.ofList line) = some a) :
      0 < line.length := by
    cases line with
    | nil => cases hf.symm.trans h
    | cons c cs => exact Nat.succ_pos _
  fun_induction linesFrom held cs with
  | case1 held hempty => simp
  | case2 held hempty =>
    have hheld : 0 < held.length := by
      rw [List.length_pos_iff]
      simpa using hempty
    have hone := List.length_filterMap_le f [String.ofList held.reverse]
    rw [List.length_singleton] at hone
    rw [List.length_nil]
    omega
  | case3 held cs ih =>
    have hheld {a : α} (h : f (endLine held) = some a) : 0 < held.length := by
      unfold endLine at h
      split at h
      · exact Nat.succ_pos _
      · simpa using hline a h
    cases hend : f (endLine held) with
    | none =>
      rw [List.filterMap_cons_none hend]
      simp only [List.length_nil, List.length_cons] at ih ⊢
      omega
    | some a =>
      have hpos := hheld hend
      rw [List.filterMap_cons_some hend]
      simp only [List.length_nil, List.length_cons] at ih ⊢
      omega
  | case4 held c cs hc ih =>
    simp only [List.length_cons] at ih ⊢
    omega

namespace Program

/-- A loaded program has at most half as many instructions as its text has bytes, and one half
more. -/
theorem two_mul_size_load (text : String) :
    2 * (load text).program.size ≤ text.utf8ByteSize + 1 := by
  have hlines := Text.two_mul_length_filterMap_linesFrom
    (f := instruction? ∘ Text.words) (by decide) [] text.toList
  have hbytes := Text.length_le_utf8ByteSize text
  rw [load_program, size_resolve, code_eq, List.filterMap_map]
  rw [List.length_nil, Nat.zero_add, String.length_toList] at hlines
  exact hlines.trans (Nat.succ_le_succ hbytes)

/-- The counts of a loaded program are below half the limit of addresses. -/
theorem counts_lt_of_get?_load {text : String} {address : Nat} {instr : Instruction}
    (h : (load text).program.get? address = some instr) :
    ∀ n ∈ instr.counts, n < Numeral.countLimit := by
  have hmem : instr ∈ (load text).program.instructions.toList :=
    Array.mem_toList_iff.mpr (Array.mem_of_getElem? h)
  exact (writable_of_mem_load instr hmem).counts

end Program

/-! ## The bases of the frames -/

namespace Machine

section Steps

variable {p : Program} {instr : Instruction} {m m' : Machine}

/-- Within the capacity, an instruction opens a frame within it. -/
theorem Effect.bases_le (h : Effect instr m m') (hsize : m.stack.size ≤ capacity)
    (hbases : ∀ base ∈ m.stack.frameBases, base ≤ capacity) :
    ∀ base ∈ m'.stack.frameBases, base ≤ capacity := by
  intro base hmem
  obtain hsame | ⟨count, -, hopened⟩ | ⟨closed, hclosed⟩ := h.frameBases_cases
  · exact hbases base (hsame ▸ hmem)
  · rw [hopened, List.mem_append, List.mem_singleton] at hmem
    obtain hmem | rfl := hmem
    · exact hbases base hmem
    · exact (Nat.sub_le _ _).trans hsize
  · apply hbases
    rw [hclosed]
    exact List.mem_append_left _ hmem

/-- The program counter is confined to the program, and the slots and the bases of the frames to the
capacity. -/
structure Bounded (p : Program) (m : Machine) : Prop where
  /-- The program counter has not got past the end. -/
  confined : Confined p m
  /-- There are no more slots than the capacity allows. -/
  size : m.stack.size ≤ capacity
  /-- No frame starts above the capacity. -/
  bases : ∀ base ∈ m.stack.frameBases, base ≤ capacity

/-- The bounds hold at the start. -/
theorem bounded_start (p : Program) (channel : Channel) : Bounded p (start channel) where
  confined := ⟨Nat.zero_le _, by simp [start]⟩
  size := Nat.zero_le _
  bases := by simp [start, Stack.frameBases]

/-- The bounds are about the stack and the addresses alone. -/
theorem Bounded.congr (h : Bounded p m) (hstack : m'.stack = m.stack) (hpc : m'.pc = m.pc)
    (hreturns : m'.returns = m.returns) : Bounded p m' where
  confined := ⟨hpc ▸ h.confined.pc, hreturns ▸ h.confined.returns⟩
  size := hstack ▸ h.size
  bases := hstack ▸ h.bases

variable {code : List Instruction}

/-- A step keeps the bounds, whether it succeeds or fails. -/
theorem Bounded.step (h : Bounded (.resolve code) m) :
    Bounded (.resolve code) (Machine.step (.resolve code) m).state := by
  refine ⟨h.confined.step, size_le_of_step _ h.size, ?_⟩
  cases hstep : Machine.step (.resolve code) m with
  | ok instr m' =>
    obtain ⟨-, m₁, heffect, hm'⟩ := effect_of_step hstep
    rw [EStateM.Result.state_ok, hm']
    exact heffect.bases_le h.size h.bases
  | error g m' =>
    obtain ⟨-, -, rfl⟩ | ⟨instr, -, ⟨-, hrefusal⟩ | ⟨m₁, e, channel, heffect, -, rfl⟩⟩ :=
      refusal_of_step hstep
    · exact h.bases
    · rw [EStateM.Result.state_error, Stack.frameBases, hrefusal.bases]
      exact h.bases
    · -- The instruction has been performed and could not be shown.
      exact heffect.bases_le h.size h.bases

/-- Any number of steps keeps the bounds. -/
theorem Bounded.afterSteps (h : Bounded (.resolve code) m) (n : Nat) :
    Bounded (.resolve code) (m.afterSteps (.resolve code) n) := by
  induction n generalizing m with
  | zero => exact h
  | succ n ih => exact ih h.step

end Steps

/-- The bounds hold in every state that a machine can be brought to. -/
theorem Reachable.bounded {code : List Instruction} {channel : Channel} {m : Machine}
    (h : Reachable (.resolve code) channel m) : Bounded (.resolve code) m := by
  induction h with
  | start => exact bounded_start _ channel
  | step _ ih => exact ih.step
  | halt _ ih | setDump _ _ ih | suppressDump _ ih => exact ih.congr rfl rfl rfl

end Machine

/-- The bounds hold of the machine in the whole course of a session. -/
theorem Session.Course.bounded {code : List Instruction} {source : Source} {channel : Channel}
    {l : List Session} {s : Session} (h : Course (.resolve code) source channel l s) :
    Machine.Bounded (.resolve code) s.machine := by
  induction h with
  | start => exact (Machine.bounded_start _ channel).congr rfl rfl rfl
  | request _ op ih =>
    rw [Operation.perform_machine]
    exact ih.afterSteps _
  | halt _ ih | reconnect _ _ ih => exact ih.congr rfl rfl rfl

/-! ## The engines on loaded programs -/

namespace Machine

open Guarded (free)

/-- What the engines may add up around a machine on a program is an address. -/
structure InRange (p : Program) (m : Machine) : Prop where
  /-- No frame starts above the capacity. -/
  bases : ∀ base ∈ m.stack.frameBases, base ≤ capacity
  /-- Every frame's base and every offset of the program make a sum. -/
  sums : ∀ base ∈ m.stack.frameBases, ∀ instr ∈ p.instructions, ∀ n ∈ instr.counts,
    base + n < Address.limit
  /-- There is a next address. -/
  next : m.pc + 1 < Address.limit

variable {text : String} {m : Machine}

/-- Within the bounds, what is added up on a loaded program is an address. -/
theorem Bounded.inRange (h : Bounded (Program.load text).program m)
    (htext : text.utf8ByteSize < Address.limit) : InRange (Program.load text).program m where
  bases := h.bases
  sums := by
    intro base hbase instr hinstr n hn
    obtain ⟨address, hget⟩ := Array.mem_iff_getElem?.mp hinstr
    have hlow := h.bases base hbase
    have hcount := Program.counts_lt_of_get?_load hget n hn
    unfold capacity at hlow
    unfold Numeral.countLimit at hcount
    unfold Address.limit
    omega
  next := by
    have hpc := h.confined.pc
    have hsize := Program.two_mul_size_load text
    unfold Address.limit at htext ⊢
    omega

/-- Where what is added up is an address, so it is for every instruction of the program. -/
theorem InRange.fits {p : Program} {instr : Instruction} {address : Nat} (h : InRange p m)
    (hget : p.get? address = some instr) : Checked.Fits instr m where
  offsets := h.sums _ (List.mem_of_getLast? m.stack.getLast?_frameBases) instr
    (Array.mem_of_getElem? hget)
  pc := h.next

/-- Within the bounds, a step on a loaded program panics nowhere. -/
theorem Bounded.checked_step (h : Bounded (Program.load text).program m)
    (htext : text.utf8ByteSize < Address.limit) :
    Checked.step (Program.load text).program m =
      free (Machine.step (Program.load text).program) m := by
  apply Checked.step_eq
  · intro instr hget
    exact (h.inRange htext).fits hget
  · intro instr m₁ hget heffect
    obtain ⟨hpc, hreturns⟩ := h.confined.effect hget heffect
    have hbehind : Bounded (Program.load text).program m₁ := by
      refine ⟨⟨Nat.le_of_lt hpc, hreturns⟩, ?_, heffect.bases_le h.size h.bases⟩
      have hsize := heffect.size_le
      exact hsize.trans (Nat.max_le.mpr ⟨h.size, Nat.le_refl _⟩)
    exact (hbehind.inRange htext).fits hget

/-- Within the bounds, a step of a session on a loaded program panics nowhere. -/
theorem Bounded.checked_sessionStep {s : Session}
    (h : Bounded (Program.load text).program s.machine)
    (htext : text.utf8ByteSize < Address.limit) :
    Session.Checked.step (Program.load text).program s =
      free (Session.step (Program.load text).program) s := by
  apply Session.Checked.step_eq (h.checked_step htext)
  intro instr m hstep
  have hget := (effect_of_step hstep).1
  have hnext : Bounded (Program.load text).program m := by
    have hstate : Bounded (Program.load text).program
        (Machine.step (Program.load text).program s.machine).state := h.step
    rwa [hstep] at hstate
  exact ((hnext.inRange htext).fits hget).offsets

/-- The addresses of a loaded program stay in range, if those of its text do, in every state that a
machine can be brought to and in the whole course of every session, with any device. No frame starts
above the capacity. Every sum of a frame's base and an offset of the program is below the limit, and
so is the address behind the program counter. And whichever of these states the engines step from,
with the sums, the differences and the indices checked they give the result that they give without
the checks, so that no step panics. -/
theorem addresses_in_range {text : String} (htext : text.utf8ByteSize < Address.limit)
    (channel : Channel) :
    Address.limit = 2 ^ 64 ∧
      (∀ m, Reachable (Program.load text).program channel m →
        InRange (Program.load text).program m ∧
          Checked.step (Program.load text).program m =
            free (Machine.step (Program.load text).program) m) ∧
      ∀ source l s, Session.Course (Program.load text).program source channel l s →
        InRange (Program.load text).program s.machine ∧
          Session.Checked.step (Program.load text).program s =
            free (Session.step (Program.load text).program) s := by
  refine ⟨rfl, ?_, ?_⟩
  · intro m hreach
    have hbounded : Bounded (Program.load text).program m := hreach.bounded
    exact ⟨hbounded.inRange htext, hbounded.checked_step htext⟩
  · intro source l s hcourse
    have hbounded : Bounded (Program.load text).program s.machine := hcourse.bounded
    exact ⟨hbounded.inRange htext, hbounded.checked_sessionStep htext⟩

/-- A program with the largest offset that can be read, in a frame that does not start at the
bottom. -/
def farText : String :=
  "LIT 7 a\nARGS 0\nFORMAL n 9223372036854775807\nLOAD 9223372036854775807 n\n"

/-- The instructions of that program. -/
def farCode : List Instruction :=
  [.lit 7 (some "a"), .args 0, .formal "n" 9223372036854775807, .load 9223372036854775807 "n"]

/-- The instructions are those of the text. -/
theorem load_farText : (Program.load farText).program = .resolve farCode :=
  congrArg Program.resolve (by decide +kernel)

/-- On that program the machine comes to the `LOAD` and is refused the slot, whose number is that of
an address all the same, and a session binds the parameter to it. -/
theorem addresses_in_range_far :
    farText.utf8ByteSize < Address.limit ∧
      (∃ m, Reachable (Program.load farText).program {} m ∧ m.stack.frameBases = [0, 1] ∧
        Checked.step (Program.load farText).program m =
          .error (.error ⟨3, .stack (.outOfRange 9223372036854775808 1)⟩) m) ∧
      ∃ l s t, Session.Course (Program.load farText).program (.ofText "") {} l s ∧
        Session.Checked.step (Program.load farText).program s =
          .ok (.formal "n" 9223372036854775807) t ∧
        t.current.scope.lookup "n" = .ok 9223372036854775808 := by
  have htext : farText.utf8ByteSize < Address.limit := by decide
  obtain ⟨-, hmachine, hsession⟩ := addresses_in_range htext {}
  simp only [load_farText] at hmachine hsession ⊢
  refine ⟨htext, ?_, ?_⟩
  · have hreach : Reachable (.resolve farCode) {} _ := .step (.step (.step .start))
    have hstate : (Machine.step (.resolve farCode) (Machine.step (.resolve farCode)
        (Machine.step (.resolve farCode) (start {})).state).state).state =
        { start {} with stack.slots := #[7], stack.bases := #[1], pc := 3 } := rfl
    rw [hstate] at hreach
    refine ⟨_, hreach, rfl, ?_⟩
    rw [(hmachine _ hreach).2]
    rfl
  · let s := (Session.step (.resolve farCode) (Session.step (.resolve farCode)
      (Session.start (.ofText "") {})).state).state
    let t := (Session.step (.resolve farCode) s).state
    have hcourse : Session.Course (.resolve farCode) (.ofText "") {} _ s := .step (.step .start)
    have hstep : Session.step (.resolve farCode) s = .ok (.formal "n" 9223372036854775807) t := rfl
    have hlookup : t.current.scope.lookup "n" = .ok 9223372036854775808 := by decide +kernel
    refine ⟨_, s, t, hcourse, ?_, hlookup⟩
    rw [(hsession _ _ s hcourse).2, free, hstep]

end Machine

end XBytecode
