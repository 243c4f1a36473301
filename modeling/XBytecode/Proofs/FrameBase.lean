import Mathlib.Data.List.Infix
import XBytecode.Program.Resolve
import XBytecode.Proofs.CallReturn

/-!
# The active frame and the slots

Frames and slots are kept apart, and what shrinks the slots does not look at the frames. So the
active frame can come to start above the last slot: `POP`, `BOP` and `FALSEBRANCH` can take values
from below it, and a `RETURN` can leave fewer slots than the frame that it goes back to starts at.
`Stack.underruns` lists these cases, and `Effect.framed_iff` shows that there are no others as long
as the sum that finds the slot of a `STORE` is an address, which a build with checks sees to. The
values of a frame that starts above the last slot are none.

A program whose instructions take their values from the active frame, the arguments of a new frame
included, keeps its frames nested (`Stack.Nested`), and then its returns do no harm either. Since
a frame can be opened over slots of the frames below it, the order of the bases is part of the
invariant.
-/

namespace XBytecode

namespace Stack

/-- Where the frame below the active one starts. -/
def callerBase (s : Stack) : Nat :=
  s.bases.pop.back?.getD 0

/-- Whether an instruction that succeeds leaves fewer slots than the active frame starts at, when
there were enough before. -/
def underruns (s : Stack) : Instruction → Bool
  | .pop count => count < s.size && s.size < s.frameBase + count
  | .bop _ | .falseBranch _ => s.size ≤ s.frameBase
  | .ret _ => min (s.size - 1) s.frameBase + 1 < s.callerBase
  | _ => false

/-- Whether an instruction takes values from the active frame only. What a `RETURN` takes is not
looked at. -/
def staysInFrame (s : Stack) : Instruction → Bool
  | .args count => s.frameBase + count ≤ s.size
  | .ret _ => true
  | instr => !s.underruns instr

/-- Every frame starts where the one below it starts or above that, and the active one starts at a
slot or right behind the last. -/
structure Nested (s : Stack) : Prop where
  /-- The frames are opened one above the other. -/
  ordered : s.frameBases.Pairwise (· ≤ ·)
  /-- The active frame starts among the slots. -/
  framed : s.frameBase ≤ s.size

/-- The values of the active frame are those in the slots from its base on. -/
theorem getElem?_frameValues (s : Stack) (i : Nat) :
    s.frameValues[i]? = s.slot? (s.frameBase + i) := by
  unfold frameValues slot? size
  rw [Array.getElem?_toList, Array.getElem?_extract]
  by_cases h : s.frameBase + i < s.slots.size
  · rw [if_pos (by omega)]
  · rw [if_neg (by omega), Array.getElem?_eq_none (by omega)]

/-- There are as many values in the active frame as slots from its base on. -/
theorem length_frameValues (s : Stack) : s.frameValues.length = s.size - s.frameBase := by
  simp [frameValues, size]

/-- A frame opened last is the active one. -/
theorem frameBase_of_push {s : Stack} {bases : Array Nat} {base : Nat}
    (h : s.bases = bases.push base) : s.frameBase = base := by
  rw [frameBase, h, Array.back?_push, Option.getD_some]

/-- The frame below the one opened last is the one that was active before. -/
theorem callerBase_of_push {s : Stack} {bases : Array Nat} {base : Nat}
    (h : s.bases = bases.push base) : s.callerBase = bases.back?.getD 0 := by
  rw [callerBase, h, Array.pop_push]

/-- What is left of the slots when values are discarded. -/
theorem size_discard (s : Stack) (count : Nat) :
    (s.discard count).2.size = if count < s.size then s.size - count else s.size := by
  unfold discard
  split
  · simp only [size, Array.size_shrink]
    omega
  · rfl

/-- Discarding values leaves the frames alone. -/
theorem frameBase_discard (s : Stack) (count : Nat) :
    (s.discard count).2.frameBase = s.frameBase := by
  unfold discard
  split <;> rfl

/-- A push takes no slot away. -/
theorem size_le_push (s : Stack) (v : Int32) : s.size ≤ (s.push v).size := by
  simp [size, push]

/-- What is left of the slots when a frame is closed over a value. -/
theorem size_unwind (below : Array Int32) (base : Nat) (v : Int32) :
    ((below.shrink base).push v).size = min below.size base + 1 := by
  simp only [Array.size_push, Array.size_shrink]
  omega

section Nesting

variable {s : Stack} (hs : s.Nested)
include hs

/-- No frame starts above the active one. -/
theorem Nested.le_frameBase {base : Nat} (h : base ∈ s.frameBases) : base ≤ s.frameBase := by
  obtain ⟨outer, houter⟩ := List.getLast?_eq_some_iff.mp s.getLast?_frameBases
  have hordered := hs.ordered
  rw [houter] at hordered h
  obtain hmem | hmem := List.mem_append.mp h
  · exact (List.pairwise_append.mp hordered).2.2 base hmem _ (List.mem_singleton_self _)
  · exact Nat.le_of_eq (List.mem_singleton.mp hmem)

/-- The frame below the active one does not start above it. -/
theorem Nested.callerBase_le : s.callerBase ≤ s.frameBase := by
  apply hs.le_frameBase
  cases hcaller : s.bases.pop.back? with
  | none => simp [callerBase, hcaller, frameBases]
  | some base =>
    have hmem : base ∈ s.bases.toList.dropLast := by
      rw [← Array.toList_pop]
      exact Array.mem_toList_iff.mpr (Array.mem_of_back? hcaller)
    have hbases : base ∈ s.bases.toList := List.mem_of_mem_dropLast hmem
    rw [callerBase, hcaller, frameBases]
    exact List.mem_cons_of_mem _ hbases

/-- Where frames are nested, an instruction that takes values from the active frame only does not
underrun it, and neither does a `RETURN`. -/
theorem Nested.not_underruns {instr : Instruction} (h : s.staysInFrame instr = true) :
    s.underruns instr = false := by
  have hcaller := hs.callerBase_le
  have hframed := hs.framed
  cases instr with
  | ret name =>
    rw [underruns, decide_eq_false_iff_not]
    omega
  | args count => rfl
  | _ => simpa [staysInFrame] using h

end Nesting

end Stack

namespace Machine

open Stack (Nested)

/-! ## What an instruction does to the active frame -/

section Instructions

variable {instr : Instruction} {m m' : Machine}

/-- From a machine whose active frame starts among the slots, an instruction leads to one whose
active frame does not, exactly if it underruns the frame. -/
theorem Effect.framed_iff (h : Effect instr m m') (hsum : m.stack.sumFits instr = true)
    (hm : m.stack.frameBase ≤ m.stack.size) :
    m'.stack.frameBase ≤ m'.stack.size ↔ m.stack.underruns instr = false := by
  cases h with
  | pop =>
    simp only [Stack.frameBase_discard, Stack.size_discard, Stack.underruns,
      Bool.and_eq_false_iff, decide_eq_false_iff_not]
    split <;> omega
  -- One slot fewer is left of those that there were, and the frame is the same.
  | @bop _ _ below _ _ v hslots =>
    have hsize : m.stack.size = below.size + 2 := by simp [Stack.size, hslots]
    have hleft : (below.push v).size = below.size + 1 := by simp
    show m.stack.frameBase ≤ (below.push v).size ↔ decide (m.stack.size ≤ m.stack.frameBase) = false
    rw [decide_eq_false_iff_not]
    omega
  | @branch _ _ _ below hslots =>
    have hsize : m.stack.size = below.size + 1 := by simp [Stack.size, hslots]
    show m.stack.frameBase ≤ below.size ↔ decide (m.stack.size ≤ m.stack.frameBase) = false
    rw [decide_eq_false_iff_not]
    omega
  | @pass _ _ below _ hslots =>
    have hsize : m.stack.size = below.size + 1 := by simp [Stack.size, hslots]
    show m.stack.frameBase ≤ below.size ↔ decide (m.stack.size ≤ m.stack.frameBase) = false
    rw [decide_eq_false_iff_not]
    omega
  -- The caller's frame is the active one again, over what is left of the slots.
  | @ret _ _ _ bases below _ base v _ hbases hslots =>
    have hsize : m.stack.size = below.size + 1 := by simp [Stack.size, hslots]
    have hleft := Stack.size_unwind below base v
    have hactive := Stack.frameBase_of_push hbases
    have hcaller := Stack.callerBase_of_push hbases
    show bases.back?.getD 0 ≤ ((below.shrink base).push v).size ↔
      decide (min (m.stack.size - 1) m.stack.frameBase + 1 < m.stack.callerBase) = false
    rw [decide_eq_false_iff_not, hcaller, hactive, hleft]
    omega
  -- A store goes to a slot of the frame, which is therefore not taken away.
  | @store _ offset _ below v hslots hindex =>
    have haddress := Stack.address_eq hsum
    refine iff_of_true ?_ rfl
    show m.stack.frameBase ≤ (below.setIfInBounds (m.stack.address offset) v).size
    rw [Array.size_setIfInBounds]
    omega
  | @args _ count hcount =>
    refine iff_of_true ?_ rfl
    have hactive : (m.stack.bases.push (m.stack.size - count)).back?.getD 0 =
        m.stack.size - count := by rw [Array.back?_push, Option.getD_some]
    show (m.stack.bases.push (m.stack.size - count)).back?.getD 0 ≤ m.stack.size
    omega
  | lit => exact iff_of_true (hm.trans (m.stack.size_le_push _)) rfl
  | load => exact iff_of_true (hm.trans (m.stack.size_le_push _)) rfl
  | read => exact iff_of_true (hm.trans (m.stack.size_le_push _)) rfl
  | dump =>
    refine iff_of_true ?_ rfl
    split <;> exact hm
  -- The other instructions leave the stack alone.
  | _ => exact iff_of_true hm rfl

/-- An instruction leaves the frames alone, opens one, or closes the active one. -/
theorem Effect.frameBases_cases (h : Effect instr m m') :
    m'.stack.frameBases = m.stack.frameBases ∨
      (∃ count, instr = .args count ∧
        m'.stack.frameBases = m.stack.frameBases ++ [m.stack.size - count]) ∨
      ∃ base, m.stack.frameBases = m'.stack.frameBases ++ [base] := by
  cases h with
  | args => exact .inr (.inl ⟨_, rfl, by simp [Stack.frameBases]⟩)
  | @ret _ _ _ _ _ _ base _ _ hbases =>
    exact .inr (.inr ⟨base, by simp [Stack.frameBases, hbases]⟩)
  | pop =>
    left
    simp only [Stack.frameBases, Stack.discard]
    split <;> rfl
  | dump =>
    left
    split <;> rfl
  | _ => exact .inl rfl

/-- An instruction that takes values from the active frame only keeps the frames nested. -/
theorem Effect.nested (h : Effect instr m m') (hsum : m.stack.sumFits instr = true)
    (hm : Nested m.stack) (hstays : m.stack.staysInFrame instr = true) : Nested m'.stack := by
  refine ⟨?_, (h.framed_iff hsum hm.framed).mpr (hm.not_underruns hstays)⟩
  obtain hsame | ⟨count, rfl, hopened⟩ | ⟨base, hclosed⟩ := h.frameBases_cases
  · rw [hsame]
    exact hm.ordered
  · -- The arguments lie in the active frame, so the new one does not start below it.
    have hroom : m.stack.frameBase + count ≤ m.stack.size := of_decide_eq_true hstays
    rw [hopened, List.pairwise_append]
    refine ⟨hm.ordered, List.pairwise_singleton _ _, fun base hbase opened hmem => ?_⟩
    have hle := hm.le_frameBase hbase
    rw [List.mem_singleton.mp hmem]
    omega
  · have hordered := hm.ordered
    rw [hclosed] at hordered
    exact (List.pairwise_append.mp hordered).1

end Instructions

/-! ## Runs -/

/-- `Run b p admits m m'`: steps that succeed in the build lead from `m` to `m'`, each of an
instruction that is admitted on the stack that it finds. -/
inductive Run (b : Build) (p : Program) (admits : Stack → Instruction → Bool) :
    Machine → Machine → Prop where
  /-- No step is taken. -/
  | refl {m : Machine} : Run b p admits m m
  /-- A step is taken behind the others. -/
  | step {m₀ m m' : Machine} {instr : Instruction} (hrun : Run b p admits m₀ m)
    (hadmits : admits m.stack instr = true) (hstep : b.Steps p m instr m') : Run b p admits m₀ m'

/-- Which steps of a build take the active frame from among the slots, as far as the steps go whose
instructions `fits` admits, and which runs do not. -/
structure FrameKept (b : Build) (p : Program) (fits : Stack → Instruction → Bool)
    (channel : Channel) (m : Machine) : Prop where
  /-- A step leaves the active frame behind the last slot exactly if it underruns the frame. -/
  step : m.stack.frameBase ≤ m.stack.size → ∀ instr m', b.Steps p m instr m' →
    fits m.stack instr = true →
      (m'.stack.size < m'.stack.frameBase ↔ m.stack.underruns instr = true)
  /-- Without an underrun, the active frame starts among the slots. -/
  framed : Run b p (fun s instr => fits s instr && !s.underruns instr) (start channel) m →
    m.stack.frameBase ≤ m.stack.size
  /-- If values are taken from the active frame only, the frames are nested. -/
  nested : Run b p (fun s instr => fits s instr && s.staysInFrame instr) (start channel) m →
    Nested m.stack

section Runs

variable {b : Build} {p : Program} {m m' : Machine} {instr : Instruction}
variable {fits : Stack → Instruction → Bool}

/-- Steps that are admitted are so where more is admitted. -/
theorem Run.mono {admits admits' : Stack → Instruction → Bool} (h : Run b p admits m m')
    (hadmits : ∀ s instr, admits s instr = true → admits' s instr = true) :
    Run b p admits' m m' := by
  induction h with
  | refl => exact .refl
  | step _ hadmitted hstep ih => exact ih.step (hadmits _ _ hadmitted) hstep

/-- The stack of a step is the one that its instruction leaves. -/
theorem effect_stack_of_step (h : b.Steps p m instr m') :
    ∃ m₁, Effect instr m m₁ ∧ m'.stack = m₁.stack := by
  obtain ⟨-, m₁, heffect, hm'⟩ := effect_of_step h.step_eq
  refine ⟨m₁, heffect, ?_⟩
  rw [hm']

/-- From a machine whose active frame starts among the slots, a step leads to one whose active frame
does not, exactly if its instruction underruns the frame. -/
theorem framed_iff_of_step (h : b.Steps p m instr m') (hsum : m.stack.sumFits instr = true)
    (hm : m.stack.frameBase ≤ m.stack.size) :
    m'.stack.frameBase ≤ m'.stack.size ↔ m.stack.underruns instr = false := by
  obtain ⟨m₁, heffect, hstack⟩ := effect_stack_of_step h
  rw [hstack]
  exact heffect.framed_iff hsum hm

section Fitting

variable (hfits : ∀ {instr m m'}, b.Steps p m instr m' → fits m.stack instr = true →
  m.stack.sumFits instr = true)
include hfits

/-- Without an underrun, the active frame starts among the slots throughout. -/
theorem Run.framed (h : Run b p (fun s instr => fits s instr && !s.underruns instr) m m')
    (hm : m.stack.frameBase ≤ m.stack.size) : m'.stack.frameBase ≤ m'.stack.size := by
  induction h with
  | refl => exact hm
  | step _ hadmits hstep ih =>
    -- The frame is among the slots before the step, so that the step lemma applies to it.
    obtain ⟨hfit, hno⟩ := Bool.and_eq_true_iff.mp hadmits
    rw [framed_iff_of_step hstep (hfits hstep hfit) ih]
    simpa using hno

/-- If values are taken from the active frame only, the frames are nested throughout. -/
theorem Run.nested (h : Run b p (fun s instr => fits s instr && s.staysInFrame instr) m m')
    (hm : Nested m.stack) : Nested m'.stack := by
  induction h with
  | refl => exact hm
  | step _ hadmits hstep ih =>
    obtain ⟨hfit, hstays⟩ := Bool.and_eq_true_iff.mp hadmits
    obtain ⟨m₁, heffect, hstack⟩ := effect_stack_of_step hstep
    rw [hstack]
    exact heffect.nested (hfits hstep hfit) ih hstays

end Fitting

end Runs

/-- A machine at its start has the one frame that starts at the first slot. -/
theorem nested_start (channel : Channel) : Nested (start channel).stack :=
  ⟨List.pairwise_singleton _ _, Nat.le_refl 0⟩

/-- Where all sums of the steps that `fits` admits are addresses, it is known which of them take the
active frame from among the slots. -/
theorem frameKept {b : Build} {p : Program} {fits : Stack → Instruction → Bool}
    (hfits : ∀ {instr m m'}, b.Steps p m instr m' → fits m.stack instr = true →
      m.stack.sumFits instr = true) (channel : Channel) (m : Machine) :
    FrameKept b p fits channel m where
  step hm instr m' hstep hfit := by
    have hiff := framed_iff_of_step hstep (hfits hstep hfit) hm
    rw [← Nat.not_le, hiff, Bool.not_eq_false]
  framed hrun := hrun.framed hfits (nested_start channel).framed
  nested hrun := hrun.nested hfits (nested_start channel)

/-- In every state the values of the active frame are those in the slots from its base up to the
last, and none if it starts behind the last. A machine starts with its active frame among the slots,
and in a build with checks a step leads from there to a state in which it is not, exactly if it is a
`POP`, a `BOP` or a `FALSEBRANCH` that takes values from below the frame, or a `RETURN` to a frame
that starts above what is left of the slots. So the active frame starts among the slots in every
state that the machine gets to by steps without an underrun. In particular it does, and all frames
are nested, in every state that the machine gets to by steps that take their operands, what they
discard and the arguments of new frames from the active frame only. In a build without checks the
same is true of the steps whose sums are addresses. -/
theorem frame_among_slots (p : Program) (channel : Channel) (m : Machine) :
    (m.stack.frameValues.length = m.stack.size - m.stack.frameBase ∧
      ∀ i, m.stack.frameValues[i]? = m.stack.slot? (m.stack.frameBase + i)) ∧
    FrameKept .checked p (fun _ _ => true) channel m ∧
    FrameKept .wrapping p Stack.sumFits channel m := by
  refine ⟨⟨m.stack.length_frameValues, m.stack.getElem?_frameValues⟩, ?_, ?_⟩
  · exact frameKept (fun hstep _ => hstep.sumFits) channel m
  · exact frameKept (fun _ hfit => hfit) channel m

/-- Two values, a frame without arguments, and a `POP` of a value from below it. -/
def underrunCode : List Instruction :=
  [.lit 1 none, .lit 2 none, .args 0, .pop 1]

/-- The machine before an instruction of the code, with the slots and the bases given. -/
def underrunMachine (slots : Array Int32) (bases : Array Nat) (pc : Nat) : Machine :=
  { start {} with stack := { slots, bases }, pc }

/-- The code runs to its `POP` in both builds, and so far takes values from the active frame
only. -/
theorem run_underrunCode (b : Build) :
    Run b (.resolve underrunCode) (fun s instr => s.sumFits instr && s.staysInFrame instr)
      (start {}) (underrunMachine #[1, 2] #[2] 3) := by
  have hone : b.Steps (.resolve underrunCode) (start {}) (.lit 1 none)
      (underrunMachine #[1] #[] 1) := by cases b <;> rfl
  have htwo : b.Steps (.resolve underrunCode) (underrunMachine #[1] #[] 1) (.lit 2 none)
      (underrunMachine #[1, 2] #[] 2) := by cases b <;> rfl
  have hframe : b.Steps (.resolve underrunCode) (underrunMachine #[1, 2] #[] 2) (.args 0)
      (underrunMachine #[1, 2] #[2] 3) := by cases b <;> rfl
  exact ((Run.refl.step rfl hone).step rfl htwo).step rfl hframe

/-- The `POP` is performed in both builds, and one slot is left. -/
theorem step_underrunMachine (b : Build) :
    b.Steps (.resolve underrunCode) (underrunMachine #[1, 2] #[2] 3) (.pop 1)
      (underrunMachine #[1] #[2] 4) := by cases b <;> rfl

/-- Before the `POP` the frames are nested, and in both builds the `POP` leaves the active frame
behind the last slot, without values. -/
theorem frame_among_slots_until_underrun :
    Run .wrapping (.resolve underrunCode) (fun s instr => s.sumFits instr && s.staysInFrame instr)
        (start {}) (underrunMachine #[1, 2] #[2] 3) ∧
      Nested (underrunMachine #[1, 2] #[2] 3).stack ∧
      ∀ b : Build, ∃ m',
        b.Steps (.resolve underrunCode) (underrunMachine #[1, 2] #[2] 3) (.pop 1) m' ∧
          m'.stack.size < m'.stack.frameBase ∧ m'.stack.frameValues.length = 0 := by
  obtain ⟨-, hchecked, hwrapping⟩ :=
    frame_among_slots (.resolve underrunCode) {} (underrunMachine #[1, 2] #[2] 3)
  have hrun := run_underrunCode .wrapping
  have hnested := hwrapping.nested hrun
  refine ⟨hrun, hnested, fun b => ⟨_, step_underrunMachine b, ?_, rfl⟩⟩
  cases b with
  | wrapping =>
    exact (hwrapping.step hnested.framed _ _ (step_underrunMachine _) rfl).mpr (by decide)
  | checked =>
    exact (hchecked.step hnested.framed _ _ (step_underrunMachine _) rfl).mpr (by decide)

/-- In neither build does the active frame start among the slots in every state that a machine gets
to by successful steps. -/
theorem frame_above_slots :
    ¬∃ b : Build, ∀ (p : Program) (channel : Channel) (m : Machine),
      Run b p (fun _ _ => true) (start channel) m → m.stack.frameBase ≤ m.stack.size := by
  rintro ⟨b, hframed⟩
  have hrun := ((run_underrunCode b).mono fun _ _ _ => rfl).step rfl (step_underrunMachine b)
  have habove : ¬(underrunMachine #[1] #[2] 4).stack.frameBase ≤
      (underrunMachine #[1] #[2] 4).stack.size := by decide
  exact habove (hframed _ _ _ hrun)

end Machine

end XBytecode
