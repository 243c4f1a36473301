import XBytecode.Proofs.Builds
import XBytecode.Proofs.Outcome

/-!
# Calls leave their caller's slots alone

A call stands for the frames and the return addresses that its caller has left on the two stacks,
with the callee's own on top of each (`Call`). While the callee and the functions that it calls are
at work (`Call.Active`), an instruction leaves the slots below the callee's base alone: a return
leaves what lies below its frame, what is taken from the top lies above the base, and a store goes
to the active frame or above it, unless the sum that finds its slot has wrapped around
(`Effect.slotsBelow_eq_iff`). The run lemma is `Call.Segment.slotsBelow`. When the callee returns,
its caller finds its own slots with one value on top of them, its own frames and return addresses,
and goes on behind the call (`Call.Intact`).

A build with checks lets no sum wrap around. A build without them does, down to the slots of the
caller (`Stack.overwrites`).
-/

namespace XBytecode

/-! ## Slots below an index -/

namespace Stack

/-- The values in the slots below an index, bottom first. -/
def slotsBelow (s : Stack) (index : Nat) : List Int32 :=
  s.slots.toList.take index

/-- Whether an instruction puts another value into a slot below an index than there was. -/
def overwrites (s : Stack) (index : Nat) : Instruction → Bool
  | .store offset _ => s.address offset < index && s.slot? (s.address offset) != s.slots.back?
  | _ => false

/-- Below the active frame, an instruction whose sum is an address overwrites nothing. -/
theorem overwrites_of_sumFits {s : Stack} {instr : Instruction} {index : Nat}
    (hsum : s.sumFits instr = true) (hframe : index ≤ s.frameBase) :
    s.overwrites index instr = false := by
  cases instr with
  | store offset name =>
    have haddress := address_eq hsum
    rw [overwrites, Bool.and_eq_false_iff, decide_eq_false_iff_not]
    left
    omega
  | _ => rfl

/-- The active frame is the last one. -/
theorem getLast?_frameBases (s : Stack) : s.frameBases.getLast? = some s.frameBase := by
  rw [frameBases, frameBase, List.getLast?_cons, Array.getLast?_toList]

/-- What is on top does not count below. -/
theorem take_push {slots : Array Int32} {index : Nat} (v : Int32) (h : index ≤ slots.size) :
    (slots.push v).toList.take index = slots.toList.take index := by
  rw [Array.toList_push]
  exact List.take_append_of_le_length (by simpa using h)

/-- What is cut off above does not count below. -/
theorem take_shrink {slots : Array Int32} {index size : Nat} (h : index ≤ size) :
    (slots.shrink size).toList.take index = slots.toList.take index := by
  rw [Array.toList_shrink, List.take_take, Nat.min_eq_left h]

/-- What is discarded does not count below what is left. -/
theorem take_discard {s : Stack} {index count : Nat} (h : index ≤ (s.discard count).2.size) :
    (s.discard count).2.slots.toList.take index = s.slots.toList.take index := by
  by_cases hcount : count < s.size
  · rw [discard, if_pos hcount] at h ⊢
    rw [size, Array.size_shrink] at h
    exact take_shrink (by omega)
  · rw [discard, if_neg hcount]

/-- Putting a value into a slot keeps what lies below an index exactly if the slot does not, or has
that value already. -/
theorem take_setIfInBounds_eq_iff {slots : Array Int32} {index i : Nat} {v : Int32}
    (hi : i < slots.size) :
    (slots.setIfInBounds i v).toList.take index = slots.toList.take index ↔
      (i < index → slots[i]? = some v) := by
  rw [Array.toList_setIfInBounds, ← Array.getElem?_toList]
  have hlength : i < slots.toList.length := by simpa using hi
  by_cases hindex : i < index
  · constructor
    · intro hsame _
      -- The value that has been put there is seen at its own place.
      have hget := congrArg (·[i]?) hsame
      simp only [List.getElem?_take_of_lt hindex, List.getElem?_set_self hlength] at hget
      exact hget.symm
    · intro hget
      obtain ⟨_, rfl⟩ := List.getElem?_eq_some_iff.mp (hget hindex)
      rw [List.set_getElem_self]
  · refine iff_of_true (List.take_set_of_le (Nat.le_of_not_lt hindex)) ?_
    exact fun hlt => absurd hlt hindex

/-- Closing a frame over its top value keeps the slots below its base. -/
theorem take_unwind {below : Array Int32} {base index : Nat} (v : Int32) (hbase : index ≤ base)
    (hroom : index ≤ below.size + 1) :
    ((below.shrink base).push v).toList.take index = (below.push v).toList.take index := by
  by_cases h : index ≤ below.size
  · have hsize : index ≤ (below.shrink base).size := by
      rw [Array.size_shrink]
      omega
    rw [take_push v hsize, take_push v h, take_shrink hbase]
  · -- The frame is empty and the top value is the caller's own: it is put back where it was.
    have hall : below.shrink base = below := by
      apply Array.toList_inj.mp
      rw [Array.toList_shrink]
      exact List.take_of_length_le (by rw [Array.length_toList]; omega)
    rw [hall]

end Stack

namespace Machine

/-- An instruction that takes nothing from below the base of the active frame keeps the slots below
exactly if it overwrites none of them. -/
theorem Effect.slotsBelow_eq_iff {instr : Instruction} {m m' : Machine} {index : Nat}
    (h : Effect instr m m') (hframe : index ≤ m.stack.frameBase) (hroom : index ≤ m.stack.size)
    (hroom' : index ≤ m'.stack.size)
    (hoperands : ∀ op, instr = .bop op → index + 2 ≤ m.stack.size) :
    m'.stack.slotsBelow index = m.stack.slotsBelow index ↔
      m.stack.overwrites index instr = false := by
  unfold Stack.slotsBelow
  cases h with
  -- What is taken from the top lies above the index.
  | @bop _ op below left right v hslots =>
    have hsize : index ≤ below.size := by
      have hsize := hoperands op rfl
      simp only [Stack.size, hslots, Array.size_push] at hsize
      omega
    rw [hslots, Stack.take_push v hsize, Stack.take_push right (by simp; omega),
      Stack.take_push left hsize]
    exact iff_of_true rfl rfl
  | branch hslots =>
    rw [hslots]
    exact iff_of_true (Stack.take_push _ hroom').symm rfl
  | pass hslots =>
    rw [hslots]
    exact iff_of_true (Stack.take_push _ hroom').symm rfl
  -- A push is above the index.
  | lit => exact iff_of_true (Stack.take_push _ hroom) rfl
  | load => exact iff_of_true (Stack.take_push _ hroom) rfl
  | read => exact iff_of_true (Stack.take_push _ hroom) rfl
  | pop => exact iff_of_true (Stack.take_discard hroom') rfl
  -- Frames are closed from the active frame's base upwards.
  | @ret _ _ returns bases below address base v hreturns hbases hslots =>
    have hbase : m.stack.frameBase = base := by
      rw [Stack.frameBase, hbases, Array.back?_push, Option.getD_some]
    rw [Stack.size, hslots, Array.size_push] at hroom
    rw [hslots]
    exact iff_of_true (Stack.take_unwind v (by omega) hroom) rfl
  -- A store leaves the slots below the one that it finds alone, and those above it.
  | @store _ offset name below v hslots hindex =>
    have hsize : index ≤ below.size := by simpa [Stack.size] using hroom'
    have hslot : m.stack.slot? (m.stack.address offset) = below[m.stack.address offset]? := by
      rw [Stack.slot?, hslots, Array.getElem?_push_lt hindex, Array.getElem?_eq_getElem hindex]
    rw [hslots, Stack.take_push v hsize, Stack.take_setIfInBounds_eq_iff hindex, Stack.overwrites,
      hslot, hslots, Array.back?_push]
    simp
  -- The other instructions leave the slots alone.
  | dump => split <;> exact iff_of_true rfl rfl
  | args => exact iff_of_true rfl rfl
  | call => exact iff_of_true rfl rfl
  | goto => exact iff_of_true rfl rfl
  | halt => exact iff_of_true rfl rfl
  | write => exact iff_of_true rfl rfl
  | label => exact iff_of_true rfl rfl
  | formal => exact iff_of_true rfl rfl
  | function => exact iff_of_true rfl rfl
  | line => exact iff_of_true rfl rfl

end Machine

/-! ## Calls -/

/-- What a caller leaves behind on the stack of frames and on that of return addresses, and what the
call puts on top of each. -/
structure Call where
  /-- The bases of the caller's frames, outermost first. -/
  frames : List Nat
  /-- The base of the callee's frame. -/
  base : Nat
  /-- The caller's own return addresses, outermost first. -/
  returns : List Nat
  /-- The address of the call. -/
  address : Nat

namespace Call

/-- The callee is at work, or a function called by it: both stacks extend those of the call, by
frames that do not reach below the callee's, and neither do the slots end below it. -/
structure Active (call : Call) (m : Machine) : Prop where
  /-- The frames opened since start at the callee's base or above it. -/
  frames : ∃ inner, m.stack.frameBases = call.frames ++ [call.base] ++ inner ∧
    ∀ base ∈ inner, call.base ≤ base
  /-- Calls made since have not been undone further than this one. -/
  returns : ∃ inner, m.returns.toList = call.returns ++ [call.address] ++ inner
  /-- The slots below the callee's base are there. -/
  room : call.base ≤ m.stack.size

/-- Whether an instruction leaves the values in the slots below the callee's base as they are. -/
def spares (call : Call) (s : Stack) (instr : Instruction) : Bool :=
  !s.overwrites call.base instr

/-- `call.Segment b p admits m m'`: steps that succeed in the build lead from `m` to `m'` while the
call is active, each of an instruction that is admitted on the stack that it finds, and no operator
takes an operand from below the callee's base. -/
inductive Segment (b : Build) (p : Program) (admits : Stack → Instruction → Bool) (call : Call) :
    Machine → Machine → Prop where
  /-- No step is taken. -/
  | refl {m : Machine} (hactive : call.Active m) : Segment b p admits call m m
  /-- A step is taken behind the others. -/
  | step {m₀ m m' : Machine} {instr : Instruction} (hsegment : Segment b p admits call m₀ m)
    (hadmits : admits m.stack instr = true) (hstep : b.Steps p m instr m')
    (hoperands : ∀ op, instr = .bop op → call.base + 2 ≤ m.stack.size)
    (hactive : call.Active m') : Segment b p admits call m₀ m'

/-- The callee itself is about to return: nothing has been left on either stack above its own, and
its frame holds a value. -/
structure Returning (call : Call) (m : Machine) : Prop where
  /-- The callee's frame is the active one. -/
  frames : m.stack.frameBases = call.frames ++ [call.base]
  /-- The call is the last one made. -/
  returns : m.returns.toList = call.returns ++ [call.address]
  /-- There is a value to return. -/
  value : call.base < m.stack.size

/-- What a segment from `m₀` to `m` leaves to the caller. -/
structure Intact (b : Build) (p : Program) (call : Call) (m₀ m : Machine) : Prop where
  /-- The slots below the callee's base are as they were. -/
  below : m.stack.slotsBelow call.base = m₀.stack.slotsBelow call.base
  /-- When the callee returns, the slots are these with the value returned on top, the frames and
  the return addresses are the caller's, and the machine goes on behind the call. -/
  returned : ∀ name m', call.Returning m → b.Steps p m (.ret name) m' →
    ∃ v, m.stack.slots.back? = some v ∧
      m'.stack.slots.toList = m₀.stack.slotsBelow call.base ++ [v] ∧
      m'.stack.frameBases = call.frames ∧ m'.returns.toList = call.returns ∧
      m'.pc = call.address + 1

section Segments

variable {b : Build} {p : Program} {admits : Stack → Instruction → Bool} {call : Call}
variable {m₀ m m' : Machine}

/-- While a call is active, the active frame does not reach below the callee's. -/
theorem Active.base_le_frameBase (h : call.Active m) : call.base ≤ m.stack.frameBase := by
  obtain ⟨inner, hframes, hinner⟩ := h.frames
  have hlast := m.stack.getLast?_frameBases
  rw [hframes, List.getLast?_append, List.getLast?_concat] at hlast
  cases hactive : inner.getLast? with
  | none =>
    -- The callee's own frame is the active one.
    rw [hactive, Option.none_or] at hlast
    exact Nat.le_of_eq (Option.some.inj hlast)
  | some base =>
    rw [hactive, Option.some_or] at hlast
    rw [← Option.some.inj hlast]
    exact hinner base (List.mem_of_getLast? hactive)

/-- The end of a segment belongs to it. -/
theorem Segment.active (h : Segment b p admits call m₀ m) : call.Active m := by
  cases h with
  | refl hactive => exact hactive
  | step _ _ _ _ hactive => exact hactive

/-- While a call is active, an instruction whose sum is an address spares the caller. -/
theorem Active.spares {instr : Instruction} (h : call.Active m)
    (hsum : m.stack.sumFits instr = true) : call.spares m.stack instr = true := by
  rw [Call.spares, Stack.overwrites_of_sumFits hsum h.base_le_frameBase, Bool.not_false]

/-- While a call is active, a step keeps the slots below the callee's base exactly if its
instruction spares them. -/
theorem Active.slotsBelow_eq_iff {instr : Instruction} (h : call.Active m)
    (hstep : b.Steps p m instr m')
    (hoperands : ∀ op, instr = .bop op → call.base + 2 ≤ m.stack.size) (h' : call.Active m') :
    m'.stack.slotsBelow call.base = m.stack.slotsBelow call.base ↔
      call.spares m.stack instr = true := by
  obtain ⟨-, m₁, heffect, hm'⟩ := Machine.effect_of_step hstep.step_eq
  -- Showing the instruction and moving on leave the stack as the instruction left it.
  have hstack := congrArg Machine.stack hm'
  have hroom := h'.room
  rw [hstack] at hroom ⊢
  rw [heffect.slotsBelow_eq_iff h.base_le_frameBase h.room hroom hoperands, Call.spares,
    Bool.not_eq_true']

/-- In a build with checks, all instructions of a segment spare the caller. -/
theorem Segment.sparing (h : Segment .checked p admits call m₀ m) :
    Segment .checked p call.spares call m₀ m := by
  induction h with
  | refl hactive => exact .refl hactive
  | step _ _ hstep hoperands hactive ih =>
    -- The step has succeeded behind its guard, so its sum is an address.
    exact ih.step (ih.active.spares hstep.sumFits) hstep hoperands hactive

/-- A segment of a build with checks is one of a build without them. -/
theorem Segment.unchecked (h : Segment b p admits call m₀ m) :
    Segment .wrapping p admits call m₀ m := by
  induction h with
  | refl hactive => exact .refl hactive
  | step _ hadmits hstep hoperands hactive ih =>
    exact ih.step hadmits hstep.step_eq hoperands hactive

/-- A segment of instructions that spare the caller keeps the slots below the callee's base. -/
theorem Segment.slotsBelow (h : Segment b p call.spares call m₀ m) :
    m.stack.slotsBelow call.base = m₀.stack.slotsBelow call.base := by
  induction h with
  | refl => rfl
  | step hsegment hspares hstep hoperands hactive ih =>
    rw [← ih]
    exact (hsegment.active.slotsBelow_eq_iff hstep hoperands hactive).mpr hspares

/-- A callee that returns leaves its value on top of the slots below its base and takes both stacks
back to what its caller left. -/
theorem Returning.step {name : Option String} (h : call.Returning m)
    (hstep : b.Steps p m (.ret name) m') :
    ∃ v, m.stack.slots.back? = some v ∧
      m'.stack.slots.toList = m.stack.slotsBelow call.base ++ [v] ∧
      m'.stack.frameBases = call.frames ∧ m'.returns.toList = call.returns ∧
      m'.pc = call.address + 1 := by
  obtain ⟨-, m₁, heffect, hm'⟩ := Machine.effect_of_step hstep.step_eq
  rw [hm']
  cases heffect with
  | @ret _ _ returns bases below address base v hreturns hbases hslots =>
    -- The last elements of the two stacks are the callee's base and the address of the call.
    have hframes := h.frames
    rw [Stack.frameBases, hbases, Array.toList_push, ← List.cons_append] at hframes
    obtain ⟨hcaller, hbase⟩ := List.append_inj' hframes rfl
    have haddresses := h.returns
    rw [hreturns, Array.toList_push] at haddresses
    obtain ⟨holder, haddress⟩ := List.append_inj' haddresses rfl
    cases hbase
    cases haddress
    have hsize : call.base ≤ below.size := by
      have hvalue := h.value
      rw [Stack.size, hslots, Array.size_push] at hvalue
      omega
    refine ⟨v, ?_, ?_, hcaller, holder, rfl⟩
    · rw [hslots, Array.back?_push]
    · rw [Stack.slotsBelow, hslots, Stack.take_push v hsize, Array.toList_push,
        Array.toList_shrink]

/-- A segment of instructions that spare the caller leaves it what is its own. -/
theorem Segment.intact (h : Segment b p call.spares call m₀ m) : call.Intact b p m₀ m where
  below := h.slotsBelow
  returned name m' hreturning hstep := by
    rw [← h.slotsBelow]
    exact hreturning.step hstep

end Segments

/-- Calls and returns keep what is the caller's. In a build with checks they always do: while a call
is active, the slots below the callee's base stay as they were, and when the callee returns, the
slots are these with the value returned on top, the frames and the return addresses are the
caller's, and the machine goes on behind the call. In a build without checks they do as long as each
instruction spares the caller, and a step of one that does not changes a slot below the callee's
base. Such an instruction is a `STORE` whose sum is not an address. -/
theorem call_return_integrity (p : Program) (call : Call) (m₀ m : Machine) :
    (call.Segment .checked p (fun _ _ => true) m₀ m → call.Intact .checked p m₀ m) ∧
      (call.Segment .wrapping p call.spares m₀ m → call.Intact .wrapping p m₀ m) ∧
      (call.Active m → ∀ instr m', Build.wrapping.Steps p m instr m' →
        (∀ op, instr = .bop op → call.base + 2 ≤ m.stack.size) → call.Active m' →
          (m'.stack.slotsBelow call.base = m.stack.slotsBelow call.base ↔
            call.spares m.stack instr = true)) ∧
      (call.Active m → ∀ instr, m.stack.sumFits instr = true →
        call.spares m.stack instr = true) := by
  refine ⟨fun h => h.sparing.intact, fun h => h.intact, ?_, ?_⟩
  · intro hactive instr m' hstep hoperands hactive'
    exact hactive.slotsBelow_eq_iff hstep hoperands hactive'
  · intro hactive instr hsum
    exact hactive.spares hsum

/-- A program that calls a function with the argument 5, which doubles it with the help of another
one. -/
def sampleCalls : Program :=
  { instructions := #[.lit 7 none, .lit 5 none, .args 1, .call ⟨"f", some 5⟩, .halt,
      .load 0 "x", .args 1, .call ⟨"double", some 10⟩, .store 0 "x", .ret none,
      .lit 2 none, .bop .mul, .ret none]
    labels := ∅ }

/-- The call of the first function. -/
def sampleCall : Call :=
  { frames := [0], base := 1, returns := [], address := 3 }

/-- The machine during the call, with what has been put on the two stacks since. -/
def sampleMachine (slots : Array Int32) (inner addresses : List Nat) (pc : Nat) : Machine :=
  { Machine.start {} with
    stack := { slots, bases := (1 :: inner).toArray }, returns := (3 :: addresses).toArray, pc }

/-- The call is active while its argument is there and frames are opened above the base only. -/
theorem active_sampleMachine {slots : Array Int32} {inner addresses : List Nat} {pc : Nat}
    (hslots : 1 ≤ slots.size) (hinner : ∀ base ∈ inner, 1 ≤ base) :
    sampleCall.Active (sampleMachine slots inner addresses pc) :=
  ⟨⟨inner, rfl, hinner⟩, ⟨addresses, rfl⟩, hslots⟩

/-- A step during the call, of an instruction given. -/
theorem Segment.stepSample {b : Build} {p : Program} {m₀ m : Machine} {slots : Array Int32}
    {inner addresses : List Nat} {pc : Nat} (instr : Instruction)
    (h : sampleCall.Segment b p (fun _ _ => true) m₀ m)
    (hstep : b.Steps p m instr (sampleMachine slots inner addresses pc))
    (hsize : 3 ≤ m.stack.size ∨ ∀ op, instr ≠ .bop op) (hslots : 1 ≤ slots.size)
    (hinner : ∀ base ∈ inner, 1 ≤ base) :
    sampleCall.Segment b p (fun _ _ => true) m₀ (sampleMachine slots inner addresses pc) := by
  refine h.step rfl hstep ?_ (active_sampleMachine hslots hinner)
  intro op hop
  exact hsize.resolve_right fun hnot => hnot op hop

/-- The call of the sample program runs to its return, and its caller finds its own slot with the
value returned on top, in both builds. -/
theorem call_return_integrity_sample :
    sampleCall.Segment .checked sampleCalls (fun _ _ => true) (sampleMachine #[7, 5] [] [] 5)
        (sampleMachine #[7, 10] [] [] 9) ∧
      sampleCall.Segment .wrapping sampleCalls sampleCall.spares (sampleMachine #[7, 5] [] [] 5)
        (sampleMachine #[7, 10] [] [] 9) ∧
      sampleCall.Intact .wrapping sampleCalls (sampleMachine #[7, 5] [] [] 5)
        (sampleMachine #[7, 10] [] [] 9) ∧
      sampleCall.Returning (sampleMachine #[7, 10] [] [] 9) ∧
      ∃ m', Build.checked.Steps sampleCalls (sampleMachine #[7, 10] [] [] 9) (.ret none) m' ∧
        Build.wrapping.Steps sampleCalls (sampleMachine #[7, 10] [] [] 9) (.ret none) m' ∧
        m'.stack.slots.toList = [7, 10] ∧ m'.stack.frameBases = [0] ∧ m'.returns.toList = [] ∧
        m'.pc = 4 := by
  -- The argument is copied into a frame of its own, doubled there and stored on the return.
  have hcalled : sampleCall.Segment .checked sampleCalls (fun _ _ => true)
      (sampleMachine #[7, 5] [] [] 5) (sampleMachine #[7, 5] [] [] 5) :=
    .refl (active_sampleMachine (by decide) (by decide))
  have hcopied : sampleCall.Segment _ _ _ _ (sampleMachine #[7, 5, 5] [] [] 6) :=
    hcalled.stepSample (.load 0 "x") rfl (.inr (by simp)) (by decide) (by decide)
  have hframed : sampleCall.Segment _ _ _ _ (sampleMachine #[7, 5, 5] [2] [] 7) :=
    hcopied.stepSample (.args 1) rfl (.inr (by simp)) (by decide) (by decide)
  have hentered : sampleCall.Segment _ _ _ _ (sampleMachine #[7, 5, 5] [2] [7] 10) :=
    hframed.stepSample (.call ⟨"double", some 10⟩) rfl (.inr (by simp)) (by decide) (by decide)
  have htwo : sampleCall.Segment _ _ _ _ (sampleMachine #[7, 5, 5, 2] [2] [7] 11) :=
    hentered.stepSample (.lit 2 none) rfl (.inr (by simp)) (by decide) (by decide)
  have hdoubled : sampleCall.Segment _ _ _ _ (sampleMachine #[7, 5, 10] [2] [7] 12) :=
    htwo.stepSample (.bop .mul) rfl (.inl (by decide)) (by decide) (by decide)
  have hback : sampleCall.Segment _ _ _ _ (sampleMachine #[7, 5, 10] [] [] 8) :=
    hdoubled.stepSample (.ret none) rfl (.inr (by simp)) (by decide) (by decide)
  have hstored : sampleCall.Segment _ _ _ _ (sampleMachine #[7, 10] [] [] 9) :=
    hback.stepSample (.store 0 "x") rfl (.inr (by simp)) (by decide) (by decide)
  have hunchecked := hstored.sparing.unchecked
  have hreturning : sampleCall.Returning (sampleMachine #[7, 10] [] [] 9) :=
    ⟨rfl, rfl, by decide⟩
  have hstep : Build.checked.Steps sampleCalls (sampleMachine #[7, 10] [] [] 9) (.ret none)
      { Machine.start {} with stack := { slots := #[7, 10] }, pc := 4 } := rfl
  obtain ⟨hchecked, hwrapping, -, -⟩ := call_return_integrity sampleCalls sampleCall
    (sampleMachine #[7, 5] [] [] 5) (sampleMachine #[7, 10] [] [] 9)
  obtain ⟨v, hv, hslots, hframes, hreturns, hpc⟩ :=
    (hchecked hstored).returned none _ hreturning hstep
  have htop : v = 10 := (Option.some.inj hv).symm
  rw [htop] at hslots
  exact ⟨hstored, hunchecked, hwrapping hunchecked, hreturning, _, hstep, hstep.step_eq, hslots,
    hframes, hreturns, hpc⟩

/-- A program that calls a function which stores to the largest offset there is. -/
def overwriting : Program :=
  { instructions := #[.lit 1 none, .lit 5 none, .args 1, .call ⟨"f", some 5⟩, .halt,
      .label "f", .lit 9 none, .store 18446744073709551615 "x", .lit 0 none, .ret none]
    labels := ∅ }

/-- Without checks, the sum of the callee's base and the offset wraps around to the first slot, and
the `STORE` goes there. -/
theorem step_overwriting :
    Machine.step overwriting (sampleMachine #[1, 5, 9] [] [] 7) =
      .ok (.store 18446744073709551615 "x") (sampleMachine #[9, 5] [] [] 8) := by
  have hget : overwriting.get? (sampleMachine #[1, 5, 9] [] [] 7).pc =
      some (.store 18446744073709551615 "x") := rfl
  have hslots : (sampleMachine #[1, 5, 9] [] [] 7).stack.slots = #[1, 5].push 9 := rfl
  have haddress : (sampleMachine #[1, 5, 9] [] [] 7).stack.address 18446744073709551615 = 0 := rfl
  have hindex : (sampleMachine #[1, 5, 9] [] [] 7).stack.address 18446744073709551615 <
      #[1, 5].size := by
    rw [haddress]
    decide
  have heffect : Machine.Effect (.store 18446744073709551615 "x")
      (sampleMachine #[1, 5, 9] [] [] 7) _ := .store hslots hindex
  rw [haddress] at heffect
  rw [Machine.step_apply hget, EStateM.bind_of_ok (Machine.perform_of_effect heffect)]
  rfl

/-- In a build without checks, the caller's slots are not always its own. -/
theorem caller_overwritten :
    ¬∀ (p : Program) (call : Call) (m₀ m : Machine),
      call.Segment .wrapping p (fun _ _ => true) m₀ m → call.Intact .wrapping p m₀ m := by
  intro hintact
  have hcalled : sampleCall.Segment .wrapping overwriting (fun _ _ => true)
      (sampleMachine #[1, 5] [] [] 5) (sampleMachine #[1, 5] [] [] 5) :=
    .refl (active_sampleMachine (by decide) (by decide))
  have hentered : sampleCall.Segment _ _ _ _ (sampleMachine #[1, 5] [] [] 6) :=
    hcalled.stepSample (.label "f") rfl (.inr (by simp)) (by decide) (by decide)
  have hnine : sampleCall.Segment _ _ _ _ (sampleMachine #[1, 5, 9] [] [] 7) :=
    hentered.stepSample (.lit 9 none) rfl (.inr (by simp)) (by decide) (by decide)
  have hstored : sampleCall.Segment _ _ _ _ (sampleMachine #[9, 5] [] [] 8) :=
    hnine.stepSample (.store 18446744073709551615 "x") step_overwriting (.inr (by simp))
      (by decide) (by decide)
  have hzero : sampleCall.Segment _ _ _ _ (sampleMachine #[9, 5, 0] [] [] 9) :=
    hstored.stepSample (.lit 0 none) rfl (.inr (by simp)) (by decide) (by decide)
  have hreturning : sampleCall.Returning (sampleMachine #[9, 5, 0] [] [] 9) :=
    ⟨rfl, rfl, by decide⟩
  have hstep : Build.wrapping.Steps overwriting (sampleMachine #[9, 5, 0] [] [] 9) (.ret none)
      { Machine.start {} with stack := { slots := #[9, 0] }, pc := 4 } := rfl
  obtain ⟨v, hv, hslots, -⟩ := (hintact _ _ _ _ hzero).returned none _ hreturning hstep
  -- The caller is to find 1 in its slot, and finds 9.
  have hfirst : (9 : Int32) = 1 := (List.cons.inj hslots).1
  exact absurd hfirst (by decide)

-- A build with checks panics at that `STORE` instead.
example : Machine.Checked.step overwriting (sampleMachine #[1, 5, 9] [] [] 7) =
    .error (.panic .overflow) (sampleMachine #[1, 5, 9] [] [] 7) := rfl

end Call

end XBytecode
