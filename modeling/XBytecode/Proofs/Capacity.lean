import XBytecode.Proofs.ControlFlow
import XBytecode.Proofs.FrameBase

/-!
# The stack stays within its capacity

`LIT`, `LOAD` and `READ` push a value where there is room for it, and every other instruction leaves
at most as many slots as it finds (`Effect.size_le`). An instruction that fails adds none
(`Refusal.size_le`). So the slots are never more than the capacity in any state that a machine can
be brought to (`Reachable.size_le_capacity`).
-/

namespace XBytecode.Machine

section Instructions

variable {instr : Instruction} {m m' : Machine}

/-- An instruction leaves no more slots than it finds, unless there is room for them. -/
theorem Effect.size_le (h : Effect instr m m') :
    m'.stack.size ≤ max m.stack.size capacity := by
  cases h with
  | lit hroom | load hroom _ | read _ _ _ _ hroom =>
    -- The value pushed takes the room that was found.
    have hpush (v : Int32) : (m.stack.push v).size = m.stack.size + 1 := by
      simp [Stack.size, Stack.push]
    show (m.stack.push _).size ≤ _
    rw [hpush]
    omega
  | @bop _ _ below left right v hslots =>
    have hsize : m.stack.size = below.size + 2 := by simp [Stack.size, hslots]
    have hleft : (below.push v).size = below.size + 1 := by simp
    show (below.push v).size ≤ _
    omega
  | @branch _ _ _ below hslots | @pass _ _ below _ hslots =>
    have hsize : m.stack.size = below.size + 1 := by simp [Stack.size, hslots]
    show below.size ≤ _
    omega
  | @ret _ _ _ _ below _ base v _ _ hslots =>
    have hsize : m.stack.size = below.size + 1 := by simp [Stack.size, hslots]
    have hleft := Stack.size_unwind below base v
    show ((below.shrink base).push v).size ≤ _
    omega
  | @store _ offset _ below v hslots =>
    have hsize : m.stack.size = below.size + 1 := by simp [Stack.size, hslots]
    show (below.setIfInBounds (m.stack.address offset) v).size ≤ _
    rw [Array.size_setIfInBounds]
    omega
  | @pop _ count =>
    have hleft := m.stack.size_discard count
    show (m.stack.discard count).2.size ≤ _
    split at hleft <;> omega
  | dump =>
    have hsame : m.stack.size ≤ max m.stack.size capacity := Nat.le_max_left _ _
    split <;> exact hsame
  -- The other instructions leave the slots alone.
  | _ => exact Nat.le_max_left _ _

/-- An instruction that fails adds no slots. -/
theorem Refusal.size_le {cause : Fault.Cause} (h : Refusal instr m cause m') :
    m'.stack.size ≤ m.stack.size := by
  cases h with
  | noLeft | noResult hslots | noRoom hslots | branch hslots => simp [Stack.size, *] <;> omega
  | _ => exact Nat.le_refl _

end Instructions

/-- A step that finds the slots within the capacity leaves them so, whether it succeeds or fails. -/
theorem size_le_of_step (p : Program) {m : Machine} (hm : m.stack.size ≤ capacity) :
    (step p m).state.stack.size ≤ capacity := by
  have heffect {instr : Instruction} {m₁ : Machine} (h : Effect instr m m₁) :
      m₁.stack.size ≤ capacity := by
    have hsize := h.size_le
    omega
  cases hstep : step p m with
  | ok instr m' =>
    obtain ⟨-, m₁, h, hm'⟩ := effect_of_step hstep
    have hsize := heffect h
    rw [EStateM.Result.state_ok, hm']
    exact hsize
  | error g m' =>
    obtain ⟨-, -, rfl⟩ | ⟨instr, -, ⟨-, hrefusal⟩ | ⟨m₁, e, channel, h, -, rfl⟩⟩ :=
      refusal_of_step hstep
    · exact hm
    · exact hrefusal.size_le.trans hm
    · -- The instruction has been performed and could not be shown.
      have hsize := heffect h
      exact hsize

/-- The slots are at most as many as the capacity allows, in every state that a machine can be
brought to. -/
theorem Reachable.size_le_capacity {p : Program} {channel : Channel} {m : Machine}
    (h : Reachable p channel m) : m.stack.size ≤ capacity := by
  induction h with
  | start => exact Nat.zero_le _
  | step _ ih => exact size_le_of_step p ih
  | halt _ ih | setDump _ _ ih | suppressDump _ ih => exact ih

end XBytecode.Machine
