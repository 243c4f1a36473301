import XBytecode.Machine.Checked
import XBytecode.Proofs.Effect

/-!
# What the steps of the two builds have in common

A build with checks performs the parts of the machine's own step, each behind its guard. So where
its step succeeds, the step of a build without checks succeeds too, and makes the same of the
machine (`Build.Steps.step_eq`); besides, the sum by which a `STORE` has found its slot is an
address (`Build.Steps.sumFits`). A fact about all steps of the machine holds of both builds, and one
about the steps whose sums are addresses holds of all steps of a build with checks.
-/

namespace XBytecode

open EStateM (bind_eq_ok bind_of_ok)

namespace Guarded

variable {ε σ α : Type} {guard : σ → Guard} {act : EStateM ε σ α} {s t : σ} {a : α}

/-- An action that does not panic succeeds as it does without guards. -/
theorem free_eq_ok (h : free act s = .ok a t) : act s = .ok a t := by
  unfold free at h
  split at h
  · next hact =>
    cases h
    exact hact
  · cases h

/-- An action succeeds behind a guard where the guard holds. -/
theorem behind_eq_ok (h : behind guard act s = .ok a t) : guard s = .ok () ∧ act s = .ok a t := by
  unfold behind at h
  split at h
  · next hguard => exact ⟨hguard, free_eq_ok h⟩
  · cases h

end Guarded

/-- A sum that is looked at is an address. -/
theorem Address.sum_eq_ok {a b : Nat} (h : sum a b = .ok ()) : a + b < limit := by
  unfold sum at h
  split at h
  · next hfits => exact hfits
  · cases h

namespace Stack

/-- Whether the sum by which an instruction finds the slot that it changes is an address. Only a
`STORE` finds one in this way. -/
def sumFits (s : Stack) : Instruction → Bool
  | .store offset _ => s.frameBase + offset < Address.limit
  | _ => true

/-- The slot of an offset whose sum is an address lies in the active frame or above it. -/
theorem address_eq {s : Stack} {offset : Nat} {name : String}
    (h : s.sumFits (.store offset name) = true) : s.address offset = s.frameBase + offset :=
  Address.add_eq (of_decide_eq_true h)

/-- A store that succeeds behind its guard has found its slot by a sum that is an address. -/
theorem sumFits_of_storeGuard {s s' : Stack} {offset : Nat} {name : String} {v : Int32}
    (hstore : s.store offset = .ok (v, s')) (hguard : s.storeGuard offset = .ok ()) :
    s.sumFits (.store offset name) = true := by
  have hsum : Address.sum s.frameBase offset = .ok () := by
    rw [storeGuard, hstore] at hguard
    cases hsum : Address.sum s.frameBase offset with
    | ok _ => rfl
    | error p =>
      simp only [hsum] at hguard
      cases hguard
  exact decide_eq_true (Address.sum_eq_ok hsum)

end Stack

namespace Machine

variable {p : Program} {instr : Instruction} {m m' : Machine}

/-- A step that succeeds with its checks succeeds without them, and the guard of its instruction
holds. -/
theorem Checked.step_eq_ok (h : Checked.step p m = .ok instr m') :
    Machine.step p m = .ok instr m' ∧
      ∃ m₁, performGuard instr m = .ok () ∧ perform instr m = .ok () m₁ := by
  obtain ⟨fetched, m₀, hfetch, h⟩ := bind_eq_ok.mp h
  obtain ⟨_, m₁, hperform, h⟩ := bind_eq_ok.mp h
  obtain ⟨_, m₂, hshow, h⟩ := bind_eq_ok.mp h
  obtain ⟨_, m₃, hadvance, h⟩ := bind_eq_ok.mp h
  cases h
  -- The guards are dropped part by part; only that of the instruction itself is kept.
  have hfetched : fetch p m = .ok instr m₀ := Guarded.free_eq_ok hfetch
  obtain ⟨hguard, hperformed⟩ := Guarded.behind_eq_ok hperform
  obtain ⟨-, hshown⟩ := Guarded.behind_eq_ok hshow
  obtain ⟨-, hadvanced⟩ := Guarded.behind_eq_ok hadvance
  obtain ⟨-, rfl⟩ := fetch_eq_ok hfetched
  refine ⟨?_, m₁, hguard, hperformed⟩
  rw [Machine.step, bind_of_ok hfetched, bind_of_ok hperformed, bind_of_ok hshown,
    bind_of_ok hadvanced]
  rfl

end Machine

namespace Build

variable {b : Build} {p : Program} {instr : Instruction} {m m' : Machine}

/-- Whichever build it is, a step that succeeds is one of the machine's. -/
theorem Steps.step_eq (h : b.Steps p m instr m') : Machine.step p m = .ok instr m' := by
  cases b with
  | wrapping => exact h
  | checked => exact (Machine.Checked.step_eq_ok h).1

/-- In a build with checks, a step that succeeds has found its slot by a sum that is an address. -/
theorem Steps.sumFits (h : checked.Steps p m instr m') : m.stack.sumFits instr = true := by
  obtain ⟨-, m₁, hguard, hperform⟩ := Machine.Checked.step_eq_ok h
  cases instr with
  | store offset name =>
    -- The guard looks at the sum only if there is something to store, and there was.
    obtain ⟨v, stack, hstore, -⟩ := Machine.changeStack_eq_ok hperform
    exact Stack.sumFits_of_storeGuard hstore hguard
  | _ => rfl

end Build

end XBytecode
