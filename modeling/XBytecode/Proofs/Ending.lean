import XBytecode.Machine.Run
import XBytecode.Proofs.Action

/-!
# How a run ends

A program halts on a machine, fails on it or diverges, as `Machine.execute` shows when it is given
enough steps (`Halts`, `Fails`) or any number of them (`Diverges`). `Machine.Ends` says the same
without counting: it follows the steps of the machine up to the one that stops it or fails. A run
ends in at most one way (`Ends.unique`), and diverges exactly when it does not end
(`diverges_iff`).
-/

namespace XBytecode.Machine

open EStateM (Result get_bind_apply bind_of_ok bind_of_error)

/-- The machine, executing the program, halts and leaves `m'`. -/
def Halts (p : Program) (m m' : Machine) : Prop :=
  ∃ fuel, execute p fuel m = .ok .halted m'

/-- The machine, executing the program, fails and leaves `m'`. -/
def Fails (p : Program) (m : Machine) (f : Fault) (m' : Machine) : Prop :=
  ∃ fuel, execute p fuel m = .error f m'

/-- The machine, executing the program, neither halts nor fails, however many steps it takes. -/
def Diverges (p : Program) (m : Machine) : Prop :=
  ∀ fuel, ∃ m', execute p fuel m = .ok .outOfFuel m'

/-- `Ends p m r`: the machine's steps lead to the result `r`. -/
inductive Ends (p : Program) : Machine → Result Fault Machine Ending → Prop where
  /-- The machine has stopped. -/
  | halted {m : Machine} (hstopped : m.running = false) : Ends p m (.ok .halted m)
  /-- The next step fails. -/
  | failed {m m' : Machine} {f : Fault} (hrunning : m.running = true)
    (hstep : step p m = .error f m') : Ends p m (.error f m')
  /-- The next step succeeds and those behind it lead to the result. -/
  | next {m m' : Machine} {instr : Instruction} {r : Result Fault Machine Ending}
    (hrunning : m.running = true) (hstep : step p m = .ok instr m') (h : Ends p m' r) : Ends p m r

section

variable {p : Program} {m : Machine} {r : Result Fault Machine Ending}

/-- A machine that has stopped needs no steps. -/
theorem execute_of_stopped (h : m.running = false) (fuel : Nat) :
    execute p fuel m = .ok .halted m := by
  cases fuel with
  | zero =>
    rw [execute, get_bind_apply, h]
    rfl
  | succ fuel =>
    rw [execute, get_bind_apply, h]
    rfl

/-- A machine that runs takes a step and goes on. -/
theorem execute_of_running (h : m.running = true) (fuel : Nat) :
    execute p (fuel + 1) m = (step p >>= fun _ => execute p fuel) m := by
  rw [execute, get_bind_apply, if_pos h]

/-- A run that ends is executed by enough steps. -/
theorem Ends.execute (h : Ends p m r) : ∃ fuel, Machine.execute p fuel m = r := by
  induction h with
  | halted hstopped => exact ⟨0, execute_of_stopped hstopped 0⟩
  | failed hrunning hstep =>
    refine ⟨1, ?_⟩
    rw [execute_of_running hrunning, bind_of_error hstep]
  | next hrunning hstep _ ih =>
    obtain ⟨fuel, hfuel⟩ := ih
    refine ⟨fuel + 1, ?_⟩
    rw [execute_of_running hrunning, bind_of_ok hstep, hfuel]

/-- The run has ended with the steps allowed, or it has been cut off. -/
theorem ends_or_outOfFuel (p : Program) (fuel : Nat) (m : Machine) :
    Ends p m (execute p fuel m) ∨ ∃ m', execute p fuel m = .ok .outOfFuel m' := by
  induction fuel generalizing m with
  | zero =>
    cases hr : m.running with
    | false =>
      rw [execute_of_stopped hr]
      exact .inl (.halted hr)
    | true =>
      refine .inr ⟨m, ?_⟩
      rw [execute, get_bind_apply, hr]
      rfl
  | succ fuel ih =>
    cases hr : m.running with
    | false =>
      rw [execute_of_stopped hr]
      exact .inl (.halted hr)
    | true =>
      rw [execute_of_running hr]
      cases hstep : step p m with
      | error f m' =>
        rw [bind_of_error hstep]
        exact .inl (.failed hr hstep)
      | ok instr m' =>
        rw [bind_of_ok hstep]
        obtain hends | hcut := ih m'
        · exact .inl (.next hr hstep hends)
        · exact .inr hcut

/-- A run that has ended has not been cut off. -/
theorem Ends.ne_outOfFuel (h : Ends p m r) (m' : Machine) : r ≠ .ok .outOfFuel m' := by
  induction h with
  | halted => simp
  | failed => simp
  | next _ _ _ ih => exact ih

/-- A run ends in one way only. -/
theorem Ends.unique {r' : Result Fault Machine Ending} (h : Ends p m r) (h' : Ends p m r') :
    r = r' := by
  induction h with
  | halted hstopped =>
    cases h' with
    | halted => rfl
    | failed hrunning => rw [hstopped] at hrunning; cases hrunning
    | next hrunning => rw [hstopped] at hrunning; cases hrunning
  | failed hrunning hstep =>
    cases h' with
    | halted hstopped => rw [hstopped] at hrunning; cases hrunning
    | failed _ hstep' => rw [hstep] at hstep'; cases hstep'; rfl
    | next _ hstep' => rw [hstep] at hstep'; cases hstep'
  | next hrunning hstep _ ih =>
    cases h' with
    | halted hstopped => rw [hstopped] at hrunning; cases hrunning
    | failed _ hstep' => rw [hstep] at hstep'; cases hstep'
    | next _ hstep' h' => rw [hstep] at hstep'; cases hstep'; exact ih h'

/-- Whatever steps a machine is allowed, it ends as it does or is cut off. -/
theorem ends_of_execute {fuel : Nat} (h : execute p fuel m = r)
    (hr : ∀ m', r ≠ .ok .outOfFuel m') : Ends p m r := by
  obtain hends | ⟨m', hcut⟩ := ends_or_outOfFuel p fuel m
  · rwa [h] at hends
  · exact absurd (h.symm.trans hcut) (hr m')

/-- A run halts exactly if it ends with that result. -/
theorem halts_iff {m' : Machine} : Halts p m m' ↔ Ends p m (.ok .halted m') :=
  ⟨fun ⟨_, h⟩ => ends_of_execute h (by simp), Ends.execute⟩

/-- A run fails exactly if it ends with that fault. -/
theorem fails_iff {f : Fault} {m' : Machine} : Fails p m f m' ↔ Ends p m (.error f m') :=
  ⟨fun ⟨_, h⟩ => ends_of_execute h (by simp), Ends.execute⟩

/-- A run diverges exactly when it does not end. -/
theorem diverges_iff : Diverges p m ↔ ∀ r, ¬Ends p m r := by
  constructor
  · intro h r hends
    obtain ⟨fuel, hfuel⟩ := hends.execute
    obtain ⟨m', hcut⟩ := h fuel
    exact hends.ne_outOfFuel m' (hfuel.symm.trans hcut)
  · intro h fuel
    exact (ends_or_outOfFuel p fuel m).resolve_left (h _)

end

end XBytecode.Machine
