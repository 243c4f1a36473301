import XBytecode.Proofs.Activations
import XBytecode.Proofs.Builds
import XBytecode.Proofs.FrameLayout
import XBytecode.Proofs.RoundTrip
import XBytecode.Session.Checked

/-!
# Where the guards hold

Most guards of the engines hold in every state: the differences, the elements and the ranges are in
order, since each of them is asked for behind a test or held to what exists. The sums are not so
protected. An engine with its checks does what the engine does wherever the sums around its
instruction are addresses (`Machine.Checked.step_eq`, `Session.Checked.step_eq`). How many elements
a collection has is not looked at: a collection holds fewer than there are addresses.
-/

namespace XBytecode

/-! ## Guards -/

namespace Address

variable {a b : Nat}

/-- A sum below the limit is an address. -/
theorem sum_eq (h : a + b < limit) : sum a b = .ok () :=
  if_pos h

/-- What is not below a number can be diminished by it. -/
theorem difference_eq (h : b ≤ a) : difference a b = .ok () :=
  if_pos h

/-- There is an element below the size. -/
theorem index_eq {i size : Nat} (h : i < size) : index i size = .ok () :=
  if_pos h

/-- There is a range whose ends are in order and within the size. -/
theorem range_eq {first stop size : Nat} (hfirst : first ≤ stop) (hstop : stop ≤ size) :
    range first stop size = .ok () :=
  if_pos ⟨hfirst, hstop⟩

end Address

/-- Guards that all hold do so one after the other. -/
theorem Guard.forM_eq {α : Type} {guard : α → Guard} {l : List α} (h : ∀ a ∈ l, guard a = .ok ()) :
    l.forM guard = .ok () := by
  induction l with
  | nil => rfl
  | cons a l ih =>
    show (guard a >>= fun _ => l.forM guard) = .ok ()
    rw [h a List.mem_cons_self]
    exact ih fun b hb => h b (List.mem_cons_of_mem _ hb)

namespace Guarded

open EStateM (bind_of_ok bind_of_error)

variable {ε σ α β : Type}

/-- Behind a guard that holds, an action does what it does without it. -/
theorem behind_eq_free {guard : σ → Guard} {s : σ} (h : guard s = .ok ()) (act : EStateM ε σ α) :
    behind guard act s = free act s := by
  rw [behind, h]

/-- A sequence panics nowhere if its first action does not and the second one behind it does not. -/
theorem bind_eq_free {x : Guarded ε σ α} {act : EStateM ε σ α} {f : α → Guarded ε σ β}
    {g : α → EStateM ε σ β} {s : σ} (hx : x s = free act s)
    (hf : ∀ a t, act s = .ok a t → f a t = free (g a) t) :
    (x >>= f) s = free (act >>= g) s := by
  cases hact : act s with
  | ok a t =>
    have hok : x s = .ok a t := by rw [hx, free, hact]
    rw [bind_of_ok hok, hf a t hact, free, free, bind_of_ok hact]
  | error e t =>
    have herror : x s = .error (.error e) t := by rw [hx, free, hact]
    rw [bind_of_error herror, free, bind_of_error hact]

end Guarded

/-! ## The stack -/

namespace Stack

variable {s : Stack} {offset : Nat}

/-- A load copies a slot that is there. -/
theorem loadGuard_eq (h : s.frameBase + offset < Address.limit) : s.loadGuard offset = .ok () := by
  rw [loadGuard, Address.sum_eq h, load]
  cases hslot : s.slots[s.address offset]? with
  | none => rfl
  | some v =>
    obtain ⟨hindex, -⟩ := Array.getElem?_eq_some_iff.mp hslot
    exact Address.index_eq hindex

/-- A store replaces a slot that is there. -/
theorem storeGuard_eq (h : s.frameBase + offset < Address.limit) :
    s.storeGuard offset = .ok () := by
  rw [storeGuard, Address.sum_eq h]
  cases hstore : s.store offset with
  | error e => cases e <;> rfl
  | ok result =>
    obtain ⟨v, rest⟩ := result
    obtain ⟨below, hslots, hindex, rfl⟩ := store_eq_ok hstore
    refine Address.index_eq ?_
    simpa [size] using hindex

/-- No more slots are discarded than there are. -/
theorem discardGuard_eq (s : Stack) (count : Nat) : s.discardGuard count = .ok () := by
  apply Address.difference_eq
  unfold discard
  split
  · next hcount => exact Nat.le_of_lt hcount
  · exact Nat.zero_le _

/-- A base that is held to the slots starts a range of them. -/
theorem frameGuard_eq (s : Stack) : s.frameGuard = .ok () :=
  Address.range_eq (Nat.min_le_right _ _) (Nat.le_refl _)

/-- The groups of a layout are ranges of the slots. -/
theorem layoutGuard_eq (s : Stack) : s.layoutGuard = .ok () := by
  refine Guard.forM_eq fun range hrange => ?_
  obtain ⟨hfirst, hstop⟩ := (ranges_within s.size s.frameBases).2 range hrange
  exact Address.range_eq hfirst hstop

end Stack

/-! ## The machine -/

namespace Machine

open Guarded (free behind_eq_free bind_eq_free)

/-- The sums that are formed around an instruction are addresses. -/
structure Checked.Fits (instr : Instruction) (m : Machine) : Prop where
  /-- The sums of the active frame's base and an offset. -/
  offsets : ∀ n ∈ instr.counts, m.stack.frameBase + n < Address.limit
  /-- The next address. -/
  pc : m.pc + 1 < Address.limit

section

variable {p : Program} {instr : Instruction} {m : Machine}

/-- An instruction whose sums are addresses is performed without a panic. -/
theorem performGuard_eq (h : Checked.Fits instr m) : m.performGuard instr = .ok () := by
  cases instr with
  | load offset name =>
    rw [performGuard]
    split
    · exact Stack.loadGuard_eq (h.offsets offset (List.mem_singleton_self _))
    · rfl
  | store offset name => exact Stack.storeGuard_eq (h.offsets offset (List.mem_singleton_self _))
  | pop count => exact m.stack.discardGuard_eq count
  | _ => rfl

/-- An instruction whose sums are addresses has its line without a panic. -/
theorem lineGuard_eq (h : Checked.Fits instr m) : m.lineGuard instr = .ok () := by
  cases instr with
  | store offset name => exact Address.sum_eq (h.offsets offset (List.mem_singleton_self _))
  | call jump => exact m.stack.frameGuard_eq
  | _ => rfl

/-- An instruction whose sums are addresses is shown without a panic. -/
theorem dumpGuard_eq (h : Checked.Fits instr m) : m.dumpGuard instr = .ok () := by
  unfold dumpGuard
  split
  · rw [lineGuard_eq h]
    exact m.stack.layoutGuard_eq
  · rfl

/-- Where there is a next address, the program counter moves on without a panic. -/
theorem advanceGuard_eq (h : Checked.Fits instr m) : m.advanceGuard instr = .ok () := by
  unfold advanceGuard
  split
  · rfl
  · exact Address.sum_eq h.pc

/-- A step panics nowhere if the sums around its instruction are addresses, before the instruction
and behind it. -/
theorem Checked.step_eq (hbefore : ∀ instr, p.get? m.pc = some instr → Fits instr m)
    (hbehind : ∀ instr m₁, p.get? m.pc = some instr → Effect instr m m₁ → Fits instr m₁) :
    step p m = free (Machine.step p) m := by
  refine bind_eq_free rfl fun instr m₀ hfetch => ?_
  obtain ⟨hget, rfl⟩ := fetch_eq_ok hfetch
  have hperform := behind_eq_free (performGuard_eq (hbefore instr hget)) (perform instr)
  refine bind_eq_free hperform fun _ m₁ hperformed => ?_
  have hfits := hbehind instr m₁ hget (effect_of_perform hperformed)
  refine bind_eq_free (behind_eq_free (dumpGuard_eq hfits) _) fun _ m₂ hshown => ?_
  -- What is shown leaves the stack and the program counter alone.
  have hfits₂ : Fits instr m₂ := by
    rw [showDump_eq_ok hshown]
    exact ⟨hfits.offsets, hfits.pc⟩
  exact bind_eq_free (behind_eq_free (advanceGuard_eq hfits₂) _) fun _ _ _ => rfl

-- An offset that no text spells, in a frame that does not start at the bottom.
example :
    let m : Machine := { start {} with stack.slots := #[7], stack.bases := #[1] }
    Checked.step (.resolve [.load 18446744073709551615 "x"]) m = .error (.panic .overflow) m := by
  rfl

end

end Machine

/-! ## Scopes -/

namespace Scope

/-- Undoing a binding leaves one fewer. -/
theorem live_of_undoLast? {s rest : Scope} (h : s.undoLast? = some rest) :
    rest.live = s.live - 1 := by
  unfold undoLast? at h
  split at h
  · cases h
  · split at h
    · cases h
    · cases h
      rfl

/-- No more bindings are undone than there are. -/
theorem le_live_of_undo {s t : Scope} {n : Nat} (h : s.undo n = .ok t) : n ≤ s.live := by
  unfold undo at h
  split at h
  · next hlive => exact hlive
  · cases h

/-- As many bindings as there are can be counted down. -/
theorem undoGuard_eq {n : Nat} {s : Scope} (h : n ≤ s.live) : undoGuard n s = .ok () := by
  induction n generalizing s with
  | zero => rfl
  | succ n ih =>
    rw [undoGuard]
    cases hundo : s.undoLast? with
    | none => rfl
    | some rest =>
      have hlive := live_of_undoLast? hundo
      simp only [Address.difference_eq (show 1 ≤ s.live by omega)]
      exact ih (by omega)

end Scope

/-! ## Sessions -/

namespace Session

open Guarded (free behind_eq_free bind_eq_free)

/-- There is always an innermost activation. -/
theorem currentGuard_eq (s : Session) : s.currentGuard = .ok () := by
  have hdepth := s.depth_pos
  rw [currentGuard, Address.difference_eq hdepth]
  exact Address.index_eq (by rw [length_records]; omega)

/-- Following an instruction panics nowhere if the slot of a parameter is an address. -/
theorem followGuard_eq {instr : Instruction} {s : Session}
    (h : ∀ n ∈ instr.counts, s.machine.stack.frameBase + n < Address.limit) :
    s.followGuard instr = .ok () := by
  cases instr with
  | lit v name =>
    cases name with
    | none => rfl
    | some name => exact s.currentGuard_eq
  | pop count =>
    rw [followGuard, currentGuard_eq]
    cases hundo : s.current.scope.undo count with
    | ok scope => exact Scope.undoGuard_eq (Scope.le_live_of_undo hundo)
    | error e => rfl
  | formal name offset =>
    rw [followGuard, Address.sum_eq (h offset (List.mem_singleton_self _))]
    exact s.currentGuard_eq
  | function name first last =>
    rw [followGuard, currentGuard_eq, currentGuard_eq, Stack.frameGuard_eq]
    show (if s.tracing = true then _ else _) = _
    split <;> rfl
  | line number => exact s.currentGuard_eq
  | ret name => exact s.currentGuard_eq
  | _ => rfl

/-- An action of the machine that does not panic does not panic in a session. -/
theorem onGuarded_eq {α : Type} {x : Guarded Fault Machine α} {act : Machine.Act α} {s : Session}
    (h : x s.machine = free act s.machine) : onGuarded x s = free (onMachine act) s := by
  rw [onGuarded, h, free, free, onMachine]
  cases act s.machine <;> rfl

/-- A step panics nowhere if the machine's does not and the slot of a parameter is an address. -/
theorem Checked.step_eq {p : Program} {s : Session}
    (hmachine : Machine.Checked.step p s.machine = free (Machine.step p) s.machine)
    (hbehind : ∀ instr m, Machine.step p s.machine = .ok instr m →
      ∀ n ∈ instr.counts, m.stack.frameBase + n < Address.limit) :
    step p s = free (Session.step p) s := by
  refine bind_eq_free rfl fun address s₀ hnext => ?_
  cases hnext
  -- The machine steps first; the session then follows the instruction on what the machine left.
  refine bind_eq_free (onGuarded_eq hmachine) fun instr s₁ hinstr => ?_
  let followed : Session := { s₁ with last := some instr }
  have hfits : ∀ n ∈ instr.counts, followed.machine.stack.frameBase + n < Address.limit := by
    unfold onMachine at hinstr
    split at hinstr
    · next m hm =>
      cases hinstr
      exact hbehind instr m hm
    · cases hinstr
  have hfollow := behind_eq_free (followGuard_eq hfits) (follow s.machine.pc instr)
  show (Guarded.behind (followGuard instr) (follow s.machine.pc instr) >>= fun _ => pure instr)
      followed = free (follow s.machine.pc instr >>= fun _ => pure instr) followed
  exact bind_eq_free hfollow fun _ _ _ => rfl

end Session

end XBytecode
