import XBytecode.Proofs.Refusal

/-!
# The outcome of an instruction

`Effect` and `Refusal` list what the machine does, and each of their rules is a computation that the
machine carries out. So the rules are exact: an instruction succeeds precisely as `Effect` says
(`perform_eq_ok`) and fails precisely as `Refusal` says (`perform_eq_error`).
-/

namespace XBytecode.Machine

open EStateM (bind_of_ok bind_of_error modify_apply get_bind_apply)

variable {α : Type} {instr : Instruction} {m m' : Machine}

/-! ## Parts of an instruction -/

section Parts

variable {f : Stack → Except Stack.Error (α × Stack)} {act : Channel.Act α}

/-- An operation of the stack that succeeds changes the stack. -/
theorem onStack_of_ok {a : α} {stack : Stack} (h : f m.stack = .ok (a, stack)) :
    onStack f m = .ok a { m with stack } := by
  rw [onStack, h]

/-- An operation of the stack that is refused leaves the machine as it is. -/
theorem onStack_of_error {e : Stack.Error} (h : f m.stack = .error e) :
    onStack f m = .error ⟨m.pc, .stack e⟩ m := by
  rw [onStack, h]

/-- A change of the stack that succeeds is the operation's. -/
theorem changeStack_of_ok {a : α} {stack : Stack} (h : f m.stack = .ok (a, stack)) :
    changeStack f m = .ok () { m with stack } := by
  rw [changeStack, bind_of_ok (onStack_of_ok h)]
  rfl

/-- A change of the stack that is refused leaves the machine as it is. -/
theorem changeStack_of_error {e : Stack.Error} (h : f m.stack = .error e) :
    changeStack f m = .error ⟨m.pc, .stack e⟩ m := by
  rw [changeStack, bind_of_error (onStack_of_error h)]

/-- An action of the channel that succeeds changes the channel. -/
theorem onChannel_of_ok {a : α} {channel : Channel} (h : act m.channel = .ok a channel) :
    onChannel act m = .ok a { m with channel } := by
  rw [onChannel, h]

/-- An action of the channel that fails changes the channel. -/
theorem onChannel_of_error {e : DeviceError} {channel : Channel}
    (h : act m.channel = .error e channel) :
    onChannel act m = .error ⟨m.pc, .device e⟩ { m with channel } := by
  rw [onChannel, h]

end Parts

/-- A value on top is taken. -/
theorem onStack_pop {below : Array Int32} {v : Int32} (h : m.stack.slots = below.push v) :
    onStack Stack.pop m = .ok v { m with stack := { m.stack with slots := below } } :=
  onStack_of_ok (by simp [Stack.pop, h])

/-- No value can be taken from an empty stack. -/
theorem onStack_pop_of_empty (h : m.stack.slots = #[]) :
    onStack Stack.pop m = .error ⟨m.pc, .stack .underflow⟩ m :=
  onStack_of_error (by simp [Stack.pop, h])

/-- A value is pushed if there is room. -/
theorem push_of_room {v : Int32} (h : m.stack.size < capacity) :
    push v m = .ok () { m with stack := m.stack.push v } := by
  rw [push, if_pos h]

/-- Nothing is pushed on a full stack. -/
theorem push_of_full {v : Int32} (h : capacity ≤ m.stack.size) :
    push v m = .error ⟨m.pc, .stackOverflow⟩ m := by
  rw [push, if_neg (Nat.not_lt.mpr h)]

/-- A jump with a target is taken. -/
theorem jumpTo_of_some {jump : Jump} {address : Nat} (h : jump.target = some address) :
    jumpTo jump m = .ok () { m with pc := address } := by
  rw [jumpTo, target, h]
  rfl

/-- A jump without a target fails. -/
theorem jumpTo_of_none {jump : Jump} (h : jump.target = none) :
    jumpTo jump m = .error ⟨m.pc, .unresolvedJump jump.label⟩ m := by
  rw [jumpTo, target, h]
  rfl

/-! ## Instructions that succeed -/

/-- Every rule of `Effect` is what the machine does. -/
theorem perform_of_effect (h : Effect instr m m') : perform instr m = .ok () m' := by
  cases h with
  | args hcount =>
    apply changeStack_of_ok
    rw [Stack.openFrame, if_pos hcount]
  | bop hslots hv hroom =>
    rw [perform, operate, bind_of_ok (onStack_pop hslots), bind_of_ok (onStack_pop rfl)]
    simp only [hv]
    exact push_of_room hroom
  | call htarget =>
    rw [perform, enterCall, target, htarget]
    rfl
  | branch hslots htarget =>
    rw [perform, bind_of_ok (onStack_pop hslots), if_pos rfl]
    exact jumpTo_of_some htarget
  | pass hslots hv =>
    rw [perform, bind_of_ok (onStack_pop hslots), if_neg hv]
    rfl
  | goto htarget => exact jumpTo_of_some htarget
  | lit hroom => exact push_of_room hroom
  | load hroom hslot =>
    rw [perform, loadSlot, get_bind_apply, if_pos hroom]
    apply changeStack_of_ok
    rw [Stack.load, hslot]
  | read hprompt hflush hline hv hroom =>
    rw [perform, readInteger, bind_of_ok (onChannel_of_ok hprompt),
      bind_of_ok (onChannel_of_ok hflush), bind_of_ok (onChannel_of_ok hline)]
    simp only [hv]
    exact push_of_room hroom
  | @ret _ _ returns bases below address base v hreturns hbases hslots =>
    have hunwind : m.stack.unwind = .ok (v, { slots := (below.shrink base).push v, bases }) := by
      simp only [Stack.unwind, hbases, hslots, Array.back?_push, Array.pop_push]
    rw [perform, leaveCall, get_bind_apply, hreturns, Array.back?_push]
    simp only [bind_of_ok (changeStack_of_ok hunwind), modify_apply, hreturns, Array.pop_push]
  | @store _ offset _ below v hslots hindex =>
    have hstore : m.stack.store offset = .ok (v, { m.stack with
        slots := below.setIfInBounds (m.stack.address offset) v }) := by
      simp only [Stack.store, Stack.size, hslots, Array.back?_push, Array.size_push,
        Nat.add_sub_cancel, hindex, if_true, Array.pop_push]
    exact changeStack_of_ok hstore
  | write hv hwrite =>
    have hpeek : onStack (fun s => s.peek.map (·, s)) m = .ok _ m :=
      onStack_of_ok (by simp only [Stack.peek, hv]; rfl)
    rw [perform, writeTop, bind_of_ok hpeek]
    exact onChannel_of_ok hwrite
  | _ => rfl

/-- An instruction succeeds precisely as `Effect` says. -/
theorem perform_eq_ok : perform instr m = .ok () m' ↔ Effect instr m m' :=
  ⟨effect_of_perform, perform_of_effect⟩

/-! ## Instructions that fail -/

/-- An array that is not empty has a last element. -/
theorem exists_back? {xs : Array Nat} (h : xs ≠ #[]) : ∃ x, xs.back? = some x := by
  rw [← Option.isSome_iff_exists, Option.isSome_iff_ne_none]
  exact fun hnone => h (Array.back?_eq_none_iff.mp hnone)

/-- Every rule of `Refusal` is what the machine does. -/
theorem perform_of_refusal {cause : Fault.Cause} (h : Refusal instr m cause m') :
    perform instr m = .error ⟨m.pc, cause⟩ m' := by
  cases h with
  | args hcount =>
    apply changeStack_of_error
    rw [Stack.openFrame, if_neg (Nat.not_le.mpr hcount)]
  | noRight hslots =>
    rw [perform, operate, bind_of_error (onStack_pop_of_empty hslots)]
  | @noLeft _ _ right hslots =>
    have htop : m.stack.slots = #[].push right := hslots
    rw [perform, operate, bind_of_ok (onStack_pop htop),
      bind_of_error (onStack_pop_of_empty rfl)]
  | noResult hslots hv =>
    rw [perform, operate, bind_of_ok (onStack_pop hslots), bind_of_ok (onStack_pop rfl)]
    simp only [hv]
    rfl
  | noRoom hslots hv hfull =>
    rw [perform, operate, bind_of_ok (onStack_pop hslots), bind_of_ok (onStack_pop rfl)]
    simp only [hv]
    exact push_of_full hfull
  | call htarget =>
    rw [perform, enterCall, target, htarget]
    rfl
  | noCondition hslots => rw [perform, bind_of_error (onStack_pop_of_empty hslots)]
  | branch hslots htarget =>
    rw [perform, bind_of_ok (onStack_pop hslots), if_pos rfl]
    exact jumpTo_of_none htarget
  | goto htarget => exact jumpTo_of_none htarget
  | lit hfull => exact push_of_full hfull
  | loadFull hfull =>
    rw [perform, loadSlot, get_bind_apply, if_neg (Nat.not_lt.mpr hfull)]
    rfl
  | load hroom hslot =>
    rw [perform, loadSlot, get_bind_apply, if_pos hroom]
    apply changeStack_of_error
    rw [Stack.load, hslot]
  | prompt hprompt =>
    rw [perform, readInteger, bind_of_error (onChannel_of_error hprompt)]
  | flush hprompt hflush =>
    rw [perform, readInteger, bind_of_ok (onChannel_of_ok hprompt),
      bind_of_error (onChannel_of_error hflush)]
  | noLine hprompt hflush hline =>
    rw [perform, readInteger, bind_of_ok (onChannel_of_ok hprompt),
      bind_of_ok (onChannel_of_ok hflush), bind_of_error (onChannel_of_error hline)]
  | endOfInput hprompt hflush hline =>
    rw [perform, readInteger, bind_of_ok (onChannel_of_ok hprompt),
      bind_of_ok (onChannel_of_ok hflush), bind_of_ok (onChannel_of_ok hline)]
    rfl
  | noInteger hprompt hflush hline hv =>
    rw [perform, readInteger, bind_of_ok (onChannel_of_ok hprompt),
      bind_of_ok (onChannel_of_ok hflush), bind_of_ok (onChannel_of_ok hline)]
    simp only [hv]
    rfl
  | readFull hprompt hflush hline hv hfull =>
    rw [perform, readInteger, bind_of_ok (onChannel_of_ok hprompt),
      bind_of_ok (onChannel_of_ok hflush), bind_of_ok (onChannel_of_ok hline)]
    simp only [hv]
    exact push_of_full hfull
  | noCall hreturns =>
    rw [perform, leaveCall, get_bind_apply, hreturns]
    rfl
  | noFrame hreturns hbases =>
    obtain ⟨address, haddress⟩ := exists_back? hreturns
    have hunwind : m.stack.unwind = .error .noActiveFrame := by
      simp [Stack.unwind, hbases]
    rw [perform, leaveCall, get_bind_apply, haddress]
    simp only [bind_of_error (changeStack_of_error hunwind)]
  | noValue hreturns hbases hslots =>
    obtain ⟨address, haddress⟩ := exists_back? hreturns
    obtain ⟨base, hbase⟩ := exists_back? hbases
    have hunwind : m.stack.unwind = .error .underflow := by
      simp [Stack.unwind, hbase, hslots]
    rw [perform, leaveCall, get_bind_apply, haddress]
    simp only [bind_of_error (changeStack_of_error hunwind)]
  | storeEmpty hslots =>
    apply changeStack_of_error
    simp only [Stack.store, hslots]
    rfl
  | store hslots hindex =>
    apply changeStack_of_error
    simp only [Stack.store, Stack.size, hslots, Array.back?_push, Array.size_push,
      Nat.add_sub_cancel, Nat.not_lt.mpr hindex, if_false]
  | writeEmpty hslots =>
    have hpeek : onStack (fun s => s.peek.map (·, s)) m = .error _ m :=
      onStack_of_error (by simp only [Stack.peek, hslots]; rfl)
    rw [perform, writeTop, bind_of_error hpeek]
  | write hv hwrite =>
    have hpeek : onStack (fun s => s.peek.map (·, s)) m = .ok _ m :=
      onStack_of_ok (by simp only [Stack.peek, hv]; rfl)
    rw [perform, writeTop, bind_of_ok hpeek]
    exact onChannel_of_error hwrite

/-- An instruction fails precisely as `Refusal` says, at its own address. -/
theorem perform_eq_error {g : Fault} :
    perform instr m = .error g m' ↔ g.address = m.pc ∧ Refusal instr m g.cause m' := by
  refine ⟨refusal_of_perform, ?_⟩
  rintro ⟨haddress, hrefusal⟩
  rw [perform_of_refusal hrefusal, ← haddress]

end XBytecode.Machine
