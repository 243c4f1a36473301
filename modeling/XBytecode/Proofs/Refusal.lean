import XBytecode.Proofs.Effect

/-!
# What an instruction that fails leaves behind

`Machine.Refusal` is the other half of `Machine.Effect`: with one rule for each way that an
instruction can fail, it lists when the instruction is refused, why, and what is then left of the
machine. `refusal_of_perform` shows that the machine fails in no other way, and at the address of
the instruction. `refusal_of_step` adds what else can go wrong in a step: there may be no
instruction at the program counter, and the device may refuse to show one that has been performed.
-/

namespace XBytecode

open EStateM (bind_eq_error modify_apply get_bind_apply)

namespace Stack

/-- Only an empty stack has no value to take. -/
theorem pop_eq_error {s : Stack} {e : Error} (h : s.pop = .error e) :
    s.slots = #[] ∧ e = .underflow := by
  unfold pop at h
  split at h
  · cases h
  · next hnone =>
    cases h
    exact ⟨Array.back?_eq_none_iff.mp hnone, rfl⟩

/-- A store is refused on an empty stack and to a slot that is not below the top value. -/
theorem store_eq_error {s : Stack} {offset : Nat} {e : Error} (h : s.store offset = .error e) :
    (s.slots = #[] ∧ e = .underflow) ∨
      ∃ (below : Array Int32) (v : Int32), s.slots = below.push v ∧
        below.size ≤ s.address offset ∧ e = .outOfRange (s.address offset) below.size := by
  unfold store at h
  split at h
  · next top htop =>
    obtain ⟨below, hslots⟩ := Array.back?_eq_some_iff.mp htop
    have hsize : s.size - 1 = below.size := by simp [size, hslots]
    simp only [hsize] at h
    split at h
    · cases h
    · next hlt =>
      cases h
      exact .inr ⟨below, top, hslots, Nat.not_lt.mp hlt, rfl⟩
  · next hnone =>
    cases h
    exact .inl ⟨Array.back?_eq_none_iff.mp hnone, rfl⟩

/-- Unwinding is refused without a frame and without a value. -/
theorem unwind_eq_error {s : Stack} {e : Error} (h : s.unwind = .error e) :
    (s.bases = #[] ∧ e = .noActiveFrame) ∨
      (s.bases ≠ #[] ∧ s.slots = #[] ∧ e = .underflow) := by
  unfold unwind at h
  split at h
  · next hbase =>
    cases h
    exact .inl ⟨Array.back?_eq_none_iff.mp hbase, rfl⟩
  · next base hbase =>
    split at h
    · next htop =>
      cases h
      refine .inr ⟨?_, Array.back?_eq_none_iff.mp htop, rfl⟩
      intro hempty
      rw [Array.back?_eq_none_iff.mpr hempty] at hbase
      cases hbase
    · cases h

end Stack

namespace Machine

/-- `Refusal instr m cause m'`: the instruction cannot be performed on `m`, for the cause given, and
leaves `m'`. -/
inductive Refusal : Instruction → Machine → Fault.Cause → Machine → Prop where
  /-- There are fewer values than the frame is to hold. -/
  | args {m : Machine} {count : Nat} (hcount : m.stack.size < count) :
    Refusal (.args count) m (.stack (.outOfRange count m.stack.size)) m
  /-- There is no right operand. -/
  | noRight {m : Machine} {op : Operator} (hslots : m.stack.slots = #[]) :
    Refusal (.bop op) m (.stack .underflow) m
  /-- There is no left operand. The right one is lost. -/
  | noLeft {m : Machine} {op : Operator} {right : Int32} (hslots : m.stack.slots = #[right]) :
    Refusal (.bop op) m (.stack .underflow) { m with stack := { m.stack with slots := #[] } }
  /-- The operation has no result. Both operands are lost. -/
  | noResult {m : Machine} {op : Operator} {below : Array Int32} {left right : Int32}
    (hslots : m.stack.slots = (below.push left).push right) (hv : op.apply left right = none) :
    Refusal (.bop op) m .divisionByZero { m with stack := { m.stack with slots := below } }
  /-- There is no room for the result. Both operands are lost. -/
  | noRoom {m : Machine} {op : Operator} {below : Array Int32} {left right v : Int32}
    (hslots : m.stack.slots = (below.push left).push right) (hv : op.apply left right = some v)
    (hfull : capacity ≤ below.size) :
    Refusal (.bop op) m .stackOverflow { m with stack := { m.stack with slots := below } }
  /-- The function called has no place. -/
  | call {m : Machine} {jump : Jump} (htarget : jump.target = none) :
    Refusal (.call jump) m (.unresolvedJump jump.label) m
  /-- There is no value to branch on. -/
  | noCondition {m : Machine} {jump : Jump} (hslots : m.stack.slots = #[]) :
    Refusal (.falseBranch jump) m (.stack .underflow) m
  /-- The branch is to be taken and has no place to go. The zero is lost. -/
  | branch {m : Machine} {jump : Jump} {below : Array Int32}
    (hslots : m.stack.slots = below.push 0) (htarget : jump.target = none) :
    Refusal (.falseBranch jump) m (.unresolvedJump jump.label)
      { m with stack := { m.stack with slots := below } }
  /-- The jump has no place to go. -/
  | goto {m : Machine} {jump : Jump} (htarget : jump.target = none) :
    Refusal (.goto jump) m (.unresolvedJump jump.label) m
  /-- There is no room for the value. -/
  | lit {m : Machine} {v : Int32} {name : Option String} (hfull : capacity ≤ m.stack.size) :
    Refusal (.lit v name) m .stackOverflow m
  /-- There is no room for the slot's value. -/
  | loadFull {m : Machine} {offset : Nat} {name : String} (hfull : capacity ≤ m.stack.size) :
    Refusal (.load offset name) m .stackOverflow m
  /-- There is no slot at the offset. -/
  | load {m : Machine} {offset : Nat} {name : String} (hroom : m.stack.size < capacity)
    (hslot : m.stack.slots[m.stack.address offset]? = none) :
    Refusal (.load offset name) m
      (.stack (.outOfRange (m.stack.address offset) m.stack.size)) m
  /-- The prompt is refused. -/
  | prompt {m : Machine} {c : Channel} {e : DeviceError}
    (hprompt : Channel.write readPrompt m.channel = .error e c) :
    Refusal .read m (.device e) { m with channel := c }
  /-- The prompt is not passed on. -/
  | flush {m : Machine} {c₁ c₂ : Channel} {e : DeviceError}
    (hprompt : Channel.write readPrompt m.channel = .ok () c₁)
    (hflush : Channel.flush c₁ = .error e c₂) :
    Refusal .read m (.device e) { m with channel := c₂ }
  /-- No line can be read. -/
  | noLine {m : Machine} {c₁ c₂ c₃ : Channel} {e : DeviceError}
    (hprompt : Channel.write readPrompt m.channel = .ok () c₁)
    (hflush : Channel.flush c₁ = .ok () c₂) (hline : Channel.readLine c₂ = .error e c₃) :
    Refusal .read m (.device e) { m with channel := c₃ }
  /-- The input is at its end. -/
  | endOfInput {m : Machine} {c₁ c₂ c₃ : Channel}
    (hprompt : Channel.write readPrompt m.channel = .ok () c₁)
    (hflush : Channel.flush c₁ = .ok () c₂) (hline : Channel.readLine c₂ = .ok none c₃) :
    Refusal .read m .endOfInput { m with channel := c₃ }
  /-- The line read is no integer. -/
  | noInteger {m : Machine} {c₁ c₂ c₃ : Channel} {line : String}
    (hprompt : Channel.write readPrompt m.channel = .ok () c₁)
    (hflush : Channel.flush c₁ = .ok () c₂) (hline : Channel.readLine c₂ = .ok (some line) c₃)
    (hv : Numeral.word? (Text.trim line) = none) :
    Refusal .read m (.invalidInput line) { m with channel := c₃ }
  /-- There is no room for the integer read. -/
  | readFull {m : Machine} {c₁ c₂ c₃ : Channel} {line : String} {v : Int32}
    (hprompt : Channel.write readPrompt m.channel = .ok () c₁)
    (hflush : Channel.flush c₁ = .ok () c₂) (hline : Channel.readLine c₂ = .ok (some line) c₃)
    (hv : Numeral.word? (Text.trim line) = some v) (hfull : capacity ≤ m.stack.size) :
    Refusal .read m .stackOverflow { m with channel := c₃ }
  /-- There is no call to return from. -/
  | noCall {m : Machine} {name : Option String} (hreturns : m.returns = #[]) :
    Refusal (.ret name) m .noReturnAddress m
  /-- There is no frame to close. -/
  | noFrame {m : Machine} {name : Option String} (hreturns : m.returns ≠ #[])
    (hbases : m.stack.bases = #[]) : Refusal (.ret name) m (.stack .noActiveFrame) m
  /-- There is no value to return. -/
  | noValue {m : Machine} {name : Option String} (hreturns : m.returns ≠ #[])
    (hbases : m.stack.bases ≠ #[]) (hslots : m.stack.slots = #[]) :
    Refusal (.ret name) m (.stack .underflow) m
  /-- There is no value to store. -/
  | storeEmpty {m : Machine} {offset : Nat} {name : String} (hslots : m.stack.slots = #[]) :
    Refusal (.store offset name) m (.stack .underflow) m
  /-- The slot to store to is not below the value. -/
  | store {m : Machine} {offset : Nat} {name : String} {below : Array Int32} {v : Int32}
    (hslots : m.stack.slots = below.push v) (hindex : below.size ≤ m.stack.address offset) :
    Refusal (.store offset name) m
      (.stack (.outOfRange (m.stack.address offset) below.size)) m
  /-- There is no value to write. -/
  | writeEmpty {m : Machine} (hslots : m.stack.slots = #[]) :
    Refusal .write m (.stack .underflow) m
  /-- The value is refused by the device. -/
  | write {m : Machine} {c : Channel} {v : Int32} {e : DeviceError}
    (hv : m.stack.slots.back? = some v)
    (hwrite : Channel.write (Numeral.ofWord v ++ "\n") m.channel = .error e c) :
    Refusal .write m (.device e) { m with channel := c }

/-! ## Actions that fail -/

/-- A refused operation of the stack leaves the machine alone. -/
theorem onStack_eq_error {α : Type} {f : Stack → Except Stack.Error (α × Stack)} {m m' : Machine}
    {g : Fault} (h : onStack f m = .error g m') :
    ∃ e, f m.stack = .error e ∧ g = ⟨m.pc, .stack e⟩ ∧ m' = m := by
  unfold onStack at h
  split at h
  · cases h
  · next e hf =>
    cases h
    exact ⟨e, hf, rfl, rfl⟩

/-- A failing action of the channel changes the channel only. -/
theorem onChannel_eq_error {α : Type} {act : Channel.Act α} {m m' : Machine} {g : Fault}
    (h : onChannel act m = .error g m') :
    ∃ e channel, act m.channel = .error e channel ∧ g = ⟨m.pc, .device e⟩ ∧
      m' = { m with channel } := by
  unfold onChannel at h
  split at h
  · cases h
  · next e channel hact =>
    cases h
    exact ⟨e, channel, hact, rfl, rfl⟩

/-- A push is refused when the stack is full. -/
theorem push_eq_error {m m' : Machine} {v : Int32} {g : Fault} (h : push v m = .error g m') :
    capacity ≤ m.stack.size ∧ g = ⟨m.pc, .stackOverflow⟩ ∧ m' = m := by
  unfold push at h
  split at h
  · cases h
  · next hfull =>
    cases h
    exact ⟨Nat.not_lt.mp hfull, rfl, rfl⟩

/-- A refused operation of the stack without a value leaves the machine alone. -/
theorem changeStack_eq_error {α : Type} {f : Stack → Except Stack.Error (α × Stack)}
    {m m' : Machine} {g : Fault} (h : changeStack f m = .error g m') :
    ∃ e, f m.stack = .error e ∧ g = ⟨m.pc, .stack e⟩ ∧ m' = m := by
  obtain hstack | ⟨a, m₁, -, hpure⟩ := bind_eq_error.mp h
  · exact onStack_eq_error hstack
  · cases hpure

/-- A jump without a target has no address. -/
theorem target_eq_error {jump : Jump} {m m' : Machine} {g : Fault}
    (h : target jump m = .error g m') :
    jump.target = none ∧ g = ⟨m.pc, .unresolvedJump jump.label⟩ ∧ m' = m := by
  cases htarget : jump.target with
  | some place =>
    rw [target, htarget] at h
    cases h
  | none =>
    rw [target, htarget] at h
    cases h
    exact ⟨rfl, rfl, rfl⟩

/-- A jump fails when it has no target. -/
theorem jumpTo_eq_error {jump : Jump} {m m' : Machine} {g : Fault}
    (h : jumpTo jump m = .error g m') :
    jump.target = none ∧ g = ⟨m.pc, .unresolvedJump jump.label⟩ ∧ m' = m := by
  obtain htarget | ⟨address, m₁, -, hmodify⟩ := bind_eq_error.mp h
  · exact target_eq_error htarget
  · cases hmodify

/-- Taking the top value fails on an empty stack. -/
theorem onStack_pop_eq_error {m m' : Machine} {g : Fault}
    (h : onStack Stack.pop m = .error g m') :
    m.stack.slots = #[] ∧ g = ⟨m.pc, .stack .underflow⟩ ∧ m' = m := by
  obtain ⟨e, hpop, rfl, rfl⟩ := onStack_eq_error h
  obtain ⟨hslots, rfl⟩ := Stack.pop_eq_error hpop
  exact ⟨hslots, rfl, rfl⟩

/-- Looking at the top value fails on an empty stack. -/
theorem onStack_peek_eq_error {m m' : Machine} {g : Fault}
    (h : onStack (fun s => s.peek.map (·, s)) m = .error g m') :
    m.stack.slots = #[] ∧ g = ⟨m.pc, .stack .underflow⟩ ∧ m' = m := by
  obtain ⟨e, hpeek, rfl, rfl⟩ := onStack_eq_error h
  unfold Stack.peek at hpeek
  split at hpeek
  · cases hpeek
  · next hnone =>
    cases hpeek
    exact ⟨Array.back?_eq_none_iff.mp hnone, rfl, rfl⟩

/-- A binary operation is refused for want of an operand, of a result or of room. -/
theorem refusal_of_operate {op : Operator} {m m' : Machine} {g : Fault}
    (h : operate op m = .error g m') : g.address = m.pc ∧ Refusal (.bop op) m g.cause m' := by
  obtain hright | ⟨right, m₁, hright, h⟩ := bind_eq_error.mp h
  · obtain ⟨hslots, rfl, rfl⟩ := onStack_pop_eq_error hright
    exact ⟨rfl, .noRight hslots⟩
  obtain ⟨below₁, hslots₁, rfl⟩ := onStack_pop_eq_ok hright
  obtain hleft | ⟨left, m₂, hleft, h⟩ := bind_eq_error.mp h
  · obtain ⟨hslots, rfl, rfl⟩ := onStack_pop_eq_error hleft
    have hbelow : below₁ = #[] := hslots
    subst hbelow
    exact ⟨rfl, .noLeft hslots₁⟩
  obtain ⟨below, hslots₂, rfl⟩ := onStack_pop_eq_ok hleft
  have hslots : m.stack.slots = (below.push left).push right := by
    rw [hslots₁]
    exact congrArg (Array.push · right) hslots₂
  cases hv : op.apply left right with
  | none =>
    rw [hv] at h
    cases h
    exact ⟨rfl, .noResult hslots hv⟩
  | some v =>
    rw [hv] at h
    obtain ⟨hfull, rfl, rfl⟩ := push_eq_error h
    exact ⟨rfl, .noRoom hslots hv hfull⟩

/-- Reading an integer is refused at the prompt, at the flush, at the line, at its text or for want
of room. -/
theorem refusal_of_readInteger {m m' : Machine} {g : Fault} (h : readInteger m = .error g m') :
    g.address = m.pc ∧ Refusal .read m g.cause m' := by
  obtain hprompt | ⟨_, m₁, hprompt, h⟩ := bind_eq_error.mp h
  · obtain ⟨e, c, hwrite, rfl, rfl⟩ := onChannel_eq_error hprompt
    exact ⟨rfl, .prompt hwrite⟩
  obtain ⟨c₁, hprompted, rfl⟩ := onChannel_eq_ok hprompt
  obtain hflush | ⟨_, m₂, hflush, h⟩ := bind_eq_error.mp h
  · obtain ⟨e, c, hrefused, rfl, rfl⟩ := onChannel_eq_error hflush
    exact ⟨rfl, .flush hprompted hrefused⟩
  obtain ⟨c₂, hflushed, rfl⟩ := onChannel_eq_ok hflush
  obtain hline | ⟨line?, m₃, hline, h⟩ := bind_eq_error.mp h
  · obtain ⟨e, c, hrefused, rfl, rfl⟩ := onChannel_eq_error hline
    exact ⟨rfl, .noLine hprompted hflushed hrefused⟩
  obtain ⟨c₃, hread, rfl⟩ := onChannel_eq_ok hline
  cases line? with
  | none =>
    cases h
    exact ⟨rfl, .endOfInput hprompted hflushed hread⟩
  | some line =>
    cases hv : Numeral.word? (Text.trim line) with
    | none =>
      simp only [hv] at h
      cases h
      exact ⟨rfl, .noInteger hprompted hflushed hread hv⟩
    | some v =>
      simp only [hv] at h
      obtain ⟨hfull, rfl, rfl⟩ := push_eq_error h
      exact ⟨rfl, .readFull hprompted hflushed hread hv hfull⟩

/-- A return is refused without a call, without a frame and without a value, in this order. -/
theorem refusal_of_leaveCall {name : Option String} {m m' : Machine} {g : Fault}
    (h : leaveCall m = .error g m') : g.address = m.pc ∧ Refusal (.ret name) m g.cause m' := by
  rw [leaveCall, get_bind_apply] at h
  cases haddress : m.returns.back? with
  | none =>
    rw [haddress] at h
    cases h
    exact ⟨rfl, .noCall (Array.back?_eq_none_iff.mp haddress)⟩
  | some address =>
    have hreturns : m.returns ≠ #[] := by
      intro hempty
      rw [Array.back?_eq_none_iff.mpr hempty] at haddress
      cases haddress
    rw [haddress] at h
    obtain hunwind | ⟨_, m₁, -, hmodify⟩ := bind_eq_error.mp h
    · obtain ⟨e, hrefused, rfl, rfl⟩ := changeStack_eq_error hunwind
      obtain ⟨hbases, rfl⟩ | ⟨hbases, hslots, rfl⟩ := Stack.unwind_eq_error hrefused
      · exact ⟨rfl, .noFrame hreturns hbases⟩
      · exact ⟨rfl, .noValue hreturns hbases hslots⟩
    · cases hmodify

/-- Performing an instruction fails in one of the ways listed, at the program counter. -/
theorem refusal_of_perform {instr : Instruction} {m m' : Machine} {g : Fault}
    (h : perform instr m = .error g m') : g.address = m.pc ∧ Refusal instr m g.cause m' := by
  cases instr with
  | args count =>
    obtain ⟨e, hframe, rfl, rfl⟩ := changeStack_eq_error h
    unfold Stack.openFrame at hframe
    split at hframe
    · cases hframe
    · next hcount =>
      cases hframe
      exact ⟨rfl, .args (Nat.not_le.mp hcount)⟩
  | bop op => exact refusal_of_operate h
  | call jump =>
    obtain htarget | ⟨address, m₁, -, hmodify⟩ := bind_eq_error.mp h
    · obtain ⟨hnone, rfl, rfl⟩ := target_eq_error htarget
      exact ⟨rfl, .call hnone⟩
    · cases hmodify
  | falseBranch jump =>
    obtain hpop | ⟨v, m₁, hpop, h⟩ := bind_eq_error.mp h
    · obtain ⟨hslots, rfl, rfl⟩ := onStack_pop_eq_error hpop
      exact ⟨rfl, .noCondition hslots⟩
    obtain ⟨below, hslots, rfl⟩ := onStack_pop_eq_ok hpop
    by_cases hv : v = 0
    · subst hv
      obtain ⟨hnone, rfl, rfl⟩ := jumpTo_eq_error h
      exact ⟨rfl, .branch hslots hnone⟩
    · rw [if_neg hv] at h
      cases h
  | goto jump =>
    obtain ⟨hnone, rfl, rfl⟩ := jumpTo_eq_error h
    exact ⟨rfl, .goto hnone⟩
  | lit value name =>
    obtain ⟨hfull, rfl, rfl⟩ := push_eq_error h
    exact ⟨rfl, .lit hfull⟩
  | load offset name =>
    rw [perform, loadSlot, get_bind_apply] at h
    split at h
    · next hroom =>
      obtain ⟨e, hload, rfl, rfl⟩ := changeStack_eq_error h
      unfold Stack.load at hload
      split at hload
      · cases hload
      · next hslot =>
        cases hload
        exact ⟨rfl, .load hroom hslot⟩
    · next hfull =>
      cases h
      exact ⟨rfl, .loadFull (Nat.not_lt.mp hfull)⟩
  | read => exact refusal_of_readInteger h
  | ret name => exact refusal_of_leaveCall h
  | store offset name =>
    obtain ⟨e, hstore, rfl, rfl⟩ := changeStack_eq_error h
    obtain ⟨hslots, rfl⟩ | ⟨below, v, hslots, hindex, rfl⟩ := Stack.store_eq_error hstore
    · exact ⟨rfl, .storeEmpty hslots⟩
    · exact ⟨rfl, .store hslots hindex⟩
  | write =>
    obtain hpeek | ⟨v, m₁, hpeek, hout⟩ := bind_eq_error.mp h
    · obtain ⟨hslots, rfl, rfl⟩ := onStack_peek_eq_error hpeek
      exact ⟨rfl, .writeEmpty hslots⟩
    obtain ⟨hv, rfl⟩ := onStack_peek_eq_ok hpeek
    obtain ⟨e, c, hwrite, rfl, rfl⟩ := onChannel_eq_error hout
    exact ⟨rfl, .write hv hwrite⟩
  -- The other instructions always go well.
  | halt => cases h
  | label name => cases h
  | pop count => cases h
  | dump on => cases h
  | formal name offset => cases h
  | function name first last => cases h
  | line number => cases h

/-! ## One step -/

/-- Showing an instruction fails when the device refuses it, and changes the channel only. -/
theorem showDump_eq_error {p : Program} {instr : Instruction} {m m' : Machine} {g : Fault}
    (h : showDump p instr m = .error g m') :
    ∃ e channel, g = ⟨m.pc, .device e⟩ ∧ m' = { m with channel } := by
  rw [showDump, get_bind_apply] at h
  split at h
  · obtain hshow | ⟨_, m₁, -, hsettle⟩ := bind_eq_error.mp h
    · obtain ⟨e, channel, -, rfl, rfl⟩ := onChannel_eq_error hshow
      exact ⟨e, channel, rfl, rfl⟩
    · cases hsettle
  · cases h

/-- A step fails outside the program, when its instruction is refused, or when the instruction has
been performed and cannot be shown. In the last case the program counter has not been moved on, but
a jump has been taken. -/
theorem refusal_of_step {p : Program} {m m' : Machine} {g : Fault}
    (h : step p m = .error g m') :
    (p.get? m.pc = none ∧ g = ⟨m.pc, .outsideProgram⟩ ∧ m' = m) ∨
      ∃ instr, p.get? m.pc = some instr ∧
        ((g.address = m.pc ∧ Refusal instr m g.cause m') ∨
          ∃ m₁ e channel, Effect instr m m₁ ∧ g = ⟨m₁.pc, .device e⟩ ∧
            m' = { m₁ with channel }) := by
  cases hget : p.get? m.pc with
  | none =>
    rw [step_of_outside hget] at h
    cases h
    exact .inl ⟨rfl, rfl, rfl⟩
  | some instr =>
    refine .inr ⟨instr, rfl, ?_⟩
    rw [step_apply hget] at h
    obtain hperform | ⟨_, m₁, hperform, h⟩ := bind_eq_error.mp h
    · exact .inl (refusal_of_perform hperform)
    obtain hshow | ⟨_, m₂, -, h⟩ := bind_eq_error.mp h
    · obtain ⟨e, channel, rfl, rfl⟩ := showDump_eq_error hshow
      exact .inr ⟨m₁, e, channel, effect_of_perform hperform, rfl, rfl⟩
    · -- The advance to the next instruction never fails.
      rw [EStateM.bind_of_ok (advance_apply instr m₂)] at h
      cases h

end Machine

end XBytecode
