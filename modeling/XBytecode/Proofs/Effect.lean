import XBytecode.Machine.Step
import XBytecode.Proofs.Action

/-!
# What an instruction does

`Machine.Effect` lists, with one rule for each way that an instruction can go well, when the
instruction can be performed and what it makes of the machine. `effect_of_perform` shows that the
machine does nothing else, and `effect_of_step` adds the advance to the next instruction, so that
invariants of the machine are proved by cases on the rules and the definition of the machine is
opened here only.
-/

namespace XBytecode

open EStateM (bind_eq_ok bind_of_ok bind_of_error pure_apply modify_apply get_bind_apply)

namespace Stack

/-- A stack with a top value is that value on the rest. -/
theorem pop_eq_ok {s s' : Stack} {v : Int32} (h : s.pop = .ok (v, s')) :
    ∃ below : Array Int32, s.slots = below.push v ∧ s' = { s with slots := below } := by
  unfold pop at h
  split at h
  · next top htop =>
    cases h
    obtain ⟨below, hslots⟩ := Array.back?_eq_some_iff.mp htop
    exact ⟨below, hslots, by rw [hslots, Array.pop_push]⟩
  · cases h

/-- A store writes the top value to a slot of the rest. -/
theorem store_eq_ok {s s' : Stack} {offset : Nat} {v : Int32}
    (h : s.store offset = .ok (v, s')) :
    ∃ below : Array Int32, s.slots = below.push v ∧ s.address offset < below.size ∧
      s' = { s with slots := below.setIfInBounds (s.address offset) v } := by
  unfold store at h
  split at h
  · next top htop =>
    obtain ⟨below, hslots⟩ := Array.back?_eq_some_iff.mp htop
    have hsize : s.size - 1 = below.size := by simp [size, hslots]
    simp only [hsize, hslots, Array.pop_push] at h
    split at h
    · next hlt =>
      cases h
      exact ⟨below, hslots, hlt, rfl⟩
    · cases h
  · cases h

/-- Unwinding closes a frame and leaves the top value in place of its slots. -/
theorem unwind_eq_ok {s s' : Stack} {v : Int32} (h : s.unwind = .ok (v, s')) :
    ∃ (bases : Array Nat) (base : Nat) (below : Array Int32), s.bases = bases.push base ∧
      s.slots = below.push v ∧ s' = { slots := (below.shrink base).push v, bases } := by
  unfold unwind at h
  split at h
  · cases h
  · next base hbase =>
    split at h
    · cases h
    · next top htop =>
      cases h
      obtain ⟨bases, hbases⟩ := Array.back?_eq_some_iff.mp hbase
      obtain ⟨below, hslots⟩ := Array.back?_eq_some_iff.mp htop
      exact ⟨bases, base, below, hbases, hslots, by rw [hbases, hslots]; simp⟩

end Stack

namespace Machine

/-- `Effect instr m m'`: the instruction can be performed on `m` and makes `m'` of it, the advance
to the next instruction apart. -/
inductive Effect : Instruction → Machine → Machine → Prop where
  /-- A frame is opened over values that exist. -/
  | args {m : Machine} {count : Nat} (hcount : count ≤ m.stack.size) :
    Effect (.args count) m
      { m with stack := { m.stack with bases := m.stack.bases.push (m.stack.size - count) } }
  /-- The result takes the place of the two operands. -/
  | bop {m : Machine} {op : Operator} {below : Array Int32} {left right v : Int32}
    (hslots : m.stack.slots = (below.push left).push right) (hv : op.apply left right = some v)
    (hroom : below.size < capacity) :
    Effect (.bop op) m { m with stack := { m.stack with slots := below.push v } }
  /-- The address of the call is remembered. -/
  | call {m : Machine} {jump : Jump} {address : Nat} (htarget : jump.target = some address) :
    Effect (.call jump) m { m with returns := m.returns.push m.pc, pc := address }
  /-- A zero is popped and the branch is taken. -/
  | branch {m : Machine} {jump : Jump} {address : Nat} {below : Array Int32}
    (hslots : m.stack.slots = below.push 0) (htarget : jump.target = some address) :
    Effect (.falseBranch jump) m
      { m with stack := { m.stack with slots := below }, pc := address }
  /-- Another value is popped and the branch is not taken. -/
  | pass {m : Machine} {jump : Jump} {below : Array Int32} {v : Int32}
    (hslots : m.stack.slots = below.push v) (hv : v ≠ 0) :
    Effect (.falseBranch jump) m { m with stack := { m.stack with slots := below } }
  /-- The jump is taken. -/
  | goto {m : Machine} {jump : Jump} {address : Nat} (htarget : jump.target = some address) :
    Effect (.goto jump) m { m with pc := address }
  /-- The machine stops. -/
  | halt {m : Machine} : Effect .halt m { m with running := false }
  /-- A value is pushed if there is room. -/
  | lit {m : Machine} {v : Int32} {name : Option String} (hroom : m.stack.size < capacity) :
    Effect (.lit v name) m { m with stack := m.stack.push v }
  /-- The value of a slot is pushed if there is room. -/
  | load {m : Machine} {offset : Nat} {name : String} {v : Int32}
    (hroom : m.stack.size < capacity)
    (hslot : m.stack.slots[m.stack.address offset]? = some v) :
    Effect (.load offset name) m { m with stack := m.stack.push v }
  /-- Values are discarded. -/
  | pop {m : Machine} {count : Nat} :
    Effect (.pop count) m { m with stack := (m.stack.discard count).2 }
  /-- The prompt is written, a line is read and its value is pushed if there is room. -/
  | read {m : Machine} {c₁ c₂ c₃ : Channel} {line : String} {v : Int32}
    (hprompt : Channel.write readPrompt m.channel = .ok () c₁)
    (hflush : Channel.flush c₁ = .ok () c₂) (hline : Channel.readLine c₂ = .ok (some line) c₃)
    (hv : Numeral.word? (Text.trim line) = some v) (hroom : m.stack.size < capacity) :
    Effect .read m { m with stack := m.stack.push v, channel := c₃ }
  /-- The frame is closed over its top value and the call's address is taken back. -/
  | ret {m : Machine} {name : Option String} {returns bases : Array Nat} {below : Array Int32}
    {address base : Nat} {v : Int32} (hreturns : m.returns = returns.push address)
    (hbases : m.stack.bases = bases.push base) (hslots : m.stack.slots = below.push v) :
    Effect (.ret name) m
      { m with stack := { slots := (below.shrink base).push v, bases }, returns, pc := address }
  /-- The top value moves to a slot below it. -/
  | store {m : Machine} {offset : Nat} {name : String} {below : Array Int32} {v : Int32}
    (hslots : m.stack.slots = below.push v) (hindex : m.stack.address offset < below.size) :
    Effect (.store offset name) m
      { m with stack :=
          { m.stack with slots := below.setIfInBounds (m.stack.address offset) v } }
  /-- The top value is written. -/
  | write {m : Machine} {c : Channel} {v : Int32} (hv : m.stack.slots.back? = some v)
    (hwrite : Channel.write (Numeral.ofWord v ++ "\n") m.channel = .ok () c) :
    Effect .write m { m with channel := c }
  /-- The dump mode is set unless it is suppressed. -/
  | dump {m : Machine} {on : Bool} :
    Effect (.dump on) m (if m.dump.suppressed then m else m.setDump on)
  /-- A label does nothing. -/
  | label {m : Machine} {name : String} : Effect (.label name) m m
  /-- The marker of a parameter does nothing. -/
  | formal {m : Machine} {name : String} {offset : Nat} : Effect (.formal name offset) m m
  /-- The marker of a function does nothing. -/
  | function {m : Machine} {name : String} {first last : Int32} :
    Effect (.function name first last) m m
  /-- The marker of a line does nothing. -/
  | line {m : Machine} {number : Int32} : Effect (.line number) m m

/-- An operation of the stack changes the stack only. -/
theorem onStack_eq_ok {α : Type} {f : Stack → Except Stack.Error (α × Stack)} {m m' : Machine}
    {a : α} (h : onStack f m = .ok a m') :
    ∃ stack, f m.stack = .ok (a, stack) ∧ m' = { m with stack } := by
  unfold onStack at h
  split at h
  · next a' stack hf =>
    cases h
    exact ⟨stack, hf, rfl⟩
  · cases h

/-- An action of the channel changes the channel only. -/
theorem onChannel_eq_ok {α : Type} {act : Channel.Act α} {m m' : Machine} {a : α}
    (h : onChannel act m = .ok a m') :
    ∃ channel, act m.channel = .ok a channel ∧ m' = { m with channel } := by
  unfold onChannel at h
  split at h
  · next a' channel hact =>
    cases h
    exact ⟨channel, hact, rfl⟩
  · cases h

/-- A push needs room. -/
theorem push_eq_ok {m m' : Machine} {v : Int32} (h : push v m = .ok () m') :
    m.stack.size < capacity ∧ m' = { m with stack := m.stack.push v } := by
  unfold push at h
  split at h
  · next hroom =>
    cases h
    exact ⟨hroom, rfl⟩
  · cases h

/-- An operation of the stack without a value changes the stack only. -/
theorem changeStack_eq_ok {α : Type} {f : Stack → Except Stack.Error (α × Stack)} {m m' : Machine}
    (h : changeStack f m = .ok () m') :
    ∃ a stack, f m.stack = .ok (a, stack) ∧ m' = { m with stack } := by
  obtain ⟨a, m₁, hstack, hpure⟩ := bind_eq_ok.mp h
  cases hpure
  obtain ⟨stack, hf, rfl⟩ := onStack_eq_ok hstack
  exact ⟨a, stack, hf, rfl⟩

/-- A jump has a target when it is taken. -/
theorem target_eq_ok {jump : Jump} {m m' : Machine} {address : Nat}
    (h : target jump m = .ok address m') : jump.target = some address ∧ m' = m := by
  cases htarget : jump.target with
  | some place =>
    rw [target, htarget] at h
    cases h
    exact ⟨rfl, rfl⟩
  | none =>
    rw [target, htarget] at h
    cases h

/-- A jump that is taken sets the program counter to its target. -/
theorem jumpTo_eq_ok {jump : Jump} {m m' : Machine} (h : jumpTo jump m = .ok () m') :
    ∃ address, jump.target = some address ∧ m' = { m with pc := address } := by
  obtain ⟨address, m₁, hplace, hmodify⟩ := bind_eq_ok.mp h
  obtain ⟨htarget, rfl⟩ := target_eq_ok hplace
  cases hmodify
  exact ⟨address, htarget, rfl⟩

/-- Taking the top value leaves the machine with the rest. -/
theorem onStack_pop_eq_ok {m m' : Machine} {v : Int32} (h : onStack Stack.pop m = .ok v m') :
    ∃ below : Array Int32, m.stack.slots = below.push v ∧
      m' = { m with stack := { m.stack with slots := below } } := by
  obtain ⟨stack, hpop, rfl⟩ := onStack_eq_ok h
  obtain ⟨below, hslots, rfl⟩ := Stack.pop_eq_ok hpop
  exact ⟨below, hslots, rfl⟩

/-- Looking at the top value changes nothing. -/
theorem onStack_peek_eq_ok {m m' : Machine} {v : Int32}
    (h : onStack (fun s => s.peek.map (·, s)) m = .ok v m') :
    m.stack.slots.back? = some v ∧ m' = m := by
  obtain ⟨stack, hpeek, rfl⟩ := onStack_eq_ok h
  unfold Stack.peek at hpeek
  split at hpeek
  · next top htop =>
    cases hpeek
    exact ⟨htop, rfl⟩
  · cases hpeek

/-- Performing an instruction has one of the effects listed. -/
theorem effect_of_perform {instr : Instruction} {m m' : Machine}
    (h : perform instr m = .ok () m') : Effect instr m m' := by
  cases instr with
  | args count =>
    obtain ⟨base, stack, hframe, rfl⟩ := changeStack_eq_ok h
    unfold Stack.openFrame at hframe
    split at hframe
    · next hcount =>
      cases hframe
      exact .args hcount
    · cases hframe
  | bop op =>
    -- The right operand lies on top of the left one.
    obtain ⟨right, m₁, hright, h⟩ := bind_eq_ok.mp h
    obtain ⟨left, m₂, hleft, h⟩ := bind_eq_ok.mp h
    obtain ⟨below₁, hslots₁, rfl⟩ := onStack_pop_eq_ok hright
    obtain ⟨below, hslots₂, rfl⟩ := onStack_pop_eq_ok hleft
    cases hv : op.apply left right with
    | none => rw [hv] at h; cases h
    | some v =>
      rw [hv] at h
      obtain ⟨hroom, rfl⟩ := push_eq_ok h
      exact .bop (by rw [hslots₁]; exact congrArg (Array.push · right) hslots₂) hv hroom
  | call jump =>
    obtain ⟨address, m₁, hplace, hmodify⟩ := bind_eq_ok.mp h
    obtain ⟨htarget, rfl⟩ := target_eq_ok hplace
    cases hmodify
    exact .call htarget
  | falseBranch jump =>
    obtain ⟨v, m₁, hpop, h⟩ := bind_eq_ok.mp h
    obtain ⟨below, hslots, rfl⟩ := onStack_pop_eq_ok hpop
    by_cases hv : v = 0
    · subst hv
      obtain ⟨address, htarget, rfl⟩ := jumpTo_eq_ok h
      exact .branch hslots htarget
    · rw [if_neg hv] at h
      cases h
      exact .pass hslots hv
  | goto jump =>
    obtain ⟨address, htarget, rfl⟩ := jumpTo_eq_ok h
    exact .goto htarget
  | halt => cases h; exact .halt
  | label name => cases h; exact .label
  | lit value name =>
    obtain ⟨hroom, rfl⟩ := push_eq_ok h
    exact .lit hroom
  | load offset name =>
    rw [perform, loadSlot, get_bind_apply] at h
    -- There is room, for otherwise the load has failed before its offset was looked at.
    split at h
    · next hroom =>
      obtain ⟨v, stack, hload, rfl⟩ := changeStack_eq_ok h
      unfold Stack.load at hload
      split at hload
      · next hslot =>
        cases hload
        exact .load hroom hslot
      · cases hload
    · cases h
  | pop count => cases h; exact .pop
  | read =>
    obtain ⟨_, m₁, hprompt, h⟩ := bind_eq_ok.mp h
    obtain ⟨_, m₂, hflush, h⟩ := bind_eq_ok.mp h
    obtain ⟨line?, m₃, hline, h⟩ := bind_eq_ok.mp h
    obtain ⟨c₁, hprompted, rfl⟩ := onChannel_eq_ok hprompt
    obtain ⟨c₂, hflushed, rfl⟩ := onChannel_eq_ok hflush
    obtain ⟨c₃, hread, rfl⟩ := onChannel_eq_ok hline
    -- A line was read and it held an integer, for the other cases fail.
    cases line? with
    | none => cases h
    | some line =>
      cases hv : Numeral.word? (Text.trim line) with
      | none => simp only [hv] at h; cases h
      | some v =>
        simp only [hv] at h
        obtain ⟨hroom, rfl⟩ := push_eq_ok h
        exact .read hprompted hflushed hread hv hroom
  | ret name =>
    rw [perform, leaveCall, get_bind_apply] at h
    cases haddress : m.returns.back? with
    | none => rw [haddress] at h; cases h
    | some address =>
      rw [haddress] at h
      -- The address is only taken back when the frame has been closed.
      obtain ⟨_, m₁, hchange, hmodify⟩ := bind_eq_ok.mp h
      obtain ⟨v, stack, hunwind, rfl⟩ := changeStack_eq_ok hchange
      obtain ⟨bases, base, below, hbases, hslots, rfl⟩ := Stack.unwind_eq_ok hunwind
      obtain ⟨returns, hreturns⟩ := Array.back?_eq_some_iff.mp haddress
      rw [modify_apply, hreturns, Array.pop_push] at hmodify
      cases hmodify
      exact .ret hreturns hbases hslots
  | store offset name =>
    obtain ⟨v, stack, hstore, rfl⟩ := changeStack_eq_ok h
    obtain ⟨below, hslots, hindex, rfl⟩ := Stack.store_eq_ok hstore
    exact .store hslots hindex
  | write =>
    obtain ⟨v, m₁, hpeek, hout⟩ := bind_eq_ok.mp h
    obtain ⟨hv, rfl⟩ := onStack_peek_eq_ok hpeek
    obtain ⟨c, hwrite, rfl⟩ := onChannel_eq_ok hout
    exact .write hv hwrite
  | dump on => cases h; exact .dump
  | formal name offset => cases h; exact .formal
  | function name first last => cases h; exact .function
  | line number => cases h; exact .line

/-! ## One step -/

/-- Where the program counter goes behind an instruction that has left it at `pc`. -/
def following (pc : Nat) : Instruction → Nat
  | .call _ => pc
  | _ => pc + 1

/-- The advance to the next instruction. -/
theorem advance_apply (instr : Instruction) (m : Machine) :
    advance instr m = .ok () { m with pc := following m.pc instr } := by
  cases instr <;> rfl

/-- What a step consists of once its instruction is known. -/
theorem step_apply {p : Program} {m : Machine} {instr : Instruction}
    (h : p.get? m.pc = some instr) :
    step p m =
      (do perform instr; showDump p instr; advance instr; return instr : Act Instruction) m := by
  have hfetch : fetch p m = .ok instr m := by rw [fetch, h]
  rw [step, bind_of_ok hfetch]

/-- Outside the program there is no step. -/
theorem step_of_outside {p : Program} {m : Machine} (h : p.get? m.pc = none) :
    step p m = .error ⟨m.pc, .outsideProgram⟩ m := by
  have hfetch : fetch p m = .error ⟨m.pc, .outsideProgram⟩ m := by rw [fetch, h]
  rw [step, bind_of_error hfetch]

/-- The instruction fetched is the one at the program counter, and nothing changes. -/
theorem fetch_eq_ok {p : Program} {instr : Instruction} {m m' : Machine}
    (h : fetch p m = .ok instr m') : p.get? m.pc = some instr ∧ m' = m := by
  unfold fetch at h
  split at h
  · next hget =>
    cases h
    exact ⟨hget, rfl⟩
  · cases h

/-- Showing an instruction changes the channel and the dump mode only. -/
theorem showDump_eq_ok {p : Program} {instr : Instruction} {m m' : Machine}
    (h : showDump p instr m = .ok () m') :
    m' = { m with channel := m'.channel, dump := m'.dump } := by
  rw [showDump, get_bind_apply] at h
  split at h
  · obtain ⟨_, m₁, hshow, hsettle⟩ := bind_eq_ok.mp h
    obtain ⟨channel, -, rfl⟩ := onChannel_eq_ok hshow
    cases hsettle
    rfl
  · cases h
    rfl

/-- A step has the effect of the instruction at the program counter, shows it and moves on. -/
theorem effect_of_step {p : Program} {instr : Instruction} {m m' : Machine}
    (h : step p m = .ok instr m') :
    p.get? m.pc = some instr ∧ ∃ m₁, Effect instr m m₁ ∧
      m' = { m₁ with
        pc := following m₁.pc instr, channel := m'.channel, dump := m'.dump } := by
  obtain ⟨fetched, m₀, hfetch, h⟩ := bind_eq_ok.mp h
  obtain ⟨_, m₁, hperform, h⟩ := bind_eq_ok.mp h
  obtain ⟨_, m₂, hshow, h⟩ := bind_eq_ok.mp h
  rw [bind_of_ok (advance_apply fetched m₂), pure_apply] at h
  cases h
  obtain ⟨hget, rfl⟩ := fetch_eq_ok hfetch
  refine ⟨hget, m₁, effect_of_perform hperform, ?_⟩
  -- The dump comes between the effect and the advance, and leaves the program counter alone.
  rw [showDump_eq_ok hshow]

end Machine

end XBytecode
