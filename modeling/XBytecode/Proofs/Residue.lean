import Mathlib.Data.List.TakeWhile
import XBytecode.Proofs.Capacity

/-!
# What a failed step leaves behind

A step can fail after it has begun to work. Apart from faults of the channel, little of the machine
is then touched: of the slots, the operands that the instruction had already taken (`Stack.spent`),
and of the channel, what a `READ` has asked and been told (`Channel.asked`). `Refusal.residue` says
so for every rule of `Refusal`. The rule for an operator without room for its result has no place
here, for an operator takes two values before it pushes one, and the slots stay within the capacity.
-/

namespace XBytecode

namespace Channel

/-- The channel of a `READ` on a device that does what it is asked: the prompt has been written and
passed on, and the first line of the input has been taken, if there is one. -/
def asked (c : Channel) : Channel :=
  { c with
    input := (cutLine c.input).2
    written := c.written ++ Machine.readPrompt
    requests := .flush :: .write Machine.readPrompt :: c.requests }

variable {c c' : Channel}

/-- A write that succeeds has written the whole text. -/
theorem write_eq_ok {text : String} (h : write text c = .ok () c') :
    c' = { c with written := c.written ++ text, requests := .write text :: c.requests } := by
  unfold write at h
  simp only at h
  split at h
  · cases h
    rfl
  · cases h

/-- A flush that succeeds changes nothing but the requests. -/
theorem flush_eq_ok (h : flush c = .ok () c') :
    c' = { c with requests := .flush :: c.requests } := by
  unfold flush at h
  simp only at h
  split at h
  · cases h
    rfl
  · cases h

/-- Reading takes the first line away; at the end of the input there is nothing to take. -/
theorem readLine_eq_ok {line : Option String} (h : readLine c = .ok line c') :
    c' = { c with input := (cutLine c.input).2 } := by
  unfold readLine at h
  split at h
  · next hempty =>
    have hnil : c.input = [] := List.isEmpty_iff.mp hempty
    have hrest : (cutLine c.input).2 = c.input := by rw [hnil]; rfl
    cases h
    rw [hrest]
  · simp only at h
    split at h
    · cases h
      rfl
    · cases h

/-- Between the prompt and the line, a `READ` uses the channel for nothing else. -/
theorem eq_asked {c₁ c₂ c₃ : Channel} {line : Option String}
    (hprompt : write Machine.readPrompt c = .ok () c₁) (hflush : flush c₁ = .ok () c₂)
    (hline : readLine c₂ = .ok line c₃) : c₃ = c.asked := by
  rw [readLine_eq_ok hline, flush_eq_ok hflush, write_eq_ok hprompt]
  rfl

/-- What is cut off as a line has a line feed at its end at most. -/
theorem feed_notMem_cutLine (bytes : List UInt8) : 10 ∉ (cutLine bytes).1.dropLast := by
  have hbefore : 10 ∉ bytes.takeWhile (· != 10) := by
    intro hmem
    have hne := List.mem_takeWhile_imp hmem
    simp at hne
  unfold cutLine
  split
  · rwa [List.dropLast_concat]
  · next hnone =>
    -- No byte is left behind the first ones that are no line feeds, so these are all of them.
    have hall : bytes.takeWhile (· != 10) = bytes := by
      have hwhole : bytes.takeWhile (· != 10) ++ bytes.dropWhile (· != 10) = bytes :=
        List.takeWhile_append_dropWhile
      rwa [hnone, List.append_nil] at hwhole
    rw [hall] at hbefore
    exact fun hmem => hbefore (List.mem_of_mem_dropLast hmem)

end Channel

/-- The number of values that an instruction has taken from the stack when it fails. A division by
zero has taken both operands, an operator that finds one value has taken it, and a branch that is
about to be taken and has no place to go has taken the zero. -/
def Stack.spent (s : Stack) : Instruction → Nat
  | .bop op =>
    if s.size = 1 then 1
    else if op = .div ∧ s.slots.back? = some 0 then 2
    else 0
  | .falseBranch jump => if s.slots.back? = some 0 ∧ jump.target = none then 1 else 0
  | _ => 0

namespace Machine

/-- The machine that an instruction leaves when it fails for another cause than its channel. -/
def leftover (m : Machine) (instr : Instruction) : Machine :=
  { m with
    stack.slots := m.stack.slots.take (m.stack.size - m.stack.spent instr)
    channel := if instr = .read then m.channel.asked else m.channel }

variable {instr : Instruction} {m m' : Machine}

/-- Nothing is left over but the machine itself of an instruction that takes no values and does not
read. -/
theorem leftover_eq_self (hspent : m.stack.spent instr = 0) (hread : instr ≠ .read) :
    m.leftover instr = m := by
  have hslots : m.stack.slots.take (m.stack.size - m.stack.spent instr) = m.stack.slots := by
    rw [hspent, Nat.sub_zero, Stack.size, Array.take_eq_extract, Array.extract_size]
  simp only [leftover, hslots, if_neg hread]

/-- An instruction that is refused, within the capacity and not by its channel, leaves the machine
but for the values that it has taken and what it has asked. -/
theorem Refusal.residue {cause : Fault.Cause} (h : Refusal instr m cause m')
    (hm : m.stack.size ≤ capacity) (hcause : ∀ e, cause ≠ .device e) : m' = m.leftover instr := by
  cases h with
  | @noRight _ op hslots =>
    have hsize : m.stack.size = 0 := by simp [Stack.size, hslots]
    have hspent : m.stack.spent (.bop op) = 0 := by simp [Stack.spent, hsize, hslots]
    exact (leftover_eq_self hspent (by simp)).symm
  | noLeft hslots =>
    have hsize : m.stack.size = 1 := by simp [Stack.size, hslots]
    simp [leftover, Stack.spent, hsize]
  | @noResult _ op below left right hslots hv =>
    have hsize : m.stack.size = below.size + 2 := by simp [Stack.size, hslots]
    obtain ⟨rfl, rfl⟩ := Operator.apply_eq_none_iff.mp hv
    have hspent : m.stack.spent (.bop .div) = 2 := by
      simp [Stack.spent, hsize, hslots]
    have htake : m.stack.slots.take (m.stack.size - 2) = below := by
      rw [hsize, Nat.add_sub_cancel, hslots]
      simp
    simp [leftover, hspent, htake]
  | @noRoom _ _ below _ _ _ hslots _ hfull =>
    -- The operands are two of the slots, which are within the capacity.
    have hsize : m.stack.size = below.size + 2 := by simp [Stack.size, hslots]
    omega
  | @noCondition _ jump hslots =>
    have hspent : m.stack.spent (.falseBranch jump) = 0 := by simp [Stack.spent, hslots]
    exact (leftover_eq_self hspent (by simp)).symm
  | @branch _ jump below hslots htarget =>
    have hsize : m.stack.size = below.size + 1 := by simp [Stack.size, hslots]
    have hspent : m.stack.spent (.falseBranch jump) = 1 := by
      simp [Stack.spent, hslots, htarget]
    have htake : m.stack.slots.take (m.stack.size - 1) = below := by
      rw [hsize, Nat.add_sub_cancel, hslots]
      simp
    simp [leftover, hspent, htake]
  | prompt | flush | noLine | write => exact absurd rfl (hcause _)
  | endOfInput hprompt hflush hline
  | noInteger hprompt hflush hline
  | readFull hprompt hflush hline =>
    have hchannel := Channel.eq_asked hprompt hflush hline
    simp [leftover, Stack.spent, Stack.size, hchannel]
  | _ => exact (leftover_eq_self rfl (by simp)).symm

/-- A step that fails, but not over the channel, leaves the machine as it was if there is no
instruction, and otherwise what the instruction leaves over. -/
theorem leftover_of_step {p : Program} {channel : Channel} {g : Fault}
    (hreach : Reachable p channel m) (hstep : step p m = .error g m')
    (hcause : ∀ e, g.cause ≠ .device e) :
    (p.get? m.pc = none ∧ m' = m) ∨
      ∃ instr, p.get? m.pc = some instr ∧ m' = m.leftover instr := by
  obtain ⟨hnone, -, rfl⟩ | ⟨instr, hget, ⟨-, hrefusal⟩ | ⟨m₁, e, channel, -, rfl, -⟩⟩ :=
    refusal_of_step hstep
  · exact .inl ⟨hnone, rfl⟩
  · exact .inr ⟨instr, hget, hrefusal.residue hreach.size_le_capacity hcause⟩
  · exact absurd rfl (hcause e)

/-- What a failed step leaves behind, in every state that a machine can be brought to, if it does
not fail over the channel. The program counter, the running flag, the dump mode, the bases of the
frames and the addresses to return to are as before. The slots are as before but for the values that
the instruction has taken. The channel is as before, unless the instruction is a `READ`, which has
written its prompt and taken one line of the input at most. Outside the program, and with an
instruction that neither operates, branches nor reads, the machine is as before altogether. -/
theorem failed_step_leaves {p : Program} {channel : Channel} {m m' : Machine} {g : Fault}
    (hreach : Reachable p channel m) (hstep : step p m = .error g m')
    (hcause : ∀ e, g.cause ≠ .device e) :
    m'.pc = m.pc ∧ m'.running = m.running ∧ m'.dump = m.dump ∧
      m'.stack.bases = m.stack.bases ∧ m'.returns = m.returns ∧
      (p.get? m.pc = none → m' = m) ∧
      ∀ instr, p.get? m.pc = some instr →
        m'.stack.slots = m.stack.slots.take (m.stack.size - m.stack.spent instr) ∧
        (instr ≠ .read → m'.channel = m.channel) ∧
        (instr = .read → m'.channel = m.channel.asked ∧
          ∃ line, m.channel.input = line ++ m'.channel.input ∧ 10 ∉ line.dropLast) ∧
        (instr.opcode ∈ [.ret, .store, .load, .args, .call, .goto, .lit, .write] → m' = m) := by
  obtain ⟨hnone, rfl⟩ | ⟨instr, hget, rfl⟩ := leftover_of_step hreach hstep hcause
  · simp [hnone]
  refine ⟨rfl, rfl, rfl, rfl, rfl, by simp [hget], ?_⟩
  intro found hfound
  obtain rfl : instr = found := Option.some.inj (hget.symm.trans hfound)
  refine ⟨rfl, fun hread => if_neg hread, ?_, ?_⟩
  · rintro rfl
    refine ⟨rfl, (Channel.cutLine m.channel.input).1, ?_, Channel.feed_notMem_cutLine _⟩
    exact (Channel.cutLine_append m.channel.input).symm
  · intro hopcode
    -- None of these takes a value before it has checked all that it needs, and none reads.
    refine leftover_eq_self ?_ ?_
    · cases instr with
      | bop | falseBranch => simp [Instruction.opcode] at hopcode
      | _ => rfl
    · rintro rfl
      simp [Instruction.opcode] at hopcode

/-- A program that divides by zero. -/
def zeroCode : List Instruction :=
  [.lit 7 none, .lit 0 none, .bop .div]

/-- The machine before the division by zero. -/
def beforeDivision : Machine :=
  { start {} with stack.slots := #[7, 0], pc := 2 }

/-- A channel with a line that is no integer and one that is. -/
def mistyped : Channel :=
  { input := [120, 10, 55, 10] }

/-- The division by zero has lost both operands and changed nothing else, and a `READ` of a line
that is no integer has lost nothing but that line. -/
theorem failed_step_leaves_operands :
    (∃ m', step (.resolve zeroCode) beforeDivision = .error ⟨2, .divisionByZero⟩ m' ∧
      m'.pc = 2 ∧ m'.stack.slots = #[] ∧ m'.channel = beforeDivision.channel) ∧
    ∃ m', step (.resolve [.read]) (start mistyped) = .error ⟨0, .invalidInput "x"⟩ m' ∧
      m'.stack.slots = #[] ∧ m'.channel.written = readPrompt ∧ m'.channel.input = [55, 10] := by
  constructor
  · have hreach : Reachable (.resolve zeroCode) {} (step (.resolve zeroCode)
        (step (.resolve zeroCode) (start {})).state).state := .step (.step .start)
    have hstate : (step (.resolve zeroCode) (step (.resolve zeroCode) (start {})).state).state =
        beforeDivision := rfl
    rw [hstate] at hreach
    have hstep : ∃ m', step (.resolve zeroCode) beforeDivision =
        .error ⟨2, .divisionByZero⟩ m' := EStateM.Result.outcome_eq_error.mp rfl
    obtain ⟨m', hstep⟩ := hstep
    obtain ⟨hpc, -, -, -, -, -, hinstr⟩ := failed_step_leaves hreach hstep (by simp)
    obtain ⟨hslots, hchannel, -, -⟩ := hinstr (.bop .div) rfl
    exact ⟨m', hstep, hpc, hslots.trans rfl, hchannel (by simp)⟩
  · have hstep : ∃ m', step (.resolve [.read]) (start mistyped) =
        .error ⟨0, .invalidInput "x"⟩ m' := EStateM.Result.outcome_eq_error.mp rfl
    obtain ⟨m', hstep⟩ := hstep
    obtain ⟨-, -, -, -, -, -, hinstr⟩ := failed_step_leaves .start hstep (by simp)
    obtain ⟨hslots, -, hread, -⟩ := hinstr .read rfl
    obtain ⟨hchannel, -⟩ := hread rfl
    exact ⟨m', hstep, hslots.trans rfl, by rw [hchannel]; rfl, by rw [hchannel]; rfl⟩

end Machine

end XBytecode
