import XBytecode.Proofs.Capacity
import XBytecode.Proofs.DumpMode
import XBytecode.Proofs.Outcome

/-!
# When the stack overflows

Only the instructions that put a value on top of all the slots they find can meet a full stack:
`LIT`, `LOAD` and a `READ` that has got an integer (`Pushes`). A `BOP` pushes its result too, but it
has taken two values by then, and a `RETURN` puts back the value that it has taken. `LOAD` looks for
room before it looks at its offset, and `READ` only once the integer is there. So the rules of
`Refusal` for a full stack are met exactly if the slots are as many as the capacity allows and the
instruction pushes (`refusal_stackOverflow_iff`), and a step fails for this cause in no other case.
-/

namespace XBytecode

/-- A `READ` gets an integer: the device takes the prompt and passes it on, and the line that is
read then is the numeral of a machine word, blanks at its ends apart. -/
def Channel.SuppliesWord (c : Channel) : Prop :=
  ∃ c₁ c₂ c₃ line v, write Machine.readPrompt c = .ok () c₁ ∧ flush c₁ = .ok () c₂ ∧
    readLine c₂ = .ok (some line) c₃ ∧ Numeral.word? (Text.trim line) = some v

namespace Machine

/-- The instruction has a value to put on top of all the slots that it finds. A `LOAD` counts
whatever its offset is. -/
inductive Pushes (m : Machine) : Instruction → Prop where
  | lit (v : Int32) (name : Option String) : Pushes m (.lit v name)
  | load (offset : Nat) (name : String) : Pushes m (.load offset name)
  | read (h : m.channel.SuppliesWord) : Pushes m .read

variable {p : Program} {instr : Instruction} {m : Machine} {cause : Fault.Cause}

/-- Within the capacity, an instruction finds the stack full exactly if no slot is left and the
instruction pushes. -/
theorem refusal_stackOverflow_iff (hm : m.stack.size ≤ capacity) :
    (∃ m', Refusal instr m .stackOverflow m') ↔ m.stack.size = capacity ∧ Pushes m instr := by
  constructor
  · rintro ⟨m', h⟩
    cases h with
    | lit hfull => exact ⟨Nat.le_antisymm hm hfull, .lit _ _⟩
    | loadFull hfull => exact ⟨Nat.le_antisymm hm hfull, .load _ _⟩
    | readFull hprompt hflush hline hv hfull =>
      exact ⟨Nat.le_antisymm hm hfull, .read ⟨_, _, _, _, _, hprompt, hflush, hline, hv⟩⟩
    | @noRoom _ _ below _ _ _ hslots _ hfull =>
      -- The operands that have been taken have left room for the result.
      have hsize : m.stack.size = below.size + 2 := by simp [Stack.size, hslots]
      omega
  · rintro ⟨hfull, hpushes⟩
    have hfull : capacity ≤ m.stack.size := Nat.le_of_eq hfull.symm
    cases hpushes with
    | lit v name => exact ⟨m, .lit hfull⟩
    | load offset name => exact ⟨m, .loadFull hfull⟩
    | read h =>
      obtain ⟨c₁, c₂, c₃, line, v, hprompt, hflush, hline, hv⟩ := h
      exact ⟨_, .readFull hprompt hflush hline hv hfull⟩

/-- A step fails, for another cause than that there is no instruction or that the channel fails,
exactly if the instruction at the program counter is refused for that cause. The fault carries the
address of the instruction. -/
theorem step_refused_iff (hinside : cause ≠ .outsideProgram) (hchannel : ∀ e, cause ≠ .device e)
    {address : Nat} :
    (∃ m', step p m = .error ⟨address, cause⟩ m') ↔
      address = m.pc ∧ ∃ instr, p.get? m.pc = some instr ∧ ∃ m', Refusal instr m cause m' := by
  constructor
  · rintro ⟨m', hstep⟩
    obtain ⟨-, hfault, -⟩ | ⟨instr, hget, ⟨haddress, hrefusal⟩ | ⟨m₁, e, channel, -, hfault, -⟩⟩ :=
      refusal_of_step hstep
    · exact absurd (congrArg Fault.cause hfault) hinside
    · exact ⟨haddress, instr, hget, m', hrefusal⟩
    · exact absurd (congrArg Fault.cause hfault) (hchannel e)
  · rintro ⟨rfl, instr, hget, m', hrefusal⟩
    refine ⟨m', ?_⟩
    rw [step_apply hget, EStateM.bind_of_error (perform_of_refusal hrefusal)]

/-- Within the capacity, a step finds the stack full exactly if no slot is left and the instruction
at the program counter pushes. -/
theorem step_stackOverflow_iff (hm : m.stack.size ≤ capacity) (address : Nat) :
    (∃ m', step p m = .error ⟨address, .stackOverflow⟩ m') ↔
      address = m.pc ∧ m.stack.size = capacity ∧
        ∃ instr, p.get? m.pc = some instr ∧ Pushes m instr := by
  rw [step_refused_iff (by simp) (by simp)]
  simp only [refusal_stackOverflow_iff hm]
  constructor
  · rintro ⟨haddress, instr, hget, hfull, hpushes⟩
    exact ⟨haddress, hfull, instr, hget, hpushes⟩
  · rintro ⟨haddress, hfull, instr, hget, hpushes⟩
    exact ⟨haddress, instr, hget, hfull, hpushes⟩

/-- The limit of the stack is exact, in every state that a machine can be brought to, failed steps
included. The slots are at most as many as the capacity allows. A step fails because the stack is
full exactly if no slot is left and its instruction is a `LIT`, a `LOAD` of any offset, or a `READ`
whose prompt has been written and passed on and whose line has been read and is an integer; the
fault then carries the address of the instruction. `BOP`, `RETURN`, `CALL` and `ARGS` never fail for
this cause. -/
theorem stack_limit_exact {p : Program} {channel : Channel} {m : Machine}
    (h : Reachable p channel m) :
    capacity = 65536 ∧ m.stack.size ≤ capacity ∧
      (∀ address, (∃ m', step p m = .error ⟨address, .stackOverflow⟩ m') ↔
        address = m.pc ∧ m.stack.size = capacity ∧
          ∃ instr, p.get? m.pc = some instr ∧ Pushes m instr) ∧
      ∀ instr, p.get? m.pc = some instr → instr.opcode ∈ [.bop, .ret, .call, .args] →
        ∀ g m', step p m = .error g m' → g.cause ≠ .stackOverflow := by
  have hsize := h.size_le_capacity
  have hiff := step_stackOverflow_iff (p := p) hsize
  refine ⟨rfl, hsize, hiff, ?_⟩
  rintro instr hget hopcode ⟨address, cause⟩ m' hstep rfl
  obtain ⟨-, -, found, hfound, hpushes⟩ := (hiff address).mp ⟨m', hstep⟩
  obtain rfl : instr = found := Option.some.inj (hget.symm.trans hfound)
  cases hpushes <;> simp [Instruction.opcode] at hopcode

/-- A program that pushes a value for ever. -/
def fillCode : List Instruction :=
  [.label "L", .lit 1 none, .goto ⟨"L", none⟩]

/-- The machine that has pushed `n` values and is about to push one more. -/
def filled (n : Nat) : Machine :=
  { start {} with stack.slots := Array.replicate n 1, pc := 1 }

/-- As long as there is room, one round of the program pushes one value. -/
theorem fill_round {n : Nat} (h : n < capacity) :
    (step (.resolve fillCode) (step (.resolve fillCode) (filled n)).state).state =
      filled (n + 1) := by
  let pushed : Machine := { filled (n + 1) with pc := 2 }
  have hlit : step (.resolve fillCode) (filled n) = .ok (.lit 1 none) pushed := by
    have hget : (Program.resolve fillCode).get? (filled n).pc = some (.lit 1 none) := by
      show (Program.resolve fillCode).get? 1 = _
      rfl
    have hroom : (filled n).stack.size < capacity := by
      show (Array.replicate n (1 : Int32)).size < capacity
      rwa [Array.size_replicate]
    rw [step_of_hidden hget (by simp) rfl, EStateM.bind_of_ok (perform_of_effect (.lit hroom)),
      EStateM.bind_of_ok (advance_apply _ _)]
    simp [EStateM.pure_apply, pushed, filled, Stack.push, following, Array.replicate_succ]
  have hgoto : step (.resolve fillCode) pushed = .ok (.goto ⟨"L", some 0⟩) (filled (n + 1)) := by
    have hget : (Program.resolve fillCode).get? pushed.pc = some (.goto ⟨"L", some 0⟩) := by
      show (Program.resolve fillCode).get? 2 = _
      rfl
    rw [step_of_hidden hget (by simp) rfl, EStateM.bind_of_ok (perform_of_effect (.goto rfl)),
      EStateM.bind_of_ok (advance_apply _ _)]
    rfl
  rw [hlit, EStateM.Result.state_ok, hgoto, EStateM.Result.state_ok]

/-- The program gets on until there is no room. -/
theorem reachable_filled {n : Nat} (h : n ≤ capacity) :
    Reachable (.resolve fillCode) {} (filled n) := by
  induction n with
  | zero =>
    have hstart : (step (.resolve fillCode) (start {})).state = filled 0 := rfl
    rw [← hstart]
    exact .step .start
  | succ n ih =>
    rw [← fill_round h]
    exact .step (.step (ih (Nat.le_of_succ_le h)))

/-- The program reaches a full stack, and its next push fails. -/
theorem stack_limit_exact_filled :
    Reachable (.resolve fillCode) {} (filled 65536) ∧ (filled 65536).stack.size = 65536 ∧
      ∃ m', step (.resolve fillCode) (filled 65536) = .error ⟨1, .stackOverflow⟩ m' := by
  have hreach : Reachable (.resolve fillCode) {} (filled 65536) := reachable_filled (Nat.le_refl _)
  have hsize : (filled 65536).stack.size = 65536 := Array.size_replicate
  obtain ⟨hcapacity, -, hiff, -⟩ := stack_limit_exact hreach
  have hget : (Program.resolve fillCode).get? (filled 65536).pc = some (.lit 1 none) := by
    show (Program.resolve fillCode).get? 1 = _
    rfl
  exact ⟨hreach, hsize, (hiff 1).mpr ⟨rfl, hsize.trans hcapacity.symm, _, hget, .lit _ _⟩⟩

end Machine

end XBytecode
