import XBytecode.Proofs.Refusal
import XBytecode.Proofs.Resolution

/-!
# Where the program counter can be

A machine takes addresses from three places only: the program counter itself, the jump that it
performs, and the calls that it has made. `Effect.pc_cases` and `Effect.mem_returns` say so. On a
resolved program every jump leads to an instruction, so the program counter never gets further than
the end of the program, and every address to return to is that of a `CALL` (`Confined`). A step
keeps this whether it succeeds or fails, also when it fails with a jump taken and not yet stepped
over, and so it holds in every state that a machine can be brought to (`Reachable.confined`).
-/

namespace XBytecode

namespace Program

/-! ## Jumps of a resolved program -/

/-- Resolution keeps the number of instructions. -/
theorem size_resolve (code : List Instruction) : (resolve code).size = code.length := by
  simp [resolve, size]

/-- An instruction of a resolved program is the one in the code with its jump aimed. -/
theorem get?_resolve (code : List Instruction) (address : Nat) :
    (resolve code).get? address = code[address]?.map (LabelTable.ofCode code).aim := by
  simp [resolve, get?]

/-- A place is that of an instruction. -/
theorem place?_lt {code : List Instruction} {name : String} {address : Nat}
    (h : place? code name = some address) : address < code.length := by
  rw [place?, Option.or_eq_some_iff] at h
  obtain h | ⟨-, h⟩ := h
  · exact (List.findIdx?_eq_some_iff_getElem.mp h).1
  · exact (List.findIdx?_eq_some_iff_getElem.mp h).1

/-- The target of a jump in a resolved program is the place of its label, and the code has a control
transfer to that label at the same address. -/
theorem target_of_resolve {code : List Instruction} {address : Nat} {instr : Instruction}
    {jump : Jump} (hget : (resolve code).get? address = some instr)
    (hjump : instr.jump? = some jump) :
    jump.target = place? code jump.label ∧
      ∃ transfer ∈ Instruction.transfers, ∃ target,
        code[address]? = some (transfer ⟨jump.label, target⟩) := by
  rw [get?_resolve, Option.map_eq_some_iff] at hget
  obtain ⟨written, hwritten, rfl⟩ := hget
  rw [LabelTable.jump?_aim, Option.map_eq_some_iff] at hjump
  obtain ⟨jump', hjump', rfl⟩ := hjump
  obtain ⟨transfer, htransfer, rfl⟩ := Instruction.jump?_eq_some_iff.mp hjump'
  exact ⟨LabelTable.getElem?_ofCode code jump'.label, transfer, htransfer, jump'.target, hwritten⟩

/-- A jump of a resolved program that has no target is reported. -/
theorem undefinedLabel_mem {code : List Instruction} {address : Nat} {instr : Instruction}
    {jump : Jump} (hget : (resolve code).get? address = some instr)
    (hjump : instr.jump? = some jump) (htarget : jump.target = none) :
    .undefinedLabel address jump.label ∈ resolveErrors code := by
  obtain ⟨hplace, hwritten⟩ := target_of_resolve hget hjump
  rw [htarget] at hplace
  refine List.mem_append_right _ ((LabelTable.listsInOrder_undefined code).mem_iff _ |>.mpr ?_)
  exact ⟨hplace.symm, hwritten⟩

/-- Strict resolution gives the program of a code without faults. -/
theorem resolve?_eq_ok {code : List Instruction} {q : Program} (h : resolve? code = .ok q) :
    resolveErrors code = [] ∧ q = resolve code := by
  rw [resolve?] at h
  split at h
  · next hnil =>
    cases h
    exact ⟨hnil, rfl⟩
  · cases h

end Program

namespace Machine

/-! ## What an instruction does to the addresses -/

section Instructions

variable {instr : Instruction} {m m' : Machine}

/-- An instruction leaves the program counter where it is, sets it to the target of its jump, or
takes it back to a call. -/
theorem Effect.pc_cases (h : Effect instr m m') :
    m'.pc = m.pc ∨ (∃ jump, instr.jump? = some jump ∧ jump.target = some m'.pc) ∨
      m'.pc ∈ m.returns := by
  cases h with
  | call htarget => exact .inr (.inl ⟨_, rfl, htarget⟩)
  | branch hslots htarget => exact .inr (.inl ⟨_, rfl, htarget⟩)
  | goto htarget => exact .inr (.inl ⟨_, rfl, htarget⟩)
  | ret hreturns =>
    right
    right
    rw [hreturns]
    exact Array.mem_push_self
  | dump =>
    left
    split <;> rfl
  | _ => exact .inl rfl

/-- An instruction adds no address to return to but its own, if it is a `CALL`. -/
theorem Effect.mem_returns (h : Effect instr m m') {address : Nat} (hmem : address ∈ m'.returns) :
    address ∈ m.returns ∨ (address = m.pc ∧ ∃ jump, instr = .call jump) := by
  cases h with
  | call htarget =>
    obtain hmem | rfl := Array.mem_push.mp hmem
    · exact .inl hmem
    · exact .inr ⟨rfl, _, rfl⟩
  | ret hreturns =>
    left
    rw [hreturns]
    exact Array.mem_push_of_mem _ hmem
  | dump =>
    left
    split at hmem <;> exact hmem
  | _ => exact .inl hmem

/-- An instruction that is refused leaves all addresses as they are. -/
theorem Refusal.addresses {cause : Fault.Cause} (h : Refusal instr m cause m') :
    m'.pc = m.pc ∧ m'.returns = m.returns := by
  cases h <;> exact ⟨rfl, rfl⟩

/-- Only a jump without a target is refused as unresolved. -/
theorem Refusal.unresolvedJump {label : String} (h : Refusal instr m (.unresolvedJump label) m') :
    ∃ jump, instr.jump? = some jump ∧ jump.label = label ∧ jump.target = none := by
  cases h with
  | call htarget => exact ⟨_, rfl, rfl, htarget⟩
  | branch hslots htarget => exact ⟨_, rfl, rfl, htarget⟩
  | goto htarget => exact ⟨_, rfl, rfl, htarget⟩

/-- An instruction is refused for other causes than that there is none. -/
theorem Refusal.ne_outsideProgram {cause : Fault.Cause} (h : Refusal instr m cause m') :
    cause ≠ .outsideProgram := by
  cases h <;> simp

end Instructions

/-! ## The invariant -/

/-- The program counter is in the program or at its end, and every address to return to is that of a
`CALL`. -/
structure Confined (p : Program) (m : Machine) : Prop where
  /-- The program counter has not got past the end. -/
  pc : m.pc ≤ p.size
  /-- What is remembered are calls. -/
  returns : ∀ address ∈ m.returns, ∃ jump, p.get? address = some (.call jump)

/-- Where there is an instruction, there is the program. -/
theorem lt_size_of_get? {p : Program} {address : Nat} {instr : Instruction}
    (h : p.get? address = some instr) : address < p.size :=
  (Array.getElem?_eq_some_iff.mp h).1

/-- The next instruction is at most one further. -/
theorem following_le (pc : Nat) (instr : Instruction) : following pc instr ≤ pc + 1 := by
  unfold following
  split <;> omega

section Steps

variable {code : List Instruction} {m m' : Machine} {instr : Instruction}

/-- An instruction leaves the program counter inside the program, and only calls to return to. -/
theorem Confined.effect (hm : Confined (.resolve code) m)
    (hget : (Program.resolve code).get? m.pc = some instr) (h : Effect instr m m') :
    m'.pc < (Program.resolve code).size ∧
      ∀ address ∈ m'.returns, ∃ jump, (Program.resolve code).get? address = some (.call jump) := by
  constructor
  · obtain hpc | ⟨jump, hjump, htarget⟩ | hmem := h.pc_cases
    · rw [hpc]
      exact lt_size_of_get? hget
    · rw [(Program.target_of_resolve hget hjump).1] at htarget
      rw [Program.size_resolve]
      exact Program.place?_lt htarget
    · obtain ⟨jump, hcall⟩ := hm.returns _ hmem
      exact lt_size_of_get? hcall
  · intro address hmem
    obtain hmem | ⟨rfl, jump, rfl⟩ := h.mem_returns hmem
    · exact hm.returns address hmem
    · exact ⟨jump, hget⟩

/-- A step keeps the machine confined, whether it succeeds or fails. -/
theorem Confined.step (hm : Confined (.resolve code) m) :
    Confined (.resolve code) (Machine.step (.resolve code) m).state := by
  cases hstep : Machine.step (.resolve code) m with
  | ok instr m' =>
    obtain ⟨hget, m₁, heffect, hm'⟩ := effect_of_step hstep
    obtain ⟨hpc, hreturns⟩ := hm.effect hget heffect
    rw [EStateM.Result.state_ok, hm']
    have hnext := following_le m₁.pc instr
    exact ⟨by show following m₁.pc instr ≤ _; omega, hreturns⟩
  | error g m' =>
    obtain ⟨-, -, rfl⟩ | ⟨instr, hget, ⟨-, hrefusal⟩ | ⟨m₁, e, channel, heffect, -, rfl⟩⟩ :=
      refusal_of_step hstep
    · exact hm
    · obtain ⟨hpc, hreturns⟩ := hrefusal.addresses
      exact ⟨hpc ▸ hm.pc, hreturns ▸ hm.returns⟩
    · -- The instruction has been performed and the program counter not been moved on.
      obtain ⟨hpc, hreturns⟩ := hm.effect hget heffect
      exact ⟨Nat.le_of_lt hpc, hreturns⟩

end Steps

/-- What a machine can be brought to from its start: it is stepped, successfully or not, it is
stopped, and its dump is turned on or off or suppressed, in any order. -/
inductive Reachable (p : Program) (channel : Channel) : Machine → Prop where
  /-- The machine is at its start. -/
  | start : Reachable p channel (Machine.start channel)
  /-- A step is attempted. -/
  | step {m : Machine} (h : Reachable p channel m) : Reachable p channel (Machine.step p m).state
  /-- The machine is stopped. -/
  | halt {m : Machine} (h : Reachable p channel m) : Reachable p channel m.halt
  /-- The dump is turned on or off. -/
  | setDump {m : Machine} (on : Bool) (h : Reachable p channel m) :
    Reachable p channel (m.setDump on)
  /-- The dump is suppressed. -/
  | suppressDump {m : Machine} (h : Reachable p channel m) : Reachable p channel m.suppressDump

/-- A machine on a resolved program stays confined. -/
theorem Reachable.confined {code : List Instruction} {channel : Channel} {m : Machine}
    (h : Reachable (.resolve code) channel m) : Confined (.resolve code) m := by
  induction h with
  | start => exact ⟨Nat.zero_le _, by simp [Machine.start]⟩
  | step _ ih => exact ih.step
  | halt _ ih => exact ⟨ih.pc, ih.returns⟩
  | setDump on _ ih => exact ⟨ih.pc, ih.returns⟩
  | suppressDump _ ih => exact ⟨ih.pc, ih.returns⟩

/-! ## Faults of control -/

/-- A machine that finds no instruction stands behind the last one, and fails there. -/
theorem Confined.outsideProgram {p : Program} {m m' : Machine} {g : Fault} (hm : Confined p m)
    (h : Machine.step p m = .error g m') (hcause : g.cause = .outsideProgram) :
    m.pc = p.size ∧ g.address = p.size := by
  obtain ⟨hget, rfl, -⟩ | ⟨instr, -, ⟨-, hrefusal⟩ | ⟨m₁, e, channel, -, rfl, -⟩⟩ :=
    refusal_of_step h
  · have hend : p.size ≤ m.pc := Array.getElem?_eq_none_iff.mp hget
    have hpc : m.pc = p.size := Nat.le_antisymm hm.pc hend
    exact ⟨hpc, hpc⟩
  · exact absurd hcause hrefusal.ne_outsideProgram
  · cases hcause

/-- A jump that the machine cannot resolve is reported when the program is resolved. -/
theorem undefinedLabel_of_step {code : List Instruction} {m m' : Machine} {g : Fault}
    {label : String} (h : Machine.step (.resolve code) m = .error g m')
    (hcause : g.cause = .unresolvedJump label) :
    .undefinedLabel g.address label ∈ Program.resolveErrors code := by
  obtain ⟨-, rfl, -⟩ | ⟨instr, hget, ⟨haddress, hrefusal⟩ | ⟨m₁, e, channel, -, rfl, -⟩⟩ :=
    refusal_of_step h
  · cases hcause
  · rw [hcause] at hrefusal
    obtain ⟨jump, hjump, rfl, htarget⟩ := hrefusal.unresolvedJump
    rw [haddress]
    exact Program.undefinedLabel_mem hget hjump htarget
  · cases hcause

/-- The control flow of a machine on a resolved program, in every state that it can be brought to
with any device. The program counter is at most the program's length. Every address to return to is
that of a `CALL`. A step fails outside the program only with the program counter at the program's
length, and carries that address. A jump that a step finds unresolved has been reported as
undefined, with its address and its label, so that a step of a program resolved without faults finds
none. -/
theorem control_flow_confined {code : List Instruction} {channel : Channel} {m : Machine}
    (h : Reachable (.resolve code) channel m) :
    m.pc ≤ (Program.resolve code).size ∧
      (∀ address ∈ m.returns, ∃ jump, (Program.resolve code).get? address = some (.call jump)) ∧
      (∀ g m', step (.resolve code) m = .error g m' → g.cause = .outsideProgram →
        m.pc = (Program.resolve code).size ∧ g.address = (Program.resolve code).size) ∧
      (∀ g m' label, step (.resolve code) m = .error g m' → g.cause = .unresolvedJump label →
        .undefinedLabel g.address label ∈ Program.resolveErrors code) ∧
      ∀ q, Program.resolve? code = .ok q →
        ∀ g m' label, step q m = .error g m' → g.cause ≠ .unresolvedJump label := by
  refine ⟨h.confined.pc, h.confined.returns, ?_, ?_, ?_⟩
  · intro g m' hstep hcause
    exact h.confined.outsideProgram hstep hcause
  · intro g m' label hstep hcause
    exact undefinedLabel_of_step hstep hcause
  · intro q hq g m' label hstep hcause
    obtain ⟨hnil, rfl⟩ := Program.resolve?_eq_ok hq
    have hmem := undefinedLabel_of_step hstep hcause
    rw [hnil] at hmem
    cases hmem

/-- A program that calls a function, which jumps to a name without a place. -/
def strayCode : List Instruction :=
  [.call ⟨"f", none⟩, .halt, .label "f", .goto ⟨"nowhere", none⟩]

/-- The stray program, resolved, gets to its jump with the call to return to, fails there, and has
been reported. -/
theorem control_flow_confined_stray :
    ∃ m, Reachable (.resolve strayCode) {} m ∧ m.pc = 3 ∧ m.returns = #[0] ∧
      (∃ m', step (.resolve strayCode) m = .error ⟨3, .unresolvedJump "nowhere"⟩ m') ∧
      (∃ jump, (Program.resolve strayCode).get? 0 = some (.call jump)) ∧
      .undefinedLabel 3 "nowhere" ∈ Program.resolveErrors strayCode := by
  have hreach : Reachable (.resolve strayCode) {}
      (Machine.step (.resolve strayCode) (Machine.step (.resolve strayCode)
        (Machine.start {})).state).state := .step (.step .start)
  have hstate : (Machine.step (.resolve strayCode) (Machine.step (.resolve strayCode)
      (Machine.start {})).state).state = { Machine.start {} with returns := #[0], pc := 3 } := by
    rfl
  rw [hstate] at hreach
  have hstep : step (.resolve strayCode) { Machine.start {} with returns := #[0], pc := 3 } =
      .error ⟨3, .unresolvedJump "nowhere"⟩
        { Machine.start {} with returns := #[0], pc := 3 } := rfl
  obtain ⟨-, hcalls, -, hunresolved, -⟩ := control_flow_confined hreach
  exact ⟨_, hreach, rfl, rfl, ⟨_, hstep⟩, hcalls 0 (by simp), hunresolved _ _ _ hstep rfl⟩

end Machine

end XBytecode
