import Mathlib.Tactic.ByContra
import XBytecode.Proofs.ControlFlow
import XBytecode.Proofs.DumpMode

/-!
# The address of a fault

A fault carries the program counter of the moment at which it arises. An instruction that is refused
has not moved the program counter, so the address is that of the instruction. But an instruction is
shown after it has been performed, and by then a transfer of control has moved the program counter
to the place that it leads to (`departure?`, `Effect.pc_eq`). When the device refuses to show it,
the fault carries the address of that place, which on a resolved program is never the address of the
instruction itself (`Confined.departure?_ne`). In every other case a fault carries the address of
the instruction that failed (`fault_cases`).
-/

namespace XBytecode

open EStateM (bind_eq_error bind_of_ok)

namespace Program

/-- At the place of a name there is an instruction that defines the name. -/
theorem definedName?_of_place? {code : List Instruction} {name : String} {address : Nat}
    (h : place? code name = some address) :
    ∃ instr, code[address]? = some instr ∧ instr.definedName? = some name := by
  rw [place?, Option.or_eq_some_iff] at h
  obtain hlabel | ⟨-, hfunction⟩ := h
  · obtain ⟨hlt, hname, -⟩ := List.findIdx?_eq_some_iff_getElem.mp hlabel
    refine ⟨code[address], List.getElem?_eq_getElem hlt, ?_⟩
    cases hthere : code[address] with
    | label found =>
      rw [hthere] at hname
      exact eq_of_beq hname
    | _ => simp [hthere, Instruction.labelName?] at hname
  · obtain ⟨hlt, hname, -⟩ := List.findIdx?_eq_some_iff_getElem.mp hfunction
    refine ⟨code[address], List.getElem?_eq_getElem hlt, ?_⟩
    cases hthere : code[address] with
    | function found first last =>
      rw [hthere] at hname
      exact eq_of_beq hname
    | _ => simp [hthere, Instruction.functionName?] at hname

/-- An instruction that defines a name has no jump. -/
theorem jump?_of_definedName? {instr : Instruction} {name : String}
    (h : instr.definedName? = some name) : instr.jump? = none := by
  cases instr with
  | label found => rfl
  | function found first last => rfl
  | _ => cases h

/-- A jump of a resolved program leads to an instruction without a jump. -/
theorem jump?_of_target {code : List Instruction} {address target : Nat} {instr : Instruction}
    {jump : Jump} (hget : (resolve code).get? address = some instr)
    (hjump : instr.jump? = some jump) (htarget : jump.target = some target) :
    ∃ there, (resolve code).get? target = some there ∧ there.jump? = none := by
  rw [(target_of_resolve hget hjump).1] at htarget
  obtain ⟨there, hthere, hname⟩ := definedName?_of_place? htarget
  refine ⟨(LabelTable.ofCode code).aim there, ?_, ?_⟩
  · rw [get?_resolve, hthere, Option.map_some]
  · rw [LabelTable.jump?_aim, jump?_of_definedName? hname, Option.map_none]

end Program

namespace Machine

/-- The place that an instruction transfers control to, when it is performed on a machine and
transfers it at all. -/
def departure? (m : Machine) : Instruction → Option Nat
  | .call jump | .goto jump => jump.target
  | .falseBranch jump => if m.stack.slots.back? = some 0 then jump.target else none
  | .ret _ => m.returns.back?
  | _ => none

section Instructions

variable {instr : Instruction} {m m' : Machine}

/-- Performing an instruction moves the program counter to the place that control is transferred to,
and nowhere else. -/
theorem Effect.pc_eq (h : Effect instr m m') : m'.pc = (m.departure? instr).getD m.pc := by
  cases h with
  | call htarget => simp [departure?, htarget]
  | branch hslots htarget => simp [departure?, hslots, htarget]
  | pass hslots hv => simp [departure?, hslots, hv]
  | goto htarget => simp [departure?, htarget]
  | ret hreturns => simp [departure?, hreturns]
  | dump => split <;> rfl
  | _ => rfl

/-- An instruction that the device refuses transfers no control. -/
theorem Refusal.departure?_eq_none {e : DeviceError} (h : Refusal instr m (.device e) m') :
    m.departure? instr = none := by
  cases h <;> rfl

/-- Control is never transferred to the instruction that transfers it. -/
theorem Confined.departure?_ne {code : List Instruction} (hm : Confined (.resolve code) m)
    (hget : (Program.resolve code).get? m.pc = some instr) {address : Nat}
    (h : m.departure? instr = some address) : address ≠ m.pc := by
  rintro rfl
  -- A place has no jump, and the address of a call is not that of a return.
  have hjump {jump : Jump} (hjump : instr.jump? = some jump) (htarget : jump.target = some m.pc) :
      False := by
    obtain ⟨there, hthere, hnone⟩ := Program.jump?_of_target hget hjump htarget
    rw [hget, Option.some.injEq] at hthere
    rw [← hthere, hjump] at hnone
    cases hnone
  cases instr with
  | call jump => exact hjump rfl h
  | goto jump => exact hjump rfl h
  | falseBranch jump =>
    rw [departure?] at h
    split at h
    · exact hjump rfl h
    · cases h
  | ret name =>
    obtain ⟨jump, hcall⟩ := hm.returns m.pc (Array.mem_of_back? h)
    rw [hget] at hcall
    cases hcall
  | _ => cases h

end Instructions

/-! ## Failing steps -/

section Steps

variable {p : Program} {m m' : Machine} {g : Fault} {instr : Instruction} {address : Nat}
  {e : DeviceError}

/-- When a step fails, its instruction has been refused, or it has been performed and the device
refuses to show it. The fault then carries the address of the place that control has been
transferred to, if it has been transferred. -/
theorem fault_cases (hget : p.get? m.pc = some instr) (hstep : step p m = .error g m') :
    (g.address = m.pc ∧ Refusal instr m g.cause m') ∨
      ∃ e, g = ⟨(m.departure? instr).getD m.pc, .device e⟩ := by
  obtain ⟨hnone, -, -⟩ | ⟨found, hfound, hrefusal | ⟨m₁, e, channel, heffect, rfl, -⟩⟩ :=
    refusal_of_step hstep
  · rw [hget] at hnone
    cases hnone
  · rw [hget, Option.some.injEq] at hfound
    subst hfound
    exact .inl hrefusal
  · rw [hget, Option.some.injEq] at hfound
    subst hfound
    exact .inr ⟨e, by rw [heffect.pc_eq]⟩

/-- A fault of the device behind a transfer of control carries the place that it leads to. -/
theorem address_of_departure (hget : p.get? m.pc = some instr)
    (hdeparture : m.departure? instr = some address) (hstep : step p m = .error g m')
    (hcause : g.cause = .device e) : g.address = address := by
  obtain ⟨-, hrefusal⟩ | ⟨e', rfl⟩ := fault_cases hget hstep
  · rw [hcause] at hrefusal
    rw [hrefusal.departure?_eq_none] at hdeparture
    cases hdeparture
  · rw [hdeparture, Option.getD_some]

/-- While nothing is shown, a step that the device refuses transfers no control. -/
theorem departure?_of_hidden (hget : p.get? m.pc = some instr) (hhidden : m.dump.shows = false)
    (hstep : step p m = .error g m') (hcause : g.cause = .device e) :
    m.departure? instr = none := by
  by_cases hdump : ∃ on, instr = .dump on
  · obtain ⟨on, rfl⟩ := hdump
    rfl
  · rw [step_of_hidden hget (fun on heq => hdump ⟨on, heq⟩) hhidden] at hstep
    obtain hperform | ⟨_, m₁, -, hadvance⟩ := bind_eq_error.mp hstep
    · have hrefusal := (refusal_of_perform hperform).2
      rw [hcause] at hrefusal
      exact hrefusal.departure?_eq_none
    · rw [bind_of_ok (advance_apply instr m₁)] at hadvance
      cases hadvance

end Steps

/-- The device refuses to show an instruction that has transferred control. -/
def TransferUnshown (p : Program) (m : Machine) (g : Fault) : Prop :=
  ∃ instr address e, p.get? m.pc = some instr ∧ m.departure? instr = some address ∧
    g.cause = .device e

/-- A step of a machine in any state that it can be brought to, with any device, fails with the
address of the instruction that failed, unless the instruction has transferred control and the
device refuses to show it. In that case, which needs the dump to be on, the fault carries another
address, that of the place to which control has been transferred. -/
theorem fault_names_instruction {code : List Instruction} {channel : Channel} {m m' : Machine}
    {g : Fault} (hreach : Reachable (.resolve code) channel m)
    (hstep : step (.resolve code) m = .error g m') :
    (g.address = m.pc ↔ ¬ TransferUnshown (.resolve code) m g) ∧
      (TransferUnshown (.resolve code) m g → m.dump.shows = true ∧
        ∃ instr, (Program.resolve code).get? m.pc = some instr ∧
          m.departure? instr = some g.address) := by
  refine ⟨⟨?_, ?_⟩, ?_⟩
  · rintro haddress ⟨instr, address, e, hget, hdeparture, hcause⟩
    have hplace := address_of_departure hget hdeparture hstep hcause
    exact hreach.confined.departure?_ne hget hdeparture (hplace.symm.trans haddress)
  · intro hshown
    cases hget : (Program.resolve code).get? m.pc with
    | none =>
      rw [step_of_outside hget] at hstep
      cases hstep
      rfl
    | some instr =>
      obtain ⟨haddress, -⟩ | ⟨e, rfl⟩ := fault_cases hget hstep
      · exact haddress
      · cases hdeparture : m.departure? instr with
        | none => rfl
        | some address => exact absurd ⟨instr, address, e, hget, hdeparture, rfl⟩ hshown
  · rintro ⟨instr, address, e, hget, hdeparture, hcause⟩
    refine ⟨?_, instr, hget, by rw [hdeparture, address_of_departure hget hdeparture hstep hcause]⟩
    by_contra hhidden
    rw [Bool.not_eq_true] at hhidden
    rw [departure?_of_hidden hget hhidden hstep hcause] at hdeparture
    cases hdeparture

/-- A program that prints a value. -/
def printCode : List Instruction :=
  [.lit 7 none, .write, .halt]

/-- The machine on a device that refuses every write, before the value is printed. -/
def beforeWrite : Machine :=
  { Machine.start { device := .closed } with stack := { slots := #[7] }, pc := 1 }

/-- A `WRITE` that the device refuses is named by the fault. -/
theorem fault_names_instruction_write :
    ∃ m', Reachable (.resolve printCode) { device := .closed } beforeWrite ∧
      step (.resolve printCode) beforeWrite =
        .error ⟨1, .device (.refused "output closed")⟩ m' ∧
      ¬ TransferUnshown (.resolve printCode) beforeWrite
        ⟨1, .device (.refused "output closed")⟩ := by
  have hreach : Reachable (.resolve printCode) { device := .closed }
      (Machine.step (.resolve printCode) (Machine.start { device := .closed })).state :=
    .step .start
  have hstate : (Machine.step (.resolve printCode) (Machine.start { device := .closed })).state =
      beforeWrite := rfl
  rw [hstate] at hreach
  have hstep : ∃ m', step (.resolve printCode) beforeWrite =
      .error ⟨1, .device (.refused "output closed")⟩ m' := ⟨_, rfl⟩
  obtain ⟨m', hstep⟩ := hstep
  exact ⟨m', hreach, hstep, (fault_names_instruction hreach hstep).1.mp rfl⟩

/-- A program that jumps over a `HALT`. -/
def jumpCode : List Instruction :=
  [.goto ⟨"L", none⟩, .halt, .label "L"]

/-- The machine on a device that refuses every write, with the dump turned on before the jump. -/
def beforeJump : Machine :=
  (Machine.start { device := .closed }).setDump true

/-- The jump at address 0 that the device refuses to show fails with address 2. -/
theorem unshown_jump_misnamed :
    Reachable (.resolve jumpCode) { device := .closed } beforeJump ∧ beforeJump.pc = 0 ∧
      ∃ m', step (.resolve jumpCode) beforeJump =
        .error ⟨2, .device (.refused "output closed")⟩ m' :=
  ⟨.setDump true .start, rfl, _, rfl⟩

end Machine

end XBytecode
