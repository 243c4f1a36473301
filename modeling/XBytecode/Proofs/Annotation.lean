import XBytecode.Proofs.DumpOutput
import XBytecode.Proofs.Residue

/-!
# What the dump says of an instruction

A dump line is put together from the state that its instruction has left: the value of a `STORE` is
looked up where it has been stored, the callee of a `RETURN` where the program counter has gone
back to, and what it returns is on top of the stack again. Each of these look-ups finds what the
instruction had before it (`dumpLine_store`, `dumpLine_ret`, `dumpLine_call`). For a `RETURN` this
rests on the invariant that only calls are returned to, and for a `STORE` on the check that the slot
stored to stays. So no line has to do without a value or without a callee.
-/

namespace XBytecode.Machine

open EStateM (bind_eq_ok bind_of_ok pure_apply get_bind_apply)

variable {p : Program} {instr : Instruction} {m m' : Machine}

/-! ## The lines -/

section Lines

variable {offset : Nat} {name : String} {jump : Jump}

/-- The line of a `STORE` shows the value that was on top. -/
theorem dumpLine_store (h : Effect (.store offset name) m m') :
    ∃ v, m.stack.slots.back? = some v ∧
      m'.stack.slot? (m'.stack.address offset) = some v ∧
      m'.dumpLine p (.store offset name) = "STORE " ++ toString offset ++ " " ++ name ++ "\t" ++
        name ++ " = " ++ Numeral.ofWord v := by
  cases h with
  | @store _ _ _ below v hslots hindex =>
    have hstored : (below.setIfInBounds (m.stack.address offset) v)[m.stack.address offset]? =
        some v := Array.getElem?_setIfInBounds_self_of_lt hindex
    have htext : (Instruction.store offset name).text =
        "STORE " ++ toString offset ++ " " ++ name := by
      simp [Instruction.text, Instruction.operands, Instruction.opcode, Opcode.keyword,
        String.append_assoc]
    refine ⟨v, by rw [hslots, Array.back?_push], hstored, ?_⟩
    show (Instruction.store offset name).text ++ "\t" ++ name ++ " = " ++
      valueText (below.setIfInBounds (m.stack.address offset) v)[m.stack.address offset]? = _
    rw [htext, hstored, valueText]

/-- The line of a `RETURN` shows the jump of the call that it returns from, and the value that was
on top. -/
theorem dumpLine_ret (h : Effect (.ret (some name)) m m') (hm : Confined p m) :
    ∃ address jump v, m.returns.back? = some address ∧ p.get? address = some (.call jump) ∧
      m'.pc = address ∧ m.stack.slots.back? = some v ∧ m'.stack.peek = .ok v ∧
      m'.dumpLine p (.ret (some name)) = "RETURN " ++ jump.describe ++ "\texit: " ++
        Numeral.ofWord v := by
  cases h with
  | @ret _ _ returns bases below address base v hreturns hbases hslots =>
    have haddress : m.returns.back? = some address := by rw [hreturns, Array.back?_push]
    obtain ⟨jump, hcall⟩ := hm.returns address (Array.mem_of_back? haddress)
    have hpeek : Stack.peek { slots := (below.shrink base).push v, bases } = .ok v := by
      simp [Stack.peek]
    refine ⟨address, jump, v, haddress, hcall, rfl, by rw [hslots, Array.back?_push], hpeek, ?_⟩
    simp only [dumpLine, hcall, hpeek, Option.bind_some, Instruction.jump?, Except.toOption,
      valueText]

/-- The line of a `CALL` shows the address that is jumped to and the values of the active frame. -/
theorem dumpLine_call (h : Effect (.call jump) m m') :
    ∃ address, jump.target = some address ∧ m'.pc = address ∧
      m'.dumpLine p (.call jump) = "CALL " ++ displayName jump.label ++ "<<" ++ toString address ++
        ">>\t" ++ displayName jump.label ++ "(" ++
        ",".intercalate ((m.stack.slots.toList.drop m.stack.frameBase).map Numeral.ofWord) ++
        ")" := by
  cases h with
  | @call _ _ address htarget =>
    have hvalues : m.stack.frameValues = m.stack.slots.toList.drop m.stack.frameBase := by
      simp [Stack.frameValues, Stack.size]
    have htext : (Instruction.call jump).resolvedText = "CALL " ++ displayName jump.label ++ "<<" ++
        toString address ++ ">>" := by
      simp [Instruction.resolvedText, Instruction.jump?, Instruction.opcode, Opcode.keyword,
        Jump.describe, htarget, String.append_assoc]
    refine ⟨address, htarget, rfl, ?_⟩
    simp only [dumpLine, argumentsText, hvalues, htext]
    simp [String.append_assoc]

end Lines

/-! ## The text written -/

/-- An instruction that neither reads nor writes leaves the channel alone. -/
theorem Effect.channel_eq (h : Effect instr m m') (hread : instr ≠ .read)
    (hwrite : instr ≠ .write) : m'.channel = m.channel := by
  cases h with
  | read => exact absurd rfl hread
  | write => exact absurd rfl hwrite
  | dump => split <;> rfl
  | _ => rfl

/-- A step performs its instruction, writes the lines for it if the mode then asks for that, and
moves on. -/
theorem shown_of_step (h : step p m = .ok instr m') :
    ∃ m₁, Effect instr m m₁ ∧ m'.stack = m₁.stack ∧ m'.pc = following m₁.pc instr ∧
      (m₁.dump.shows = true →
        m'.channel.written = m₁.channel.written ++ dumpBlock p instr m₁) := by
  have hget := (effect_of_step h).1
  rw [step_apply hget] at h
  obtain ⟨_, m₁, hperform, h⟩ := bind_eq_ok.mp h
  obtain ⟨_, m₂, hshow, h⟩ := bind_eq_ok.mp h
  rw [bind_of_ok (advance_apply instr m₂), pure_apply] at h
  cases h
  refine ⟨m₁, effect_of_perform hperform, ?_, ?_, ?_⟩
  · rw [showDump_eq_ok hshow]
  · rw [showDump_eq_ok hshow]
  · intro hshows
    rw [showDump, get_bind_apply, if_pos hshows] at hshow
    obtain ⟨_, m₃, hwrite, hsettle⟩ := bind_eq_ok.mp hshow
    obtain ⟨channel, hwritten, rfl⟩ := onChannel_eq_ok hwrite
    cases hsettle
    rw [Channel.write_eq_ok hwritten]
    rfl

/-- A step from `m` to `m'` writes a line and the layout of the stack, and nothing else. -/
def WritesBlock (m m' : Machine) (line : String) : Prop :=
  m'.channel.written = m.channel.written ++ line ++ "\n" ++ m'.stack.layout ++ "\n"

/-- While the dump is on, the step of an instruction that does not set the dump mode and does not
use the channel itself writes the line for the instruction and the layout. -/
theorem writesBlock_of_step (h : step p m = .ok instr m') (hshows : m.dump.shows = true)
    (hdump : ∀ on, instr ≠ .dump on) (hread : instr ≠ .read) (hwrite : instr ≠ .write) :
    ∃ m₁, Effect instr m m₁ ∧ m'.stack = m₁.stack ∧ m'.pc = following m₁.pc instr ∧
      WritesBlock m m' (m₁.dumpLine p instr) := by
  obtain ⟨m₁, heffect, hstack, hpc, hwritten⟩ := shown_of_step h
  have hmode : m₁.dump = m.dump := dump_of_perform hdump (perform_of_effect heffect)
  refine ⟨m₁, heffect, hstack, hpc, ?_⟩
  rw [WritesBlock, hwritten (by rw [hmode, hshows]), heffect.channel_eq hread hwrite, hstack,
    dumpBlock]
  simp only [String.append_assoc]

/-- The lines of a dump tell the truth, in every state that a machine can be brought to. When a step
that succeeds is shown, the line of a `STORE` shows the value that was on top of the stack before
it, and the value is found in the slot. The line of a `RETURN` with a name shows the jump of the
call at the address that is returned to, and the value that was on top before it, and both are
found. The line of a `CALL` shows the address jumped to, and all values from the base of the active
frame up to the last slot, in order. -/
theorem dump_annotations_true {code : List Instruction} {channel : Channel} {m m' : Machine}
    {instr : Instruction} (hreach : Reachable (.resolve code) channel m)
    (hstep : step (.resolve code) m = .ok instr m') (hshows : m.dump.shows = true) :
    (∀ offset name, instr = .store offset name →
      ∃ v, m.stack.slots.back? = some v ∧
        m'.stack.slot? (m'.stack.address offset) = some v ∧
        WritesBlock m m' ("STORE " ++ toString offset ++ " " ++ name ++ "\t" ++ name ++ " = " ++
          Numeral.ofWord v)) ∧
    (∀ name, instr = .ret (some name) →
      ∃ address jump v, m.returns.back? = some address ∧
        (Program.resolve code).get? address = some (.call jump) ∧ m'.pc = address + 1 ∧
        m.stack.slots.back? = some v ∧ m'.stack.peek = .ok v ∧
        WritesBlock m m' ("RETURN " ++ jump.describe ++ "\texit: " ++ Numeral.ofWord v)) ∧
    ∀ jump, instr = .call jump →
      ∃ address, jump.target = some address ∧ m'.pc = address ∧
        WritesBlock m m' ("CALL " ++ displayName jump.label ++ "<<" ++ toString address ++ ">>\t" ++
          displayName jump.label ++ "(" ++
          ",".intercalate ((m.stack.slots.toList.drop m.stack.frameBase).map Numeral.ofWord) ++
          ")") := by
  refine ⟨?_, ?_, ?_⟩
  · rintro offset name rfl
    obtain ⟨m₁, heffect, hstack, -, hblock⟩ :=
      writesBlock_of_step hstep hshows (by simp) (by simp) (by simp)
    obtain ⟨v, htop, hstored, hline⟩ := dumpLine_store heffect
    exact ⟨v, htop, by rw [hstack, hstored], hline ▸ hblock⟩
  · rintro name rfl
    obtain ⟨m₁, heffect, hstack, hpc, hblock⟩ :=
      writesBlock_of_step hstep hshows (by simp) (by simp) (by simp)
    obtain ⟨address, jump, v, haddress, hcall, hback, htop, hpeek, hline⟩ :=
      dumpLine_ret heffect hreach.confined
    exact ⟨address, jump, v, haddress, hcall, by rw [hpc, hback]; rfl, htop, by rw [hstack, hpeek],
      hline ▸ hblock⟩
  · rintro jump rfl
    obtain ⟨m₁, heffect, -, hpc, hblock⟩ :=
      writesBlock_of_step hstep hshows (by simp) (by simp) (by simp)
    obtain ⟨address, htarget, hplace, hline⟩ := dumpLine_call heffect
    exact ⟨address, htarget, by rw [hpc, hplace]; rfl, hline ▸ hblock⟩

/-- Steps lead to states that a machine can be brought to. -/
theorem Reachable.afterSteps {channel : Channel} (h : Reachable p channel m) (n : Nat) :
    Reachable p channel (m.afterSteps p n) := by
  induction n generalizing m with
  | zero => exact h
  | succ n ih => exact ih h.step

/-- A function that is called with a value, stores another one in its place and returns that. -/
def annotatedCode : List Instruction :=
  [.dump true, .lit 4 none, .args 1, .call ⟨"f<<1>>", none⟩, .halt, .label "f<<1>>", .lit 9 none,
    .store 0 "x", .load 0 "x", .ret (some "f<<1>>")]

/-- The machine after a number of steps of the code. -/
def annotatedMachine (n : Nat) : Machine :=
  (start {}).afterSteps (.resolve annotatedCode) n

/-- The call, the store and the return of the code are shown as they are. -/
theorem dump_annotations_true_sample :
    (∃ m', step (.resolve annotatedCode) (annotatedMachine 3) =
        .ok (.call ⟨"f<<1>>", some 5⟩) m' ∧
      WritesBlock (annotatedMachine 3) m' "CALL f<<5>>\tf(4)") ∧
    (∃ m', step (.resolve annotatedCode) (annotatedMachine 6) = .ok (.store 0 "x") m' ∧
      WritesBlock (annotatedMachine 6) m' "STORE 0 x\tx = 9") ∧
    ∃ m', step (.resolve annotatedCode) (annotatedMachine 8) = .ok (.ret (some "f<<1>>")) m' ∧
      WritesBlock (annotatedMachine 8) m' "RETURN f<<5>>\texit: 9" := by
  have hreach (n : Nat) : Reachable (.resolve annotatedCode) {} (annotatedMachine n) :=
    Reachable.start.afterSteps n
  refine ⟨?_, ?_, ?_⟩
  · obtain ⟨m', hstep⟩ : ∃ m', step (.resolve annotatedCode) (annotatedMachine 3) =
        .ok (.call ⟨"f<<1>>", some 5⟩) m' := ⟨_, rfl⟩
    obtain ⟨address, htarget, -, hblock⟩ :=
      (dump_annotations_true (hreach 3) hstep rfl).2.2 _ rfl
    cases htarget
    exact ⟨m', hstep, hblock⟩
  · obtain ⟨m', hstep⟩ : ∃ m', step (.resolve annotatedCode) (annotatedMachine 6) =
        .ok (.store 0 "x") m' := ⟨_, rfl⟩
    obtain ⟨v, htop, -, hblock⟩ := (dump_annotations_true (hreach 6) hstep rfl).1 _ _ rfl
    have hv : (annotatedMachine 6).stack.slots.back? = some 9 := rfl
    obtain rfl : v = 9 := Option.some.inj (htop.symm.trans hv)
    exact ⟨m', hstep, hblock⟩
  · obtain ⟨m', hstep⟩ : ∃ m', step (.resolve annotatedCode) (annotatedMachine 8) =
        .ok (.ret (some "f<<1>>")) m' := ⟨_, rfl⟩
    obtain ⟨address, jump, v, haddress, hcall, -, htop, -, hblock⟩ :=
      (dump_annotations_true (hreach 8) hstep rfl).2.1 _ rfl
    have hback : (annotatedMachine 8).returns.back? = some 3 := rfl
    obtain rfl : address = 3 := Option.some.inj (haddress.symm.trans hback)
    have hget : (Program.resolve annotatedCode).get? 3 = some (.call ⟨"f<<1>>", some 5⟩) := rfl
    obtain rfl : jump = ⟨"f<<1>>", some 5⟩ :=
      Instruction.call.inj (Option.some.inj (hcall.symm.trans hget))
    have hv : (annotatedMachine 8).stack.slots.back? = some 9 := rfl
    obtain rfl : v = 9 := Option.some.inj (htop.symm.trans hv)
    exact ⟨m', hstep, hblock⟩

end XBytecode.Machine
