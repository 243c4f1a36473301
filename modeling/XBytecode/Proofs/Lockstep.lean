import XBytecode.Proofs.DumpMode
import XBytecode.Proofs.Outcome

/-!
# Machines that differ in what they have shown

Two machines are alike if they differ at most in their dump modes, their devices and what they have
asked of them (`Alike`). On devices that carry out every request, alike machines perform the same
instruction with the same outcome, stay alike, and write the same text (`lockstep_perform`). Only
`READ` and `WRITE` use the channel: every other instruction but `DUMP` leaves mode and channel alone
and does the same with others (`Quiet`), as the rules of `Effect` and `Refusal` show one by one.
-/

namespace XBytecode

open EStateM (Result bind_of_ok bind_of_error)

/-- The device carries out every request. -/
def Device.Works (d : Device) : Prop :=
  ∀ request earlier, d.reply request earlier = .done

/-- Whether an instruction uses neither the channel nor the dump mode. -/
def Instruction.isQuiet : Instruction → Bool
  | .read | .write | .dump _ => false
  | _ => true

namespace Channel

variable {c d : Channel}

/-- A device that works takes the whole text. -/
theorem write_of_works (h : c.device.Works) (text : String) :
    write text c =
      .ok () { c with written := c.written ++ text, requests := .write text :: c.requests } := by
  simp only [write, h (.write text) c.requests]

/-- A device that works passes on what it has been given. -/
theorem flush_of_works (h : c.device.Works) :
    flush c = .ok () { c with requests := .flush :: c.requests } := by
  simp only [flush, h .flush c.requests]

/-- What is read depends on the input only, and takes away from the input only. -/
theorem readLine_of_input (h : c.input = d.input) :
    ∃ rest, (∃ line, readLine c = .ok line { c with input := rest } ∧
        readLine d = .ok line { d with input := rest }) ∨
      ∃ e, readLine c = .error e { c with input := rest } ∧
        readLine d = .error e { d with input := rest } := by
  unfold readLine
  rw [h]
  split
  · refine ⟨d.input, .inl ⟨none, ?_, rfl⟩⟩
    rw [← h]
  · refine ⟨(cutLine d.input).2, ?_⟩
    simp only
    split
    · exact .inl ⟨_, rfl, rfl⟩
    · exact .inr ⟨_, rfl, rfl⟩

end Channel

namespace Machine

/-- The machines differ in what they have shown at most. -/
structure Alike (a b : Machine) : Prop where
  /-- The stacks are the same. -/
  stack : a.stack = b.stack
  /-- The addresses to return to are the same. -/
  returns : a.returns = b.returns
  /-- The program counters are the same. -/
  pc : a.pc = b.pc
  /-- Both have stopped or neither has. -/
  running : a.running = b.running
  /-- What is left to read is the same. -/
  input : a.channel.input = b.channel.input

/-- The machine with another dump mode and another channel. -/
def reseat (d : DumpMode) (c : Channel) (m : Machine) : Machine :=
  { m with dump := d, channel := c }

/-- `Together out a b r r'`: actions on `a` and `b` end with the results `r` and `r'`, which have
the same outcome and leave alike machines, and both write `out`. -/
structure Together {α : Type} (out : String) (a b : Machine) (r r' : Result Fault Machine α) :
    Prop where
  /-- The values or the errors are the same. -/
  outcome : r.outcome = r'.outcome
  /-- The machines left are alike. -/
  alike : Alike r.state r'.state
  /-- The first writes the text. -/
  written : r.state.channel.written = a.channel.written ++ out
  /-- The second writes it too. -/
  written' : r'.state.channel.written = b.channel.written ++ out
  /-- The first keeps its device. -/
  device : r.state.channel.device = a.channel.device
  /-- The second keeps its device. -/
  device' : r'.state.channel.device = b.channel.device

/-- On alike machines with devices that work, the action has the same outcome and writes the same
text, and leaves them alike. -/
def Lockstep {α : Type} (act : Act α) : Prop :=
  ∀ a b, Alike a b → a.channel.device.Works → b.channel.device.Works →
    ∃ out, Together out a b (act a) (act b)

/-- The action neither looks at the dump mode and the channel nor changes them. -/
def Quiet {α : Type} (act : Act α) : Prop :=
  ∀ d c m, act (m.reseat d c) = (act m).mapState (reseat d c)

section Actions

variable {α β : Type} {a b m m' : Machine} {instr : Instruction}

/-- Of two machines that are alike, one is the other with its own mode and channel. -/
theorem Alike.eq_reseat (h : Alike a b) : b = a.reseat b.dump b.channel := by
  rw [reseat, h.stack, h.returns, h.pc, h.running]

/-! ## Instructions that leave mode and channel alone -/

/-- What is quiet keeps alike machines in lockstep and writes nothing. -/
theorem Quiet.lockstep {act : Act α} (h : Quiet act) : Lockstep act := by
  intro a b halike _ _
  have hb : act b = (act a).mapState (reseat b.dump b.channel) := by
    rw [← h, ← halike.eq_reseat]
  have ha : act a = (act a).mapState (reseat a.dump a.channel) := h a.dump a.channel a
  have hchannel : (act a).state.channel = a.channel := by
    rw [ha, Result.state_mapState]
    rfl
  refine ⟨"", ?_⟩
  rw [hb]
  exact
    { outcome := by rw [Result.outcome_mapState]
      alike := by
        rw [Result.state_mapState]
        exact ⟨rfl, rfl, rfl, rfl, by rw [hchannel]; exact halike.input⟩
      written := by rw [hchannel, String.append_empty]
      written' := by rw [Result.state_mapState, String.append_empty]; rfl
      device := by rw [hchannel]
      device' := by rw [Result.state_mapState]; rfl }

/-- Failing is quiet. -/
theorem quiet_fail (cause : Fault.Cause) : Quiet (fail cause : Act α) :=
  fun _ _ _ => rfl

/-- Pushing a value is quiet. -/
theorem quiet_push (v : Int32) : Quiet (push v) := by
  intro d c m
  by_cases hroom : m.stack.size < capacity
  · have hroom' : (m.reseat d c).stack.size < capacity := hroom
    rw [push_of_room hroom, push_of_room hroom']
    rfl
  · have hfull := Nat.not_lt.mp hroom
    have hfull' : capacity ≤ (m.reseat d c).stack.size := hfull
    rw [push_of_full hfull, push_of_full hfull']
    rfl

/-- An operation of the stack is quiet. -/
theorem quiet_onStack (f : Stack → Except Stack.Error (α × Stack)) : Quiet (onStack f) := by
  intro d c m
  have hstack : (m.reseat d c).stack = m.stack := rfl
  unfold onStack
  rw [hstack]
  cases f m.stack <;> rfl

/-- A rule for a quiet instruction that succeeds holds with every mode and channel. -/
theorem Effect.reseat (h : Effect instr m m') (hquiet : instr.isQuiet = true) (d : DumpMode)
    (c : Channel) : Effect instr (m.reseat d c) (m'.reseat d c) := by
  cases h with
  | read | write | dump => cases hquiet
  | pass hslots hv => exact .pass hslots hv
  | _ => constructor <;> assumption

/-- A rule for a quiet instruction that fails holds with every mode and channel. -/
theorem Refusal.reseat {cause : Fault.Cause} (h : Refusal instr m cause m')
    (hquiet : instr.isQuiet = true) (d : DumpMode) (c : Channel) :
    Refusal instr (m.reseat d c) cause (m'.reseat d c) := by
  cases h with
  | prompt | flush | noLine | endOfInput | noInteger | readFull | writeEmpty | write => cases hquiet
  | _ => constructor <;> assumption

/-- Instructions other than `READ`, `WRITE` and `DUMP` are performed quietly. -/
theorem quiet_perform (hquiet : instr.isQuiet = true) : Quiet (perform instr) := by
  intro d c m
  cases h : perform instr m with
  | ok _ m' => exact perform_of_effect ((effect_of_perform h).reseat hquiet d c)
  | error g m' =>
    obtain ⟨haddress, hrefusal⟩ := refusal_of_perform h
    exact perform_eq_error.mpr ⟨haddress, hrefusal.reseat hquiet d c⟩

/-! ## Instructions that use the channel -/

/-- What two actions write one after the other is written by their sequence. -/
theorem Together.trans {out out' : String} {x x' : Result Fault Machine α}
    {r r' : Result Fault Machine β} (h : Together out a b x x')
    (hnext : Together out' x.state x'.state r r') : Together (out ++ out') a b r r' where
  outcome := hnext.outcome
  alike := hnext.alike
  written := by rw [hnext.written, h.written, String.append_assoc]
  written' := by rw [hnext.written', h.written', String.append_assoc]
  device := hnext.device.trans h.device
  device' := hnext.device'.trans h.device'

/-- Results with the same outcome are of the same kind. -/
theorem eq_of_outcome {r r' : Result Fault Machine α} (h : r.outcome = r'.outcome) :
    (∃ v, r = .ok v r.state ∧ r' = .ok v r'.state) ∨
      ∃ g, r = .error g r.state ∧ r' = .error g r'.state := by
  cases r <;> cases r' <;> simp_all [Result.outcome]

/-- Actions in lockstep can be put one behind the other. -/
theorem Lockstep.bind {act : Act α} {next : α → Act β} (hact : Lockstep act)
    (hnext : ∀ v, Lockstep (next v)) : Lockstep (act >>= next) := by
  intro a b halike ha hb
  obtain ⟨out, h⟩ := hact a b halike ha hb
  obtain ⟨v, hok, hok'⟩ | ⟨g, herror, herror'⟩ := eq_of_outcome h.outcome
  · obtain ⟨out', h'⟩ := hnext v (act a).state (act b).state h.alike (by rwa [h.device])
      (by rwa [h.device'])
    rw [bind_of_ok hok, bind_of_ok hok']
    exact ⟨out ++ out', h.trans h'⟩
  · refine ⟨out, ?_⟩
    rw [bind_of_error herror, bind_of_error herror']
    exact ⟨rfl, h.alike, h.written, h.written', h.device, h.device'⟩

/-- Writing keeps two machines in lockstep. -/
theorem lockstep_write (text : String) : Lockstep (onChannel (Channel.write text)) := by
  intro a b halike ha hb
  refine ⟨text, ?_⟩
  rw [onChannel_of_ok (Channel.write_of_works ha text),
    onChannel_of_ok (Channel.write_of_works hb text)]
  exact ⟨rfl, ⟨halike.stack, halike.returns, halike.pc, halike.running, halike.input⟩, rfl, rfl,
    rfl, rfl⟩

/-- Flushing keeps two machines in lockstep. -/
theorem lockstep_flush : Lockstep (onChannel Channel.flush) := by
  intro a b halike ha hb
  refine ⟨"", ?_⟩
  rw [onChannel_of_ok (Channel.flush_of_works ha), onChannel_of_ok (Channel.flush_of_works hb)]
  exact ⟨rfl, ⟨halike.stack, halike.returns, halike.pc, halike.running, halike.input⟩,
    String.append_empty.symm, String.append_empty.symm, rfl, rfl⟩

/-- Reading a line keeps two machines in lockstep. -/
theorem lockstep_readLine : Lockstep (onChannel Channel.readLine) := by
  intro a b halike _ _
  refine ⟨"", ?_⟩
  obtain ⟨rest, ⟨line, ha, hb⟩ | ⟨e, ha, hb⟩⟩ := Channel.readLine_of_input halike.input
  · rw [onChannel_of_ok ha, onChannel_of_ok hb]
    exact ⟨rfl, ⟨halike.stack, halike.returns, halike.pc, halike.running, rfl⟩,
      String.append_empty.symm, String.append_empty.symm, rfl, rfl⟩
  · rw [onChannel_of_error ha, onChannel_of_error hb]
    refine ⟨?_, ⟨halike.stack, halike.returns, halike.pc, halike.running, rfl⟩,
      String.append_empty.symm, String.append_empty.symm, rfl, rfl⟩
    rw [Result.outcome, Result.outcome, halike.pc]

/-- Every instruction but `DUMP` keeps alike machines in lockstep. -/
theorem lockstep_perform (h : ∀ on, instr ≠ .dump on) : Lockstep (perform instr) := by
  cases instr with
  | dump on => exact absurd rfl (h on)
  | read =>
    refine (lockstep_write _).bind fun _ => lockstep_flush.bind fun _ =>
      lockstep_readLine.bind fun line => ?_
    split
    · split
      · exact (quiet_push _).lockstep
      · exact (quiet_fail _).lockstep
    · exact (quiet_fail _).lockstep
  | write => exact (quiet_onStack _).lockstep.bind fun _ => lockstep_write _
  | _ => exact (quiet_perform rfl).lockstep

end Actions

end Machine

end XBytecode
