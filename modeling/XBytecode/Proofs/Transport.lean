import XBytecode.Machine.Step
import XBytecode.Proofs.Action

/-!
# Machines with other addresses and in other dump modes

The machine does not compute with addresses: it takes them from jumps, from the stack of return
addresses and from the program counter, and puts them there. Nor does any instruction but `DUMP`
look at the dump mode. So if every address that a machine and its instruction hold is replaced by
another and the mode is changed too, the instruction does the same as before, up to that replacement
(`carries_perform`). Only the advance to the next instruction counts addresses; it is left to those
who know more about the replacement.
-/

namespace XBytecode

/-- The instruction with the target of its jump, if it has one, replaced through a map. -/
def Instruction.mapTarget (f : Nat → Nat) : Instruction → Instruction
  | .call jump => .call { jump with target := jump.target.map f }
  | .falseBranch jump => .falseBranch { jump with target := jump.target.map f }
  | .goto jump => .goto { jump with target := jump.target.map f }
  | other => other

/-- Replacing targets by themselves changes nothing. -/
theorem Instruction.mapTarget_id (instr : Instruction) : instr.mapTarget id = instr := by
  cases instr <;> simp [mapTarget]

namespace Machine

open EStateM (Result bind_of_ok bind_of_error modify_apply get_bind_apply)

/-- A replacement of the addresses that a machine holds, and a change of its dump mode. -/
structure Transport where
  /-- The address that takes the place of another. -/
  address : Nat → Nat
  /-- The mode that takes the place of another. -/
  mode : DumpMode → DumpMode

namespace Transport

variable (t : Transport) {α β : Type}

/-- The machine with its addresses and its mode replaced. -/
def machine (m : Machine) : Machine :=
  { m with pc := t.address m.pc, returns := m.returns.map t.address, dump := t.mode m.dump }

/-- The fault with its address replaced. -/
def fault (f : Fault) : Fault :=
  { f with address := t.address f.address }

/-- The result of an action with all addresses and the mode replaced. -/
def result : Result Fault Machine α → Result Fault Machine α
  | .ok a m => .ok a (t.machine m)
  | .error f m => .error (t.fault f) (t.machine m)

/-- A success is carried over with its state. -/
@[simp]
theorem result_ok (a : α) (m : Machine) : t.result (.ok a m) = .ok a (t.machine m) := rfl

/-- A failure is carried over with its fault and its state. -/
@[simp]
theorem result_error (f : Fault) (m : Machine) :
    t.result (.error f m : Result Fault Machine α) = .error (t.fault f) (t.machine m) := rfl

/-- The second action does on the machine with replaced addresses what the first one does on the
machine, up to the replacement. -/
def Carries (act act' : Act α) : Prop :=
  ∀ m, act' (t.machine m) = t.result (act m)

variable {t}

/-- Sequences are carried if their parts are. -/
theorem Carries.bind {act act' : Act α} {next next' : α → Act β} (hact : t.Carries act act')
    (hnext : ∀ a, t.Carries (next a) (next' a)) : t.Carries (act >>= next) (act' >>= next') := by
  intro m
  have hm := hact m
  cases h : act m with
  | ok a m' =>
    rw [h] at hm
    rw [bind_of_ok hm, bind_of_ok h]
    exact hnext a m'
  | error f m' =>
    rw [h] at hm
    rw [bind_of_error hm, bind_of_error h]
    rfl

/-- An action that looks at the machine first is carried if what comes next is. -/
theorem Carries.get_bind {next next' : Machine → Act α}
    (hnext : ∀ m, t.Carries (next m) (next' (t.machine m))) :
    t.Carries (get >>= next) (get >>= next') := by
  intro m
  rw [get_bind_apply, get_bind_apply]
  exact hnext m m

variable (t)

/-- Doing nothing is carried over. -/
theorem carries_pure (a : α) : t.Carries (pure a) (pure a) :=
  fun _ => rfl

/-- A change of the machine is carried if it goes together with the replacement. -/
theorem carries_modify {f f' : Machine → Machine} (h : ∀ m, f' (t.machine m) = t.machine (f m)) :
    t.Carries (modify f) (modify f') := by
  intro m
  rw [modify_apply, modify_apply, h]
  rfl

/-- Failing is carried over. -/
theorem carries_fail (cause : Fault.Cause) : t.Carries (fail cause : Act α) (fail cause) :=
  fun _ => rfl

/-- An operation of the stack is carried over. -/
theorem carries_onStack (f : Stack → Except Stack.Error (α × Stack)) :
    t.Carries (onStack f) (onStack f) := by
  intro m
  have hstack : (t.machine m).stack = m.stack := rfl
  unfold onStack
  rw [hstack]
  cases f m.stack <;> rfl

/-- An operation of the channel is carried over. -/
theorem carries_onChannel (act : Channel.Act α) : t.Carries (onChannel act) (onChannel act) := by
  intro m
  have hchannel : (t.machine m).channel = m.channel := rfl
  unfold onChannel
  rw [hchannel]
  cases act m.channel <;> rfl

/-- Pushing a value is carried over. -/
theorem carries_push (v : Int32) : t.Carries (push v) (push v) := by
  intro m
  have hstack : (t.machine m).stack = m.stack := rfl
  unfold push
  rw [hstack]
  split <;> rfl

/-- Changing the stack is carried over. -/
theorem carries_changeStack (f : Stack → Except Stack.Error (α × Stack)) :
    t.Carries (changeStack f) (changeStack f) :=
  (t.carries_onStack f).bind fun _ => t.carries_pure ()

/-- A jump goes to the address that takes the place of its target. -/
theorem carries_jumpTo (jump : Jump) :
    t.Carries (jumpTo jump) (jumpTo { jump with target := jump.target.map t.address }) := by
  intro m
  obtain ⟨label, target⟩ := jump
  cases target <;> rfl

/-- A call goes to the address that takes the place of its target and remembers the one that takes
the place of its own. -/
theorem carries_enterCall (jump : Jump) :
    t.Carries (enterCall jump) (enterCall { jump with target := jump.target.map t.address }) := by
  intro m
  obtain ⟨label, target⟩ := jump
  cases target with
  | none => rfl
  | some address =>
    have hpush : (m.returns.push m.pc).map t.address =
        (m.returns.map t.address).push (t.address m.pc) := Array.map_push
    show Result.ok _ _ = Result.ok _ _
    simp only [machine, hpush]

/-- A return goes to the address that takes the place of the one remembered. -/
theorem carries_leaveCall : t.Carries leaveCall leaveCall := by
  refine Carries.get_bind fun m => ?_
  have hback : (t.machine m).returns.back? = m.returns.back?.map t.address := Array.back?_map
  rw [hback]
  cases m.returns.back? with
  | none => exact t.carries_fail _
  | some address =>
    refine (t.carries_changeStack _).bind fun _ => t.carries_modify fun m => ?_
    simp [machine, Array.map_pop]

/-- Operators are carried over. -/
theorem carries_operate (op : Operator) : t.Carries (operate op) (operate op) := by
  refine (t.carries_onStack _).bind fun right => (t.carries_onStack _).bind fun left => ?_
  split
  · exact t.carries_push _
  · exact t.carries_fail _

/-- Loading a slot is carried over. -/
theorem carries_loadSlot (offset : Nat) : t.Carries (loadSlot offset) (loadSlot offset) := by
  refine Carries.get_bind fun m => ?_
  have hstack : (t.machine m).stack = m.stack := rfl
  rw [hstack]
  split
  · exact t.carries_changeStack _
  · exact t.carries_fail _

/-- Reading an integer is carried over. -/
theorem carries_readInteger : t.Carries readInteger readInteger := by
  refine (t.carries_onChannel _).bind fun _ => (t.carries_onChannel _).bind fun _ =>
    (t.carries_onChannel _).bind fun line => ?_
  split
  · split
    · exact t.carries_push _
    · exact t.carries_fail _
  · exact t.carries_fail _

/-- Writing the top value is carried over. -/
theorem carries_writeTop : t.Carries writeTop writeTop :=
  (t.carries_onStack _).bind fun _ => t.carries_onChannel _

/-- Every instruction but `DUMP` does the same with other addresses and in another mode. -/
theorem carries_perform {instr : Instruction} (h : ∀ on, instr ≠ .dump on) :
    t.Carries (perform instr) (perform (instr.mapTarget t.address)) := by
  cases instr with
  | dump on => exact absurd rfl (h on)
  | args count => exact t.carries_changeStack _
  | bop op => exact t.carries_operate op
  | call jump => exact t.carries_enterCall jump
  | falseBranch jump =>
    refine (t.carries_onStack _).bind fun v => ?_
    split
    · exact t.carries_jumpTo jump
    · exact t.carries_pure ()
  | goto jump => exact t.carries_jumpTo jump
  | halt => exact t.carries_modify fun _ => rfl
  | lit value name => exact t.carries_push value
  | load offset name => exact t.carries_loadSlot offset
  | pop count => exact t.carries_modify fun _ => rfl
  | read => exact t.carries_readInteger
  | ret name => exact t.carries_leaveCall
  | store offset name => exact t.carries_changeStack _
  | write => exact t.carries_writeTop
  | label name => exact t.carries_pure ()
  | formal name offset => exact t.carries_pure ()
  | function name first last => exact t.carries_pure ()
  | line number => exact t.carries_pure ()

end Transport

end Machine

end XBytecode
