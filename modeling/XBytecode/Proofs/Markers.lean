import Mathlib.Control.Monad.Basic
import XBytecode.Proofs.ControlFlow
import XBytecode.Proofs.DumpMode
import XBytecode.Proofs.Ending

/-!
# Markers do not affect the machine

`FORMAL`, `LINE` and `FUNCTION` only mark places for the debugger. `Program.withoutMarkers` is a
code without them, except for the `FUNCTION` markers that a jump leads to, and `Program.rank` is
what this makes of an address: the number of instructions kept before it. What is kept is resolved
as before, with the addresses ranked (`get?_resolve_withoutMarkers`).

A machine on the code without markers follows the machine on the code with all its addresses ranked.
It takes a step when the machine takes one at an instruction that is kept (`step_of_kept`) and waits
when it passes a marker (`step_of_marker`), which does not happen for ever, since the program
counter moves on. So both end alike (`ends_withoutMarkers_iff`).
-/

namespace XBytecode

/-! ## Numbering what is kept -/

section Kept

variable {α : Type} {keep : α → Bool}

/-- What is kept of a list has as many elements before it as are kept before it in the list. -/
theorem getElem?_filter_of_kept {l : List α} {i : Nat} {a : α} (h : l[i]? = some a)
    (hkeep : keep a = true) : (l.filter keep)[(l.take i).countP keep]? = some a := by
  induction l generalizing i with
  | nil => simp at h
  | cons b l ih =>
    cases i with
    | zero =>
      obtain rfl : b = a := Option.some.inj h
      simp [hkeep]
    | succ i =>
      have hrest := ih h
      cases hb : keep b with
      | true => simpa [hb] using hrest
      | false => simpa [hb] using hrest

/-- The first element with a property stays the first one if it is kept. -/
theorem findIdx?_filter_of_kept {found : α → Bool} {l : List α} {i : Nat} {a : α}
    (h : l.findIdx? found = some i) (hget : l[i]? = some a) (hkeep : keep a = true) :
    (l.filter keep).findIdx? found = some ((l.take i).countP keep) := by
  induction l generalizing i with
  | nil => simp at h
  | cons b l ih =>
    rw [List.findIdx?_cons] at h
    cases hfound : found b with
    | true =>
      rw [hfound, if_pos rfl, Option.some.injEq] at h
      subst h
      obtain rfl : b = a := Option.some.inj hget
      simp [List.findIdx?_cons, hkeep, hfound]
    | false =>
      rw [hfound, if_neg (by simp), Option.map_eq_some_iff] at h
      obtain ⟨j, hj, rfl⟩ := h
      have hrest := ih hj hget
      cases hb : keep b with
      | true => simp [List.findIdx?_cons, hb, hfound, hrest]
      | false => simp [hb, hrest]

end Kept

namespace Program

/-- Whether a jump of the program leads to the address. -/
def isTarget (p : Program) (address : Nat) : Bool :=
  p.instructions.any fun instr => instr.jump?.bind (·.target) == some address

/-- Whether the instruction at an address is more than a marker: a jump may lead to a `FUNCTION`
marker, but not to a `FORMAL` or a `LINE`. -/
def isEssential (p : Program) : Instruction × Nat → Bool
  | (.formal _ _, _) | (.line _, _) => false
  | (.function _ _ _, address) => p.isTarget address
  | _ => true

/-- The code without every `FORMAL`, every `LINE` and every `FUNCTION` marker that no jump leads
to. -/
def withoutMarkers (code : List Instruction) : List Instruction :=
  (code.zipIdx.filter (resolve code).isEssential).map Prod.fst

/-- The number of instructions before an address that are not deleted. -/
def rank (code : List Instruction) (address : Nat) : Nat :=
  (code.zipIdx.take address).countP (resolve code).isEssential

section Rank

variable {code : List Instruction} {address : Nat} {instr : Instruction}

/-- A jump leads to its target. -/
theorem isTarget_of_jump {p : Program} {jump : Jump} {target : Nat}
    (hget : p.get? address = some instr) (hjump : instr.jump? = some jump)
    (htarget : jump.target = some target) : p.isTarget target = true := by
  rw [isTarget, Array.any_eq_true]
  obtain ⟨hlt, hinstr⟩ := Array.getElem?_eq_some_iff.mp hget
  refine ⟨address, hlt, ?_⟩
  rw [hinstr, hjump, Option.bind_some, htarget]
  exact beq_self_eq_true _

/-- Aiming a jump does not make it a marker. -/
theorem isEssential_aim (p : Program) (table : LabelTable) :
    p.isEssential (table.aim instr, address) = p.isEssential (instr, address) := by
  cases instr <;> rfl

/-- An instruction is numbered with its address. -/
theorem getElem?_zipIdx_of_getElem? (h : code[address]? = some instr) :
    code.zipIdx[address]? = some (instr, address) := by
  rw [List.getElem?_zipIdx, h, Option.map_some, Nat.zero_add]

/-- The next address ranks higher exactly if the instruction is kept. -/
theorem rank_succ (hget : (resolve code).get? address = some instr) :
    rank code (address + 1) =
      rank code address + if (resolve code).isEssential (instr, address) then 1 else 0 := by
  rw [get?_resolve, Option.map_eq_some_iff] at hget
  obtain ⟨written, hwritten, rfl⟩ := hget
  rw [isEssential_aim, rank, rank, List.take_add_one, getElem?_zipIdx_of_getElem? hwritten,
    List.countP_append, Option.toList_some, List.countP_singleton]

/-- The end of the code ranks as the end of what is kept. -/
theorem rank_length (code : List Instruction) :
    rank code code.length = (withoutMarkers code).length := by
  rw [rank, withoutMarkers, List.length_map, ← List.countP_eq_length_filter, List.take_of_length_le]
  exact Nat.le_of_eq List.length_zipIdx

/-- An instruction that is kept is found at its rank. -/
theorem getElem?_withoutMarkers (h : code[address]? = some instr)
    (hkeep : (resolve code).isEssential (instr, address) = true) :
    (withoutMarkers code)[rank code address]? = some instr := by
  rw [withoutMarkers, List.getElem?_map, rank,
    getElem?_filter_of_kept (getElem?_zipIdx_of_getElem? h) hkeep, Option.map_some]

/-- The first instruction with a property is found at its rank if it is kept. -/
theorem findIdx?_withoutMarkers {found : Instruction → Bool}
    (h : code.findIdx? found = some address) (hget : code[address]? = some instr)
    (hkeep : (resolve code).isEssential (instr, address) = true) :
    (withoutMarkers code).findIdx? found = some (rank code address) := by
  have h' : code.zipIdx.findIdx? (found ∘ Prod.fst) = some address := by
    rw [← List.findIdx?_map, List.zipIdx_map_fst]
    exact h
  rw [withoutMarkers, List.findIdx?_map, rank]
  exact findIdx?_filter_of_kept h' (getElem?_zipIdx_of_getElem? hget) hkeep

/-- What the code does not have, it does not have without its markers. -/
theorem findIdx?_withoutMarkers_eq_none {found : Instruction → Bool}
    (h : code.findIdx? found = none) : (withoutMarkers code).findIdx? found = none := by
  rw [List.findIdx?_eq_none_iff] at h ⊢
  intro instr hmem
  rw [withoutMarkers, List.mem_map] at hmem
  obtain ⟨⟨_, address⟩, hmem, rfl⟩ := hmem
  have hget := List.mk_mem_zipIdx_iff_getElem?.mp (List.mem_filter.mp hmem).1
  exact h _ (List.mem_of_getElem? hget)

end Rank

/-! ## Resolving what is kept -/

section Jumps

variable {code : List Instruction} {address : Nat} {instr : Instruction} {jump : Jump}

/-- The instruction that a jump leads to is a `LABEL` or a `FUNCTION` marker with a jump to it, and
so it is kept. -/
theorem isEssential_of_target {target : Nat} (hget : (resolve code).get? address = some instr)
    (hjump : instr.jump? = some jump) (htarget : jump.target = some target) :
    ∃ there, code[target]? = some there ∧
      (resolve code).isEssential (there, target) = true := by
  have hplace := htarget
  rw [(target_of_resolve hget hjump).1, place?, Option.or_eq_some_iff] at hplace
  obtain hlabel | ⟨-, hfunction⟩ := hplace
  · obtain ⟨hlt, hname, -⟩ := List.findIdx?_eq_some_iff_getElem.mp hlabel
    refine ⟨code[target], List.getElem?_eq_getElem hlt, ?_⟩
    cases hthere : code[target] with
    | label name => rfl
    | _ => simp [hthere, Instruction.labelName?] at hname
  · obtain ⟨hlt, hname, -⟩ := List.findIdx?_eq_some_iff_getElem.mp hfunction
    refine ⟨code[target], List.getElem?_eq_getElem hlt, ?_⟩
    cases hthere : code[target] with
    | function name first last => exact isTarget_of_jump hget hjump htarget
    | _ => simp [hthere, Instruction.functionName?] at hname

/-- The place of a label that a jump leads to is ranked. -/
theorem place?_withoutMarkers (hget : (resolve code).get? address = some instr)
    (hjump : instr.jump? = some jump) :
    place? (withoutMarkers code) jump.label = (place? code jump.label).map (rank code) := by
  have htarget := (target_of_resolve hget hjump).1
  rw [place?, place?] at *
  cases hlabel : firstLabel? code jump.label with
  | some target =>
    rw [hlabel, Option.some_or] at htarget
    obtain ⟨there, hthere, hkeep⟩ := isEssential_of_target hget hjump htarget
    rw [firstLabel?, findIdx?_withoutMarkers hlabel hthere hkeep, Option.some_or, Option.some_or,
      Option.map_some]
  | none =>
    rw [firstLabel?, findIdx?_withoutMarkers_eq_none hlabel, Option.none_or, Option.none_or]
    rw [hlabel, Option.none_or] at htarget
    cases hfunction : firstFunction? code jump.label with
    | some target =>
      rw [hfunction] at htarget
      obtain ⟨there, hthere, hkeep⟩ := isEssential_of_target hget hjump htarget
      rw [firstFunction?, findIdx?_withoutMarkers hfunction hthere hkeep, Option.map_some]
    | none =>
      rw [firstFunction?, findIdx?_withoutMarkers_eq_none hfunction, Option.map_none]

/-- An instruction that is kept is found at its rank, and the target of its jump is ranked. -/
theorem get?_resolve_withoutMarkers (hget : (resolve code).get? address = some instr)
    (hkeep : (resolve code).isEssential (instr, address) = true) :
    (resolve (withoutMarkers code)).get? (rank code address) =
      some (instr.mapTarget (rank code)) := by
  have hresolved := hget
  rw [get?_resolve, Option.map_eq_some_iff] at hget
  obtain ⟨written, hwritten, rfl⟩ := hget
  rw [isEssential_aim] at hkeep
  rw [get?_resolve, getElem?_withoutMarkers hwritten hkeep, Option.map_some, Option.some.injEq]
  -- Both tables give the label of a jump its place, and the places are those of the same `LABEL`.
  have hplace : ∀ jump, written.jump? = some jump →
      (LabelTable.ofCode (withoutMarkers code))[jump.label]? =
        (LabelTable.ofCode code)[jump.label]?.map (rank code) := by
    intro jump hjump
    have haimed : ((LabelTable.ofCode code).aim written).jump? =
        some ⟨jump.label, (LabelTable.ofCode code)[jump.label]?⟩ := by
      rw [LabelTable.jump?_aim, hjump, Option.map_some]
    have hranked := place?_withoutMarkers hresolved haimed
    rwa [← LabelTable.getElem?_ofCode, ← LabelTable.getElem?_ofCode] at hranked
  cases written with
  | call jump =>
    exact congrArg (fun target => Instruction.call ⟨jump.label, target⟩) (hplace _ rfl)
  | falseBranch jump =>
    exact congrArg (fun target => Instruction.falseBranch ⟨jump.label, target⟩) (hplace _ rfl)
  | goto jump =>
    exact congrArg (fun target => Instruction.goto ⟨jump.label, target⟩) (hplace _ rfl)
  | _ => rfl

end Jumps

end Program

namespace Machine

open EStateM (Result bind_of_ok bind_of_error)
open Program (resolve withoutMarkers rank)

/-- The replacement of addresses by their ranks. -/
def Transport.ranked (code : List Instruction) : Transport where
  address := rank code
  mode := id

/-! ## One step -/

/-- The machine on a code without `DUMP` that the machine without its markers can follow. -/
structure Followed (code : List Instruction) (m : Machine) : Prop where
  /-- Addresses are those of instructions and of calls. -/
  confined : Confined (resolve code) m
  /-- Nothing is shown. -/
  hidden : m.dump.shows = false

section Steps

variable {code : List Instruction} {m m' : Machine} {instr : Instruction}

/-- A resolved code has no `DUMP` if the code has none. -/
theorem ne_dump_of_get? (hdump : ∀ on, .dump on ∉ code) {address : Nat}
    (hget : (resolve code).get? address = some instr) (on : Bool) : instr ≠ .dump on := by
  rintro rfl
  rw [Program.get?_resolve, Option.map_eq_some_iff] at hget
  obtain ⟨written, hwritten, haim⟩ := hget
  have hop := congrArg Instruction.opcode haim
  rw [LabelTable.opcode_aim] at hop
  cases written with
  | dump on' => exact hdump on' (List.mem_of_getElem? hwritten)
  | _ => cases hop

/-- A step of a machine that is followed leaves one that is. -/
theorem Followed.step (hdump : ∀ on, .dump on ∉ code) (h : Followed code m)
    (hstep : Machine.step (resolve code) m = .ok instr m') : Followed code m' := by
  constructor
  · have hconfined := h.confined.step
    rwa [hstep] at hconfined
  · -- Started in its own mode, the machine ends in it.
    have hsame := step_withDump (d := m.dump) (fun on hget => ne_dump_of_get? hdump hget on rfl)
      h.hidden h.hidden
    rw [withDump_dump, hstep, Result.mapState_ok, Result.ok.injEq] at hsame
    rw [hsame.2]
    exact h.hidden

/-- Behind an instruction that is kept, the rank of the next address is the next rank: the program
counter stands at the instruction itself, at what its jump leads to or at a call, and all of these
are kept. -/
theorem rank_following (h : Followed code m) (hget : (resolve code).get? m.pc = some instr)
    (hkeep : (resolve code).isEssential (instr, m.pc) = true) (heffect : Effect instr m m') :
    rank code (following m'.pc instr) =
      following (rank code m'.pc) (instr.mapTarget (rank code)) := by
  have hkept : ∃ there, (resolve code).get? m'.pc = some there ∧
      (resolve code).isEssential (there, m'.pc) = true := by
    obtain hpc | ⟨jump, hjump, htarget⟩ | hmem := heffect.pc_cases
    · rw [hpc]
      exact ⟨instr, hget, hkeep⟩
    · obtain ⟨written, hwritten, hessential⟩ :=
        Program.isEssential_of_target hget hjump htarget
      refine ⟨(LabelTable.ofCode code).aim written, ?_, ?_⟩
      · rw [Program.get?_resolve, hwritten, Option.map_some]
      · rw [Program.isEssential_aim, hessential]
    · obtain ⟨jump, hcall⟩ := h.confined.returns _ hmem
      exact ⟨.call jump, hcall, rfl⟩
  obtain ⟨there, hthere, hessential⟩ := hkept
  have hsucc : rank code (m'.pc + 1) = rank code m'.pc + 1 := by
    rw [Program.rank_succ hthere, hessential, if_pos rfl]
  cases instr with
  | call jump => rfl
  | _ => exact hsucc

/-- At an instruction that is kept, the machine without markers takes the step that the machine
takes, with the addresses ranked. -/
theorem step_of_kept (hdump : ∀ on, .dump on ∉ code) (h : Followed code m)
    (hget : (resolve code).get? m.pc = some instr)
    (hkeep : (resolve code).isEssential (instr, m.pc) = true) :
    (∃ m', step (resolve code) m = .ok instr m' ∧
        step (resolve (withoutMarkers code)) ((Transport.ranked code).machine m) =
          .ok (instr.mapTarget (rank code)) ((Transport.ranked code).machine m')) ∨
      ∃ f m', step (resolve code) m = .error f m' ∧
        step (resolve (withoutMarkers code)) ((Transport.ranked code).machine m) =
          .error ((Transport.ranked code).fault f) ((Transport.ranked code).machine m') := by
  have hnot := ne_dump_of_get? hdump hget
  have hnot' : ∀ on, instr.mapTarget (rank code) ≠ .dump on := by
    intro on
    cases instr with
    | dump on' => exact absurd rfl (hnot on')
    | _ => simp [Instruction.mapTarget]
  have hcarries : perform (instr.mapTarget (rank code)) ((Transport.ranked code).machine m) =
      (Transport.ranked code).result (perform instr m) :=
    (Transport.ranked code).carries_perform hnot m
  rw [step_of_hidden hget hnot h.hidden,
    step_of_hidden (m := (Transport.ranked code).machine m)
      (Program.get?_resolve_withoutMarkers hget hkeep) hnot' h.hidden]
  cases hperform : perform instr m with
  | error f m₁ =>
    rw [hperform] at hcarries
    exact .inr ⟨f, m₁, bind_of_error hperform _, bind_of_error hcarries _⟩
  | ok _ m₁ =>
    rw [hperform] at hcarries
    have hpc := rank_following h hget hkeep (effect_of_perform hperform)
    refine .inl ⟨{ m₁ with pc := following m₁.pc instr }, ?_, ?_⟩
    · rw [bind_of_ok hperform, bind_of_ok (advance_apply instr m₁)]
      rfl
    · rw [bind_of_ok hcarries, bind_of_ok (advance_apply _ _)]
      show Result.ok _ _ = Result.ok _ _
      simp only [Transport.machine, Transport.ranked, hpc]

/-- A marker that is deleted is passed, and the rank of the program counter stays. -/
theorem step_of_marker (hdump : ∀ on, .dump on ∉ code) (h : Followed code m)
    (hget : (resolve code).get? m.pc = some instr)
    (hmarker : (resolve code).isEssential (instr, m.pc) = false) :
    step (resolve code) m = .ok instr { m with pc := m.pc + 1 } ∧
      (Transport.ranked code).machine { m with pc := m.pc + 1 } =
        (Transport.ranked code).machine m := by
  constructor
  · rw [step_of_hidden hget (ne_dump_of_get? hdump hget) h.hidden]
    cases instr with
    | formal name offset => rfl
    | function name first last => rfl
    | line number => rfl
    | _ => cases hmarker
  · have hsucc : rank code (m.pc + 1) = rank code m.pc := by
      rw [Program.rank_succ hget, hmarker]
      rfl
    simp only [Transport.machine, Transport.ranked, hsucc]

/-- Outside the program both machines fail, the one without markers at the rank of the address. -/
theorem step_of_end (h : Followed code m) (hget : (resolve code).get? m.pc = none) :
    step (resolve code) m = .error ⟨m.pc, .outsideProgram⟩ m ∧
      step (resolve (withoutMarkers code)) ((Transport.ranked code).machine m) =
        .error ⟨rank code m.pc, .outsideProgram⟩ ((Transport.ranked code).machine m) := by
  refine ⟨step_of_outside hget, step_of_outside ?_⟩
  have hpc : m.pc = code.length := by
    have hle := h.confined.pc
    have hge : (resolve code).size ≤ m.pc := Array.getElem?_eq_none_iff.mp hget
    rw [Program.size_resolve] at hle hge
    exact Nat.le_antisymm hle hge
  show (resolve (withoutMarkers code)).get? (rank code m.pc) = none
  rw [hpc, Program.rank_length, Program.get?_resolve, List.getElem?_eq_none (Nat.le_refl _),
    Option.map_none]

end Steps

/-! ## Whole runs -/

section Runs

variable {code : List Instruction} {m : Machine} {r : Result Fault Machine Ending}

/-- A run that ends is followed to its end. -/
theorem Ends.withoutMarkers (hdump : ∀ on, .dump on ∉ code) (h : Followed code m)
    (hends : Ends (resolve code) m r) :
    Ends (resolve (withoutMarkers code)) ((Transport.ranked code).machine m)
      ((Transport.ranked code).result r) := by
  induction hends with
  | halted hstopped => exact .halted hstopped
  | @failed m m' f hrunning hstep =>
    refine .failed hrunning ?_
    cases hget : (resolve code).get? m.pc with
    | none =>
      obtain ⟨hend, hend'⟩ := step_of_end h hget
      rw [hend] at hstep
      cases hstep
      exact hend'
    | some instr =>
      cases hkeep : (resolve code).isEssential (instr, m.pc) with
      | false =>
        rw [(step_of_marker hdump h hget hkeep).1] at hstep
        cases hstep
      | true =>
        obtain ⟨_, hok, -⟩ | ⟨f', m'', herror, hstep'⟩ := step_of_kept hdump h hget hkeep
        · rw [hok] at hstep
          cases hstep
        · rw [herror] at hstep
          cases hstep
          exact hstep'
  | @next m m' instr r hrunning hstep _ ih =>
    have hnext := ih (h.step hdump hstep)
    obtain ⟨hget, -⟩ := effect_of_step hstep
    cases hkeep : (resolve code).isEssential (instr, m.pc) with
    | false =>
      -- The machine without markers waits.
      obtain ⟨hpass, hsame⟩ := step_of_marker hdump h hget hkeep
      rw [hpass] at hstep
      cases hstep
      rwa [hsame] at hnext
    | true =>
      obtain ⟨_, hok, hstep'⟩ | ⟨f, m'', herror, -⟩ := step_of_kept hdump h hget hkeep
      · rw [hok] at hstep
        cases hstep
        exact .next hrunning hstep' hnext
      · rw [herror] at hstep
        cases hstep

/-- A machine that runs passes markers until it gets to an instruction that is kept or to the end of
the program, and is followed with the same addresses, ranked. -/
theorem exists_kept (hdump : ∀ on, .dump on ∉ code) (h : Followed code m)
    (hrunning : m.running = true) :
    ∃ m', Followed code m' ∧
      (Transport.ranked code).machine m' = (Transport.ranked code).machine m ∧
      (∀ r, Ends (resolve code) m' r → Ends (resolve code) m r) ∧
      ∀ instr, (resolve code).get? m'.pc = some instr →
        (resolve code).isEssential (instr, m'.pc) = true := by
  -- The distance to the end of the program shrinks with every marker.
  induction hdistance : (resolve code).size - m.pc generalizing m with
  | zero =>
    refine ⟨m, h, rfl, fun _ => id, fun instr hget => ?_⟩
    have hlt := lt_size_of_get? hget
    omega
  | succ distance ih =>
    cases hget : (resolve code).get? m.pc with
    | none => exact ⟨m, h, rfl, fun _ => id, fun instr h' => by rw [hget] at h'; cases h'⟩
    | some instr =>
      cases hkeep : (resolve code).isEssential (instr, m.pc) with
      | true =>
        refine ⟨m, h, rfl, fun _ => id, fun instr' hget' => ?_⟩
        rw [hget] at hget'
        cases hget'
        exact hkeep
      | false =>
        obtain ⟨hpass, hsame⟩ := step_of_marker hdump h hget hkeep
        have hdistance' : (resolve code).size - (m.pc + 1) = distance := by omega
        obtain ⟨m', hm', hsame', hends, hkept⟩ :=
          ih (m := { m with pc := m.pc + 1 }) (h.step hdump hpass) hrunning hdistance'
        exact ⟨m', hm', hsame'.trans hsame, fun r hr => .next hrunning hpass (hends r hr), hkept⟩

/-- When the machine that follows ends, so does the machine followed. -/
theorem exists_ends {n : Machine} {r' : Result Fault Machine Ending}
    (hdump : ∀ on, .dump on ∉ code) (h : Followed code m)
    (hn : n = (Transport.ranked code).machine m)
    (hends : Ends (resolve (withoutMarkers code)) n r') :
    ∃ r, Ends (resolve code) m r := by
  induction hends generalizing m with
  | halted hstopped =>
    subst hn
    exact ⟨_, .halted hstopped⟩
  | @failed n n' f hrunning hstep =>
    subst hn
    obtain ⟨m₁, hm₁, hsame, hreach, hkept⟩ := exists_kept hdump h hrunning
    have hrunning₁ : m₁.running = true := (congrArg Machine.running hsame).trans hrunning
    rw [← hsame] at hstep
    cases hget : (resolve code).get? m₁.pc with
    | none => exact ⟨_, hreach _ (.failed hrunning₁ (step_of_end hm₁ hget).1)⟩
    | some instr =>
      obtain ⟨_, -, hok⟩ | ⟨f', m', herror, -⟩ := step_of_kept hdump hm₁ hget (hkept _ hget)
      · rw [hok] at hstep
        cases hstep
      · exact ⟨_, hreach _ (.failed hrunning₁ herror)⟩
  | @next n n' instr' r' hrunning hstep _ ih =>
    subst hn
    obtain ⟨m₁, hm₁, hsame, hreach, hkept⟩ := exists_kept hdump h hrunning
    have hrunning₁ : m₁.running = true := (congrArg Machine.running hsame).trans hrunning
    rw [← hsame] at hstep
    cases hget : (resolve code).get? m₁.pc with
    | none =>
      rw [(step_of_end hm₁ hget).2] at hstep
      cases hstep
    | some instr =>
      obtain ⟨m', hok, hok'⟩ | ⟨f', m', -, herror⟩ := step_of_kept hdump hm₁ hget (hkept _ hget)
      · rw [hok'] at hstep
        cases hstep
        obtain ⟨r, hr⟩ := ih (hm₁.step hdump hok) rfl
        exact ⟨r, hreach r (.next hrunning₁ hok hr)⟩
      · rw [herror] at hstep
        cases hstep

end Runs

/-- A machine at its start can be followed, and is the same with its addresses ranked. -/
theorem followed_start (code : List Instruction) (channel : Channel) :
    Followed code (start channel) ∧
      (Transport.ranked code).machine (start channel) = start channel := by
  refine ⟨⟨Reachable.start.confined, rfl⟩, ?_⟩
  simp [Transport.machine, Transport.ranked, start, rank]

/-- A code without `DUMP` and the code without its markers end alike: the results of the one are
those of the other with the addresses ranked. -/
theorem ends_withoutMarkers_iff {code : List Instruction} (hdump : ∀ on, .dump on ∉ code)
    (channel : Channel) (r' : Result Fault Machine Ending) :
    Ends (resolve (withoutMarkers code)) (start channel) r' ↔
      ∃ r, Ends (resolve code) (start channel) r ∧ r' = (Transport.ranked code).result r := by
  obtain ⟨hfollowed, hstart⟩ := followed_start code channel
  constructor
  · intro hends
    obtain ⟨r, hr⟩ := exists_ends hdump hfollowed hstart.symm hends
    have hr' := hr.withoutMarkers hdump hfollowed
    rw [hstart] at hr'
    exact ⟨r, hr, hends.unique hr'⟩
  · rintro ⟨r, hr, rfl⟩
    have hr' := hr.withoutMarkers hdump hfollowed
    rwa [hstart] at hr'

/-- Markers do not affect the machine. Of a code without `DUMP` delete every `FORMAL`, every `LINE`
and every `FUNCTION` marker that no jump leads to. With the same channel, whatever its input and its
device, the two programs halt, fail and diverge together. When they halt or fail, they leave the
same channel, with the text written and the input not read, and the same stack. A failure has the
same cause, at an address that is ranked. -/
theorem markers_inert {code : List Instruction} (hdump : ∀ on, .dump on ∉ code)
    (channel : Channel) :
    let p := resolve code
    let p' := resolve (withoutMarkers code)
    let m₀ := start channel
    ((∃ m, Halts p m₀ m) ↔ ∃ m', Halts p' m₀ m') ∧
      ((∃ f m, Fails p m₀ f m) ↔ ∃ f' m', Fails p' m₀ f' m') ∧
      (Diverges p m₀ ↔ Diverges p' m₀) ∧
      (∀ m m', Halts p m₀ m → Halts p' m₀ m' →
        m'.channel = m.channel ∧ m'.stack = m.stack) ∧
      ∀ f m f' m', Fails p m₀ f m → Fails p' m₀ f' m' →
        f' = ⟨rank code f.address, f.cause⟩ ∧ m'.channel = m.channel ∧ m'.stack = m.stack := by
  intro p p' m₀
  have hends := ends_withoutMarkers_iff hdump channel
  have hranked : ∀ r, Ends p m₀ r → Ends p' m₀ ((Transport.ranked code).result r) :=
    fun r hr => (hends _).mpr ⟨r, hr, rfl⟩
  simp only [halts_iff, fails_iff, diverges_iff]
  refine ⟨⟨?_, ?_⟩, ⟨?_, ?_⟩, ⟨?_, ?_⟩, ?_, ?_⟩
  · rintro ⟨m, hm⟩
    exact ⟨_, hranked _ hm⟩
  · rintro ⟨m', hm'⟩
    obtain ⟨r, hr, hresult⟩ := (hends _).mp hm'
    cases r with
    | ok ending m =>
      cases hresult
      exact ⟨m, hr⟩
    | error f m => cases hresult
  · rintro ⟨f, m, hm⟩
    exact ⟨_, _, hranked _ hm⟩
  · rintro ⟨f', m', hm'⟩
    obtain ⟨r, hr, hresult⟩ := (hends _).mp hm'
    cases r with
    | ok ending m => cases hresult
    | error f m => exact ⟨f, m, hr⟩
  · intro hdiverges r' hr'
    obtain ⟨r, hr, -⟩ := (hends r').mp hr'
    exact hdiverges r hr
  · intro hdiverges r hr
    exact hdiverges _ (hranked r hr)
  · intro m m' hm hm'
    have hsame := (hranked _ hm).unique hm'
    cases hsame
    exact ⟨rfl, rfl⟩
  · intro f m f' m' hm hm'
    have hsame := (hranked _ hm).unique hm'
    cases hsame
    exact ⟨rfl, rfl, rfl⟩

/-- A code with markers of each kind, of which one is called. -/
def markedCode : List Instruction :=
  [.function "main" 1 3, .line 2, .lit 4 none, .args 1, .call ⟨"f", none⟩, .line 3, .write, .halt,
    .function "f" 5 6, .formal "n" 0, .load 0 "n", .lit 1 none, .bop .add, .ret none]

/-- The marked code, with and without its markers, prints the same and halts with the same stack. -/
theorem markers_inert_marked :
    (∀ on, .dump on ∉ markedCode) ∧
      withoutMarkers markedCode =
        [.lit 4 none, .args 1, .call ⟨"f", none⟩, .write, .halt, .function "f" 5 6, .load 0 "n",
          .lit 1 none, .bop .add, .ret none] ∧
      ∃ m m', Halts (resolve markedCode) (start {}) m ∧ m.channel.written = "5\n" ∧
        Halts (resolve (withoutMarkers markedCode)) (start {}) m' ∧ m'.channel = m.channel ∧
        m'.stack = m.stack := by
  have hdump : ∀ on, .dump on ∉ markedCode := by simp [markedCode]
  have hkept : withoutMarkers markedCode =
      [.lit 4 none, .args 1, .call ⟨"f", none⟩, .write, .halt, .function "f" 5 6, .load 0 "n",
        .lit 1 none, .bop .add, .ret none] := by decide +kernel
  have houtcome : (execute (resolve markedCode) 14 (start {})).outcome = .ok .halted := by
    decide +kernel
  have hhalts : ∃ m, Halts (resolve markedCode) (start {}) m ∧ m.channel.written = "5\n" :=
    ⟨_, ⟨14, EStateM.Result.eq_ok_of_outcome houtcome⟩, by decide +kernel⟩
  obtain ⟨m, hm, hwritten⟩ := hhalts
  obtain ⟨hsame, -, -, hleft, -⟩ := markers_inert hdump {}
  obtain ⟨m', hm'⟩ := hsame.mp ⟨m, hm⟩
  obtain ⟨hchannel, hstack⟩ := hleft m m' hm hm'
  exact ⟨hdump, hkept, m, m', hm, hwritten, hm', hchannel, hstack⟩

end Machine

end XBytecode
