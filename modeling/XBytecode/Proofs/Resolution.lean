import XBytecode.Program.Resolve

/-!
# Address resolution is exact

`Program.place?` says what a name stands for without a table: the first `LABEL` of that name, or
else the first `FUNCTION` marker. The table that resolution builds in two passes gives the same
(`getElem?_ofCode`), since both passes are one fold that enters a name unless it is known
(`getElem?_foldl_enterName`). The targets of the jumps, the addresses of names and the list of
faults are then read off `place?`, and since resolving changes no name, resolving again changes
nothing.
-/

namespace XBytecode

/-- The name of a `LABEL`. -/
def Instruction.labelName? : Instruction → Option String
  | .label name => some name
  | _ => none

/-- The name of a `FUNCTION` marker. -/
def Instruction.functionName? : Instruction → Option String
  | .function name _ _ => some name
  | _ => none

/-- The control transfers, each one made of its jump. -/
def Instruction.transfers : List (Jump → Instruction) :=
  [.call, .falseBranch, .goto]

/-- The instructions with a jump are the control transfers. -/
theorem Instruction.jump?_eq_some_iff {instr : Instruction} {jump : Jump} :
    instr.jump? = some jump ↔ ∃ transfer ∈ transfers, instr = transfer jump := by
  cases instr <;> simp [jump?, transfers]

/-- The address that a fault is reported at. -/
def ResolveError.address : ResolveError → Nat
  | .undefinedLabel address _ | .duplicateLabel address _ _ => address

namespace Program

/-- The address of the first `LABEL` with a name. -/
def firstLabel? (code : List Instruction) (name : String) : Option Nat :=
  code.findIdx? fun instr => instr.labelName? == some name

/-- The address of the first `FUNCTION` marker with a name. -/
def firstFunction? (code : List Instruction) (name : String) : Option Nat :=
  code.findIdx? fun instr => instr.functionName? == some name

/-- The place that a name stands for: its first `LABEL` or else its first `FUNCTION` marker. -/
def place? (code : List Instruction) (name : String) : Option Nat :=
  (firstLabel? code name).or (firstFunction? code name)

/-- A `LABEL` behind the first one of its name is a fault. -/
def IsDuplicate (code : List Instruction) : ResolveError → Prop
  | .duplicateLabel address label first =>
    code[address]? = some (.label label) ∧ firstLabel? code label = some first ∧ first < address
  | .undefinedLabel _ _ => False

/-- A control transfer to a name without a place is a fault. -/
def IsUndefined (code : List Instruction) : ResolveError → Prop
  | .undefinedLabel address label =>
    place? code label = none ∧ ∃ transfer ∈ Instruction.transfers, ∃ target,
      code[address]? = some (transfer ⟨label, target⟩)
  | .duplicateLabel _ _ _ => False

/-- The list holds the faults with a property, each once and in order of address. -/
structure ListsInOrder (errors : List ResolveError) (P : ResolveError → Prop) : Prop where
  /-- Addresses ascend. -/
  ascending : errors.Pairwise fun e e' => e.address < e'.address
  /-- The list misses none of the faults and holds no others. -/
  mem_iff : ∀ e, e ∈ errors ↔ P e

end Program

namespace LabelTable

open Program (firstLabel? firstFunction? place?)

/-! ## The table of names -/

/-- Enters the name that an instruction defines, unless the name has a place already. -/
def enterName (name? : Instruction → Option String) (table : LabelTable) :
    Instruction × Nat → LabelTable
  | (instr, address) =>
    match name? instr with
    | some name => table.insertIfNew name address
    | none => table

/-- The first pass enters the names of the labels. -/
theorem addLabel_eq : addLabel = enterName Instruction.labelName? := by
  funext table ⟨instr, address⟩
  cases instr <;> rfl

/-- The second pass enters the names of the functions. -/
theorem addFunction_eq : addFunction = enterName Instruction.functionName? := by
  funext table ⟨instr, address⟩
  cases instr <;> rfl

/-- A pass over an instruction sequence keeps the names that the table has and gives every other
name the first place that the sequence defines it at. -/
theorem getElem?_foldl_enterName (name? : Instruction → Option String) (code : List Instruction)
    (table : LabelTable) (start : Nat) (name : String) :
    ((code.zipIdx start).foldl (enterName name?) table)[name]? =
      table[name]?.or ((code.findIdx? fun instr => name? instr == some name).map (· + start)) := by
  induction code generalizing table start with
  | nil => simp
  | cons instr code ih =>
    rw [List.zipIdx_cons, List.foldl_cons, ih, List.findIdx?_cons]
    cases hname : name? instr with
    | none =>
      simp only [enterName, hname]
      congr 1
      simp [Nat.add_assoc, Nat.add_comm 1, Function.comp_def]
    | some found =>
      simp only [enterName, hname, Std.ExtTreeMap.getElem?_insertIfNew]
      by_cases heq : found = name
      · -- The name itself: it is entered here if it is new.
        subst heq
        by_cases hmem : found ∈ table
        · simp [hmem]
        · simp [hmem]
      · -- Another name leaves this one alone.
        simp [heq, Nat.add_assoc, Nat.add_comm 1, Function.comp_def]

/-- The table of the labels gives the first label of a name. -/
theorem getElem?_ofLabels (code : List Instruction) (name : String) :
    (ofLabels code)[name]? = firstLabel? code name := by
  rw [ofLabels, addLabel_eq, getElem?_foldl_enterName]
  simp [firstLabel?]

/-- The table of all names gives the place of a name. -/
theorem getElem?_ofCode (code : List Instruction) (name : String) :
    (ofCode code)[name]? = place? code name := by
  rw [ofCode, addFunction_eq, getElem?_foldl_enterName, getElem?_ofLabels]
  simp [place?, firstFunction?]

/-! ## Jumps -/

/-- Aiming keeps the operation. -/
theorem opcode_aim (table : LabelTable) (instr : Instruction) :
    (table.aim instr).opcode = instr.opcode := by
  cases instr <;> rfl

/-- Aiming keeps the label of a jump and replaces its target by the place of the label. -/
theorem jump?_aim (table : LabelTable) (instr : Instruction) :
    (table.aim instr).jump? = instr.jump?.map fun jump => ⟨jump.label, table[jump.label]?⟩ := by
  cases instr <;> rfl

/-- Aiming leaves every other instruction as it is. -/
theorem aim_of_not_transfer {table : LabelTable} {instr : Instruction}
    (h : ∀ transfer ∈ Instruction.transfers, ∀ jump, instr ≠ transfer jump) :
    table.aim instr = instr := by
  cases hjump : instr.jump? with
  | none => rw [aim, hjump]
  | some jump =>
    obtain ⟨transfer, htransfer, rfl⟩ := Instruction.jump?_eq_some_iff.mp hjump
    exact absurd rfl (h transfer htransfer jump)

/-- An aimed control transfer is the same transfer, to the place of its label. -/
theorem aim_transfer (table : LabelTable) {transfer : Jump → Instruction}
    (h : transfer ∈ Instruction.transfers) (jump : Jump) :
    table.aim (transfer jump) = transfer ⟨jump.label, table[jump.label]?⟩ := by
  simp only [Instruction.transfers, List.mem_cons, List.not_mem_nil, or_false] at h
  obtain rfl | rfl | rfl := h <;> rfl

/-- Aiming twice is aiming once. -/
theorem aim_aim (table : LabelTable) (instr : Instruction) :
    table.aim (table.aim instr) = table.aim instr := by
  cases instr <;> rfl

/-- Aiming keeps the name of a `LABEL`. -/
theorem labelName?_aim (table : LabelTable) (instr : Instruction) :
    (table.aim instr).labelName? = instr.labelName? := by
  cases instr <;> rfl

/-- Aiming keeps the name of a `FUNCTION` marker. -/
theorem functionName?_aim (table : LabelTable) (instr : Instruction) :
    (table.aim instr).functionName? = instr.functionName? := by
  cases instr <;> rfl

/-! ## Faults -/

/-- The addresses of an instruction sequence ascend. -/
theorem pairwise_zipIdx (code : List Instruction) :
    code.zipIdx.Pairwise fun entry entry' => entry.2 < entry'.2 := by
  have h : (List.range' 0 code.length 1).Pairwise (· < ·) := List.pairwise_lt_range'
  rwa [← List.zipIdx_map_snd, List.pairwise_map] at h

/-- Faults found at each instruction by itself are listed in order of address, if each is reported
at the address of its instruction. -/
theorem pairwise_filterMap_zipIdx {fault? : Instruction × Nat → Option ResolveError}
    (h : ∀ entry e, fault? entry = some e → e.address = entry.2) (code : List Instruction) :
    (code.zipIdx.filterMap fault?).Pairwise fun e e' => e.address < e'.address := by
  refine (pairwise_zipIdx code).filterMap fault? ?_
  intro entry entry' hlt e he e' he'
  rw [h entry e he, h entry' e' he']
  exact hlt

/-- The first `LABEL` of a name is not behind any other. -/
theorem firstLabel?_le {code : List Instruction} {address : Nat} {name : String}
    (h : code[address]? = some (.label name)) :
    ∃ first, firstLabel? code name = some first ∧ first ≤ address := by
  cases hfirst : firstLabel? code name with
  | none =>
    have hno := List.findIdx?_eq_none_iff.mp hfirst _ (List.mem_of_getElem? h)
    simp [Instruction.labelName?] at hno
  | some first =>
    refine ⟨first, rfl, Nat.not_lt.mp fun hlt => ?_⟩
    -- Otherwise the label at `address` would stand before the first one.
    obtain ⟨_, _, hbefore⟩ := List.findIdx?_eq_some_iff_getElem.mp hfirst
    obtain ⟨_, hget⟩ := List.getElem?_eq_some_iff.mp h
    apply hbefore address hlt
    rw [hget]
    simp [Instruction.labelName?]

/-- A repeated label is found at a `LABEL` whose name the table has at another address. -/
theorem duplicate?_eq_some {labels : LabelTable} {instr : Instruction} {address : Nat}
    {e : ResolveError} :
    labels.duplicate? (instr, address) = some e ↔
      ∃ name first, instr = .label name ∧ labels[name]? = some first ∧ first ≠ address ∧
        e = .duplicateLabel address name first := by
  cases instr with
  | label name =>
    cases hfirst : labels[name]? with
    | none => simp [duplicate?, hfirst]
    | some first =>
      by_cases heq : first = address
      · simp [duplicate?, hfirst, heq]
      · simp [duplicate?, hfirst, heq, eq_comm (a := e)]
  | _ => simp [duplicate?]

/-- An undefined label is found at a jump to a name that the table does not have. -/
theorem undefined?_eq_some {table : LabelTable} {instr : Instruction} {address : Nat}
    {e : ResolveError} :
    table.undefined? (instr, address) = some e ↔
      ∃ jump, instr.jump? = some jump ∧ jump.label ∉ table ∧
        e = .undefinedLabel address jump.label := by
  cases hjump : instr.jump? with
  | none => simp [undefined?, hjump]
  | some jump =>
    by_cases hmem : jump.label ∈ table
    · simp [undefined?, hjump, hmem]
    · simp [undefined?, hjump, hmem, eq_comm (a := e)]

/-- The faults of repeated labels are listed in order. -/
theorem listsInOrder_duplicate (code : List Instruction) :
    Program.ListsInOrder (code.zipIdx.filterMap (ofLabels code).duplicate?)
      (Program.IsDuplicate code) where
  ascending := by
    apply pairwise_filterMap_zipIdx
    rintro ⟨instr, address⟩ e he
    obtain ⟨name, first, -, -, -, rfl⟩ := duplicate?_eq_some.mp he
    rfl
  mem_iff := by
    intro e
    rw [List.mem_filterMap]
    constructor
    · rintro ⟨⟨instr, address⟩, hmem, he⟩
      obtain ⟨name, first, rfl, hlabel, hne, rfl⟩ := duplicate?_eq_some.mp he
      rw [List.mk_mem_zipIdx_iff_getElem?] at hmem
      rw [getElem?_ofLabels] at hlabel
      -- The table gives the first label of the name, which is not behind this one.
      obtain ⟨first', hfirst, hle⟩ := firstLabel?_le hmem
      rw [hlabel, Option.some.injEq] at hfirst
      exact ⟨hmem, hlabel, by omega⟩
    · intro h
      cases e with
      | undefinedLabel address label => cases h
      | duplicateLabel address label first =>
        obtain ⟨hget, hfirst, hlt⟩ := h
        refine ⟨(.label label, address), List.mk_mem_zipIdx_iff_getElem?.mpr hget, ?_⟩
        rw [← getElem?_ofLabels] at hfirst
        exact duplicate?_eq_some.mpr ⟨label, first, rfl, hfirst, by omega, rfl⟩

/-- A name is in the table exactly when it has a place. -/
theorem not_mem_ofCode {code : List Instruction} {name : String} :
    name ∉ ofCode code ↔ place? code name = none := by
  rw [Std.ExtTreeMap.mem_iff_isSome_getElem?, getElem?_ofCode, Bool.not_eq_true,
    Option.isSome_eq_false_iff, Option.isNone_iff_eq_none]

/-- The faults of jumps without a target are listed in order. -/
theorem listsInOrder_undefined (code : List Instruction) :
    Program.ListsInOrder (code.zipIdx.filterMap (ofCode code).undefined?)
      (Program.IsUndefined code) where
  ascending := by
    apply pairwise_filterMap_zipIdx
    rintro ⟨instr, address⟩ e he
    obtain ⟨jump, -, -, rfl⟩ := undefined?_eq_some.mp he
    rfl
  mem_iff := by
    intro e
    rw [List.mem_filterMap]
    constructor
    · rintro ⟨⟨instr, address⟩, hmem, he⟩
      obtain ⟨jump, hjump, hnot, rfl⟩ := undefined?_eq_some.mp he
      obtain ⟨transfer, htransfer, rfl⟩ := Instruction.jump?_eq_some_iff.mp hjump
      exact ⟨not_mem_ofCode.mp hnot, transfer, htransfer, jump.target,
        List.mk_mem_zipIdx_iff_getElem?.mp hmem⟩
    · intro h
      cases e with
      | duplicateLabel address label first => cases h
      | undefinedLabel address label =>
        obtain ⟨hnone, transfer, htransfer, target, hget⟩ := h
        have hjump : (transfer ⟨label, target⟩).jump? = some ⟨label, target⟩ :=
          Instruction.jump?_eq_some_iff.mpr ⟨transfer, htransfer, rfl⟩
        exact ⟨(transfer ⟨label, target⟩, address), List.mk_mem_zipIdx_iff_getElem?.mpr hget,
          undefined?_eq_some.mpr ⟨_, hjump, not_mem_ofCode.mpr hnone, rfl⟩⟩

/-! ## Resolving twice -/

/-- Aimed code has the same labels. -/
theorem ofLabels_map_aim (table : LabelTable) (code : List Instruction) :
    ofLabels (code.map table.aim) = ofLabels code := by
  apply Std.ExtTreeMap.ext_getElem?
  intro name
  rw [getElem?_ofLabels, getElem?_ofLabels, firstLabel?, firstLabel?, List.findIdx?_map]
  simp only [Function.comp_def, labelName?_aim]

/-- Aimed code has the same names. -/
theorem ofCode_map_aim (table : LabelTable) (code : List Instruction) :
    ofCode (code.map table.aim) = ofCode code := by
  apply Std.ExtTreeMap.ext_getElem?
  intro name
  rw [getElem?_ofCode, getElem?_ofCode, place?, place?, firstLabel?, firstFunction?, firstLabel?,
    firstFunction?, List.findIdx?_map, List.findIdx?_map]
  simp only [Function.comp_def, labelName?_aim, functionName?_aim]

/-- An aimed instruction repeats a label exactly when the instruction does. -/
theorem duplicate?_aim (labels table : LabelTable) (instr : Instruction) (address : Nat) :
    labels.duplicate? (table.aim instr, address) = labels.duplicate? (instr, address) := by
  cases instr <;> rfl

/-- An aimed jump leads to an undefined label exactly when the jump does. -/
theorem undefined?_aim (table table' : LabelTable) (instr : Instruction) (address : Nat) :
    table.undefined? (table'.aim instr, address) = table.undefined? (instr, address) := by
  cases instr <;> rfl

end LabelTable

namespace Program

open LabelTable

/-- Aimed code has the same faults. -/
theorem resolveErrors_map_aim (table : LabelTable) (code : List Instruction) :
    resolveErrors (code.map table.aim) = resolveErrors code := by
  rw [resolveErrors, resolveErrors, ofLabels_map_aim, ofCode_map_aim, List.zipIdx_map,
    List.filterMap_map, List.filterMap_map]
  congr 2
  · funext ⟨instr, address⟩
    exact duplicate?_aim _ _ _ _
  · funext ⟨instr, address⟩
    exact undefined?_aim _ _ _ _

/-- Resolving aimed code is resolving the code. -/
theorem resolve_map_aim (code : List Instruction) :
    resolve (code.map (ofCode code).aim) = resolve code := by
  rw [resolve, resolve, ofCode_map_aim, List.map_map]
  have hcomp : (ofCode code).aim ∘ (ofCode code).aim = (ofCode code).aim :=
    funext (aim_aim (ofCode code))
  rw [hcomp]

/-- Address resolution is exact. The program has as many instructions as the code. An instruction
that is no control transfer is kept. A `CALL`, a `FALSEBRANCH` or a `GOTO` stays what it is and
keeps its label, and its target, whatever it was, becomes the place of the label: its first `LABEL`,
or else its first `FUNCTION` marker, or else nothing. Names are looked up by the same rule. The
faults are the repeated labels and then the control transfers without a target, each kind in order
of address, and strict resolution succeeds exactly when there are none. Resolving the resolved
instructions gives the same program and the same faults. -/
theorem resolve_exact (code : List Instruction) :
    (resolve code).size = code.length ∧
      (∀ (address : Nat) (instr : Instruction), code[address]? = some instr →
        (∀ transfer ∈ Instruction.transfers, ∀ jump, instr ≠ transfer jump) →
          (resolve code).get? address = some instr) ∧
      (∀ transfer ∈ Instruction.transfers, ∀ (address : Nat) (jump : Jump),
        code[address]? = some (transfer jump) →
          (resolve code).get? address = some (transfer ⟨jump.label, place? code jump.label⟩)) ∧
      (∀ name, (resolve code).addressOf? name = place? code name) ∧
      (∃ duplicates undefineds, resolveErrors code = duplicates ++ undefineds ∧
        ListsInOrder duplicates (IsDuplicate code) ∧ ListsInOrder undefineds (IsUndefined code)) ∧
      (∀ q, resolve? code = .ok q ↔ resolveErrors code = [] ∧ q = resolve code) ∧
      resolve (resolve code).instructions.toList = resolve code ∧
      resolveErrors (resolve code).instructions.toList = resolveErrors code := by
  -- The instruction at an address of the program is that of the code, aimed.
  have hget : ∀ address, (resolve code).get? address =
      code[address]?.map (ofCode code).aim := by
    intro address
    simp [resolve, get?]
  refine ⟨by simp [resolve, size], ?_, ?_, ?_, ?_, ?_, ?_, ?_⟩
  · intro address instr hinstr hother
    rw [hget, hinstr, Option.map_some, aim_of_not_transfer hother]
  · intro transfer htransfer address jump hinstr
    rw [hget, hinstr, Option.map_some, aim_transfer _ htransfer, getElem?_ofCode]
  · exact getElem?_ofCode code
  · exact ⟨_, _, rfl, listsInOrder_duplicate code, listsInOrder_undefined code⟩
  · intro q
    rw [resolve?]
    cases resolveErrors code with
    | nil => simp [eq_comm]
    | cons e errors => simp
  · exact resolve_map_aim code
  · exact resolveErrors_map_aim _ code

end Program

end XBytecode
