import XBytecode.Program.Basic

/-!
# Address resolution

A name stands for the first `LABEL` that defines it, or else for the first `FUNCTION` marker of
that name. The whole instruction sequence is known before a jump is looked up, so a jump may lead
forward. A second `LABEL` of a name and a jump to a name without a place are faults; resolution
lists them and gives a program all the same.
-/

namespace XBytecode

/-- What is wrong with the names of a program. -/
inductive ResolveError where
  /-- The jump at `address` leads to a name that nothing defines. -/
  | undefinedLabel (address : Nat) (label : String)
  /-- The `LABEL` at `address` repeats the one at `first`. -/
  | duplicateLabel (address : Nat) (label : String) (first : Nat)
  deriving DecidableEq, Repr

/-- The text of a resolution fault. -/
def ResolveError.message : ResolveError → String
  | undefinedLabel address label =>
    "undefined label '" ++ label ++ "' referenced at instruction " ++ toString address
  | duplicateLabel address label first =>
    "duplicate label '" ++ label ++ "' at instruction " ++ toString address ++
      " (first defined at " ++ toString first ++ ")"

namespace LabelTable

/-- Enters the name of a `LABEL`, unless the name has a place already. -/
def addLabel (table : LabelTable) : Instruction × Nat → LabelTable
  | (.label name, address) => table.insertIfNew name address
  | _ => table

/-- Enters the name of a `FUNCTION` marker, unless the name has a place already. -/
def addFunction (table : LabelTable) : Instruction × Nat → LabelTable
  | (.function name _ _, address) => table.insertIfNew name address
  | _ => table

/-- The table of the labels of an instruction sequence. -/
def ofLabels (code : List Instruction) : LabelTable :=
  code.zipIdx.foldl addLabel ∅

/-- The table of all names of an instruction sequence: labels first, then functions. -/
def ofCode (code : List Instruction) : LabelTable :=
  code.zipIdx.foldl addFunction (ofLabels code)

/-- The fault of a `LABEL` that is not the first of its name. -/
def duplicate? (labels : LabelTable) : Instruction × Nat → Option ResolveError
  | (.label name, address) =>
    match labels[name]? with
    | some first => if first = address then none else some (.duplicateLabel address name first)
    | none => none
  | _ => none

/-- The fault of a jump to a name that is not in the table. -/
def undefined? (table : LabelTable) : Instruction × Nat → Option ResolveError
  | (instr, address) =>
    match instr.jump? with
    | some jump => if jump.label ∈ table then none else some (.undefinedLabel address jump.label)
    | none => none

/-- The instruction with its jump, if it has one, aimed at the address of its label. -/
def aim (table : LabelTable) (instr : Instruction) : Instruction :=
  match instr.jump? with
  | some jump => instr.retarget table[jump.label]?
  | none => instr

end LabelTable

namespace Program

/-- The faults of an instruction sequence: repeated labels, then jumps to undefined names, each
kind in order of address. -/
def resolveErrors (code : List Instruction) : List ResolveError :=
  code.zipIdx.filterMap (LabelTable.ofLabels code).duplicate? ++
    code.zipIdx.filterMap (LabelTable.ofCode code).undefined?

/-- The program of an instruction sequence. Targets that the jumps carry are replaced, and a jump
to an undefined name is left without one. -/
def resolve (code : List Instruction) : Program :=
  let table := LabelTable.ofCode code
  { instructions := (code.map table.aim).toArray, labels := table }

/-- The program of an instruction sequence without faults. -/
def resolve? (code : List Instruction) : Except (List ResolveError) Program :=
  match resolveErrors code with
  | [] => .ok (resolve code)
  | errors => .error errors

end Program

end XBytecode
