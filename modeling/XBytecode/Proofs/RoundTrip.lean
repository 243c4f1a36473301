import Mathlib.Control.Monad.Basic
import XBytecode.Program.Load
import XBytecode.Proofs.Resolution
import XBytecode.Proofs.Words

/-!
# Printing and loading are inverse

`Program.codeText` prints a code, one instruction a line. The operands of an instruction that a line
spells are words, and its counts are below the limit that counts are read up to
(`Instruction.Writable`). Of such an instruction the text is read word by word and each operand is
read back, so that decoding the text gives the instruction, the target of its jump apart
(`decode_text`). Resolution replaces the targets, so nothing is lost in a program: loading the text
of a code is resolving the code, and loading the text of a loaded program gives the program.
-/

namespace XBytecode

/-! ## Operands -/

/-- A sequence of two readings gives a value when both do. -/
theorem exists_of_bind_eq_ok {ε α β : Type} {x : Except ε α} {f : α → Except ε β} {b : β}
    (h : x >>= f = .ok b) : ∃ a, x = .ok a ∧ f a = .ok b := by
  cases x with
  | error e => cases h
  | ok a => exact ⟨a, rfl, h⟩

/-- A reading that gives a value is followed by what is made of the value. -/
theorem bind_of_eq_ok {ε α β : Type} {x : Except ε α} {f : α → Except ε β} {a : α}
    (h : x = .ok a) : x >>= f = f a := by
  rw [h]
  rfl

namespace Operands

variable {op : Opcode} {tokens : List String} {i : Nat}

/-- An operand that is there is read as written. -/
theorem name_of_getElem? {token : String} (h : tokens[i]? = some token) :
    name op tokens i = .ok token := by
  rw [name, h]

/-- An operand that has a value is read as the value. -/
theorem value_of_getElem? {α : Type} {read? : String → Option α} {bad : String → DecodeError}
    {token : String} {a : α} (h : tokens[i]? = some token) (hread : read? token = some a) :
    value read? bad op tokens i = .ok a := by
  simp only [value, name_of_getElem? h, bind, Except.bind, hread]

/-- A count that is written is read back. -/
theorem count_of_getElem? {n : Nat} (h : tokens[i]? = some (toString n))
    (hn : n < Numeral.countLimit) : count op tokens i = .ok n :=
  value_of_getElem? h (Numeral.count?_toString hn)

/-- A machine word that is written is read back. -/
theorem word_of_getElem? {v : Int32} (h : tokens[i]? = some (Numeral.ofWord v)) :
    word op tokens i = .ok v :=
  value_of_getElem? h (Numeral.word?_ofWord v)

/-- An operand as written is one of the tokens. -/
theorem name_eq_ok {token : String} (h : name op tokens i = .ok token) : token ∈ tokens := by
  unfold name at h
  split at h
  · next hget =>
    cases h
    exact List.mem_of_getElem? hget
  · cases h

/-- An operand with a value is a token that has it. -/
theorem value_eq_ok {α : Type} {read? : String → Option α} {bad : String → DecodeError} {a : α}
    (h : value read? bad op tokens i = .ok a) : ∃ token ∈ tokens, read? token = some a := by
  obtain ⟨token, hname, h⟩ := exists_of_bind_eq_ok h
  split at h
  · next hread =>
    cases h
    exact ⟨token, name_eq_ok hname, hread⟩
  · cases h

/-- A count is below the limit. -/
theorem count_lt {n : Nat} (h : count op tokens i = .ok n) : n < Numeral.countLimit := by
  obtain ⟨token, -, hread⟩ := value_eq_ok h
  unfold Numeral.count? at hread
  split at hread
  · split at hread
    · next hrange =>
      cases hread
      exact hrange.2
    · cases hread
  · cases hread

end Operands

namespace Instruction

open Text (IsWord words)

/-- The counts and offsets among the operands. -/
def counts : Instruction → List Nat
  | args count | pop count => [count]
  | load offset _ | store offset _ | formal _ offset => [offset]
  | _ => []

/-- The instruction can be written so that it is read back. -/
structure Writable (instr : Instruction) : Prop where
  /-- Every operand is written as a word. -/
  words : ∀ word ∈ instr.operands, IsWord word
  /-- Counts are among those that are read. -/
  counts : ∀ n ∈ instr.counts, n < Numeral.countLimit

/-- A line spells the instruction, the target of its jump apart. -/
def IsSpelled (instr : Instruction) : Prop :=
  ∃ line spelled target, decode (words line) = .ok (some spelled) ∧ instr = spelled.retarget target

/-! ## What a line spells can be written -/

/-- The target of a jump is not written. -/
theorem writable_retarget {instr : Instruction} (target : Option Nat) (h : instr.Writable) :
    (instr.retarget target).Writable := by
  cases instr <;> exact ⟨h.words, h.counts⟩

/-- The symbol of an operator is a word. -/
theorem isWord_symbol (op : Operator) : IsWord op.symbol := by
  cases op <;> exact Text.isWord_of_all (by decide) (by decide)

/-- The keyword of an operation is a word. -/
theorem isWord_keyword (op : Opcode) : IsWord op.keyword := by
  cases op <;> exact Text.isWord_of_all (by decide) (by decide)

/-- The operand of a `DUMP` is a word. -/
theorem isWord_dumpMode (on : Bool) : IsWord (if on then "ON" else "OFF") := by
  cases on <;> exact Text.isWord_of_all (by decide) (by decide)

/-- An instruction with words as its operands can be written. -/
theorem writable_of_ofOperands {op : Opcode} {tokens : List String} {instr : Instruction}
    (htokens : ∀ token ∈ tokens, IsWord token) (h : ofOperands op tokens = .ok instr) :
    instr.Writable := by
  have hname : ∀ {i token}, Operands.name op tokens i = .ok token → IsWord token :=
    fun h => htokens _ (Operands.name_eq_ok h)
  have hoptional : ∀ i : Nat, ∀ token ∈ tokens[i]?.toList, IsWord token := by
    intro i token hmem
    rw [Option.mem_toList] at hmem
    exact htokens token (List.mem_of_getElem? hmem)
  cases op with
  | halt | read | write =>
    cases h
    exact ⟨List.forall_mem_nil _, List.forall_mem_nil _⟩
  | ret =>
    cases h
    exact ⟨hoptional 0, List.forall_mem_nil _⟩
  | args | pop =>
    obtain ⟨n, hn, h⟩ := exists_of_bind_eq_ok h
    cases h
    exact ⟨List.forall_mem_singleton.mpr (Numeral.isWord_toString n),
      List.forall_mem_singleton.mpr (Operands.count_lt hn)⟩
  | call | falseBranch | goto | label =>
    obtain ⟨label, hlabel, h⟩ := exists_of_bind_eq_ok h
    cases h
    exact ⟨List.forall_mem_singleton.mpr (hname hlabel), List.forall_mem_nil _⟩
  | lit =>
    obtain ⟨v, -, h⟩ := exists_of_bind_eq_ok h
    cases h
    exact ⟨List.forall_mem_cons.mpr ⟨Numeral.isWord_ofWord v, hoptional 1⟩, List.forall_mem_nil _⟩
  | load | store =>
    obtain ⟨n, hn, h⟩ := exists_of_bind_eq_ok h
    obtain ⟨name, hvariable, h⟩ := exists_of_bind_eq_ok h
    cases h
    exact ⟨List.forall_mem_cons.mpr ⟨Numeral.isWord_toString n,
      List.forall_mem_singleton.mpr (hname hvariable)⟩,
      List.forall_mem_singleton.mpr (Operands.count_lt hn)⟩
  | bop =>
    obtain ⟨operator, -, h⟩ := exists_of_bind_eq_ok h
    cases h
    exact ⟨List.forall_mem_singleton.mpr (isWord_symbol operator), List.forall_mem_nil _⟩
  | dump =>
    obtain ⟨on, -, h⟩ := exists_of_bind_eq_ok h
    cases h
    exact ⟨List.forall_mem_singleton.mpr (isWord_dumpMode on), List.forall_mem_nil _⟩
  | formal =>
    obtain ⟨name, hformal, h⟩ := exists_of_bind_eq_ok h
    obtain ⟨n, hn, h⟩ := exists_of_bind_eq_ok h
    cases h
    exact ⟨List.forall_mem_cons.mpr ⟨hname hformal,
      List.forall_mem_singleton.mpr (Numeral.isWord_toString n)⟩,
      List.forall_mem_singleton.mpr (Operands.count_lt hn)⟩
  | function =>
    obtain ⟨name, hfunction, h⟩ := exists_of_bind_eq_ok h
    obtain ⟨first, -, h⟩ := exists_of_bind_eq_ok h
    obtain ⟨last, -, h⟩ := exists_of_bind_eq_ok h
    cases h
    exact ⟨List.forall_mem_cons.mpr ⟨hname hfunction, List.forall_mem_cons.mpr
      ⟨Numeral.isWord_ofWord first, List.forall_mem_singleton.mpr (Numeral.isWord_ofWord last)⟩⟩,
      List.forall_mem_nil _⟩
  | line =>
    obtain ⟨number, -, h⟩ := exists_of_bind_eq_ok h
    cases h
    exact ⟨List.forall_mem_singleton.mpr (Numeral.isWord_ofWord number), List.forall_mem_nil _⟩

/-- What a line decodes to can be written. -/
theorem writable_of_decode {line : String} {instr : Instruction}
    (h : decode (words line) = .ok (some instr)) : instr.Writable := by
  have hwords : ∀ word ∈ words line, IsWord word := Text.isWord_of_mem_words
  cases hline : words line with
  | nil =>
    rw [hline] at h
    cases h
  | cons word tokens =>
    rw [hline] at h hwords
    rw [List.forall_mem_cons] at hwords
    rw [decode] at h
    split at h
    · cases h
    · next op _ =>
      cases hoperands : ofOperands op tokens with
      | error e =>
        rw [hoperands] at h
        cases h
      | ok found =>
        rw [hoperands] at h
        cases h
        exact writable_of_ofOperands hwords.2 hoperands

/-- What a line spells can be written. -/
theorem IsSpelled.writable {instr : Instruction} (h : instr.IsSpelled) : instr.Writable := by
  obtain ⟨line, spelled, target, hdecode, rfl⟩ := h
  exact writable_retarget target (writable_of_decode hdecode)

/-! ## What can be written is read back -/

/-- A dump mode that is written is read back. -/
theorem dumpMode?_operand (on : Bool) : dumpMode? (if on then "ON" else "OFF") = some on := by
  cases on <;> decide +kernel

/-- The operands of an instruction are read back. -/
theorem ofOperands_operands {instr : Instruction} (h : ∀ n ∈ instr.counts, n < Numeral.countLimit) :
    ofOperands instr.opcode instr.operands = .ok (instr.retarget none) := by
  cases instr with
  | args n | pop n | load n _ | store n _ =>
    exact bind_of_eq_ok (Operands.count_of_getElem? rfl (h n List.mem_cons_self))
  | formal name offset =>
    exact bind_of_eq_ok (Operands.count_of_getElem? rfl (h offset List.mem_cons_self))
  | bop op => exact bind_of_eq_ok (Operands.value_of_getElem? rfl (Operator.ofSymbol?_symbol op))
  | lit v name =>
    refine (bind_of_eq_ok (Operands.word_of_getElem? rfl)).trans ?_
    cases name <;> rfl
  | ret name => cases name <;> rfl
  | dump on => exact bind_of_eq_ok (Operands.value_of_getElem? rfl (dumpMode?_operand on))
  | function name first last =>
    refine (bind_of_eq_ok (Operands.word_of_getElem? rfl)).trans ?_
    exact bind_of_eq_ok (Operands.word_of_getElem? rfl)
  | line number => exact bind_of_eq_ok (Operands.word_of_getElem? rfl)
  | _ => rfl

/-- The text is made of words. -/
theorem Writable.isWord {instr : Instruction} (h : instr.Writable) :
    ∀ word ∈ instr.opcode.keyword :: instr.operands, IsWord word :=
  List.forall_mem_cons.mpr ⟨isWord_keyword instr.opcode, h.words⟩

/-- The text of an instruction decodes to the instruction, the target of its jump apart. -/
theorem decode_text {instr : Instruction} (h : instr.Writable) :
    decode (words instr.text) = .ok (some (instr.retarget none)) := by
  have hwords : words instr.text = instr.opcode.keyword :: instr.operands :=
    Text.words_intercalate h.isWord
  rw [hwords, decode, Opcode.ofKeyword?_keyword]
  simp only [ofOperands_operands h.counts]
  rfl

end Instruction

/-! ## Targets are not read -/

/-- Aiming replaces any target. -/
theorem LabelTable.aim_retarget (table : LabelTable) (target : Option Nat) (instr : Instruction) :
    table.aim (instr.retarget target) = table.aim instr := by
  cases instr <;> rfl

/-- The table without names takes every target away. -/
theorem LabelTable.aim_empty : (∅ : LabelTable).aim = Instruction.retarget none := by
  funext instr
  cases instr with
  | call jump | falseBranch jump | goto jump => simp [aim, Instruction.jump?]
  | _ => rfl

/-- An aimed instruction can be written if the instruction can. -/
theorem Instruction.writable_aim {instr : Instruction} (table : LabelTable) (h : instr.Writable) :
    (table.aim instr).Writable := by
  unfold LabelTable.aim
  split
  · exact writable_retarget _ h
  · exact h

namespace Program

open Instruction (Writable IsSpelled)

/-- Resolving code without targets is resolving the code. -/
theorem resolve_map_retarget (code : List Instruction) :
    resolve (code.map (Instruction.retarget none)) = resolve code := by
  have htable : LabelTable.ofCode (code.map (Instruction.retarget none)) =
      LabelTable.ofCode code := by
    rw [← LabelTable.aim_empty, LabelTable.ofCode_map_aim]
  have haim : (LabelTable.ofCode code).aim ∘ Instruction.retarget none =
      (LabelTable.ofCode code).aim :=
    funext (LabelTable.aim_retarget _ none)
  rw [resolve, resolve, htable, List.map_map, haim]

/-- Code without targets has the same faults. -/
theorem resolveErrors_map_retarget (code : List Instruction) :
    resolveErrors (code.map (Instruction.retarget none)) = resolveErrors code := by
  rw [← LabelTable.aim_empty, resolveErrors_map_aim]

/-! ## Loading what is printed -/

/-- The text of a code: each instruction on a line of its own. -/
def codeText (code : List Instruction) : String :=
  Text.unlines (code.map Instruction.text)

/-- Each line of the text of a code decodes to its instruction, the target of a jump apart. -/
theorem decodeLines_codeText {code : List Instruction} (h : ∀ instr ∈ code, instr.Writable) :
    decodeLines (codeText code) =
      (code.map fun instr => .ok (some (instr.retarget none))).zipIdx 1 := by
  have hlines : Text.lines (codeText code) = code.map Instruction.text := by
    apply Text.lines_unlines
    intro line hline c hc
    obtain ⟨instr, hinstr, rfl⟩ := List.mem_map.mp hline
    exact Text.ne_lineEnd_of_mem_intercalate (h instr hinstr).isWord hc
  rw [decodeLines, hlines, List.map_map]
  congr 1
  apply List.map_congr_left
  intro instr hinstr
  exact Instruction.decode_text (h instr hinstr)

/-- Loading the text of a code is resolving the code. -/
theorem load_codeText {code : List Instruction} (h : ∀ instr ∈ code, instr.Writable) :
    load (codeText code) = ⟨resolve code, [], resolveErrors code⟩ := by
  have hcode : (decodeLines (codeText code)).filterMap lineInstruction? =
      code.map (Instruction.retarget none) := by
    simp only [decodeLines_codeText h, List.zipIdx_map, List.filterMap_map, Function.comp_def,
      lineInstruction?, Prod.map]
    calc
      (code.zipIdx 1).filterMap (fun entry => some (entry.1.retarget none))
        = (code.zipIdx 1).map (Instruction.retarget none ∘ Prod.fst) :=
          congrFun List.filterMap_eq_map _
      _ = ((code.zipIdx 1).map Prod.fst).map (Instruction.retarget none) := List.map_map.symm
      _ = code.map (Instruction.retarget none) := by rw [List.zipIdx_map_fst]
  have herrors : (decodeLines (codeText code)).filterMap lineError? = [] := by
    simp only [decodeLines_codeText h, List.zipIdx_map, List.filterMap_map, Function.comp_def,
      lineError?, Prod.map]
    exact List.filterMap_eq_nil_iff.mpr fun _ _ => rfl
  simp only [load, hcode, herrors, resolve_map_retarget, resolveErrors_map_retarget]

/-- The instructions of a loaded program can be written. -/
theorem writable_of_mem_load {text : String} :
    ∀ instr ∈ (load text).program.instructions.toList, instr.Writable := by
  intro instr hinstr
  -- The instruction is the aimed one of a line that decodes.
  simp only [load, resolve, List.mem_map] at hinstr
  obtain ⟨spelled, hspelled, rfl⟩ := hinstr
  obtain ⟨⟨decoded, number⟩, hline, hspelled⟩ := List.mem_filterMap.mp hspelled
  have hdecoded : decoded = .ok (some spelled) := by
    cases decoded with
    | error cause => cases hspelled
    | ok found => exact congrArg Except.ok hspelled
  obtain ⟨line, -, hline⟩ := List.mem_map.mp (List.fst_mem_of_mem_zipIdx hline)
  exact Instruction.writable_aim _ (Instruction.writable_of_decode (hline.trans hdecoded))

/-- Printing and loading are inverse. The text of instructions that lines spell, whatever the
targets of their jumps, loads without a faulty line, and gives the program and the faults that
resolving the instructions gives. So the text of a loaded program loads to the same program with the
same faults. -/
theorem load_inverse_codeText :
    (∀ code : List Instruction, (∀ instr ∈ code, instr.IsSpelled) →
      load (codeText code) = ⟨resolve code, [], resolveErrors code⟩) ∧
    ∀ text, (load (codeText (load text).program.instructions.toList)).program =
        (load text).program ∧
      (load (codeText (load text).program.instructions.toList)).resolveErrors =
        (load text).resolveErrors := by
  refine ⟨fun code h => load_codeText fun instr hinstr => (h instr hinstr).writable, ?_⟩
  intro text
  rw [load_codeText writable_of_mem_load]
  exact ⟨resolve_map_aim _, resolveErrors_map_aim _ _⟩

/-- A signed value and names that look like numbers survive the way through the text, and the wrong
target of the jump is not missed. -/
theorem load_inverse_codeText_sample :
    codeText [.lit (-3) (some "007"), .goto ⟨"+5", some 9⟩, .label "+5"] =
      "LIT -3 007\nGOTO +5\nLABEL +5\n" ∧
    load (codeText [.lit (-3) (some "007"), .goto ⟨"+5", some 9⟩, .label "+5"]) =
      ⟨resolve [.lit (-3) (some "007"), .goto ⟨"+5", some 9⟩, .label "+5"], [], []⟩ := by
  have hlit : (Instruction.lit (-3) (some "007")).IsSpelled :=
    ⟨" lit -003 007 ignored", .lit (-3) (some "007"), none, by decide +kernel, rfl⟩
  have hgoto : (Instruction.goto ⟨"+5", some 9⟩).IsSpelled :=
    ⟨"Goto +5", .goto ⟨"+5", none⟩, some 9, by decide +kernel, rfl⟩
  have hlabel : (Instruction.label "+5").IsSpelled :=
    ⟨"LABEL +5", .label "+5", none, by decide +kernel, rfl⟩
  have hspelled : ∀ instr ∈ [.lit (-3) (some "007"), .goto ⟨"+5", some 9⟩, .label "+5"],
      Instruction.IsSpelled instr := by
    simp only [List.forall_mem_cons]
    exact ⟨hlit, hgoto, hlabel, List.forall_mem_nil _⟩
  have herrors :
      resolveErrors [.lit (-3) (some "007"), .goto ⟨"+5", some 9⟩, .label "+5"] = [] := by
    rfl
  refine ⟨rfl, ?_⟩
  rw [load_inverse_codeText.1 _ hspelled, herrors]

end Program

end XBytecode
