import XBytecode.Program.Listing
import XBytecode.Proofs.RoundTrip

/-!
# The listing reads back

A listing is made for people, but nothing in it is ambiguous. Every instruction has one line, since
neither an address nor the text of an instruction has a line end in it (`lines_listing`). The line
starts with the address, in a column that is as wide as the last address, so that padding fills the
column and nothing sticks out (`length_toString_le`). What stands behind the colon is the canonical
text of an instruction: of the one listed, or, for a jump, of the jump to the place by which the
listing describes it (`Instruction.described`). Such a description is a word again
(`Jump.isWord_describe`), and so the text decodes to that instruction (`decode_resolvedText`).
-/

namespace XBytecode

open Text (IsWord)

/-! ## Descriptions of jumps -/

/-- The characters `head` are those of a name before its suffix: the suffix starts at the first `<<`
of the name, and a name without one is all head. -/
structure IsHead (name head : List Char) : Prop where
  /-- The name starts with them. -/
  starts : head <+: name
  /-- The suffix follows, or nothing does. -/
  ends : head = name ∨ ['<', '<'] <+: name.drop head.length
  /-- No earlier place starts a suffix. -/
  first : ∀ i < head.length, ¬ ['<', '<'] <+: name.drop i

/-- What is shown of a name is what stands before its suffix. -/
theorem isHead_beforeSuffix (name : List Char) : IsHead name (beforeSuffix name) := by
  induction name with
  | nil =>
    refine ⟨List.nil_prefix, .inl rfl, ?_⟩
    intro i hi
    simp [beforeSuffix] at hi
  | cons c cs ih =>
    rw [beforeSuffix]
    split
    · next hsuffix =>
      rw [List.isPrefixOf_iff_prefix] at hsuffix
      refine ⟨List.nil_prefix, .inr hsuffix, ?_⟩
      intro i hi
      simp at hi
    · next hsuffix =>
      rw [List.isPrefixOf_iff_prefix] at hsuffix
      obtain ⟨hstarts, hends, hfirst⟩ := ih
      refine ⟨(List.prefix_cons_inj c).mpr hstarts, ?_, ?_⟩
      · rcases hends with hall | hnext
        · exact .inl (congrArg (c :: ·) hall)
        · exact .inr hnext
      · intro i hi
        rcases i with _ | i
        · exact hsuffix
        · have hi' : i < (beforeSuffix cs).length := by
            rw [List.length_cons] at hi
            omega
          exact hfirst i hi'

namespace Jump

/-- A jump is described by its label, or by the head of its label with the address behind it. -/
theorem describe_eq (jump : Jump) :
    (jump.target = none → jump.describe = jump.label) ∧
      ∀ target, jump.target = some target → ∃ head : String,
        IsHead jump.label.toList head.toList ∧
          jump.describe = head ++ "<<" ++ toString target ++ ">>" := by
  obtain ⟨label, target⟩ := jump
  constructor
  · rintro ⟨⟩
    rfl
  · rintro _ ⟨⟩
    refine ⟨displayName label, ?_, rfl⟩
    rw [displayName, String.toList_ofList]
    exact isHead_beforeSuffix label.toList

/-- A jump whose label is a word is described by a word, even if its label is nothing but a
suffix. -/
theorem isWord_describe {jump : Jump} (h : IsWord jump.label) : IsWord jump.describe := by
  obtain ⟨hnone, hsome⟩ := jump.describe_eq
  cases htarget : jump.target with
  | none =>
    rw [hnone htarget]
    exact h
  | some target =>
    obtain ⟨head, hhead, hdescribe⟩ := hsome target htarget
    rw [hdescribe]
    constructor
    · intro hempty
      have hletters := congrArg String.toList hempty
      simp at hletters
    · intro c hc
      simp only [String.toList_append, List.mem_append] at hc
      rcases hc with ((hc | hc) | hc) | hc
      · exact h.unblank c (hhead.starts.subset hc)
      · have hopen : IsWord "<<" := Text.isWord_of_all (by decide) (by decide)
        exact hopen.unblank c hc
      · exact (Numeral.isWord_toString target).unblank c hc
      · have hclose : IsWord ">>" := Text.isWord_of_all (by decide) (by decide)
        exact hclose.unblank c hc

end Jump

namespace Instruction

/-- The instruction that a listing shows for an instruction: a jump to an unresolved place that has
the description of the jump as its name, and every other instruction as it is. -/
def described : Instruction → Instruction
  | call jump => call ⟨jump.describe, none⟩
  | falseBranch jump => falseBranch ⟨jump.describe, none⟩
  | goto jump => goto ⟨jump.describe, none⟩
  | other => other

/-- The listing shows the canonical text of the instruction that it describes. -/
theorem resolvedText_eq (instr : Instruction) : instr.resolvedText = instr.described.text := by
  cases instr <;> rfl

/-- A described instruction has no target to be taken away. -/
theorem retarget_described (instr : Instruction) :
    instr.described.retarget none = instr.described := by
  cases instr <;> rfl

/-- What is described can be written if the instruction can. -/
theorem Writable.described {instr : Instruction} (h : instr.Writable) :
    instr.described.Writable := by
  cases instr with
  | call jump | falseBranch jump | goto jump =>
    have hlabel : IsWord jump.label := h.words _ List.mem_cons_self
    exact ⟨List.forall_mem_singleton.mpr (Jump.isWord_describe hlabel), h.counts⟩
  | _ => exact h

/-- The text in a listing decodes to the instruction described. -/
theorem decode_resolvedText {instr : Instruction} (h : instr.Writable) :
    decode (Text.words instr.resolvedText) = .ok (some instr.described) := by
  rw [resolvedText_eq, decode_text h.described, retarget_described]

end Instruction

/-! ## Columns of numbers -/

namespace Text

/-- A word is all that is left of a column without the blanks at its ends. -/
theorem trim_alignRight (width : Nat) {word : String} (h : IsWord word) :
    trim (alignRight width word) = word := by
  have hblank : ∀ c ∈ List.replicate (width - word.length) ' ', isBlank c = true := by
    intro c hc
    rw [List.eq_of_mem_replicate hc]
    decide
  have hword : ∀ {cs : List Char}, (∀ c ∈ cs, isBlank c = false) → cs.dropWhile isBlank = cs := by
    intro cs hcs
    cases cs with
    | nil => rfl
    | cons c cs =>
      have hc : isBlank c = false := hcs c List.mem_cons_self
      rw [List.dropWhile_cons_of_neg (by simp [hc])]
  have hleft : (alignRight width word).toList.dropWhile isBlank = word.toList := by
    rw [alignRight_eq, String.toList_append, String.toList_ofList,
      List.dropWhile_append_of_pos hblank]
    exact hword h.unblank
  have hright : word.toList.reverse.dropWhile isBlank = word.toList.reverse := by
    apply hword
    intro c hc
    exact h.unblank c (List.mem_reverse.mp hc)
  rw [trim, hleft, hright, List.reverse_reverse, String.ofList_toList]

end Text

namespace Numeral

/-- A number has no more digits than a larger one. -/
theorem length_toString_le {m n : Nat} (h : m ≤ n) : (toString m).length ≤ (toString n).length := by
  have hlength : ∀ k : Nat, (toString k).length = (Nat.toDigits 10 k).length := by
    intro k
    rw [← String.length_toList, toList_toString]
  have hpos : 0 < (Nat.toDigits 10 n).length := Nat.length_toDigits_pos
  have hbound : n < 10 ^ (Nat.toDigits 10 n).length :=
    (Nat.length_toDigits_le_iff (by decide) hpos).mp (Nat.le_refl _)
  rw [hlength, hlength, Nat.length_toDigits_le_iff (by decide) hpos]
  omega

end Numeral

/-! ## Lines of the listing -/

namespace Program

open Instruction (Writable decode)

/-- The lines of a listing, from the first address on. -/
def listingLines (p : Program) : List String :=
  p.instructions.toList.zipIdx.map fun (instr, address) =>
    listingLine p.addressWidth instr address

/-- A line of a listing has no line end in it. -/
theorem ne_lineEnd_of_mem_listingLine {instr : Instruction} (h : instr.Writable)
    {width address : Nat} {c : Char} (hc : c ∈ (listingLine width instr address).toList) :
    c ≠ '\n' ∧ c ≠ '\r' := by
  rw [listingLine, Text.alignRight_eq] at hc
  simp only [String.toList_append, String.toList_ofList, List.mem_append] at hc
  rcases hc with ((hpad | haddress) | hcolon) | hinstr
  · rw [List.eq_of_mem_replicate hpad]
    decide
  · -- The digits of the address are no blanks, which the line ends are.
    have hdigit := (Numeral.isWord_toString address).unblank c haddress
    constructor
    · rintro rfl
      exact absurd hdigit (by decide)
    · rintro rfl
      exact absurd hdigit (by decide)
  · have hbetween : c = ':' ∨ c = ' ' := by simpa using hcolon
    rcases hbetween with rfl | rfl
    · decide
    · decide
  · rw [Instruction.resolvedText_eq] at hinstr
    exact Text.ne_lineEnd_of_mem_intercalate h.described.isWord hinstr

/-- A listing has one line for each instruction. -/
theorem lines_listing {p : Program} (h : ∀ instr ∈ p.instructions.toList, instr.Writable) :
    Text.lines p.listing = p.listingLines := by
  have htext : p.listing = Text.unlines p.listingLines := by
    rw [listing, Text.unlines, listingLines, List.map_map]
    rfl
  rw [htext]
  apply Text.lines_unlines
  intro line hline c hc
  obtain ⟨⟨instr, address⟩, hmem, rfl⟩ := List.mem_map.mp hline
  have hwritable : instr.Writable := h instr (List.fst_mem_of_mem_zipIdx hmem)
  exact ne_lineEnd_of_mem_listingLine hwritable hc

/-- Every instruction has its line. -/
theorem getElem?_listingLines {p : Program} {i : Nat} {instr : Instruction}
    (h : p.get? i = some instr) :
    p.listingLines[i]? = some (listingLine p.addressWidth instr i) := by
  have hget : p.instructions.toList[i]? = some instr := by
    rw [Array.getElem?_toList]
    exact h
  rw [listingLines, List.getElem?_map, List.getElem?_zipIdx, hget]
  simp

/-- The column of addresses is filled by each of them. -/
theorem length_toString_le_addressWidth {p : Program} {i : Nat} {instr : Instruction}
    (h : p.get? i = some instr) : (toString i).length ≤ p.addressWidth := by
  have hlt : i < p.size := (Array.getElem?_eq_some_iff.mp h).1
  exact Numeral.length_toString_le (by omega)

/-- The listing of a loaded program can be read back. It has one line for each instruction. The line
starts with the address in a column that is as wide as the last address, with blanks before the
address where it is shorter; a colon and a space follow. What stands behind them decodes, and to the
instruction itself unless it is a jump. Of a jump, the target is left out and the label is the
jump's description: the label as it is when the jump is unresolved, and otherwise the part of the
label before the first `<<`, with the address of the target behind it. -/
theorem listing_reads_back (text : String) :
    let p := (load text).program
    (Text.lines p.listing).length = p.size ∧
      ∀ i instr, p.get? i = some instr →
        ∃ column rest, (Text.lines p.listing)[i]? = some (column ++ ": " ++ rest) ∧
          (column.length = (toString (p.size - 1)).length ∧
            (∃ pad, column = String.ofList (List.replicate pad ' ') ++ toString i) ∧
            Numeral.nat? (Text.trim column) = some i) ∧
          ∃ shown, decode (Text.words rest) = .ok (some shown) ∧
            (instr.jump? = none → shown = instr) ∧
            ∀ jump, instr.jump? = some jump →
              shown.opcode = instr.opcode ∧ shown.jump? = some ⟨jump.describe, none⟩ ∧
                (jump.target = none → jump.describe = jump.label) ∧
                ∀ target, jump.target = some target → ∃ head : String,
                  IsHead jump.label.toList head.toList ∧
                    jump.describe = head ++ "<<" ++ toString target ++ ">>" := by
  intro p
  have hwritable : ∀ instr ∈ p.instructions.toList, instr.Writable := writable_of_mem_load
  have hlines : Text.lines p.listing = p.listingLines := lines_listing hwritable
  constructor
  · simp [hlines, listingLines, size]
  · intro i instr hget
    have hfits : (toString i).length ≤ p.addressWidth := length_toString_le_addressWidth hget
    have hmem : instr ∈ p.instructions.toList := by
      rw [Array.mem_toList_iff]
      exact Array.mem_of_getElem? hget
    refine ⟨Text.alignRight p.addressWidth (toString i), instr.resolvedText, ?_, ⟨?_, ?_, ?_⟩,
      instr.described, Instruction.decode_resolvedText (hwritable instr hmem), ?_, ?_⟩
    · rw [hlines, getElem?_listingLines hget]
      rfl
    · have hwidth : p.addressWidth = (toString (p.size - 1)).length := rfl
      rw [Text.length_alignRight]
      omega
    · exact ⟨_, Text.alignRight_eq _ _⟩
    · rw [Text.trim_alignRight _ (Numeral.isWord_toString i), Numeral.nat?_toString]
    · intro hjump
      cases instr with
      | call jump | falseBranch jump | goto jump => cases hjump
      | _ => rfl
    · intro jump hjump
      have hdescribe := jump.describe_eq
      cases instr with
      | call _ | falseBranch _ | goto _ =>
        obtain rfl := Option.some.inj hjump
        exact ⟨rfl, rfl, hdescribe⟩
      | _ => cases hjump

/-- A jump whose label is nothing but a suffix, to the last of eleven instructions. -/
def farJumpText : String :=
  "goto <<7>>\nREAD\nWRITE\nREAD\nWRITE\nREAD\nWRITE\nREAD\nWRITE\nHALT\nLABEL <<7>>\n"

/-- The first line of the listing has a blank before the address, for the last address has two
digits, and it reads as a jump to the address of the label. -/
theorem listing_reads_back_far :
    (load farJumpText).program.get? 0 = some (.goto ⟨"<<7>>", some 10⟩) ∧
      (Text.lines (load farJumpText).program.listing)[0]? = some " 0: GOTO <<10>>" ∧
      ∃ column rest, (Text.lines (load farJumpText).program.listing)[0]? =
          some (column ++ ": " ++ rest) ∧ column.length = 2 ∧
        Numeral.nat? (Text.trim column) = some 0 ∧
        ∃ shown, decode (Text.words rest) = .ok (some shown) ∧ shown.opcode = .goto ∧
          shown.jump? = some ⟨"<<10>>", none⟩ := by
  have hget : (load farJumpText).program.get? 0 = some (.goto ⟨"<<7>>", some 10⟩) := by
    decide +kernel
  have hwidth : (toString ((load farJumpText).program.size - 1)).length = 2 := by decide +kernel
  have hfirst : (Text.lines (load farJumpText).program.listing)[0]? = some " 0: GOTO <<10>>" := by
    decide +kernel
  obtain ⟨column, rest, hline, ⟨hlength, -, hread⟩, shown, hdecode, -, hjump⟩ :=
    (listing_reads_back farJumpText).2 0 _ hget
  obtain ⟨hopcode, hshown, -⟩ := hjump ⟨"<<7>>", some 10⟩ rfl
  exact ⟨hget, hfirst, column, rest, hline, hlength.trans hwidth, hread, shown, hdecode, hopcode,
    hshown⟩

end Program

end XBytecode
