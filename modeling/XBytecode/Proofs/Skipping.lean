import Mathlib.Data.List.Basic
import XBytecode.Program.Load
import XBytecode.Proofs.Words

/-!
# Loading skips the bad lines

A line gives an instruction, or it is blank, or it does not decode and is reported. Which of the
three is the case depends on the words of the line alone, and neither a carriage return at its end
nor the lines around it play a part (`code_page`). So lines without an instruction can come and go:
the program and the faults in its names stay the same.

To say what lines are in a text that is edited, a text is taken apart into rows, each with its own
line end, and what stands behind the last line end (`Page`). Every text can be taken apart, and into
the lines that are read from it (`exists_page`).
-/

namespace XBytecode

namespace Text

/-! ## Blank lines -/

/-- Whether a line has nothing but blanks. -/
def isBlankLine (line : String) : Bool :=
  line.toList.all isBlank

/-- There are no words if no letters are held and no words follow. -/
theorem finishWord_eq_nil {held : List Char} {rest : List String} :
    finishWord held rest = [] ↔ held = [] ∧ rest = [] := by
  cases held <;> simp [finishWord]

/-- There are no words if no letters are held and only blanks follow. -/
theorem wordsFrom_eq_nil {held cs : List Char} :
    wordsFrom held cs = [] ↔ held = [] ∧ cs.all isBlank = true := by
  induction cs generalizing held with
  | nil => simp [wordsFrom, finishWord_eq_nil]
  | cons c cs ih =>
    rw [wordsFrom]
    cases hc : isBlank c with
    | true => simp [finishWord_eq_nil, ih, hc]
    | false => simp [ih, hc]

/-- A line has no words exactly if it is blank. -/
theorem words_eq_nil {line : String} : words line = [] ↔ isBlankLine line = true := by
  simp [words, isBlankLine, wordsFrom_eq_nil]

/-- A blank at the end adds no word. -/
theorem wordsFrom_concat_blank {c : Char} (hc : isBlank c = true) (held cs : List Char) :
    wordsFrom held (cs ++ [c]) = wordsFrom held cs := by
  induction cs generalizing held with
  | nil => simp [wordsFrom, hc, finishWord]
  | cons d cs ih => simp only [List.cons_append, wordsFrom, ih]

/-- The carriage return that belongs to a line's end makes no difference to the words. -/
theorem words_endLine (held : List Char) :
    words (endLine held) = words (String.ofList held.reverse) := by
  unfold endLine
  split
  · next rest =>
    simp only [words, String.toList_ofList, List.reverse_cons]
    exact (wordsFrom_concat_blank (by decide) [] rest.reverse).symm
  · rfl

/-! ## Rows and pages -/

/-- A line with its end. -/
structure Row where
  /-- The line. -/
  content : String
  /-- There is a carriage return before the line feed. -/
  hasReturn : Bool
  /-- The line has no line feed in it. -/
  unbroken : ∀ c ∈ content.toList, c ≠ '\n'

/-- A text taken apart. -/
structure Page where
  /-- The lines that have an end. -/
  rows : List Row
  /-- What stands behind the last line end. -/
  rest : String
  /-- There is no line feed in it. -/
  unbroken : ∀ c ∈ rest.toList, c ≠ '\n'

/-- The text of a row. -/
def Row.text (r : Row) : String :=
  r.content ++ if r.hasReturn then "\r\n" else "\n"

namespace Page

/-- The text put together. -/
def text (g : Page) : String :=
  String.join (g.rows.map Row.text) ++ g.rest

/-- The lines. What stands behind the last line end is one if it is not empty. -/
def contents (g : Page) : List String :=
  g.rows.map Row.content ++ if g.rest = "" then [] else [g.rest]

/-- The page with a row before the others. -/
def cons (r : Row) (g : Page) : Page :=
  { g with rows := r :: g.rows }

/-- The text of a page starts with that of its first row. -/
@[simp]
theorem text_cons (r : Row) (g : Page) : (g.cons r).text = r.text ++ g.text := by
  simp [text, cons, String.join_cons, String.append_assoc]

/-- The contents of a page start with that of its first row. -/
@[simp]
theorem contents_cons (r : Row) (g : Page) : (g.cons r).contents = r.content :: g.contents := rfl

end Page

/-- A row is read as one line, which has the words of the row. -/
theorem linesFrom_row (r : Row) (cs : List Char) :
    ∃ line, linesFrom [] (r.text.toList ++ cs) = line :: linesFrom [] cs ∧
      words line = words r.content := by
  cases hreturn : r.hasReturn with
  | false =>
    refine ⟨endLine (r.content.toList.reverse ++ []), ?_, ?_⟩
    · have htext : r.text.toList ++ cs = r.content.toList ++ '\n' :: cs := by
        simp [Row.text, hreturn]
      rw [htext, linesFrom_append r.unbroken, linesFrom, if_pos rfl]
    · simp [words_endLine]
  | true =>
    refine ⟨r.content, ?_, rfl⟩
    have htext : r.text.toList ++ cs = r.content.toList ++ '\r' :: '\n' :: cs := by
      simp [Row.text, hreturn]
    rw [htext, linesFrom_append r.unbroken, linesFrom, if_neg (by decide), linesFrom, if_pos rfl]
    simp [endLine]

/-- The lines read from a text have the words of its rows. -/
theorem words_lines_page (g : Page) : (lines g.text).map words = g.contents.map words := by
  obtain ⟨rows, rest, hrest⟩ := g
  induction rows with
  | nil =>
    have hread : linesFrom [] rest.toList = linesFrom rest.toList.reverse [] := by
      simpa using linesFrom_append hrest [] []
    by_cases hempty : rest = ""
    · simp [Page.text, Page.contents, lines, hempty, linesFrom, String.join]
    · simp [Page.text, Page.contents, lines, hempty, hread, linesFrom, String.join]
  | cons r rows ih =>
    obtain ⟨line, hline, hwords⟩ := linesFrom_row r (Page.mk rows rest hrest).text.toList
    have hcons : Page.mk (r :: rows) rest hrest = (Page.mk rows rest hrest).cons r := rfl
    rw [hcons, Page.text_cons, Page.contents_cons, lines, String.toList_append, hline,
      List.map_cons, List.map_cons, hwords]
    exact congrArg (words r.content :: ·) ih

/-- A line that is read with its end is a row, with the carriage return that the end takes. -/
theorem exists_row {held : List Char} (hheld : ∀ c ∈ held, c ≠ '\n') :
    ∃ r : Row, r.text.toList = held.reverse ++ ['\n'] ∧ r.content = endLine held := by
  unfold endLine
  split
  · next rest =>
    rw [List.forall_mem_cons] at hheld
    exact ⟨⟨String.ofList rest.reverse, true, by simpa using hheld.2⟩, by simp [Row.text], rfl⟩
  · exact ⟨⟨String.ofList held.reverse, false, by simpa using hheld⟩, by simp [Row.text], rfl⟩

/-- A text can be taken apart when a part of its first line has been read. -/
theorem exists_page_from (held cs : List Char) (hheld : ∀ c ∈ held, c ≠ '\n') :
    ∃ g : Page, g.text.toList = held.reverse ++ cs ∧ g.contents = linesFrom held cs := by
  induction cs generalizing held with
  | nil =>
    refine ⟨⟨[], String.ofList held.reverse, by simpa using hheld⟩, ?_, ?_⟩
    · simp [Page.text, String.join]
    · cases held <;> simp [Page.contents, linesFrom]
  | cons c cs ih =>
    by_cases hc : c = '\n'
    · obtain ⟨g, htext, hcontents⟩ := ih [] (by simp)
      obtain ⟨r, hrow, hcontent⟩ := exists_row hheld
      refine ⟨g.cons r, ?_, ?_⟩
      · rw [Page.text_cons, String.toList_append, hrow, htext, hc]
        simp
      · rw [Page.contents_cons, linesFrom, if_pos hc, hcontents, hcontent]
    · obtain ⟨g, htext, hcontents⟩ := ih (c :: held) (List.forall_mem_cons.mpr ⟨hc, hheld⟩)
      refine ⟨g, ?_, ?_⟩
      · rw [htext, List.reverse_cons, List.append_assoc, List.singleton_append]
      · rw [linesFrom, if_neg hc, hcontents]

/-- Every text can be taken apart into the lines that are read from it. -/
theorem exists_page (text : String) : ∃ g : Page, g.text = text ∧ g.contents = lines text := by
  obtain ⟨g, htext, hcontents⟩ := exists_page_from [] text.toList (by simp)
  exact ⟨g, String.toList_inj.mp htext, hcontents⟩

end Text

namespace Instruction

/-- A line of words decodes to nothing exactly if there are no words. -/
theorem decode_eq_none {tokens : List String} : decode tokens = .ok none ↔ tokens = [] := by
  cases tokens with
  | nil => simp [decode]
  | cons word tokens =>
    rw [decode]
    cases Opcode.ofKeyword? word with
    | none => simp
    | some op => cases h : ofOperands op tokens <;> simp [h, Functor.map, Except.map]

end Instruction

namespace Program

open Instruction (decode decode_eq_none)

/-! ## The lines of a text, decoded -/

/-- Whether a line gives no instruction: it is blank or does not decode. -/
def isSkipped (line : String) : Bool :=
  Text.isBlankLine line || !(decode (Text.words line)).isOk

/-- The code of a text: the instructions of its lines. -/
def code (text : String) : List Instruction :=
  (decodeLines text).filterMap lineInstruction?

/-- The program loaded is the code resolved. -/
theorem load_program (text : String) : (load text).program = resolve (code text) := rfl

/-- The faults of resolution are those of the code. -/
theorem load_resolveErrors (text : String) :
    (load text).resolveErrors = Program.resolveErrors (code text) := rfl

/-- The instruction that words spell, if they do. -/
def instruction? (tokens : List String) : Option Instruction :=
  lineInstruction? (decode tokens, 0)

/-- The numbers of the lines play no part in the code. -/
theorem code_eq (text : String) :
    code text = ((Text.lines text).map Text.words).filterMap instruction? := by
  have hnumber : lineInstruction? = (fun decoded => lineInstruction? (decoded, 0)) ∘ Prod.fst := by
    funext ⟨decoded, number⟩
    cases decoded <;> rfl
  rw [code, decodeLines, hnumber, ← List.filterMap_map, List.zipIdx_map_fst, List.filterMap_map,
    List.filterMap_map]
  rfl

/-- A line that is skipped has no instruction. -/
theorem instruction?_of_skipped {line : String} (h : isSkipped line = true) :
    instruction? (Text.words line) = none := by
  rw [isSkipped, Bool.or_eq_true] at h
  obtain hblank | herror := h
  · rw [Text.words_eq_nil.mpr hblank]
    rfl
  · cases hdecode : decode (Text.words line) with
    | error e => rw [instruction?, hdecode]; rfl
    | ok instr => simp [hdecode, Except.isOk, Except.toBool] at herror

/-- The code of a text is that of its lines which are not skipped, however their ends look. -/
theorem code_page (g : Text.Page) :
    code g.text = (g.contents.filter fun line => !isSkipped line).filterMap
      fun line => instruction? (Text.words line) := by
  rw [code_eq, Text.words_lines_page, List.filterMap_map, List.filterMap_filter]
  apply List.filterMap_congr
  intro line _
  cases h : isSkipped line with
  | false => rfl
  | true => exact instruction?_of_skipped h

/-- Every line is an instruction, or reported, or blank. -/
theorem length_lines (lines : List String) (first : Nat) :
    let decoded := (lines.map fun line => decode (Text.words line)).zipIdx first
    (decoded.filterMap lineInstruction?).length + (decoded.filterMap lineError?).length +
      lines.countP Text.isBlankLine = lines.length := by
  induction lines generalizing first with
  | nil => rfl
  | cons line lines ih =>
    have hrest := ih (first + 1)
    have hblank : Text.isBlankLine line = true ↔ decode (Text.words line) = .ok none := by
      rw [decode_eq_none, Text.words_eq_nil]
    simp only at hrest ⊢
    rw [List.map_cons, List.zipIdx_cons]
    cases hdecode : decode (Text.words line) with
    | error e =>
      have hnot : Text.isBlankLine line = false := by simpa [hdecode] using hblank
      simp only [List.filterMap_cons, lineInstruction?, lineError?, List.length_cons, hnot,
        Bool.false_eq_true, not_false_eq_true, List.countP_cons_of_neg]
      omega
    | ok instr =>
      cases instr with
      | none =>
        have hyes : Text.isBlankLine line = true := hblank.mpr hdecode
        simp only [List.filterMap_cons, lineInstruction?, lineError?, List.length_cons, hyes,
          List.countP_cons_of_pos]
        omega
      | some instr =>
        have hnot : Text.isBlankLine line = false := by simpa [hdecode] using hblank
        simp only [List.filterMap_cons, lineInstruction?, lineError?, List.length_cons, hnot,
          Bool.false_eq_true, not_false_eq_true, List.countP_cons_of_neg]
        omega

/-- An error names the line that it was found on. -/
theorem line_of_lineError? {entry : Except DecodeError (Option Instruction) × Nat} {e : LoadError}
    (h : lineError? entry = some e) : e.line = entry.2 := by
  obtain ⟨decoded, number⟩ := entry
  cases decoded with
  | ok instr => cases h
  | error cause => cases h; rfl

/-- The lines reported are numbered in ascending order. -/
theorem pairwise_diagnostics (text : String) :
    ((load text).diagnostics.map LoadError.line).Pairwise (· < ·) := by
  have hnumbers : (decodeLines text).Pairwise fun x y => x.2 < y.2 := by
    rw [← List.pairwise_map (f := Prod.snd) (R := (· < ·)), decodeLines, List.zipIdx_map_snd]
    exact List.pairwise_lt_range'
  rw [List.pairwise_map]
  refine hnumbers.filterMap lineError? ?_
  intro x y hlt e he e' he'
  rwa [line_of_lineError? he, line_of_lineError? he']

/-- The lines reported are those that do not decode. -/
theorem mem_diagnostics {text : String} {number : Nat} {cause : DecodeError} :
    ⟨number, cause⟩ ∈ (load text).diagnostics ↔
      1 ≤ number ∧ ∃ line, (Text.lines text)[number - 1]? = some line ∧
        decode (Text.words line) = .error cause := by
  have herror : ∀ entry : Except DecodeError (Option Instruction) × Nat,
      lineError? entry = some ⟨number, cause⟩ ↔ entry = (.error cause, number) := by
    rintro ⟨decoded, i⟩
    cases decoded <;> simp [lineError?, and_comm]
  have hmem : (load text).diagnostics = (decodeLines text).filterMap lineError? := rfl
  simp only [hmem, List.mem_filterMap, herror, exists_eq_right, decodeLines,
    List.mk_mem_zipIdx_iff_le_and_getElem?_sub, List.getElem?_map, Option.map_eq_some_iff]

/-- Loading skips exactly the bad lines. The instructions, the lines reported and the blank lines
make up all lines of a text. The lines reported are those that do not decode, in ascending order and
each once. And whatever lines that are blank or do not decode are deleted from the text or inserted
in it, and however its lines end, the program stays the same and so do the faults in its names. -/
theorem load_skips (text : String) :
    ((load text).program.size + (load text).diagnostics.length +
        (Text.lines text).countP Text.isBlankLine = (Text.lines text).length) ∧
      ((load text).diagnostics.map LoadError.line).Pairwise (· < ·) ∧
      (∀ number cause, ⟨number, cause⟩ ∈ (load text).diagnostics ↔
        1 ≤ number ∧ ∃ line, (Text.lines text)[number - 1]? = some line ∧
          decode (Text.words line) = .error cause) ∧
      (∃ g : Text.Page, g.text = text ∧ g.contents = Text.lines text) ∧
      ∀ g g' : Text.Page, g.text = text →
        (g'.contents.filter fun line => !isSkipped line) =
          (g.contents.filter fun line => !isSkipped line) →
        (load g'.text).program = (load text).program ∧
          (load g'.text).resolveErrors = (load text).resolveErrors := by
  refine ⟨?_, pairwise_diagnostics text, fun _ _ => mem_diagnostics, Text.exists_page text, ?_⟩
  · have hsize : (load text).program.size = (code text).length := by
      simp [load_program, resolve, size]
    rw [hsize]
    exact length_lines (Text.lines text) 1
  · rintro g g' rfl hkept
    have hcode : code g'.text = code g.text := by rw [code_page, code_page, hkept]
    rw [load_program, load_program, load_resolveErrors, load_resolveErrors, hcode]
    exact ⟨rfl, rfl⟩

/-- A program with a line that does not decode and an empty one. -/
def paddedPage : Text.Page :=
  { rows := [⟨"LIT 1", true, by simp⟩, ⟨"bogus 2", false, by simp⟩, ⟨"", false, by simp⟩,
      ⟨"GOTO x", false, by simp⟩]
    rest := "LABEL x"
    unbroken := by simp }

/-- The program without these lines, with a blank one elsewhere. -/
def editedPage : Text.Page :=
  { rows := [⟨"LIT 1", false, by simp⟩, ⟨"GOTO x", false, by simp⟩, ⟨" ", false, by simp⟩,
      ⟨"LABEL x", false, by simp⟩]
    rest := ""
    unbroken := by simp }

/-- The edited program is the same, though its first line has lost its carriage return and its last
one has got an end. -/
theorem load_skips_edited :
    (load "LIT 1\r\nbogus 2\n\nGOTO x\nLABEL x").diagnostics = [⟨2, .unknownOpcode "bogus"⟩] ∧
      (load "LIT 1\nGOTO x\n \nLABEL x\n").program =
        (load "LIT 1\r\nbogus 2\n\nGOTO x\nLABEL x").program := by
  have hpadded : paddedPage.text = "LIT 1\r\nbogus 2\n\nGOTO x\nLABEL x" := rfl
  have hedited : editedPage.text = "LIT 1\nGOTO x\n \nLABEL x\n" := rfl
  have hkept : (editedPage.contents.filter fun line => !isSkipped line) =
      (paddedPage.contents.filter fun line => !isSkipped line) := by decide +kernel
  refine ⟨by decide +kernel, ?_⟩
  rw [← hedited]
  exact ((load_skips _).2.2.2.2 paddedPage editedPage hpadded hkept).1

end Program

end XBytecode
