import XBytecode.Text.Blank
import XBytecode.Text.Lines
import XBytecode.Text.Numeral

/-!
# Words and lines read back

A text made of words with a space between them has these words (`words_intercalate`), and a text
made of lines with a line feed behind each has these lines (`lines_unlines`). Both are read with an
accumulator, so both rest on what the reader makes of a run of characters that do not end a word or
a line. In turn, whatever is read as a word is one (`isWord_of_mem_words`), and so is every numeral.
-/

namespace XBytecode.Text

/-- A word is not empty and has no blanks. -/
structure IsWord (word : String) : Prop where
  /-- There is a letter. -/
  ne_empty : word ≠ ""
  /-- No letter is blank. -/
  unblank : ∀ c ∈ word.toList, isBlank c = false

/-- The text of lines, each with a line feed behind it. -/
def unlines (lines : List String) : String :=
  String.join (lines.map (· ++ "\n"))

/-! ## Words -/

/-- Whether a text is a word can be checked letter by letter. -/
theorem isWord_of_all {word : String} (hne : word ≠ "")
    (hall : (word.toList.all fun c => !isBlank c) = true) : IsWord word := by
  refine ⟨hne, fun c hc => ?_⟩
  have hblank := List.all_eq_true.mp hall c hc
  rwa [Bool.not_eq_true'] at hblank

/-- Characters that are not blank are held. -/
theorem wordsFrom_append {cs : List Char} (h : ∀ c ∈ cs, isBlank c = false)
    (held rest : List Char) :
    wordsFrom held (cs ++ rest) = wordsFrom (cs.reverse ++ held) rest := by
  induction cs generalizing held with
  | nil => rfl
  | cons c cs ih =>
    rw [List.forall_mem_cons] at h
    rw [List.cons_append, wordsFrom, if_neg (by simp [h.1]), ih h.2, List.reverse_cons,
      List.append_assoc, List.singleton_append]

/-- A word held is finished where it ends. -/
theorem finishWord_reverse {word : String} (h : word ≠ "") (rest : List String) :
    finishWord (word.toList.reverse ++ []) rest = word :: rest := by
  have hletters : word.toList ≠ [] := by
    intro hnil
    exact h (String.toList_eq_nil_iff.mp hnil)
  simp [finishWord, hletters]

/-- Words with a space between them are read back. -/
theorem words_intercalate {ws : List String} (h : ∀ word ∈ ws, IsWord word) :
    words (" ".intercalate ws) = ws := by
  induction ws with
  | nil => rfl
  | cons word ws ih =>
    rw [List.forall_mem_cons] at h
    obtain ⟨hword, hws⟩ := h
    cases ws with
    | nil =>
      rw [String.intercalate_singleton, words, ← List.append_nil word.toList,
        wordsFrom_append hword.unblank, wordsFrom, finishWord_reverse hword.ne_empty]
    | cons next ws =>
      -- The space between ends the word, and the rest is read anew.
      have hspace : isBlank ' ' = true := by decide
      have hrest : wordsFrom [] (" ".intercalate (next :: ws)).toList = next :: ws := ih hws
      rw [String.intercalate_cons_cons, words, String.toList_append, String.toList_append,
        List.append_assoc, wordsFrom_append hword.unblank]
      show wordsFrom (word.toList.reverse ++ []) (' ' :: (" ".intercalate (next :: ws)).toList) = _
      rw [wordsFrom, if_pos hspace, hrest, finishWord_reverse hword.ne_empty]

/-- What is finished is what was held, if it is a word, and what comes behind it. -/
theorem isWord_of_mem_finishWord {held : List Char} {rest : List String}
    (hheld : ∀ c ∈ held, isBlank c = false) (hrest : ∀ word ∈ rest, IsWord word) :
    ∀ word ∈ finishWord held rest, IsWord word := by
  cases held with
  | nil => exact hrest
  | cons c held =>
    rw [finishWord, if_neg (by simp), List.forall_mem_cons]
    refine ⟨⟨by simp, fun c' hc' => hheld c' ?_⟩, hrest⟩
    rwa [String.toList_ofList, List.mem_reverse] at hc'

/-- What is read as a word behind letters held is a word. -/
theorem isWord_of_mem_wordsFrom {held cs : List Char} (hheld : ∀ c ∈ held, isBlank c = false) :
    ∀ word ∈ wordsFrom held cs, IsWord word := by
  induction cs generalizing held with
  | nil => exact isWord_of_mem_finishWord hheld (by simp)
  | cons c cs ih =>
    rw [wordsFrom]
    cases hc : isBlank c with
    | true => exact isWord_of_mem_finishWord hheld (ih (by simp))
    | false =>
      apply ih
      rw [List.forall_mem_cons]
      exact ⟨hc, hheld⟩

/-- What is read as a word is a word. -/
theorem isWord_of_mem_words {text : String} : ∀ word ∈ words text, IsWord word :=
  isWord_of_mem_wordsFrom (by simp)

/-! ## Lines -/

/-- Characters that are no line feed are held. -/
theorem linesFrom_append {cs : List Char} (h : ∀ c ∈ cs, c ≠ '\n') (held rest : List Char) :
    linesFrom held (cs ++ rest) = linesFrom (cs.reverse ++ held) rest := by
  induction cs generalizing held with
  | nil => rfl
  | cons c cs ih =>
    rw [List.forall_mem_cons] at h
    rw [List.cons_append, linesFrom, if_neg h.1, ih h.2, List.reverse_cons, List.append_assoc,
      List.singleton_append]

/-- A line that does not end in a carriage return is kept whole where it ends. -/
theorem endLine_reverse {line : String} (h : line.toList.getLast? ≠ some '\r') :
    endLine (line.toList.reverse ++ []) = line := by
  rw [endLine]
  · simp
  · intro rest hcr
    rw [List.append_nil] at hcr
    rw [← List.head?_reverse, hcr] at h
    exact h rfl

/-- The text of some lines and others behind them. -/
theorem unlines_append (ls ls' : List String) :
    unlines (ls ++ ls') = unlines ls ++ unlines ls' := by
  simp [unlines, String.join_append]

/-- Lines with a line feed behind each are read back, if no line has another line feed or ends in a
carriage return. -/
theorem lines_unlines_of_getLast? {ls : List String}
    (h : ∀ line ∈ ls, '\n' ∉ line.toList ∧ line.toList.getLast? ≠ some '\r') :
    lines (unlines ls) = ls := by
  induction ls with
  | nil => rfl
  | cons line ls ih =>
    obtain ⟨⟨hfeed, hlast⟩, hls⟩ := List.forall_mem_cons.mp h
    have hrest : linesFrom [] (unlines ls).toList = ls := ih hls
    have htext : (unlines (line :: ls)).toList = line.toList ++ '\n' :: (unlines ls).toList := by
      simp [unlines, String.join_cons]
    have hline : ∀ c ∈ line.toList, c ≠ '\n' := fun c hc h => hfeed (h ▸ hc)
    rw [lines, htext, linesFrom_append hline, linesFrom, if_pos rfl, hrest, endLine_reverse hlast]

/-- Lines with a line feed behind each are read back. -/
theorem lines_unlines {ls : List String} (h : ∀ line ∈ ls, ∀ c ∈ line.toList, c ≠ '\n' ∧ c ≠ '\r') :
    lines (unlines ls) = ls := by
  refine lines_unlines_of_getLast? fun line hline => ⟨fun hfeed => ?_, fun hlast => ?_⟩
  · exact (h line hline _ hfeed).1 rfl
  · exact (h line hline _ (List.mem_of_getLast? hlast)).2 rfl

/-- A text put together has the letters of its parts and of what stands between them. -/
theorem mem_of_mem_intercalate {between : String} {parts : List String} {c : Char}
    (hc : c ∈ (between.intercalate parts).toList) :
    c ∈ between.toList ∨ ∃ part ∈ parts, c ∈ part.toList := by
  induction parts with
  | nil => simp at hc
  | cons part rest ih =>
    cases rest with
    | nil =>
      rw [String.intercalate_singleton] at hc
      exact .inr ⟨part, by simp, hc⟩
    | cons next rest =>
      rw [String.intercalate_cons_cons, String.toList_append, String.toList_append,
        List.mem_append, List.mem_append] at hc
      obtain (hpart | hbetween) | hrest := hc
      · exact .inr ⟨part, by simp, hpart⟩
      · exact .inl hbetween
      · obtain hbetween | ⟨other, hother, hc⟩ := ih hrest
        · exact .inl hbetween
        · exact .inr ⟨other, List.mem_cons_of_mem _ hother, hc⟩

/-- Words with a space between them make a line. -/
theorem ne_lineEnd_of_mem_intercalate {ws : List String} (h : ∀ word ∈ ws, IsWord word) {c : Char}
    (hc : c ∈ (" ".intercalate ws).toList) : c ≠ '\n' ∧ c ≠ '\r' := by
  have hcases : c = ' ' ∨ isBlank c = false := by
    obtain hspace | ⟨word, hword, hc⟩ := mem_of_mem_intercalate hc
    · exact .inl (List.mem_singleton.mp hspace)
    · exact .inr ((h word hword).unblank c hc)
  -- The ends of a line are blank and no spaces.
  obtain rfl | hblank := hcases
  · decide
  · constructor
    · rintro rfl
      exact absurd hblank (by decide)
    · rintro rfl
      exact absurd hblank (by decide)

end XBytecode.Text

namespace XBytecode.Numeral

open Text (IsWord isBlank)

/-- A decimal digit is not blank. -/
theorem isBlank_of_isDigit {c : Char} (h : c.isDigit = true) : isBlank c = false := by
  have hrange : 48 ≤ c.toNat ∧ c.toNat ≤ 57 := by
    simp only [Char.isDigit, Bool.and_eq_true, decide_eq_true_eq, ge_iff_le,
      UInt32.le_iff_toNat_le] at h
    exact h
  exact Text.isBlank_of_ascii (by omega) (by omega)

/-- The text of a number is a word. -/
theorem isWord_toString (n : Nat) : IsWord (toString n) where
  ne_empty h := by
    have hletters := congrArg String.toList h
    rw [toList_toString] at hletters
    exact Nat.toDigits_ne_nil hletters
  unblank c hc := by
    rw [toList_toString] at hc
    exact isBlank_of_isDigit (Nat.isDigit_of_mem_toDigits (by decide) (by decide) hc)

/-- A number is written without line feeds. -/
theorem lineFeed_not_mem_toString (n : Nat) : '\n' ∉ (toString n).toList := by
  intro hmem
  exact absurd ((isWord_toString n).unblank _ hmem) (by decide)

/-- The numeral of a machine word is a word. -/
theorem isWord_ofWord (v : Int32) : IsWord (ofWord v) := by
  unfold ofWord
  cases v.toInt with
  | ofNat n => exact isWord_toString n
  | negSucc n =>
    have hsign : toString (Int.negSucc n) = "-" ++ toString (n + 1) := rfl
    obtain ⟨-, hdigits⟩ := isWord_toString (n + 1)
    rw [hsign]
    constructor
    · intro h
      have hletters := congrArg String.toList h
      simp at hletters
    · intro c hc
      rw [String.toList_append, List.mem_append] at hc
      obtain hc | hc := hc
      · rw [List.mem_singleton.mp hc]
        decide
      · exact hdigits c hc

end XBytecode.Numeral
