import Mathlib.Data.List.Forall2
import Mathlib.Data.List.TakeWhile
import XBytecode.Console.Command
import XBytecode.Proofs.Skipping
import XBytecode.Proofs.Spelling

/-!
# The language of commands

`Command.Spells` lists the words in which each command can be given, in small letters. A line gives
a command if it consists of such words in any mix of letter cases, with blanks around them as long
as no two words run together (`Text.IsSpaced`). Both relations are stated without the functions that
read a line, and the functions are tied to them one by one: cutting a line into words finds exactly
the words that it is spaced from (`words_eq_iff`), lower-casing a line does not move its words
(`words_toLower`), and small-letter words are read as a command exactly if they spell it
(`spells_of_ofWords?`, `ofWords?_of_spells`). A line that gives no command is reported without the
blanks at its ends, in the letters in which it was typed (`isTrimmed_trim`).
-/

namespace XBytecode

namespace Text

/-! ## Spaced words -/

/-- `IsSpaced words cs`: the characters are those of the words, in order, with blanks around them.
Behind a word there is a blank, or the end. -/
inductive IsSpaced : List String → List Char → Prop where
  /-- There are no words but only blanks. -/
  | nil {gap : List Char} (hgap : ∀ c ∈ gap, isBlank c = true) : IsSpaced [] gap
  /-- The first word stands behind blanks, if any, and before the others. -/
  | cons {gap rest : List Char} {word : String} {words : List String}
    (hgap : ∀ c ∈ gap, isBlank c = true) (hword : IsWord word)
    (hends : ∀ c ∈ rest.head?, isBlank c = true) (hrest : IsSpaced words rest) :
    IsSpaced (word :: words) (gap ++ (word.toList ++ rest))

/-- A blank can be added before the words. -/
theorem IsSpaced.blank {ws : List String} {cs : List Char} {c : Char} (h : IsSpaced ws cs)
    (hc : isBlank c = true) : IsSpaced ws (c :: cs) := by
  cases h with
  | nil hgap => exact .nil (List.forall_mem_cons.mpr ⟨hc, hgap⟩)
  | @cons gap rest word ws hgap hword hends hrest =>
    have hmore : ∀ d ∈ c :: gap, isBlank d = true := List.forall_mem_cons.mpr ⟨hc, hgap⟩
    exact IsSpaced.cons hmore hword hends hrest

/-- Letters held are a word of their own, in front of what follows them. -/
theorem isSpaced_finishWord {held rest : List Char} {ws : List String}
    (hheld : ∀ c ∈ held, isBlank c = false) (hends : ∀ c ∈ rest.head?, isBlank c = true)
    (hrest : IsSpaced ws rest) : IsSpaced (finishWord held ws) (held.reverse ++ rest) := by
  rcases held with _ | ⟨c, held⟩
  · exact hrest
  · have hword : IsWord (String.ofList (c :: held).reverse) := by
      refine ⟨by simp, fun d hd => hheld d ?_⟩
      rwa [String.toList_ofList, List.mem_reverse] at hd
    have hspaced : IsSpaced (String.ofList (c :: held).reverse :: ws)
        ([] ++ ((String.ofList (c :: held).reverse).toList ++ rest)) :=
      .cons (by simp) hword hends hrest
    rwa [String.toList_ofList, List.nil_append] at hspaced

/-- The words read behind letters held are spaced. -/
theorem isSpaced_wordsFrom {held cs : List Char} (hheld : ∀ c ∈ held, isBlank c = false) :
    IsSpaced (wordsFrom held cs) (held.reverse ++ cs) := by
  induction cs generalizing held with
  | nil => exact isSpaced_finishWord hheld (by simp) (.nil (by simp))
  | cons c cs ih =>
    rw [wordsFrom]
    by_cases hc : isBlank c = true
    · have hbehind : IsSpaced (wordsFrom [] cs) (c :: cs) := (ih (by simp)).blank hc
      rw [if_pos hc]
      exact isSpaced_finishWord hheld (by simpa using hc) hbehind
    · rw [Bool.not_eq_true] at hc
      have hmore : IsSpaced (wordsFrom (c :: held) cs) ((c :: held).reverse ++ cs) :=
        ih (List.forall_mem_cons.mpr ⟨hc, hheld⟩)
      rw [if_neg (by simp [hc])]
      rwa [List.reverse_cons, List.append_assoc, List.singleton_append] at hmore

/-- Blanks before the words are passed over. -/
theorem wordsFrom_gap {gap : List Char} (h : ∀ c ∈ gap, isBlank c = true) (cs : List Char) :
    wordsFrom [] (gap ++ cs) = wordsFrom [] cs := by
  induction gap with
  | nil => rfl
  | cons c gap ih =>
    obtain ⟨hc, hgap⟩ := List.forall_mem_cons.mp h
    rw [List.cons_append, wordsFrom, if_pos hc, ih hgap]
    rfl

/-- Spaced words are the words read. -/
theorem IsSpaced.wordsFrom_eq {ws : List String} {cs : List Char} (h : IsSpaced ws cs) :
    wordsFrom [] cs = ws := by
  induction h with
  | nil hgap => exact wordsFrom_eq_nil.mpr ⟨rfl, List.all_eq_true.mpr hgap⟩
  | @cons gap rest word ws hgap hword hends _ ih =>
    rw [wordsFrom_gap hgap, wordsFrom_append hword.unblank]
    rcases rest with _ | ⟨c, rest⟩
    · have hnone : ws = [] := by simpa [wordsFrom, finishWord] using ih.symm
      rw [wordsFrom, finishWord_reverse hword.ne_empty, hnone]
    · -- The blank behind the word ends it.
      have hc : isBlank c = true := hends c rfl
      have hrest : wordsFrom [] rest = ws := by
        rw [wordsFrom, if_pos hc] at ih
        exact ih
      rw [wordsFrom, if_pos hc, finishWord_reverse hword.ne_empty, hrest]

/-- The words of a text are those that it is spaced from. -/
theorem words_eq_iff {text : String} {ws : List String} :
    words text = ws ↔ IsSpaced ws text.toList := by
  constructor
  · rintro rfl
    have hheld : ∀ c ∈ ([] : List Char), isBlank c = false := by simp
    exact isSpaced_wordsFrom hheld
  · exact IsSpaced.wordsFrom_eq

/-! ## Letter cases -/

/-- A letter is blank in neither case. -/
theorem isBlank_toLower (c : Char) : isBlank c.toLower = isBlank c := by
  have hlower := toNat_toLower c
  by_cases hletter : 65 ≤ c.toNat ∧ c.toNat ≤ 90
  · rw [if_pos hletter] at hlower
    have hsmall : isBlank c.toLower = false := isBlank_of_ascii (by omega) (by omega)
    have hcapital : isBlank c = false := isBlank_of_ascii (by omega) (by omega)
    rw [hsmall, hcapital]
  · rw [if_neg hletter] at hlower
    rw [Char.toNat_inj.mp hlower]

/-- A text is put in lower case letter by letter. -/
theorem toList_toLower (text : String) : text.toLower.toList = text.toList.map Char.toLower :=
  String.toList_map

/-- The words of a lower-cased text are those of the text, lower-cased. -/
theorem wordsFrom_map_toLower (held cs : List Char) :
    wordsFrom (held.map Char.toLower) (cs.map Char.toLower) =
      (wordsFrom held cs).map String.toLower := by
  have hfinish (held : List Char) (rest : List String) :
      finishWord (held.map Char.toLower) (rest.map String.toLower) =
        (finishWord held rest).map String.toLower := by
    have hword : (String.ofList held.reverse).toLower =
        String.ofList (held.map Char.toLower).reverse := by
      rw [← String.toList_inj, toList_toLower, String.toList_ofList, String.toList_ofList,
        List.map_reverse]
    cases held with
    | nil => rfl
    | cons c held => exact congrArg (· :: _) hword.symm
  induction cs generalizing held with
  | nil => exact hfinish held []
  | cons c cs ih =>
    rw [List.map_cons, wordsFrom, wordsFrom, isBlank_toLower]
    split
    · rw [← hfinish, ← ih []]
      rfl
    · exact ih (c :: held)

/-- The words of a text in lower case are its words in lower case. -/
theorem words_toLower (text : String) : words text.toLower = (words text).map String.toLower := by
  rw [words, words, toList_toLower]
  exact wordsFrom_map_toLower [] text.toList

/-! ## Trimming -/

/-- `IsTrimmed text kept`: what is kept of the text is all of it but for blanks at its ends, and
neither ends in a blank itself. -/
def IsTrimmed (text kept : String) : Prop :=
  (∃ before after : List Char, text.toList = before ++ kept.toList ++ after ∧
    (∀ c ∈ before, isBlank c = true) ∧ ∀ c ∈ after, isBlank c = true) ∧
  (∀ c ∈ kept.toList.head?, isBlank c = false) ∧ ∀ c ∈ kept.toList.getLast?, isBlank c = false

/-- What `trim` gives is the text trimmed. -/
theorem isTrimmed_trim (text : String) : IsTrimmed text (trim text) := by
  generalize hleft : text.toList.dropWhile isBlank = left
  generalize hright : left.reverse.dropWhile isBlank = right
  have hkept : (trim text).toList = right.reverse := by
    rw [trim, hleft, hright, String.toList_ofList]
  have htext : text.toList.takeWhile isBlank ++ left = text.toList := by
    rw [← hleft]
    exact List.takeWhile_append_dropWhile
  have hback : left.reverse.takeWhile isBlank ++ right = left.reverse := by
    rw [← hright]
    exact List.takeWhile_append_dropWhile
  have hleft' : right.reverse ++ (left.reverse.takeWhile isBlank).reverse = left := by
    rw [← List.reverse_append, hback, List.reverse_reverse]
  have hstops : ∀ {cs : List Char}, ∀ c ∈ (cs.dropWhile isBlank).head?, isBlank c = false := by
    intro cs c hc
    have hnot := List.head?_dropWhile_not isBlank cs
    rw [Option.mem_def.mp hc] at hnot
    simpa using hnot
  refine ⟨⟨text.toList.takeWhile isBlank, (left.reverse.takeWhile isBlank).reverse, ?_, ?_, ?_⟩,
    ?_, ?_⟩
  · rw [hkept, List.append_assoc, hleft', htext]
  · intro c hc
    exact (List.mem_takeWhile_imp hc)
  · intro c hc
    exact List.mem_takeWhile_imp (List.mem_reverse.mp hc)
  · -- What is kept starts as the text without its leading blanks does, unless nothing is kept.
    rw [hkept]
    intro c hc
    have hhead : left.head? = some c := by
      rw [← hleft', List.head?_append, Option.mem_def.mp hc]
      rfl
    exact hstops c (by rw [hleft]; exact hhead)
  · rw [hkept, List.getLast?_reverse, ← hright]
    exact hstops

end Text

namespace Numeral

/-- A text is read as a number without a minus sign exactly if it is its digits, behind a plus sign
or not. -/
theorem nat?_eq_some_iff {text : String} {n : Nat} :
    nat? text = some n ↔
      ∃ cs, IsDigits cs n ∧ (text.toList = cs ∨ text.toList = '+' :: cs) := by
  unfold nat?
  split
  · next cs hsign =>
    rw [digits?_eq_some_iff]
    constructor
    · intro hdigits
      exact ⟨cs, hdigits, .inr hsign⟩
    · rintro ⟨ds, hdigits, hplain | hplus⟩
      · have hhead := hdigits.head_ne (hplain.symm.trans hsign)
        exact absurd rfl hhead.1
      · obtain rfl := (List.cons.inj (hsign.symm.trans hplus)).2
        exact hdigits
  · next hsign =>
    rw [digits?_eq_some_iff]
    constructor
    · intro hdigits
      exact ⟨_, hdigits, .inl rfl⟩
    · rintro ⟨ds, hdigits, hplain | hplus⟩
      · rwa [hplain]
      · exact absurd hplus (hsign ds)

/-- Digits have no letters in them. -/
theorem IsDigits.toLower_eq {cs : List Char} {n : Nat} (h : IsDigits cs n) :
    cs.map Char.toLower = cs := by
  obtain ⟨ds, -, hsmall, rfl, -⟩ := h
  rw [List.map_map]
  apply List.map_congr_left
  intro d hd
  have hdigit : ∀ d < 10, (Nat.digitChar d).toLower = Nat.digitChar d := by decide
  exact hdigit d (hsmall d hd)

end Numeral

namespace Console.Command

open Text (SameLetters IsSpaced IsTrimmed)

/-! ## Spellings -/

/-- The word is a numeral of the line number: its decimal digits, behind a plus sign or not. A line
number is below `2^64`. -/
def IsLineNumber (word : String) (n : Nat) : Prop :=
  (∃ cs, Numeral.IsDigits cs n ∧ (word.toList = cs ∨ word.toList = '+' :: cs)) ∧ n < 2 ^ 64

/-- `Spells words c`: the words, in small letters, give the command. -/
inductive Spells : List String → Command → Prop where
  | help {word : String} (h : word ∈ ["?", "h", "help"]) : Spells [word] .help
  | listBreakpoints : Spells ["b"] .listBreakpoints
  | setBreakpoints {words : List String} {lines : List Nat} (hsome : words ≠ [])
    (hlines : List.Forall₂ IsLineNumber words lines) : Spells ("b" :: words) (.setBreakpoints lines)
  | clearBreakpoints {words : List String} {lines : List Nat} (hsome : words ≠ [])
    (hlines : List.Forall₂ IsLineNumber words lines) :
    Spells ("bc" :: words) (.clearBreakpoints lines)
  | resume : Spells ["c"] (.step .resume)
  | into : Spells ["i"] (.step .into)
  | out : Spells ["o"] (.step .out)
  | over : Spells ["n"] (.step .over)
  | function : Spells ["f"] .function
  | callStack : Spells ["p"] .callStack
  | traceOn : Spells ["t", "on"] (.trace true)
  | traceOff : Spells ["t", "off"] (.trace false)
  | showVariables : Spells ["v"] .showVariables
  | quit {word : String} (h : word ∈ ["q", "quit"]) : Spells [word] .quit
  | clearScreen {word : String} (h : word ∈ ["z", "clear"]) : Spells [word] .clearScreen

/-- What is read as the number of a line is what spells it. -/
theorem lineNumber?_eq_some_iff {word : String} {n : Nat} :
    lineNumber? word = some n ↔ IsLineNumber word n := by
  unfold lineNumber? IsLineNumber
  rw [← Numeral.nat?_eq_some_iff]
  have hlimit : lineLimit = 2 ^ 64 := by decide
  cases hread : Numeral.nat? word with
  | none => simp
  | some k =>
    simp only [Option.some.injEq, hlimit]
    split
    · next hk =>
      rw [Option.some.injEq]
      omega
    · next hk =>
      constructor
      · intro hnone
        cases hnone
      · omega

/-- Line numbers are read exactly if each word is the numeral of the number at its place. -/
theorem mapM_lineNumber?_eq_some_iff {words : List String} {lines : List Nat} :
    words.mapM lineNumber? = some lines ↔ List.Forall₂ IsLineNumber words lines := by
  induction words generalizing lines with
  | nil => simp
  | cons word words ih =>
    rw [List.mapM_cons, List.forall₂_cons_left_iff]
    simp only [Option.bind_eq_bind, Option.bind_eq_some_iff, lineNumber?_eq_some_iff, ih,
      Option.pure_def, Option.some.injEq]
    constructor
    · rintro ⟨n, hn, ns, hns, rfl⟩
      exact ⟨n, ns, hn, hns, rfl⟩
    · rintro ⟨n, ns, hn, hns, rfl⟩
      exact ⟨n, hn, ns, hns, rfl⟩

/-- Words that are read as a command spell it. -/
theorem spells_of_ofWords? {words : List String} {c : Command} (h : ofWords? words = some c) :
    Spells words c := by
  unfold ofWords? at h
  split at h
  case h_1 | h_2 | h_3 =>
    cases h
    exact .help (by simp)
  case h_5 numerals hsome =>
    obtain ⟨lines, hread, rfl⟩ := Option.map_eq_some_iff.mp h
    exact .setBreakpoints hsome (mapM_lineNumber?_eq_some_iff.mp hread)
  case h_7 numerals hsome =>
    obtain ⟨lines, hread, rfl⟩ := Option.map_eq_some_iff.mp h
    exact .clearBreakpoints hsome (mapM_lineNumber?_eq_some_iff.mp hread)
  case h_17 | h_18 =>
    cases h
    exact .quit (by simp)
  case h_19 | h_20 =>
    cases h
    exact .clearScreen (by simp)
  case h_6 | h_21 => cases h
  -- What is left are the commands with one spelling.
  all_goals
    cases h
    constructor

/-- Words that spell a command are read as it. -/
theorem ofWords?_of_spells {words : List String} {c : Command} (h : Spells words c) :
    ofWords? words = some c := by
  cases h with
  | help hword | quit hword | clearScreen hword =>
    simp only [List.mem_cons, List.not_mem_nil, or_false] at hword
    rcases hword with rfl | rfl | rfl <;> rfl
  | @setBreakpoints words lines hsome hlines =>
    obtain ⟨first, rest, rfl⟩ := List.exists_cons_of_ne_nil hsome
    have hread : ofWords? ("b" :: first :: rest) =
        .setBreakpoints <$> (first :: rest).mapM lineNumber? := rfl
    rw [hread, mapM_lineNumber?_eq_some_iff.mpr hlines]
    rfl
  | @clearBreakpoints words lines hsome hlines =>
    obtain ⟨first, rest, rfl⟩ := List.exists_cons_of_ne_nil hsome
    have hread : ofWords? ("bc" :: first :: rest) =
        .clearBreakpoints <$> (first :: rest).mapM lineNumber? := rfl
    rw [hread, mapM_lineNumber?_eq_some_iff.mpr hlines]
    rfl
  | _ => rfl

/-- A command can be given unless a list of line numbers is empty or a line number is too large. -/
def IsExpressible : Command → Prop
  | .setBreakpoints lines | .clearBreakpoints lines => lines ≠ [] ∧ ∀ n ∈ lines, n < 2 ^ 64
  | _ => True

/-- Numerals are given for some line numbers, all below the limit, and for every such list. -/
theorem exists_numerals_iff {lines : List Nat} :
    (∃ words, words ≠ [] ∧ List.Forall₂ IsLineNumber words lines) ↔
      lines ≠ [] ∧ ∀ n ∈ lines, n < 2 ^ 64 := by
  constructor
  · rintro ⟨words, hsome, hlines⟩
    refine ⟨?_, ?_⟩
    · rintro rfl
      rw [List.forall₂_nil_right_iff] at hlines
      exact hsome hlines
    · intro n hn
      obtain ⟨i, hi, rfl⟩ := List.mem_iff_getElem.mp hn
      have hword : i < words.length := by
        rw [hlines.length_eq]
        exact hi
      exact (hlines.get hword hi).2
  · rintro ⟨hsome, hlimit⟩
    refine ⟨lines.map toString, by simpa using hsome, ?_⟩
    rw [List.forall₂_map_left_iff, List.forall₂_same]
    intro n hn
    exact ⟨Numeral.nat?_eq_some_iff.mp (Numeral.nat?_toString n), hlimit n hn⟩

/-- The commands that can be given are those that have a spelling. -/
theorem exists_spells_iff (c : Command) : (∃ words, Spells words c) ↔ c.IsExpressible := by
  constructor
  · rintro ⟨words, hspells⟩
    cases hspells with
    | setBreakpoints hsome hlines | clearBreakpoints hsome hlines =>
      exact exists_numerals_iff.mp ⟨_, hsome, hlines⟩
    | _ => trivial
  · intro h
    cases c with
    | setBreakpoints lines =>
      obtain ⟨words, hsome, hlines⟩ := exists_numerals_iff.mpr h
      exact ⟨_, .setBreakpoints hsome hlines⟩
    | clearBreakpoints lines =>
      obtain ⟨words, hsome, hlines⟩ := exists_numerals_iff.mpr h
      exact ⟨_, .clearBreakpoints hsome hlines⟩
    | help => exact ⟨_, .help List.mem_cons_self⟩
    | quit => exact ⟨_, .quit List.mem_cons_self⟩
    | clearScreen => exact ⟨_, .clearScreen List.mem_cons_self⟩
    | step mode => cases mode <;> exact ⟨_, by constructor⟩
    | trace on => cases on <;> exact ⟨_, by constructor⟩
    | _ => exact ⟨_, by constructor⟩

/-! ## Letter cases -/

/-- The number of a line has no letters to be put in lower case. -/
theorem IsLineNumber.toLower_eq {word : String} {n : Nat} (h : IsLineNumber word n) :
    word.toLower = word := by
  obtain ⟨⟨cs, hdigits, hword⟩, -⟩ := h
  have hsign : '+'.toLower = '+' := by decide
  rw [← String.toList_inj, Text.toList_toLower]
  rcases hword with hplain | hplus
  · rw [hplain, hdigits.toLower_eq]
  · rw [hplus, List.map_cons, hdigits.toLower_eq, hsign]

/-- A spelling is in small letters. -/
theorem Spells.map_toLower {words : List String} {c : Command} (h : Spells words c) :
    words.map String.toLower = words := by
  have hnumerals {words : List String} {lines : List Nat}
      (hlines : List.Forall₂ IsLineNumber words lines) : words.map String.toLower = words := by
    induction hlines with
    | nil => rfl
    | cons hword _ ih => rw [List.map_cons, hword.toLower_eq, ih]
  cases h with
  | help hword | quit hword | clearScreen hword =>
    simp only [List.mem_cons, List.not_mem_nil, or_false] at hword
    rcases hword with rfl | rfl | rfl <;> decide +kernel
  | setBreakpoints hsome hlines => exact congrArg₂ (· :: ·) (by decide +kernel) (hnumerals hlines)
  | clearBreakpoints hsome hlines =>
    exact congrArg₂ (· :: ·) (by decide +kernel) (hnumerals hlines)
  | _ => decide +kernel

/-- Words that differ in their case only are the same in small letters. -/
theorem map_toLower_of_sameLetters {typed words : List String}
    (h : List.Forall₂ SameLetters typed words) :
    typed.map String.toLower = words.map String.toLower := by
  induction h with
  | nil => rfl
  | @cons a b _ _ hsame _ ih =>
    have hword : a.toLower = b.toLower := by
      rw [← String.toList_inj, Text.toList_toLower, Text.toList_toLower]
      exact hsame
    rw [List.map_cons, List.map_cons, hword, ih]

/-! ## Lines -/

/-- A line is read as a command exactly if its words, in small letters, spell it. -/
theorem parse_eq_ok_iff {line : String} {c : Command} :
    parse line = .ok c ↔ Spells ((Text.words line).map String.toLower) c := by
  rw [← Text.words_toLower]
  constructor
  · intro h
    unfold parse at h
    split at h
    · next found hfound =>
      cases h
      exact spells_of_ofWords? hfound
    · cases h
  · intro h
    rw [parse, ofWords?_of_spells h]

/-- A line that is not read as a command is reported trimmed. -/
theorem parse_of_not_ok {line : String} (h : ∀ c, parse line ≠ .ok c) :
    parse line = .error ⟨Text.trim line⟩ := by
  cases hread : ofWords? (Text.words line.toLower) with
  | some c =>
    refine absurd ?_ (h c)
    rw [parse, hread]
  | none => rw [parse, hread]

/-- The lines accepted are those of the language of commands. A line is read as a command exactly if
it consists of words that spell the command in small letters, with blanks around them; so the lists
of line numbers are those that the numerals give, in order. The commands that can be given so are
all but those with an empty list of line numbers or a line number from `2^64` on. Each spelling of a
command is read as the command in any mix of letter cases and with any blanks around its words. And
every other line is reported as it was typed, without the blanks at its ends. The line may have any
characters; letters that are not ASCII letters occur in no spelling and have no other case here. -/
theorem parse_accepts_language :
    (∀ line c, parse line = .ok c ↔
      ∃ words, IsSpaced words line.toList ∧ Spells (words.map String.toLower) c) ∧
    (∀ c : Command, (∃ words, Spells words c) ↔ c.IsExpressible) ∧
    (∀ words c, Spells words c → ∀ typed line, List.Forall₂ SameLetters typed words →
      IsSpaced typed line.toList → parse line = .ok c) ∧
    ∀ line, (∀ c, parse line ≠ .ok c) →
      ∃ kept, IsTrimmed line kept ∧ parse line = .error ⟨kept⟩ := by
  refine ⟨?_, exists_spells_iff, ?_, ?_⟩
  · intro line c
    rw [parse_eq_ok_iff]
    constructor
    · intro hspells
      exact ⟨_, Text.words_eq_iff.mp rfl, hspells⟩
    · rintro ⟨words, hspaced, hspells⟩
      rwa [Text.words_eq_iff.mpr hspaced]
  · intro words c hspells typed line hsame hspaced
    rw [parse_eq_ok_iff, Text.words_eq_iff.mpr hspaced, map_toLower_of_sameLetters hsame,
      hspells.map_toLower]
    exact hspells
  · intro line hnot
    exact ⟨_, Text.isTrimmed_trim line, parse_of_not_ok hnot⟩

/-- A breakpoint command with a sign, leading zeros, a capital and several kinds of blanks is read,
and a line with a word that is no numeral is reported. -/
theorem parse_accepts_language_mixed :
    Spells ["b", "+007", "12"] (.setBreakpoints [7, 12]) ∧
      parse "\t B +007\x0b12 " = .ok (.setBreakpoints [7, 12]) ∧
      ∃ kept, IsTrimmed " Bc  1 Two\t" kept ∧ parse " Bc  1 Two\t" = .error ⟨kept⟩ := by
  obtain ⟨-, -, hreads, hreports⟩ := parse_accepts_language
  have hseven : IsLineNumber "+007" 7 :=
    ⟨⟨['0', '0', '7'], ⟨[0, 0, 7], by decide, by decide, rfl, rfl⟩, .inr rfl⟩, by decide⟩
  have htwelve : IsLineNumber "12" 12 :=
    ⟨⟨['1', '2'], ⟨[1, 2], by decide, by decide, rfl, rfl⟩, .inl rfl⟩, by decide⟩
  have hspells : Spells ["b", "+007", "12"] (.setBreakpoints [7, 12]) :=
    .setBreakpoints (by simp) (.cons hseven (.cons htwelve .nil))
  have hcapital : SameLetters "B" "b" := by
    unfold SameLetters
    decide +kernel
  have hspaced : IsSpaced ["B", "+007", "12"] "\t B +007\x0b12 ".toList :=
    Text.words_eq_iff.mp (by decide +kernel)
  have hnot : ∀ c, parse " Bc  1 Two\t" ≠ .ok c := by
    intro c hc
    have hwrong : parse " Bc  1 Two\t" = .error ⟨"Bc  1 Two"⟩ := by decide +kernel
    rw [hwrong] at hc
    cases hc
  refine ⟨hspells, hreads _ _ hspells _ _ ?_ hspaced, hreports _ hnot⟩
  exact .cons hcapital (.cons rfl (.cons rfl .nil))

end Console.Command

end XBytecode
