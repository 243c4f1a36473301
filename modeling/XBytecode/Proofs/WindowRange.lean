import Mathlib.Data.List.Sort
import XBytecode.Console.Window
import XBytecode.Proofs.Skipping
import XBytecode.Session.Step

/-!
# The window shows the range of its function

The window looks up the numbers of a function's lines one after the other, no further than the
source goes. Three lists are the same: what is looked up so (`windowEntries`), what a walk over all
machine words from the first line to the last one finds (`walkEntries`), however far behind the
source that leads, and the numbered lines of the source of which the number lies in the range. Each
of them ascends, and lists that ascend are equal if they have the same members
(`eq_of_ascending`), so that the ends of the range have to be looked at only for single lines.
-/

namespace XBytecode

/-! ## Numbered lines -/

/-- The numbers of the lines ascend. -/
def Ascending (entries : List (String × Nat)) : Prop :=
  entries.Pairwise fun e e' => e.2 < e'.2

/-- Ascending lists are known by their members. -/
theorem eq_of_ascending {l l' : List (String × Nat)} (h : Ascending l) (h' : Ascending l')
    (hmem : ∀ text number, (text, number) ∈ l ↔ (text, number) ∈ l') : l = l' := by
  have hantisymm : Std.Antisymm fun e e' : String × Nat => e.2 < e'.2 := by
    constructor
    intro e e' hlt hgt
    omega
  have hirrefl : Std.Irrefl fun e e' : String × Nat => e.2 < e'.2 := by
    constructor
    intro e hlt
    omega
  exact List.Pairwise.eq_of_mem_iff h h' fun e => hmem e.1 e.2

namespace Source

/-- The lines of a source with their numbers. -/
def numbered (source : Source) : List (String × Nat) :=
  source.lines.toList.zipIdx 1

/-- The lines of a source are numbered in ascending order. -/
theorem ascending_numbered (source : Source) : Ascending source.numbered := by
  unfold Ascending
  rw [← List.pairwise_map (f := Prod.snd) (R := (· < ·)), numbered, List.zipIdx_map_snd]
  exact List.pairwise_lt_range'

/-- A numbered line is the line of that number. -/
theorem mem_numbered {source : Source} {text : String} {number : Nat} :
    (text, number) ∈ source.numbered ↔ source.line? number = some text := by
  rw [numbered, List.mk_mem_zipIdx_iff_le_and_getElem?_sub, Array.getElem?_toList, line?]
  split
  · next hzero =>
    have hnot : ¬ 1 ≤ number := by omega
    simp [hnot]
  · next hpos =>
    have hyes : 1 ≤ number := by omega
    simp [hyes]

/-- The lines that are read from a text have no line feeds in them. -/
theorem lineFeed_not_mem_of_ofText {text line : String} (h : line ∈ (ofText text).lines) :
    '\n' ∉ line.toList := by
  obtain ⟨page, -, hcontents⟩ := Text.exists_page text
  have hline : line ∈ page.contents := by
    rw [hcontents]
    simpa [ofText] using h
  rw [Text.Page.contents, List.mem_append] at hline
  intro hfeed
  rcases hline with hrow | hrest
  · obtain ⟨row, -, rfl⟩ := List.mem_map.mp hrow
    exact row.unbroken _ hfeed rfl
  · split at hrest
    · cases hrest
    · obtain rfl := List.mem_singleton.mp hrest
      exact page.unbroken _ hfeed rfl

end Source

/-! ## Ranges of machine words -/

/-- The machine words from one to another, both included, in ascending order. -/
def wordsBetween (first last : Int32) : List Int32 :=
  (List.range (last.toInt + 1 - first.toInt).toNat).map fun i : Nat => Int32.ofInt (first.toInt + i)

/-- No word between two others is out of range, the largest one included. -/
theorem toInt_ofInt_add {first last : Int32} {i : Nat}
    (h : i < (last.toInt + 1 - first.toInt).toNat) :
    (Int32.ofInt (first.toInt + i)).toInt = first.toInt + i := by
  have hlower : -2 ^ 31 ≤ first.toInt := Int32.le_toInt first
  have hupper : last.toInt < 2 ^ 31 := Int32.toInt_lt last
  apply Int32.toInt_ofInt_of_le <;> omega

/-- The words between two are those that are not below the one nor above the other. -/
theorem mem_wordsBetween {first last word : Int32} :
    word ∈ wordsBetween first last ↔ first ≤ word ∧ word ≤ last := by
  rw [wordsBetween, List.mem_map, Int32.le_iff_toInt_le, Int32.le_iff_toInt_le]
  constructor
  · rintro ⟨i, hi, rfl⟩
    rw [List.mem_range] at hi
    rw [toInt_ofInt_add hi]
    omega
  · rintro ⟨hfirst, hlast⟩
    have hi : (word.toInt - first.toInt).toNat < (last.toInt + 1 - first.toInt).toNat := by omega
    refine ⟨(word.toInt - first.toInt).toNat, List.mem_range.mpr hi, ?_⟩
    rw [← Int32.toInt_inj, toInt_ofInt_add hi]
    omega

/-- The words between two are listed in ascending order. -/
theorem pairwise_wordsBetween (first last : Int32) :
    (wordsBetween first last).Pairwise fun w w' => w.toInt < w'.toInt := by
  rw [wordsBetween, List.pairwise_map]
  refine List.pairwise_lt_range.imp_of_mem ?_
  intro i j hi hj hlt
  rw [toInt_ofInt_add (List.mem_range.mp hi), toInt_ofInt_add (List.mem_range.mp hj)]
  omega

namespace Console

variable {s : Session} {text : String} {number : Nat}

/-! ## The lines shown -/

/-- Whether a source line belongs to a function. -/
def inRange (a : Activation) (number : Nat) : Bool :=
  decide (a.first.toInt ≤ number) && decide ((number : Int) ≤ a.last.toInt)

/-- The lines that the window looks up, with their numbers. -/
def windowEntries (s : Session) : List (String × Nat) :=
  (windowNumbers s.current s.source.size).filterMap fun number =>
    (s.source.line? number).map (·, number)

/-- The lines of a window are its entries, each written out. -/
theorem windowLines_eq (s : Session) :
    windowLines s = (windowEntries s).map fun (text, number) => windowLine s number text := by
  rw [windowLines, windowEntries, List.map_filterMap]
  simp only [Option.map_map]
  rfl

/-- A line is looked up exactly if it is in the range. -/
theorem mem_windowEntries :
    (text, number) ∈ windowEntries s ↔
      s.source.line? number = some text ∧ inRange s.current number = true := by
  have hentry : (text, number) ∈ windowEntries s ↔
      number ∈ windowNumbers s.current s.source.size ∧ s.source.line? number = some text := by
    simp only [windowEntries, List.mem_filterMap, Option.map_eq_some_iff, Prod.mk.injEq]
    constructor
    · rintro ⟨_, hmem, _, hline, rfl, rfl⟩
      exact ⟨hmem, hline⟩
    · rintro ⟨hmem, hline⟩
      exact ⟨number, hmem, text, hline, rfl, rfl⟩
  rw [hentry, and_comm]
  apply and_congr_right
  intro hline
  -- A line of the source is neither line zero nor behind the last one.
  have hsource : 1 ≤ number ∧ number ≤ s.source.size := Source.exists_line?_iff.mp ⟨text, hline⟩
  simp only [windowNumbers, inRange, List.mem_range'_1, Bool.and_eq_true, decide_eq_true_eq]
  omega

/-- The entries of a window ascend. -/
theorem ascending_windowEntries (s : Session) : Ascending (windowEntries s) := by
  have hnumbers : (windowNumbers s.current s.source.size).Pairwise (· < ·) :=
    List.pairwise_lt_range'
  refine hnumbers.filterMap _ ?_
  intro n n' hlt e he e' he'
  obtain ⟨_, -, rfl⟩ := Option.map_eq_some_iff.mp he
  obtain ⟨_, -, rfl⟩ := Option.map_eq_some_iff.mp he'
  exact hlt

/-- The window looks up the lines of the source that are in the range. -/
theorem windowEntries_eq_filter (s : Session) :
    windowEntries s = s.source.numbered.filter fun entry => inRange s.current entry.2 := by
  refine eq_of_ascending (ascending_windowEntries s) (s.source.ascending_numbered.filter _) ?_
  intro text number
  rw [mem_windowEntries, List.mem_filter, Source.mem_numbered]

/-! ## The walk -/

/-- The line of the window for a machine word that numbers it. -/
def walkLine (s : Session) (word : Int32) (text : String) : String :=
  (if s.source.hasBreakpoint word then "*" else " ") ++
    Text.alignRight 4 (Numeral.ofWord word ++ ".") ++ " " ++ text ++
    (if word = s.current.line then " <-----" else "")

/-- The lines of a window that walks from the first line of the function to the last one, over every
machine word between them, and passes over a word that is negative or numbers no line. -/
def walkLines (s : Session) : List String :=
  (wordsBetween s.current.first s.current.last).filterMap fun word =>
    if 0 ≤ word then (s.source.line? word.toInt.toNat).map (walkLine s word) else none

/-- The source lines that the walk finds, with their numbers. -/
def walkEntries (s : Session) : List (String × Nat) :=
  (wordsBetween s.current.first s.current.last).filterMap fun word =>
    if 0 ≤ word then (s.source.line? word.toInt.toNat).map (·, word.toInt.toNat) else none

/-- A word that is not negative numbers a line as its value does. -/
theorem walkLine_eq {word : Int32} (h : 0 ≤ word) (s : Session) (text : String) :
    walkLine s word text = windowLine s word.toInt.toNat text := by
  rw [Int32.le_iff_toInt_le] at h
  have hvalue : word.toInt = (word.toInt.toNat : Int) := (Int.toNat_of_nonneg h).symm
  have hmark : s.source.hasBreakpoint word = s.source.breakpoints.contains word.toInt.toNat := by
    have hword : 0 ≤ word := Int32.le_iff_toInt_le.mpr h
    simp [Source.hasBreakpoint, hword]
  have hnumeral : Numeral.ofWord word = toString word.toInt.toNat := by
    rw [Numeral.ofWord, hvalue]
    rfl
  have hreached : word = s.current.line ↔ (word.toInt.toNat : Int) = s.current.line.toInt := by
    rw [← hvalue, Int32.toInt_inj]
  simp only [walkLine, windowLine, hmark, hnumeral, hreached]

/-- The lines of the walk are its entries, each written out. -/
theorem walkLines_eq (s : Session) :
    walkLines s = (walkEntries s).map fun (text, number) => windowLine s number text := by
  rw [walkLines, walkEntries, List.map_filterMap]
  apply List.filterMap_congr
  intro word _
  split
  · next hword =>
    rw [Option.map_map]
    congr 1
    funext text
    exact walkLine_eq hword s text
  · rfl

/-- The walk finds what the window looks up. -/
theorem walkEntries_eq (s : Session) : walkEntries s = windowEntries s := by
  refine eq_of_ascending ?_ (ascending_windowEntries s) ?_
  · refine (pairwise_wordsBetween _ _).filterMap _ ?_
    intro w w' hlt e he e' he'
    split at he
    · next hw =>
      split at he'
      · next hw' =>
        obtain ⟨_, -, rfl⟩ := Option.map_eq_some_iff.mp he
        obtain ⟨_, -, rfl⟩ := Option.map_eq_some_iff.mp he'
        rw [Int32.le_iff_toInt_le, Int32.toInt_zero] at hw hw'
        show w.toInt.toNat < w'.toInt.toNat
        omega
      · cases he'
    · cases he
  · intro text number
    rw [mem_windowEntries, walkEntries, List.mem_filterMap]
    simp only [inRange, Bool.and_eq_true, decide_eq_true_eq]
    constructor
    · rintro ⟨word, hword, hfound⟩
      split at hfound
      · next hpos =>
        obtain ⟨_, hline, heq⟩ := Option.map_eq_some_iff.mp hfound
        cases heq
        rw [mem_wordsBetween] at hword
        rw [Int32.le_iff_toInt_le, Int32.le_iff_toInt_le] at hword
        rw [Int32.le_iff_toInt_le, Int32.toInt_zero] at hpos
        exact ⟨hline, by omega, by omega⟩
      · cases hfound
    · rintro ⟨hline, hfirst, hlast⟩
      -- The number does not exceed the last line of the function, which is a machine word.
      have hupper : s.current.last.toInt < 2 ^ 31 := Int32.toInt_lt _
      have hvalue : (Int32.ofInt number).toInt = number :=
        Int32.toInt_ofInt_of_le (by omega) (by omega)
      refine ⟨Int32.ofInt number, ?_, ?_⟩
      · rw [mem_wordsBetween, Int32.le_iff_toInt_le, Int32.le_iff_toInt_le, hvalue]
        exact ⟨hfirst, hlast⟩
      · have hpos : 0 ≤ Int32.ofInt number := by
          rw [Int32.le_iff_toInt_le, hvalue, Int32.toInt_zero]
          omega
        rw [if_pos hpos, hvalue, Int.toNat_natCast, hline]
        rfl

/-! ## The text -/

/-- A line of the window, part by part. The number and its point are moved to the right end of four
columns, and a longer number is not cut. -/
theorem windowLine_eq (s : Session) (number : Nat) (text : String) :
    windowLine s number text =
      (if number ∈ s.source.breakpoints then "*" else " ") ++
        String.ofList (List.replicate (3 - (toString number).length) ' ') ++ toString number ++
        ". " ++ text ++ (if (number : Int) = s.current.line.toInt then " <-----" else "") := by
  have hpad : 4 - (toString number ++ ".").length = 3 - (toString number).length := by
    rw [String.length_append]
    show 4 - ((toString number).length + 1) = _
    omega
  have hpoint : (". " : String) = "." ++ " " := by decide
  simp only [windowLine, Std.ExtTreeSet.contains_iff_mem, Text.alignRight_eq, hpad, hpoint,
    String.append_assoc]

/-- A line of the window has a line feed only if the source line has one. -/
theorem lineFeed_not_mem_windowLine (h : '\n' ∉ text.toList) :
    '\n' ∉ (windowLine s number text).toList := by
  have hmark : '\n' ∉ (if number ∈ s.source.breakpoints then "*" else " ").toList := by
    split <;> decide
  have harrow :
      '\n' ∉ (if (number : Int) = s.current.line.toInt then " <-----" else "").toList := by
    split <;> decide
  rw [windowLine_eq]
  simp only [String.toList_append, String.toList_ofList, List.mem_append, List.mem_replicate]
  rintro (((((hm | ⟨-, hp⟩) | hn) | hd) | ht) | ha)
  · exact hmark hm
  · exact absurd hp (by decide)
  · exact Numeral.lineFeed_not_mem_toString number hn
  · simp at hd
  · exact h ht
  · exact harrow ha

/-- The window of a function with source shows the range of the function. It has a line for each
line of the source whose number lies between the first and the last line of the function, in
ascending order, and no other; the last line may be any machine word. A line consists of a star, if
it has a breakpoint, or a blank, of its number, of its text, and of an arrow if it is the one that
has been reached. A source that is read from a text has no line feeds in its lines, so that these
are the lines of the window's text. And the window is the one that a walk over all machine words
from the first line to the last one gives. -/
theorem window_shows_range (s : Session) (h : 1 ≤ s.current.first) :
    let shown := s.source.numbered.filter fun entry => inRange s.current entry.2
    functionWindow s = Text.unlines (shown.map fun entry => windowLine s entry.2 entry.1) ∧
      (shown.map Prod.snd).Pairwise (· < ·) ∧
      (∀ number : Nat, number ∈ shown.map Prod.snd ↔
        s.current.first.toInt ≤ number ∧ (number : Int) ≤ min s.current.last.toInt s.source.size) ∧
      (∀ entry ∈ shown, s.source.line? entry.2 = some entry.1) ∧
      (∀ number text, windowLine s number text =
        (if number ∈ s.source.breakpoints then "*" else " ") ++
          String.ofList (List.replicate (3 - (toString number).length) ' ') ++ toString number ++
          ". " ++ text ++ (if (number : Int) = s.current.line.toInt then " <-----" else "")) ∧
      (∀ text, s.source.lines = (Source.ofText text).lines →
        ∀ entry ∈ shown, '\n' ∉ (windowLine s entry.2 entry.1).toList) ∧
      functionWindow s = Text.unlines (walkLines s) := by
  intro shown
  have hentries : windowEntries s = shown := windowEntries_eq_filter s
  have hfirst : 1 ≤ s.current.first.toInt := Int32.le_iff_toInt_le.mp h
  have hsource : s.current.isIntrinsic = false := by
    rw [Activation.isIntrinsic, decide_eq_false_iff_not, Int32.le_iff_toInt_le, Int32.toInt_zero]
    omega
  have hwindow : functionWindow s = Text.unlines (windowLines s) := by
    rw [functionWindow, hsource]
    rfl
  have hmem : ∀ {text number}, (text, number) ∈ shown ↔
      s.source.line? number = some text ∧ inRange s.current number = true := by
    intro text number
    rw [← hentries, mem_windowEntries]
  refine ⟨?_, ?_, ?_, ?_, windowLine_eq s, ?_, ?_⟩
  · rw [hwindow, windowLines_eq, hentries]
  · rw [List.pairwise_map, ← hentries]
    exact ascending_windowEntries s
  · intro number
    have hnumber : number ∈ shown.map Prod.snd ↔
        (∃ text, s.source.line? number = some text) ∧ inRange s.current number = true := by
      simp [List.mem_map, hmem]
    rw [hnumber, Source.exists_line?_iff, inRange, Bool.and_eq_true, decide_eq_true_eq,
      decide_eq_true_eq]
    omega
  · rintro ⟨text, number⟩ hentry
    exact (hmem.mp hentry).1
  · rintro text hlines ⟨line, number⟩ hentry
    have hline : line ∈ (Source.ofText text).lines := by
      rw [← hlines, ← Array.mem_toList_iff]
      exact List.fst_mem_of_mem_zipIdx (List.mem_of_mem_filter hentry)
    exact lineFeed_not_mem_windowLine (Source.lineFeed_not_mem_of_ofText hline)
  · rw [hwindow, walkLines_eq, walkEntries_eq, windowLines_eq]

/-- A session that has entered a function which ends where machine words do, far behind the last
line. -/
def openSession : Session :=
  let source : Source := { lines := #["program \x7b", "int x", "x = 2"], breakpoints := {3} }
  (Session.start source {}).enterFunction "f" 2 Int32.maxValue

/-- The window of the session ends with the source, though the walk goes on. -/
theorem window_shows_range_open :
    (1 ≤ openSession.current.first ∧ openSession.current.last.toInt = 2147483647) ∧
      functionWindow openSession = "   2. int x <-----\n*  3. x = 2\n" ∧
      functionWindow openSession = Text.unlines (walkLines openSession) := by
  have hfirst : 1 ≤ openSession.current.first := by decide
  obtain ⟨-, -, -, -, -, -, hwalk⟩ := window_shows_range openSession hfirst
  exact ⟨⟨hfirst, by decide⟩, by decide +kernel, hwalk⟩

end Console

end XBytecode
