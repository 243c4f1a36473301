/-!
# Blank characters, trimming and words

Text is cut into words at blank characters, and a blank is a character with the Unicode property
`White_Space`. The zero-width space and the byte order mark do not have it, so they are letters
of a word.
-/

namespace XBytecode.Text

/-- The ranges of code points with the property `White_Space`, both ends included. -/
def blankRanges : List (Nat × Nat) :=
  [(0x09, 0x0D), (0x20, 0x20), (0x85, 0x85), (0xA0, 0xA0), (0x1680, 0x1680), (0x2000, 0x200A),
    (0x2028, 0x2029), (0x202F, 0x202F), (0x205F, 0x205F), (0x3000, 0x3000)]

/-- Whether `c` separates words. -/
def isBlank (c : Char) : Bool :=
  blankRanges.any fun (first, last) => first ≤ c.toNat && c.toNat ≤ last

/-- The ASCII characters behind the space are not blank. -/
theorem isBlank_of_ascii {c : Char} (hspace : 0x20 < c.toNat) (hascii : c.toNat < 0x80) :
    isBlank c = false := by
  simp only [isBlank, blankRanges, List.any_cons, List.any_nil, Bool.or_false,
    Bool.or_eq_false_iff, Bool.and_eq_false_iff, decide_eq_false_iff_not]
  omega

/-- The text without the blanks at its two ends. -/
def trim (text : String) : String :=
  String.ofList ((text.toList.dropWhile isBlank).reverse.dropWhile isBlank).reverse

/-- Puts the word whose letters are `held`, last letter first, before `rest`; no letters make no
word. -/
def finishWord (held : List Char) (rest : List String) : List String :=
  if held.isEmpty then rest else String.ofList held.reverse :: rest

/-- The words of a text of which the letters `held`, last letter first, have been read. -/
def wordsFrom (held : List Char) : List Char → List String
  | [] => finishWord held []
  | c :: cs => if isBlank c then finishWord held (wordsFrom [] cs) else wordsFrom (c :: held) cs

/-- The words of a text: its longest runs of characters that are not blank. -/
def words (text : String) : List String :=
  wordsFrom [] text.toList

end XBytecode.Text
