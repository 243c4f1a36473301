/-!
# Decimal numerals

A numeral is an optional sign and at least one decimal digit. Which signs a place allows and how
large the value may be differs from place to place; leading zeros are allowed everywhere.
-/

namespace XBytecode.Numeral

/-- The value of one or more decimal digits. -/
def digits? (cs : List Char) : Option Nat :=
  if cs.isEmpty || !cs.all Char.isDigit then none else some (Nat.ofDigitChars 10 cs 0)

/-- Reads digits that may follow a plus sign. -/
def nat? (text : String) : Option Nat :=
  match text.toList with
  | '+' :: cs => digits? cs
  | cs => digits? cs

/-- Reads digits that may follow a plus or a minus sign. -/
def int? (text : String) : Option Int :=
  match text.toList with
  | '-' :: cs => (digits? cs).map fun n : Nat => -(n : Int)
  | '+' :: cs => (digits? cs).map fun n : Nat => (n : Int)
  | cs => (digits? cs).map fun n : Nat => (n : Int)

/-- Reads a signed numeral whose value fits a machine word. -/
def word? (text : String) : Option Int32 :=
  match int? text with
  | some n =>
    if Int32.minValue.toInt ≤ n ∧ n ≤ Int32.maxValue.toInt then some (Int32.ofInt n) else none
  | none => none

/-- The bound on counts in bytecode text, `2^63`. -/
def countLimit : Nat :=
  0x8000000000000000

/-- Reads a signed numeral whose value is a count: at least zero and below the limit. -/
def count? (text : String) : Option Nat :=
  match int? text with
  | some n => if 0 ≤ n ∧ n.toNat < countLimit then some n.toNat else none
  | none => none

/-- The shortest numeral of a machine word, with a minus sign when it is negative. -/
def ofWord (v : Int32) : String :=
  toString v.toInt

/-! ## Reading back what is written -/

/-- The decimal digits of a number read back as the number. -/
theorem digits?_toDigits (n : Nat) : digits? (Nat.toDigits 10 n) = some n := by
  have digit : (Nat.toDigits 10 n).all Char.isDigit = true := by
    rw [List.all_eq_true]
    intro c hc
    exact Nat.isDigit_of_mem_toDigits (by decide) (by decide) hc
  have nonempty : (Nat.toDigits 10 n).isEmpty = false := by
    simp [Nat.toDigits_ne_nil]
  simp [digits?, digit, nonempty, Nat.ofDigitChars_ten_toDigits]

/-- The characters of a number's text are its decimal digits. -/
theorem toList_toString (n : Nat) : (toString n).toList = Nat.toDigits 10 n := by
  simp

/-- The text of a natural number reads back where no minus sign is allowed. -/
theorem nat?_toString (n : Nat) : nat? (toString n) = some n := by
  have digit : ∀ c ∈ Nat.toDigits 10 n, c.isDigit = true := fun c hc =>
    Nat.isDigit_of_mem_toDigits (by decide) (by decide) hc
  simp only [nat?, toList_toString]
  split
  · next cs h => simp [h] at digit
  · exact digits?_toDigits n

/-- The text of a natural number reads back, for it starts with a digit and not with a sign. -/
theorem int?_toString (n : Nat) : int? (toString n) = some (n : Int) := by
  have digit : ∀ c ∈ Nat.toDigits 10 n, c.isDigit = true := fun c hc =>
    Nat.isDigit_of_mem_toDigits (by decide) (by decide) hc
  simp only [int?, toList_toString]
  split
  · next cs h => simp [h] at digit
  · next cs h => simp [h] at digit
  · rw [digits?_toDigits, Option.map_some]

/-- The text of a machine word reads back as its value. -/
theorem int?_ofWord (v : Int32) : int? (ofWord v) = some v.toInt := by
  unfold ofWord
  cases v.toInt with
  | ofNat n => exact int?_toString n
  | negSucc n =>
    have chars : (toString (Int.negSucc n)).toList = '-' :: Nat.toDigits 10 (n + 1) := by
      show ("-" ++ toString (n + 1)).toList = _
      simp
    simp only [int?, chars, digits?_toDigits]
    rfl

/-- The text of a machine word reads back as the word. -/
theorem word?_ofWord (v : Int32) : word? (ofWord v) = some v := by
  have lower := Int32.minValue_le_toInt v
  have upper := Int32.toInt_le v
  simp only [word?, int?_ofWord]
  rw [if_pos ⟨lower, upper⟩, Int32.ofInt_toInt]

/-- The text of a count below the limit reads back. -/
theorem count?_toString {n : Nat} (h : n < countLimit) : count? (toString n) = some n := by
  simp only [count?, int?_toString, Int.toNat_natCast]
  rw [if_pos ⟨Int.natCast_nonneg n, h⟩]

end XBytecode.Numeral
