import Mathlib.Data.List.Induction
import Mathlib.Data.Nat.Digits.Defs
import XBytecode.Program.Decode

/-!
# How words are spelled

What the words of a line may look like, stated without the functions that read them. Two words are
the same but for the case of their ASCII letters if lower-casing makes them equal
(`Text.SameLetters`), which is as good as capitalising them. A numeral is an optional sign and
decimal digits, and its value is that of its digits to the base ten (`Numeral.IsNumeral`). The
readers of keywords, operator symbols, dump modes, machine words and counts read exactly what is
spelled so.
-/

namespace XBytecode

namespace Text

/-- The texts are the same but for the case of their ASCII letters. -/
def SameLetters (a b : String) : Prop :=
  a.toList.map Char.toLower = b.toList.map Char.toLower

/-- The code of a capitalised character. -/
theorem toNat_toUpper (c : Char) :
    c.toUpper.toNat = if 97 ≤ c.toNat ∧ c.toNat ≤ 122 then c.toNat - 32 else c.toNat := by
  have hsmall : c.toNat < 4294967296 := c.val.toNat_lt
  unfold Char.toUpper
  split
  · next h =>
    simp only [UInt32.le_iff_toNat_le] at h
    have hrange : 97 ≤ c.toNat ∧ c.toNat ≤ 122 := h
    -- The difference of the two alphabets is negative, so that the sum wraps around.
    have hsum : (c.val + (65 - 97)).toNat = (c.toNat + 4294967264) % 4294967296 :=
      UInt32.toNat_add _ _
    rw [if_pos hrange]
    show (c.val + (65 - 97)).toNat = _
    omega
  · next h =>
    simp only [UInt32.le_iff_toNat_le] at h
    have hrange : ¬(97 ≤ c.toNat ∧ c.toNat ≤ 122) := h
    rw [if_neg hrange]

/-- The code of a lower-cased character. -/
theorem toNat_toLower (c : Char) :
    c.toLower.toNat = if 65 ≤ c.toNat ∧ c.toNat ≤ 90 then c.toNat + 32 else c.toNat := by
  have hsmall : c.toNat < 4294967296 := c.val.toNat_lt
  unfold Char.toLower
  split
  · next h =>
    simp only [ge_iff_le, UInt32.le_iff_toNat_le] at h
    have hrange : 65 ≤ c.toNat ∧ c.toNat ≤ 90 := h
    have hsum : (c.val + (97 - 65)).toNat = (c.toNat + 32) % 4294967296 := UInt32.toNat_add _ _
    rw [if_pos hrange]
    show (c.val + (97 - 65)).toNat = _
    omega
  · next h =>
    simp only [ge_iff_le, UInt32.le_iff_toNat_le] at h
    have hrange : ¬(65 ≤ c.toNat ∧ c.toNat ≤ 90) := h
    rw [if_neg hrange]

/-- Two characters are capitalised alike exactly if they are lower-cased alike. -/
theorem toUpper_eq_toUpper_iff (c d : Char) : c.toUpper = d.toUpper ↔ c.toLower = d.toLower := by
  have hupper := toNat_toUpper c
  have hupper' := toNat_toUpper d
  have hlower := toNat_toLower c
  have hlower' := toNat_toLower d
  rw [← Char.toNat_inj, ← Char.toNat_inj (c := c.toLower)]
  split_ifs at hupper hupper' hlower hlower' <;> omega

/-- Texts are the same but for the case of their ASCII letters if capitalising makes them equal. -/
theorem sameLetters_iff (a b : String) : SameLetters a b ↔ a.toUpper = b.toUpper := by
  have hlists (cs ds : List Char) :
      cs.map Char.toLower = ds.map Char.toLower ↔ cs.map Char.toUpper = ds.map Char.toUpper := by
    induction cs generalizing ds with
    | nil => cases ds <;> simp
    | cons c cs ih =>
      cases ds with
      | nil => simp
      | cons d ds => simp only [List.map_cons, List.cons.injEq, ih ds, toUpper_eq_toUpper_iff c d]
  rw [SameLetters, hlists, ← String.toList_inj, String.toUpper, String.toUpper, String.toList_map,
    String.toList_map]

end Text

open Text (SameLetters sameLetters_iff)

/-! ## Keywords, operators and dump modes -/

/-- A word is read as an opcode exactly if it is the opcode's keyword but for the case. -/
theorem Opcode.ofKeyword?_eq_some_iff {word : String} {op : Opcode} :
    ofKeyword? word = some op ↔ SameLetters word op.keyword := by
  have hcapitals : op.keyword.toUpper = op.keyword := by cases op <;> decide +kernel
  rw [sameLetters_iff, hcapitals]
  constructor
  · intro h
    have hfound := List.find?_some h
    exact (eq_of_beq hfound).symm
  · intro h
    -- A keyword is recognised, and all that is looked at is the capitalised word.
    have hkeyword := ofKeyword?_keyword op
    rw [ofKeyword?, hcapitals] at hkeyword
    rw [ofKeyword?, h, hkeyword]

/-- A word is read as an operator exactly if it is the operator's symbol. -/
theorem Operator.ofSymbol?_eq_some_iff {word : String} {op : Operator} :
    ofSymbol? word = some op ↔ word = op.symbol := by
  constructor
  · intro h
    have hfound := List.find?_some h
    exact (eq_of_beq hfound).symm
  · rintro rfl
    exact ofSymbol?_symbol op

/-- How a dump mode is written. -/
def modeKeyword (on : Bool) : String :=
  if on then "ON" else "OFF"

/-- A word is read as a dump mode exactly if it is the mode's keyword but for the case. -/
theorem dumpMode?_eq_some_iff {word : String} {on : Bool} :
    dumpMode? word = some on ↔ SameLetters word (modeKeyword on) := by
  have hcapitals : (modeKeyword on).toUpper = modeKeyword on := by cases on <;> decide +kernel
  rw [sameLetters_iff, hcapitals]
  unfold dumpMode?
  cases on with
  | true =>
    have hkeyword : modeKeyword true = "ON" := rfl
    rw [hkeyword]
    split
    · next h => simp [eq_of_beq h]
    · next h =>
      rw [beq_iff_eq] at h
      split <;> simp [h]
  | false =>
    have hkeyword : modeKeyword false = "OFF" := rfl
    rw [hkeyword]
    split
    · next h => simp [eq_of_beq h]
    · split
      · next h => simp [eq_of_beq h]
      · next h =>
        rw [beq_iff_eq] at h
        simp [h]

/-! ## Numerals -/

namespace Numeral

/-- The characters are the decimal digits of a number, at least one and the most significant one
first, where zeros may lead. -/
def IsDigits (cs : List Char) (n : Nat) : Prop :=
  ∃ ds : List Nat, ds ≠ [] ∧ (∀ d ∈ ds, d < 10) ∧ cs = ds.map Nat.digitChar ∧
    n = Nat.ofDigits 10 ds.reverse

/-- The text is a numeral with the value given: decimal digits, behind a sign or not. -/
def IsNumeral (text : String) (n : Int) : Prop :=
  ∃ cs k, IsDigits cs k ∧
    ((text.toList = cs ∧ n = k) ∨ (text.toList = '+' :: cs ∧ n = k) ∨
      (text.toList = '-' :: cs ∧ n = -k))

/-- A decimal digit is the one of its value. -/
theorem digitChar_of_isDigit {c : Char} (h : c.isDigit = true) :
    c.toNat - 48 < 10 ∧ Nat.digitChar (c.toNat - 48) = c := by
  have hrange : 48 ≤ c.toNat ∧ c.toNat ≤ 57 := by
    simp only [Char.isDigit, Bool.and_eq_true, decide_eq_true_eq, ge_iff_le,
      UInt32.le_iff_toNat_le] at h
    exact h
  have hvalue : c.toNat - 48 < 10 := by omega
  refine ⟨hvalue, Char.toNat_inj.mp ?_⟩
  rw [Nat.toNat_digitChar_of_lt_ten hvalue]
  omega

/-- The value of digits is that to the base ten. -/
theorem ofDigitChars_map (ds : List Nat) (h : ∀ d ∈ ds, d < 10) :
    Nat.ofDigitChars 10 (ds.map Nat.digitChar) 0 = Nat.ofDigits 10 ds.reverse := by
  induction ds using List.reverseRecOn with
  | nil => rfl
  | append_singleton ds d ih =>
    have hd : d < 10 := h d (by simp)
    have hrest := ih fun x hx => h x (by simp [hx])
    have hlast : (Nat.digitChar d).toNat - '0'.toNat = d :=
      Nat.toNat_digitChar_sub_48_of_lt_ten hd
    rw [List.map_append, Nat.ofDigitChars_append, hrest, List.reverse_append, List.map_singleton,
      Nat.ofDigitChars_cons, hlast, List.reverse_singleton, List.singleton_append,
      Nat.ofDigits_cons]
    show 10 * _ + d = _
    omega

/-- Digits are read as the number of which they are the digits. -/
theorem digits?_eq_some_iff {cs : List Char} {n : Nat} : digits? cs = some n ↔ IsDigits cs n := by
  constructor
  · intro h
    unfold digits? at h
    split at h
    · cases h
    · next hcs =>
      simp only [Bool.or_eq_true, List.isEmpty_iff, Bool.not_eq_true', Bool.not_eq_false,
        not_or, List.all_eq_true] at hcs
      obtain ⟨hne, hdigits⟩ := hcs
      have hmap : cs = (cs.map fun c => c.toNat - 48).map Nat.digitChar := by
        rw [List.map_map]
        conv_lhs => rw [← List.map_id cs]
        exact List.map_congr_left fun c hc => (digitChar_of_isDigit (hdigits c hc)).2.symm
      have hsmall : ∀ d ∈ cs.map fun c => c.toNat - 48, d < 10 := by
        intro d hd
        obtain ⟨c, hc, rfl⟩ := List.mem_map.mp hd
        exact (digitChar_of_isDigit (hdigits c hc)).1
      refine ⟨_, by simpa using hne, hsmall, hmap, ?_⟩
      rw [← ofDigitChars_map _ hsmall, ← hmap]
      exact (Option.some.inj h).symm
  · rintro ⟨ds, hne, hsmall, rfl, rfl⟩
    have hall : (ds.map Nat.digitChar).all Char.isDigit = true := by
      rw [List.all_eq_true]
      intro c hc
      obtain ⟨d, hd, rfl⟩ := List.mem_map.mp hc
      rw [Nat.isDigit_digitChar, decide_eq_true (hsmall d hd)]
    have hempty : (ds.map Nat.digitChar).isEmpty = false := by simpa using hne
    rw [digits?, hall, hempty, ofDigitChars_map ds hsmall]
    rfl

/-- Digits start with no sign. -/
theorem IsDigits.head_ne {cs rest : List Char} {c : Char} {n : Nat} (h : IsDigits cs n)
    (hcs : cs = c :: rest) : c ≠ '+' ∧ c ≠ '-' := by
  have hread := digits?_eq_some_iff.mpr h
  rw [hcs] at hread
  constructor
  · rintro rfl
    simp [digits?] at hread
  · rintro rfl
    simp [digits?] at hread

/-- A text is read as an integer exactly if it is a numeral of it. -/
theorem int?_eq_some_iff {text : String} {n : Int} : int? text = some n ↔ IsNumeral text n := by
  unfold int? IsNumeral
  split
  · next cs hsign =>
    simp only [hsign, Option.map_eq_some_iff, digits?_eq_some_iff]
    constructor
    · rintro ⟨k, hk, rfl⟩
      exact ⟨cs, k, hk, .inr (.inr ⟨rfl, rfl⟩)⟩
    · rintro ⟨ds, k, hk, ⟨hds, -⟩ | ⟨hds, -⟩ | ⟨hds, rfl⟩⟩
      · exact absurd rfl (hk.head_ne hds.symm).2
      · simp at hds
      · obtain rfl := (List.cons.inj hds).2
        exact ⟨k, hk, rfl⟩
  · next cs hsign =>
    simp only [hsign, Option.map_eq_some_iff, digits?_eq_some_iff]
    constructor
    · rintro ⟨k, hk, rfl⟩
      exact ⟨cs, k, hk, .inr (.inl ⟨rfl, rfl⟩)⟩
    · rintro ⟨ds, k, hk, ⟨hds, -⟩ | ⟨hds, rfl⟩ | ⟨hds, -⟩⟩
      · exact absurd rfl (hk.head_ne hds.symm).1
      · obtain rfl := (List.cons.inj hds).2
        exact ⟨k, hk, rfl⟩
      · simp at hds
  · next hminus hplus =>
    simp only [Option.map_eq_some_iff, digits?_eq_some_iff]
    constructor
    · rintro ⟨k, hk, rfl⟩
      exact ⟨_, k, hk, .inl ⟨rfl, rfl⟩⟩
    · rintro ⟨ds, k, hk, ⟨rfl, rfl⟩ | ⟨hds, -⟩ | ⟨hds, -⟩⟩
      · exact ⟨k, hk, rfl⟩
      · exact absurd hds (hplus ds)
      · exact absurd hds (hminus ds)

/-- A text is read as a machine word exactly if it is a numeral of its value. -/
theorem word?_eq_some_iff {text : String} {v : Int32} :
    word? text = some v ↔ IsNumeral text v.toInt := by
  rw [← int?_eq_some_iff]
  have hlower := Int32.minValue_le_toInt v
  have hupper := Int32.toInt_le v
  unfold word?
  cases hread : int? text with
  | none => simp
  | some n =>
    simp only [Option.some.injEq]
    split
    · next hrange =>
      have hbelow : n < 2 ^ 31 := Int.lt_of_le_of_lt hrange.2 (by decide)
      have hback : (Int32.ofInt n).toInt = n := Int32.toInt_ofInt_of_le hrange.1 hbelow
      constructor
      · rintro ⟨rfl⟩
        exact hback.symm
      · rintro rfl
        rw [Int32.ofInt_toInt]
    · next hrange =>
      constructor
      · intro h
        cases h
      · rintro rfl
        exact absurd ⟨hlower, hupper⟩ hrange

/-- A text is read as a count exactly if it is a numeral of it and it is below the limit. -/
theorem count?_eq_some_iff {text : String} {n : Nat} :
    count? text = some n ↔ IsNumeral text n ∧ n < countLimit := by
  rw [← int?_eq_some_iff]
  unfold count?
  cases hread : int? text with
  | none => simp
  | some k =>
    simp only [Option.some.injEq]
    split
    · next hrange =>
      simp only [Option.some.injEq]
      omega
    · next hrange =>
      constructor
      · intro h
        cases h
      · rintro ⟨rfl, hlimit⟩
        exact absurd ⟨Int.natCast_nonneg n, by simpa using hlimit⟩ hrange

end Numeral

end XBytecode
