import Mathlib.Data.List.Basic
import XBytecode.Proofs.CallReturn
import XBytecode.Proofs.Words

/-!
# What the layout of a stack tells

The groups of a layout are cut out of the slots between one base and the next (`groups`). Whatever
the bases are, there is one group for each, and the ends of every cut can be held to the slots that
exist without a change to the group (`groups_eq_ranges`). Where the bases do not descend, one group
ends where the next one starts, so that all of them together are the slots (`flatten_groups`); and
where no base is above the slots, the lengths of the groups add up to the bases (`starts_groups`).

The text can be read back: the groups stand between blanks, and the numerals of a group between
commas (`readLayout_layout`). So the text tells the groups, and the groups tell the stack.
-/

namespace XBytecode

/-- A numeral has no other characters than digits and the minus sign. -/
theorem Numeral.mem_ofWord {v : Int32} {c : Char} (h : c ∈ (ofWord v).toList) :
    c.isDigit = true ∨ c = '-' := by
  have hdigit {n : Nat} (hc : c ∈ (toString n).toList) : c.isDigit = true := by
    rw [toList_toString] at hc
    exact Nat.isDigit_of_mem_toDigits (by decide) (by decide) hc
  unfold ofWord at h
  cases hv : v.toInt with
  | ofNat n =>
    rw [hv] at h
    exact .inl (hdigit h)
  | negSucc n =>
    have hsign : toString (Int.negSucc n) = "-" ++ toString (n + 1) := rfl
    rw [hv, hsign, String.toList_append, List.mem_append] at h
    obtain hminus | hdigits := h
    · exact .inr (List.mem_singleton.mp hminus)
    · exact .inl (hdigit hdigits)

namespace Stack

/-! ## Groups -/

/-- The values between each base and the next one, up to the last slot for the last base. -/
def groups (slots : Array Int32) (bases : List Nat) : List (List Int32) :=
  List.zipWith (slice slots) bases (bases.tail ++ [slots.size])

/-- The frames are the groups between their bases. -/
theorem frames_eq_groups (s : Stack) : s.frames = groups s.slots s.frameBases := rfl

variable {slots : Array Int32} {base next : Nat} {rest : List Nat}

/-- The first of several groups ends where the next one starts. -/
theorem groups_cons_cons :
    groups slots (base :: next :: rest) = slice slots base next :: groups slots (next :: rest) :=
  rfl

/-- A slice is taken up to its end and dropped up to its start. -/
theorem slice_eq (slots : Array Int32) (first stop : Nat) :
    slice slots first stop = (slots.toList.take stop).drop first := by
  rw [slice, Array.toList_extract, List.extract_eq_take_drop, List.drop_take]

/-- There is one group for each base. -/
theorem length_groups (slots : Array Int32) (bases : List Nat) :
    (groups slots bases).length = bases.length := by
  rw [groups, List.length_zipWith]
  cases bases with
  | nil => rfl
  | cons base rest => simp

/-- A group reaches from its base to the next one, and the last group to the last slot. -/
theorem getElem?_groups {bases : List Nat} {i : Nat} (h : bases[i]? = some base) :
    (groups slots bases)[i]? =
      some ((slots.toList.take (bases[i + 1]?.getD slots.size)).drop base) := by
  have hlt : i < bases.length := (List.getElem?_eq_some_iff.mp h).1
  have hnext : (bases.tail ++ [slots.size])[i]? = some (bases[i + 1]?.getD slots.size) := by
    by_cases hlast : i + 1 < bases.length
    · rw [List.getElem?_append_left (by rw [List.length_tail]; omega), List.getElem?_tail,
        List.getElem?_eq_getElem hlast, Option.getD_some]
    · have hend : i = bases.tail.length := by rw [List.length_tail]; omega
      rw [hend, List.getElem?_concat_length, List.length_tail,
        List.getElem?_eq_none (by omega), Option.getD_none]
  rw [groups, List.getElem?_zipWith, h, hnext, ← slice_eq]

/-! ## Ranges -/

/-- Holding the ends to the slots does not change what is cut out. -/
theorem slice_min (slots : Array Int32) (first stop : Nat) :
    slice slots (min first (min stop slots.size)) (min stop slots.size) =
      slice slots first stop := by
  have htake : slots.toList.take (min stop slots.size) = slots.toList.take stop := by
    rw [← Array.length_toList, List.take_eq_take_iff]
    omega
  rw [slice_eq, slice_eq, htake]
  by_cases h : first ≤ min stop slots.size
  · rw [Nat.min_eq_left h]
  · -- Both cuts start behind what there is.
    rw [List.drop_eq_nil_of_le (by simp; omega), List.drop_eq_nil_of_le (by simp; omega)]

/-- The groups are what lies in their ranges. -/
theorem groups_eq_ranges (slots : Array Int32) (bases : List Nat) :
    groups slots bases = (ranges slots.size bases).map fun (first, stop) =>
      slice slots first stop := by
  induction bases with
  | nil => rfl
  | cons base rest ih =>
    rw [ranges, List.map_cons, ← ih]
    cases rest with
    | nil => exact congrArg (· :: []) (slice_min slots base slots.size).symm
    | cons next rest =>
      rw [groups_cons_cons]
      exact congrArg (· :: _) (slice_min slots base next).symm

/-- There is one range for each base, and it ends where it starts or behind that, and not behind the
last slot. -/
theorem ranges_within (size : Nat) (bases : List Nat) :
    (ranges size bases).length = bases.length ∧
      ∀ range ∈ ranges size bases, range.1 ≤ range.2 ∧ range.2 ≤ size := by
  induction bases with
  | nil => simp [ranges]
  | cons base rest ih =>
    obtain ⟨hlength, hwithin⟩ := ih
    refine ⟨by simp [ranges, hlength], ?_⟩
    rw [ranges, List.forall_mem_cons]
    exact ⟨⟨Nat.min_le_right _ _, Nat.min_le_right _ _⟩, hwithin⟩

/-! ## From the groups to the stack -/

/-- Where bases do not descend, the groups make up the slots from the first base on. -/
theorem flatten_groups (h : (base :: rest).Pairwise (· ≤ ·)) :
    (groups slots (base :: rest)).flatten = slots.toList.drop base := by
  induction rest generalizing base with
  | nil =>
    have hall : slots.toList.take slots.size = slots.toList := by
      rw [← Array.length_toList, List.take_length]
    simp [groups, slice_eq, hall]
  | cons next rest ih =>
    obtain ⟨hbase, hrest⟩ := List.pairwise_cons.mp h
    have hle : base ≤ next := hbase next List.mem_cons_self
    rw [groups_cons_cons, List.flatten_cons, ih hrest, slice_eq]
    calc (slots.toList.take next).drop base ++ slots.toList.drop next
        = (slots.toList.drop base).take (next - base) ++
            (slots.toList.drop base).drop (next - base) := by
          rw [List.drop_take, List.drop_drop, Nat.add_sub_cancel' hle]
      _ = slots.toList.drop base := List.take_append_drop _ _

/-- Where groups start that lie one behind the other, the first one at `first`. -/
def starts (first : Nat) : List (List Int32) → List Nat
  | [] => []
  | group :: rest => first :: starts (first + group.length) rest

/-- Where bases do not descend and none is above the slots, the groups start at the bases. -/
theorem starts_groups (hordered : (base :: rest).Pairwise (· ≤ ·))
    (hwithin : ∀ b ∈ base :: rest, b ≤ slots.size) :
    starts base (groups slots (base :: rest)) = base :: rest := by
  induction rest generalizing base with
  | nil => rfl
  | cons next rest ih =>
    obtain ⟨hbase, hrest⟩ := List.pairwise_cons.mp hordered
    obtain ⟨-, hwithin⟩ := List.forall_mem_cons.mp hwithin
    have hle : base ≤ next := hbase next List.mem_cons_self
    have hnext : next ≤ slots.size := hwithin next List.mem_cons_self
    have hlength : (slice slots base next).length = next - base := by
      rw [slice_eq, List.length_drop, List.length_take, Array.length_toList]
      omega
    rw [groups_cons_cons, starts, hlength, Nat.add_sub_cancel' hle, ih hrest hwithin]

/-! ## Reading a layout -/

/-- The values of a frame, read from its text. -/
def readFrame (text : String) : List Int32 :=
  (text.toList.tail.dropLast.splitOn ',').filterMap fun numeral =>
    Numeral.word? (String.ofList numeral)

/-- The values of all frames, read from the text of a layout. -/
def readLayout (text : String) : List (List Int32) :=
  (Text.words text).map readFrame

/-- The values of a frame are read back from its text. -/
theorem readFrame_frameText (values : List Int32) : readFrame (frameText values) = values := by
  have hbody : (frameText values).toList.tail.dropLast =
      [','].intercalate (values.map fun v => (Numeral.ofWord v).toList) := by
    simp [frameText, String.toList_intercalate, Function.comp_def]
  rw [readFrame, hbody]
  cases values with
  | nil => decide
  | cons v values =>
    rw [List.splitOn_intercalate, List.filterMap_map]
    · simp [Numeral.word?_ofWord]
    · -- The commas are none of the characters of a numeral.
      intro numeral hnumeral hcomma
      obtain ⟨v, -, rfl⟩ := List.mem_map.mp hnumeral
      obtain hdigit | hminus := Numeral.mem_ofWord hcomma
      · exact absurd hdigit (by decide)
      · exact absurd hminus (by decide)
    · simp

/-- The text of a frame is a word. -/
theorem isWord_frameText (values : List Int32) : Text.IsWord (frameText values) where
  ne_empty h := by
    have hletters := congrArg String.toList h
    simp [frameText] at hletters
  unblank c hc := by
    rw [frameText, String.toList_append, String.toList_append, List.mem_append,
      List.mem_append] at hc
    obtain (hopen | hbody) | hclose := hc
    · rw [List.mem_singleton.mp hopen]
      decide
    · obtain hcomma | ⟨numeral, hnumeral, hc⟩ := Text.mem_of_mem_intercalate hbody
      · rw [List.mem_singleton.mp hcomma]
        decide
      · obtain ⟨v, -, rfl⟩ := List.mem_map.mp hnumeral
        exact (Numeral.isWord_ofWord v).unblank c hc
    · rw [List.mem_singleton.mp hclose]
      decide

/-- The values of all frames are read back from the layout. -/
theorem readLayout_layout (s : Stack) : readLayout s.layout = s.frames := by
  have hwords : ∀ text ∈ s.frames.map frameText, Text.IsWord text := by
    intro text htext
    obtain ⟨values, -, rfl⟩ := List.mem_map.mp htext
    exact isWord_frameText values
  rw [readLayout, layout, Text.words_intercalate hwords, List.map_map]
  simp [Function.comp_def, readFrame_frameText]

/-- The groups of a stack whose bases do not descend, and are not above its slots, tell the slots
and the bases. -/
theorem frames_tell {s : Stack} (hordered : s.frameBases.Pairwise (· ≤ ·))
    (hwithin : ∀ base ∈ s.frameBases, base ≤ s.size) :
    s.frames.flatten = s.slots.toList ∧ starts 0 s.frames = s.frameBases :=
  ⟨flatten_groups hordered, starts_groups hordered hwithin⟩

/-- The layout of a stack whose bases do not descend, and are not above its slots, is faithful. Its
groups are the slots between one base and the next, up to the last slot for the last group, and all
together they are the slots. Another such stack with the same text has the same slots and the same
bases. For any slots and any bases there is one group for each base, cut out within the bounds of
the slots, and the frames of any stack are its groups. -/
theorem layout_faithful :
    (∀ s : Stack, s.frameBases.Pairwise (· ≤ ·) → (∀ base ∈ s.frameBases, base ≤ s.size) →
      (∀ i base, s.frameBases[i]? = some base →
        s.frames[i]? = some ((s.slots.toList.take (s.frameBases[i + 1]?.getD s.size)).drop base)) ∧
      s.frames.flatten = s.slots.toList ∧
      ∀ t : Stack, t.frameBases.Pairwise (· ≤ ·) → (∀ base ∈ t.frameBases, base ≤ t.size) →
        t.layout = s.layout → t.slots = s.slots ∧ t.frameBases = s.frameBases) ∧
    (∀ (slots : Array Int32) (bases : List Nat),
      (groups slots bases).length = bases.length ∧
      groups slots bases = (ranges slots.size bases).map (fun r => slice slots r.1 r.2) ∧
      ∀ r ∈ ranges slots.size bases, r.1 ≤ r.2 ∧ r.2 ≤ slots.size) ∧
    ∀ s : Stack, s.frames = groups s.slots s.frameBases ∧ s.frames.length = s.frameCount := by
  refine ⟨?_, ?_, ?_⟩
  · intro s hordered hwithin
    obtain ⟨hslots, hbases⟩ := frames_tell hordered hwithin
    refine ⟨fun i base h => getElem?_groups h, hslots, ?_⟩
    intro t ht htwithin htext
    obtain ⟨htslots, htbases⟩ := frames_tell ht htwithin
    have hframes : t.frames = s.frames := by
      rw [← readLayout_layout t, htext, readLayout_layout s]
    rw [hframes] at htslots htbases
    exact ⟨Array.toList_inj.mp (htslots.symm.trans hslots), htbases.symm.trans hbases⟩
  · intro slots bases
    exact ⟨length_groups slots bases, groups_eq_ranges slots bases,
      (ranges_within slots.size bases).2⟩
  · intro s
    refine ⟨frames_eq_groups s, ?_⟩
    rw [frames_eq_groups, length_groups]
    simp [frameBases, frameCount]

/-- A stack with an empty frame below its last values and one on top of them. -/
def sampleStack : Stack :=
  { slots := #[1, -2, 3], bases := #[1, 1, 3] }

/-- Whatever stack shows the sample's text is the sample. -/
theorem layout_faithful_sample :
    sampleStack.layout = "[1] [] [-2,3] []" ∧
      (sampleStack.frameBases.Pairwise (· ≤ ·) ∧
        ∀ base ∈ sampleStack.frameBases, base ≤ sampleStack.size) ∧
      sampleStack.frames.flatten = [1, -2, 3] ∧
      ∀ t : Stack, t.frameBases.Pairwise (· ≤ ·) → (∀ base ∈ t.frameBases, base ≤ t.size) →
        t.layout = "[1] [] [-2,3] []" →
          t.slots = #[1, -2, 3] ∧ t.frameBases = [0, 1, 1, 3] := by
  have htext : sampleStack.layout = "[1] [] [-2,3] []" := rfl
  have hordered : sampleStack.frameBases.Pairwise (· ≤ ·) := by decide
  have hwithin : ∀ base ∈ sampleStack.frameBases, base ≤ sampleStack.size := by decide
  obtain ⟨-, hslots, htells⟩ := layout_faithful.1 sampleStack hordered hwithin
  refine ⟨htext, ⟨hordered, hwithin⟩, hslots, ?_⟩
  intro t ht htwithin hsame
  exact htells t ht htwithin (hsame.trans htext.symm)

end Stack

end XBytecode
