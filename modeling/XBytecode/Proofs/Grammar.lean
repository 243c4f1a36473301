import Mathlib.Data.List.Forall2
import XBytecode.Proofs.RoundTrip
import XBytecode.Proofs.Skipping
import XBytecode.Proofs.Spelling

/-!
# The grammar of a line

A line spells an instruction if its first word is the keyword of an opcode, but for the case, and
the words behind it start with the operands that the opcode asks for (`Opcode.kinds`), each in a way
in which an operand of its kind can be written (`Operand.IsWritten`). `LIT` and `RETURN` also take
the next word, if there is one, as a name. Otherwise the line is at fault, and the first operand
from the left that is missing or ill-formed decides how (`Opcode.Refuses`).

Decoding is tied to this grammar in two stages. Operands are fetched one after the other
(`Operands.fetchAll`), which succeeds and fails as the grammar says, whatever the kinds are. And the
instruction of an opcode is made of the operands fetched for it (`values_ofOperands`), which is the
only place where the opcodes are looked at one by one.
-/

namespace XBytecode

open Text (SameLetters words isBlankLine)

/-- The kinds of operands. -/
inductive Operand.Kind where
  /-- A number of slots, or the place of one. -/
  | count
  /-- A machine word. -/
  | word
  /-- Any word of text. -/
  | name
  /-- The symbol of an operator. -/
  | operator
  /-- `ON` or `OFF`. -/
  | mode
  deriving DecidableEq, Repr

/-- An operand that an instruction must have. -/
inductive Operand where
  | count (n : Nat)
  | word (v : Int32)
  | name (text : String)
  | operator (op : Operator)
  | mode (on : Bool)
  deriving DecidableEq, Repr

namespace Operand

/-- The kind of an operand. -/
def kind : Operand → Kind
  | count _ => .count
  | word _ => .word
  | name _ => .name
  | operator _ => .operator
  | mode _ => .mode

/-- The words in which an operand can be written. -/
def IsWritten : Operand → String → Prop
  | count n, token => Numeral.IsNumeral token n ∧ n < Numeral.countLimit
  | word v, token => Numeral.IsNumeral token v.toInt
  | name text, token => token = text
  | operator op, token => token = op.symbol
  | mode on, token => SameLetters token (modeKeyword on)

/-- How an operand is printed. -/
def text : Operand → String
  | count n => toString n
  | word v => Numeral.ofWord v
  | name text => text
  | operator op => op.symbol
  | mode on => modeKeyword on

/-- The word is an operand of the kind. -/
def Kind.Accepts (kind : Kind) (token : String) : Prop :=
  ∃ v : Operand, v.kind = kind ∧ v.IsWritten token

/-- How a word is reported that is no operand of the kind. Every word is a name. -/
def Kind.complaint? (kind : Kind) (token : String) : Option DecodeError :=
  match kind with
  | .count | .word => some (.invalidNumber token)
  | .operator => some (.unknownOperator token)
  | .mode => some (.invalidDumpMode token)
  | .name => none

end Operand

namespace Opcode

/-- The operands that an opcode asks for, in order. -/
def kinds : Opcode → List Operand.Kind
  | halt | read | write | ret => []
  | args | pop => [.count]
  | call | falseBranch | goto | label => [.name]
  | lit | line => [.word]
  | bop => [.operator]
  | dump => [.mode]
  | load | store => [.count, .name]
  | formal => [.name, .count]
  | function => [.name, .word, .word]

/-- Whether the word behind the operands, if there is one, is taken as a name. -/
def takesName : Opcode → Bool
  | lit | ret => true
  | _ => false

/-- The number of words that an opcode looks at, at most. -/
def reach (op : Opcode) : Nat :=
  op.kinds.length + op.takesName.toNat

/-- `Refuses op kinds tokens e`: of operands of the kinds given, the first one that is missing or
ill-formed among the words is reported as `e`. -/
inductive Refuses (op : Opcode) : List Operand.Kind → List String → DecodeError → Prop where
  /-- The first operand is missing. -/
  | missing {kind : Operand.Kind} {kinds : List Operand.Kind} :
    Refuses op (kind :: kinds) [] (.missingOperand op)
  /-- The first operand is ill-formed. -/
  | illFormed {kind : Operand.Kind} {kinds : List Operand.Kind} {token : String}
    {tokens : List String} {e : DecodeError} (h : ¬ kind.Accepts token)
    (he : kind.complaint? token = some e) : Refuses op (kind :: kinds) (token :: tokens) e
  /-- The first operand is well-formed, and a later one decides. -/
  | later {kind : Operand.Kind} {kinds : List Operand.Kind} {token : String}
    {tokens : List String} {e : DecodeError} (h : kind.Accepts token)
    (hrest : Refuses op kinds tokens e) : Refuses op (kind :: kinds) (token :: tokens) e

/-- As many operands are asked for as an instruction must have. -/
theorem length_kinds (op : Opcode) : op.kinds.length = op.arity := by
  cases op <;> rfl

end Opcode

namespace Instruction

/-- The operands that the instruction must have, in order. -/
def values : Instruction → List Operand
  | args n | pop n => [.count n]
  | bop op => [.operator op]
  | call jump | falseBranch jump | goto jump => [.name jump.label]
  | halt | read | write | ret _ => []
  | label name => [.name name]
  | lit v _ => [.word v]
  | load offset name | store offset name => [.count offset, .name name]
  | dump on => [.mode on]
  | formal name offset => [.name name, .count offset]
  | function name first last => [.name name, .word first, .word last]
  | line number => [.word number]

/-- The name that the instruction need not have. -/
def name? : Instruction → Option String
  | lit _ name | ret name => name
  | _ => none

/-- The words of a line, the first one apart from the others, spell the instruction. -/
structure Spells (word : String) (tokens : List String) (instr : Instruction) : Prop where
  /-- The first word is the keyword, but for the case. -/
  keyword : SameLetters word instr.opcode.keyword
  /-- The operands are written in the first of the other words. -/
  operands : List.Forall₂ Operand.IsWritten instr.values (tokens.take instr.values.length)
  /-- The next word is the name, if the opcode takes one. -/
  name : instr.name? = if instr.opcode.takesName then tokens[instr.values.length]? else none
  /-- A jump has no target. -/
  target : instr.retarget none = instr

/-- The words of a line, the first one apart from the others, spell no instruction, which is
reported as the error given. -/
inductive Misspells (word : String) (tokens : List String) : DecodeError → Prop where
  /-- The first word is no keyword. -/
  | keyword (h : ∀ op : Opcode, ¬ SameLetters word op.keyword) :
    Misspells word tokens (.unknownOpcode word)
  /-- An operand is missing or ill-formed. -/
  | operand {op : Opcode} {e : DecodeError} (h : SameLetters word op.keyword)
    (hrefuses : op.Refuses op.kinds tokens e) : Misspells word tokens e

end Instruction

/-! ## Fetching operands -/

section Readings

variable {ε α β : Type} {x : Except ε α} {f : α → β}

/-- A reading that is made something of gives a value exactly if the reading does. -/
theorem map_eq_ok {b : β} : f <$> x = .ok b ↔ ∃ a, x = .ok a ∧ f a = b := by
  cases x <;> simp [Functor.map, Except.map]

/-- A reading that is made something of fails exactly if the reading does. -/
theorem map_eq_error {e : ε} : f <$> x = .error e ↔ x = .error e := by
  cases x <;> simp [Functor.map, Except.map]

end Readings

namespace Operands

open Operand (Kind IsWritten)

variable {op : Opcode} {tokens : List String} {i : Nat} {token : String} {kind : Kind}
  {kinds : List Kind} {v : Operand} {vs : List Operand} {e : DecodeError}

/-- The operand of a kind at a position. -/
def fetch (op : Opcode) (tokens : List String) (i : Nat) : Kind → Except DecodeError Operand
  | .count => .count <$> count op tokens i
  | .word => .word <$> word op tokens i
  | .name => .name <$> name op tokens i
  | .operator => .operator <$> value Operator.ofSymbol? .unknownOperator op tokens i
  | .mode => .mode <$> value dumpMode? .invalidDumpMode op tokens i

/-- The operands of the kinds given from a position on. -/
def fetchAll (op : Opcode) (tokens : List String) : Nat → List Kind →
    Except DecodeError (List Operand)
  | _, [] => .ok []
  | i, kind :: kinds => do
    let v ← fetch op tokens i kind
    let vs ← fetchAll op tokens (i + 1) kinds
    return v :: vs

/-- An operand is missing where there is no word. -/
theorem fetch_of_none (h : tokens[i]? = none) :
    fetch op tokens i kind = .error (.missingOperand op) := by
  have hname : name op tokens i = .error (.missingOperand op) := by rw [name, h]
  cases kind <;> simp only [fetch, count, word, value, hname] <;> rfl

section Values

variable {α : Type} {read? : String → Option α} {bad : String → DecodeError} {mk : α → Operand}

/-- A value made of a word is made of what the word is read as. -/
theorem map_value_eq_ok (h : tokens[i]? = some token) :
    mk <$> value read? bad op tokens i = .ok v ↔ ∃ a, read? token = some a ∧ mk a = v := by
  have hname : name op tokens i = .ok token := name_of_getElem? h
  cases hread : read? token with
  | some a => simp [value, hname, bind, Except.bind, hread, Functor.map, Except.map]
  | none => simp [value, hname, bind, Except.bind, hread, Functor.map, Except.map]

/-- A value that cannot be made of a word is reported as the word. -/
theorem value_eq_error (h : tokens[i]? = some token)
    (herror : value read? bad op tokens i = .error e) : bad token = e := by
  have hname : name op tokens i = .ok token := name_of_getElem? h
  rw [value, bind_of_eq_ok hname] at herror
  split at herror
  · cases herror
  · exact Except.error.inj herror

end Values

/-- A word is fetched as an operand exactly if the operand can be written so and is of the kind. -/
theorem fetch_eq_ok (h : tokens[i]? = some token) :
    fetch op tokens i kind = .ok v ↔ v.kind = kind ∧ v.IsWritten token := by
  cases kind with
  | count =>
    rw [fetch, count, map_value_eq_ok h]
    cases v <;> simp [Operand.kind, IsWritten, Numeral.count?_eq_some_iff]
  | word =>
    rw [fetch, word, map_value_eq_ok h]
    cases v <;> simp [Operand.kind, IsWritten, Numeral.word?_eq_some_iff]
  | name =>
    rw [fetch, name_of_getElem? h]
    cases v <;> simp [Operand.kind, IsWritten, Functor.map, Except.map]
  | operator =>
    rw [fetch, map_value_eq_ok h]
    cases v <;> simp [Operand.kind, IsWritten, Operator.ofSymbol?_eq_some_iff]
  | mode =>
    rw [fetch, map_value_eq_ok h]
    cases v <;> simp [Operand.kind, IsWritten, dumpMode?_eq_some_iff]

/-- A word that is not fetched is reported as the kind says. -/
theorem complaint_of_fetch (h : tokens[i]? = some token)
    (herror : fetch op tokens i kind = .error e) : kind.complaint? token = some e := by
  cases kind with
  | name =>
    rw [fetch, name_of_getElem? h] at herror
    cases herror
  | count | word | operator | mode =>
    rw [fetch, map_eq_error] at herror
    exact congrArg some (value_eq_error h herror)

/-- A word is refused exactly if it is no operand of the kind. -/
theorem fetch_eq_error (h : tokens[i]? = some token) :
    fetch op tokens i kind = .error e ↔ ¬ kind.Accepts token ∧ kind.complaint? token = some e := by
  constructor
  · intro herror
    refine ⟨?_, complaint_of_fetch h herror⟩
    rintro ⟨v, hv⟩
    rw [(fetch_eq_ok h).mpr hv] at herror
    cases herror
  · rintro ⟨hnot, hcomplaint⟩
    cases hfetch : fetch op tokens i kind with
    | ok v => exact absurd ⟨v, (fetch_eq_ok h).mp hfetch⟩ hnot
    | error e' =>
      have hsame := complaint_of_fetch h hfetch
      rw [hcomplaint] at hsame
      rw [Option.some.inj hsame]

/-- The words from a position on are none if there is no word at the position. -/
theorem getElem?_of_drop_nil (h : tokens.drop i = []) : tokens[i]? = none := by
  rw [← List.head?_drop, h, List.head?_nil]

/-- The words from a position on are the one at the position and the words from the next one on. -/
theorem getElem?_of_drop_cons {rest : List String} (h : tokens.drop i = token :: rest) :
    tokens[i]? = some token ∧ tokens.drop (i + 1) = rest := by
  rw [← List.head?_drop, ← List.tail_drop, h]
  exact ⟨rfl, rfl⟩

/-- Where the first operand is fetched, the others decide. -/
theorem fetchAll_of_ok (h : fetch op tokens i kind = .ok v) :
    fetchAll op tokens i (kind :: kinds) = (v :: ·) <$> fetchAll op tokens (i + 1) kinds := by
  rw [fetchAll, bind_of_eq_ok h]
  rfl

/-- Where the first operand is refused, the others are not looked at. -/
theorem fetchAll_of_error (h : fetch op tokens i kind = .error e) :
    fetchAll op tokens i (kind :: kinds) = .error e := by
  rw [fetchAll, h]
  rfl

/-- Operands are fetched exactly if they are of the kinds and written in the words, one by one. -/
theorem fetchAll_eq_ok :
    fetchAll op tokens i kinds = .ok vs ↔
      vs.map Operand.kind = kinds ∧
        List.Forall₂ IsWritten vs ((tokens.drop i).take vs.length) := by
  induction kinds generalizing i vs with
  | nil =>
    rw [fetchAll]
    constructor
    · rintro ⟨rfl⟩
      simp
    · rintro ⟨hnil, -⟩
      rw [List.map_eq_nil_iff.mp hnil]
  | cons kind kinds ih =>
    cases hdrop : tokens.drop i with
    | nil =>
      rw [fetchAll_of_error (fetch_of_none (getElem?_of_drop_nil hdrop))]
      constructor
      · intro h
        cases h
      · rintro ⟨hkinds, hwritten⟩
        rw [List.take_nil, List.forall₂_nil_right_iff] at hwritten
        simp [hwritten] at hkinds
    | cons token rest =>
      obtain ⟨hget, hrest⟩ := getElem?_of_drop_cons hdrop
      constructor
      · intro h
        obtain ⟨v, hv, -⟩ := exists_of_bind_eq_ok h
        rw [fetchAll_of_ok hv, map_eq_ok] at h
        obtain ⟨vs, hvs, rfl⟩ := h
        obtain ⟨rfl, hwritten⟩ := (fetch_eq_ok hget).mp hv
        obtain ⟨rfl, hall⟩ := ih.mp hvs
        rw [hrest] at hall
        exact ⟨rfl, .cons hwritten hall⟩
      · rintro ⟨hkinds, hall⟩
        cases vs with
        | nil => simp at hkinds
        | cons v vs =>
          rw [List.map_cons, List.cons.injEq] at hkinds
          rw [List.length_cons, List.take_succ_cons, List.forall₂_cons, ← hrest] at hall
          rw [fetchAll_of_ok ((fetch_eq_ok hget).mpr ⟨hkinds.1, hall.1⟩),
            ih.mpr ⟨hkinds.2, hall.2⟩]
          rfl

/-- Operands are refused as the first of them is that is missing or ill-formed. -/
theorem fetchAll_eq_error :
    fetchAll op tokens i kinds = .error e ↔ op.Refuses kinds (tokens.drop i) e := by
  induction kinds generalizing i with
  | nil =>
    rw [fetchAll]
    constructor
    · intro h
      cases h
    · intro h
      cases h
  | cons kind kinds ih =>
    cases hdrop : tokens.drop i with
    | nil =>
      rw [fetchAll_of_error (fetch_of_none (getElem?_of_drop_nil hdrop))]
      constructor
      · intro h
        cases h
        exact .missing
      · intro h
        cases h
        rfl
    | cons token rest =>
      obtain ⟨hget, hrest⟩ := getElem?_of_drop_cons hdrop
      cases hfetch : fetch op tokens i kind with
      | error e' =>
        obtain ⟨hnot, hcomplaint⟩ := (fetch_eq_error hget).mp hfetch
        rw [fetchAll_of_error hfetch]
        constructor
        · intro h
          cases h
          exact .illFormed hnot hcomplaint
        · intro h
          cases h with
          | illFormed _ hother =>
            rw [hcomplaint] at hother
            rw [Option.some.inj hother]
          | later haccepts => exact absurd haccepts hnot
      | ok v =>
        have haccepts : kind.Accepts token := ⟨v, (fetch_eq_ok hget).mp hfetch⟩
        rw [fetchAll_of_ok hfetch, map_eq_error, ih, hrest]
        constructor
        · exact .later haccepts
        · -- The first operand is well-formed, so it is not what is refused.
          intro h
          cases h with
          | illFormed hnot => exact absurd haccepts hnot
          | later _ hrefuses => exact hrefuses

end Operands

/-! ## The instructions -/

namespace Instruction

variable {op : Opcode} {tokens : List String} {instr : Instruction} {e : DecodeError}

/-- The instruction of an opcode has the operands that are fetched for the opcode. -/
theorem values_ofOperands (op : Opcode) (tokens : List String) :
    values <$> ofOperands op tokens = Operands.fetchAll op tokens 0 op.kinds := by
  cases op with
  | halt | read | write | ret => rfl
  | args | pop =>
    simp only [ofOperands, Opcode.kinds, Operands.fetchAll, Operands.fetch]
    cases Operands.count _ tokens 0 <;> rfl
  | call | falseBranch | goto | label =>
    simp only [ofOperands, Opcode.kinds, Operands.fetchAll, Operands.fetch]
    cases Operands.name _ tokens 0 <;> rfl
  | lit | line =>
    simp only [ofOperands, Opcode.kinds, Operands.fetchAll, Operands.fetch]
    cases Operands.word _ tokens 0 <;> rfl
  | bop | dump =>
    simp only [ofOperands, Opcode.kinds, Operands.fetchAll, Operands.fetch]
    cases Operands.value _ _ _ tokens 0 <;> rfl
  | load | store =>
    simp only [ofOperands, Opcode.kinds, Operands.fetchAll, Operands.fetch]
    cases Operands.count _ tokens 0 <;> cases Operands.name _ tokens 1 <;> rfl
  | formal =>
    simp only [ofOperands, Opcode.kinds, Operands.fetchAll, Operands.fetch]
    cases Operands.name _ tokens 0 <;> cases Operands.count _ tokens 1 <;> rfl
  | function =>
    simp only [ofOperands, Opcode.kinds, Operands.fetchAll, Operands.fetch]
    cases Operands.name _ tokens 0 <;> cases Operands.word _ tokens 1 <;>
      cases Operands.word _ tokens 2 <;> rfl

/-- The instruction of an opcode has the opcode, the name that the opcode takes and no target. -/
theorem parts_of_ofOperands (h : ofOperands op tokens = .ok instr) :
    instr.opcode = op ∧ instr.name? = (if op.takesName then tokens[op.kinds.length]? else none) ∧
      instr.retarget none = instr := by
  cases op with
  | halt | read | write | ret =>
    cases h
    exact ⟨rfl, rfl, rfl⟩
  | args | pop | call | falseBranch | goto | label | lit | line | bop | dump =>
    obtain ⟨_, -, h⟩ := exists_of_bind_eq_ok h
    cases h
    exact ⟨rfl, rfl, rfl⟩
  | load | store | formal =>
    obtain ⟨_, -, h⟩ := exists_of_bind_eq_ok h
    obtain ⟨_, -, h⟩ := exists_of_bind_eq_ok h
    cases h
    exact ⟨rfl, rfl, rfl⟩
  | function =>
    obtain ⟨_, -, h⟩ := exists_of_bind_eq_ok h
    obtain ⟨_, -, h⟩ := exists_of_bind_eq_ok h
    obtain ⟨_, -, h⟩ := exists_of_bind_eq_ok h
    cases h
    exact ⟨rfl, rfl, rfl⟩

/-- The operands that an instruction must have are of the kinds that its opcode asks for. -/
theorem map_kind_values (instr : Instruction) :
    instr.values.map Operand.kind = instr.opcode.kinds := by
  cases instr <;> rfl

/-- An instruction is printed with the operands that it must have and the name that it need not
have. -/
theorem operands_eq (instr : Instruction) :
    instr.operands = instr.values.map Operand.text ++ instr.name?.toList := by
  cases instr <;> rfl

/-- The counts of an instruction are among its operands. -/
theorem mem_values_of_mem_counts {n : Nat} (h : n ∈ instr.counts) : .count n ∈ instr.values := by
  cases instr with
  | args | pop | load | store | formal =>
    obtain rfl := List.mem_singleton.mp h
    simp [values]
  | _ => cases h

/-- An instruction without a target whose counts are below the limit is known by its opcode, its
operands and its name. -/
theorem eq_of_parts {found : Instruction} (hopcode : found.opcode = instr.opcode)
    (hvalues : found.values = instr.values) (hname : found.name? = instr.name?)
    (hfound : found.retarget none = found) (hinstr : instr.retarget none = instr)
    (hcounts : ∀ n, .count n ∈ instr.values → n < Numeral.countLimit) : found = instr := by
  -- The two are printed in the same way, and what is printed is read back.
  have hoperands : found.operands = instr.operands := by
    rw [operands_eq, operands_eq, hvalues, hname]
  have hread := ofOperands_operands fun n hn => hcounts n (mem_values_of_mem_counts hn)
  have hread' : ofOperands found.opcode found.operands = .ok (found.retarget none) :=
    ofOperands_operands fun n hn => hcounts n (hvalues ▸ mem_values_of_mem_counts hn)
  rw [hopcode, hoperands, hread, hfound, hinstr] at hread'
  exact (Except.ok.inj hread').symm

/-- The instruction of an opcode is the one whose operands are written in the words. -/
theorem ofOperands_eq_ok :
    ofOperands op tokens = .ok instr ↔
      instr.opcode = op ∧
        List.Forall₂ Operand.IsWritten instr.values (tokens.take instr.values.length) ∧
        instr.name? = (if instr.opcode.takesName then tokens[instr.values.length]? else none) ∧
        instr.retarget none = instr := by
  have hlength (instr : Instruction) : instr.values.length = instr.opcode.kinds.length := by
    rw [← map_kind_values, List.length_map]
  constructor
  · intro h
    obtain ⟨rfl, hname, htarget⟩ := parts_of_ofOperands h
    have hvalues := values_ofOperands instr.opcode tokens
    rw [h] at hvalues
    obtain ⟨-, hwritten⟩ := Operands.fetchAll_eq_ok.mp hvalues.symm
    rw [List.drop_zero] at hwritten
    exact ⟨rfl, hwritten, by rw [hname, hlength], htarget⟩
  · rintro ⟨rfl, hwritten, hname, htarget⟩
    have hfetched : Operands.fetchAll instr.opcode tokens 0 instr.opcode.kinds = .ok instr.values :=
      Operands.fetchAll_eq_ok.mpr ⟨map_kind_values instr, by rwa [List.drop_zero]⟩
    rw [← values_ofOperands, map_eq_ok] at hfetched
    obtain ⟨found, hfound, hvalues⟩ := hfetched
    obtain ⟨hopcode, hfoundName, hfoundTarget⟩ := parts_of_ofOperands hfound
    have hsame : found.name? = instr.name? := by rw [hfoundName, hname, hlength]
    have hcounts : ∀ n, .count n ∈ instr.values → n < Numeral.countLimit := by
      have hbound : ∀ v ∈ instr.values, ∀ n, v = .count n → n < Numeral.countLimit := by
        refine ((List.forall₂_and_left _ _).mp (hwritten.imp fun v token h => ⟨?_, h⟩)).1
        rintro n rfl
        exact h.2
      exact fun n hn => hbound _ hn n rfl
    rw [hfound, eq_of_parts hopcode hvalues hsame hfoundTarget htarget hcounts]

/-- An opcode is without an instruction as the first operand decides that is missing or
ill-formed. -/
theorem ofOperands_eq_error :
    ofOperands op tokens = .error e ↔ op.Refuses op.kinds tokens e := by
  rw [← map_eq_error (f := values), values_ofOperands, Operands.fetchAll_eq_error, List.drop_zero]

/-- Words behind those that an opcode looks at make no difference. -/
theorem ofOperands_take (op : Opcode) (tokens : List String) :
    ofOperands op (tokens.take op.reach) = ofOperands op tokens := by
  have hget {i : Nat} (hi : i < op.reach) : (tokens.take op.reach)[i]? = tokens[i]? :=
    List.getElem?_take_of_lt hi
  cases op <;>
    simp (disch := decide) only [ofOperands, Operands.count, Operands.word, Operands.value,
      Operands.name, hget]

/-- Words behind the first one decode to an instruction exactly if they spell it. -/
theorem decode_eq_ok {word : String} :
    decode (word :: tokens) = .ok (some instr) ↔ Spells word tokens instr := by
  constructor
  · intro h
    cases hop : Opcode.ofKeyword? word with
    | none =>
      rw [decode, hop] at h
      cases h
    | some op =>
      rw [decode, hop, map_eq_ok] at h
      obtain ⟨_, h, ⟨rfl⟩⟩ := h
      obtain ⟨rfl, hoperands, hname, htarget⟩ := ofOperands_eq_ok.mp h
      exact ⟨Opcode.ofKeyword?_eq_some_iff.mp hop, hoperands, hname, htarget⟩
  · rintro ⟨hkeyword, hoperands, hname, htarget⟩
    rw [decode, Opcode.ofKeyword?_eq_some_iff.mpr hkeyword, map_eq_ok]
    exact ⟨instr, ofOperands_eq_ok.mpr ⟨rfl, hoperands, hname, htarget⟩, rfl⟩

/-- Words decode to an error exactly if they are misspelled so. -/
theorem decode_eq_error {word : String} :
    decode (word :: tokens) = .error e ↔ Misspells word tokens e := by
  constructor
  · intro h
    cases hop : Opcode.ofKeyword? word with
    | none =>
      rw [decode, hop] at h
      cases h
      refine .keyword fun op hsame => ?_
      rw [Opcode.ofKeyword?_eq_some_iff.mpr hsame] at hop
      cases hop
    | some op =>
      rw [decode, hop, map_eq_error] at h
      exact .operand (Opcode.ofKeyword?_eq_some_iff.mp hop) (ofOperands_eq_error.mp h)
  · intro h
    cases h with
    | keyword hnone =>
      have hop : Opcode.ofKeyword? word = none := by
        rw [Option.eq_none_iff_forall_ne_some]
        exact fun op hop => hnone op (Opcode.ofKeyword?_eq_some_iff.mp hop)
      rw [decode, hop]
    | operand hkeyword hrefuses =>
      rw [decode, Opcode.ofKeyword?_eq_some_iff.mpr hkeyword, map_eq_error]
      exact ofOperands_eq_error.mpr hrefuses

/-- A line is read exactly as its grammar says. It is skipped exactly if it is blank, it is read as
an instruction exactly if its words spell the instruction, and it is at fault exactly if its words
are misspelled, in the way that is reported. No word behind those that the opcode looks at makes a
difference, and an opcode whose operands are missing is reported with the number of operands that it
asks for. -/
theorem line_grammar (line : String) :
    (decode (words line) = .ok none ↔ ∀ c ∈ line.toList, Text.isBlank c = true) ∧
    (∀ instr, decode (words line) = .ok (some instr) ↔
      ∃ word tokens, words line = word :: tokens ∧ Spells word tokens instr) ∧
    (∀ e, decode (words line) = .error e ↔
      ∃ word tokens, words line = word :: tokens ∧ Misspells word tokens e) ∧
    (∀ word tokens (op : Opcode), words line = word :: tokens → SameLetters word op.keyword →
      decode (words line) = decode (word :: tokens.take op.reach)) ∧
    ∀ op, (DecodeError.missingOperand op).message =
      op.keyword ++ " expects " ++ toString op.kinds.length ++ " operand(s)" := by
  refine ⟨?_, ?_, ?_, ?_, ?_⟩
  · rw [decode_eq_none, Text.words_eq_nil, isBlankLine, List.all_eq_true]
  · intro instr
    cases words line with
    | nil => simp [decode]
    | cons word tokens => simp [decode_eq_ok]
  · intro e
    cases words line with
    | nil => simp [decode]
    | cons word tokens => simp [decode_eq_error]
  · intro word tokens op hwords hsame
    have hop := Opcode.ofKeyword?_eq_some_iff.mpr hsame
    simp only [hwords, decode, hop, ofOperands_take]
  · intro op
    rw [Opcode.length_kinds]
    rfl

/-- A line in mixed case whose name looks like a number, whose numbers have signs and leading zeros,
and that goes on behind its operands. -/
def mixedLine : String :=
  "\tfUnCtIoN 007 +0012 -5 LINE 3 "

/-- The line is the `FUNCTION` that it spells, also without the words at its end. -/
theorem line_grammar_mixed :
    decode (words mixedLine) = .ok (some (.function "007" 12 (-5))) ∧
      decode (words mixedLine) = decode ["fUnCtIoN", "007", "+0012", "-5"] := by
  have hwords : words mixedLine = ["fUnCtIoN", "007", "+0012", "-5", "LINE", "3"] := by
    decide +kernel
  have hsame : SameLetters "fUnCtIoN" Opcode.function.keyword := by
    unfold SameLetters
    decide +kernel
  have hfirst : Numeral.IsNumeral "+0012" 12 :=
    ⟨['0', '0', '1', '2'], 12, ⟨[0, 0, 1, 2], by decide, by decide, rfl, rfl⟩,
      .inr (.inl ⟨rfl, rfl⟩)⟩
  have hlast : Numeral.IsNumeral "-5" (-5) :=
    ⟨['5'], 5, ⟨[5], by decide, by decide, rfl, rfl⟩, .inr (.inr ⟨rfl, rfl⟩)⟩
  obtain ⟨-, hspelled, -, hbehind, -⟩ := line_grammar mixedLine
  constructor
  · refine (hspelled _).mpr ⟨_, _, hwords, hsame, ?_, rfl, rfl⟩
    exact .cons rfl (.cons hfirst (.cons hlast .nil))
  · exact hbehind _ _ _ hwords hsame

end Instruction

end XBytecode
