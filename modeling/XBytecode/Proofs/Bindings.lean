import Mathlib.Data.List.Induction
import Mathlib.Data.String.Basic
import XBytecode.Scope

/-!
# A scope is a list of bindings

A scope keeps no list: the order of its bindings is threaded through the names bound before each,
and the bindings of one name hang behind each other. It behaves as a list of pairs all the same. A
new binding is a pair at the list's end, and undoing takes pairs from there (`Bindings.perform`).

The invariant is that a scope is what entering the pairs of the list into an empty one makes of it.
It determines the scope entirely, so that nothing has to be said about how the chains and the names
in them hang together: undoing takes back the entering of the last pairs because it takes back that
of each (`undoLast?_enter`), and what a scope shows is read off the pairs one by one.
-/

namespace XBytecode

/-- Names with their slots, in the order in which they have been bound. -/
abbrev Bindings := List (String × Nat)

namespace Scope

/-- A request to a scope. -/
inductive Operation where
  /-- Bind a name to a slot. -/
  | enter (name : String) (offset : Nat)
  /-- Undo the latest bindings. -/
  | undo (count : Nat)
  deriving DecidableEq, Repr

/-- Carries out a request. -/
def perform (s : Scope) : Operation → Except Error Scope
  | .enter name offset => .ok (s.enter name offset)
  | .undo count => s.undo count

/-- Carries out requests in order, and gives the error of each that is refused. A refused request
leaves what was there. -/
def replay {σ : Type} (perform : σ → Operation → Except Error σ) :
    List Operation → σ → List (Option Error) × σ
  | [], s => ([], s)
  | op :: ops, s =>
    match perform s op with
    | .ok t => ((replay perform ops t).map (none :: ·) id)
    | .error e => ((replay perform ops s).map (some e :: ·) id)

/-- Binds names to slots, one after the other. -/
def enterAll (s : Scope) (added : Bindings) : Scope :=
  added.foldl (fun s binding => s.enter binding.1 binding.2) s

end Scope

namespace Bindings

open Scope (Error Operation)

/-- Carries out a request on a list: a binding is added at the end, and bindings are undone from
there if there are enough of them. -/
def perform (l : Bindings) : Operation → Except Error Bindings
  | .enter name offset => .ok (l ++ [(name, offset)])
  | .undo count =>
    if count ≤ l.length then .ok (l.take (l.length - count))
    else .error (.undoUnderflow count l.length)

/-- The last pair of a name. -/
def last? (l : Bindings) (name : String) : Option (String × Nat) :=
  (l.filter fun binding => binding.1 == name).getLast?

/-- The slot of the last pair of a name. -/
def lookup (l : Bindings) (name : String) : Except Error Nat :=
  match l.last? name with
  | some binding => .ok binding.2
  | none => .error (.notFound name)

end Bindings

/-- The scope shows what the list holds. -/
structure Scope.Shows (s : Scope) (l : Bindings) : Prop where
  /-- A name has the slot of its last pair. -/
  lookup : ∀ name, s.lookup name = l.lookup name
  /-- Names are listed in ascending order, each once. -/
  sorted : s.names.Pairwise (· < ·)
  /-- The names listed are those of the pairs. -/
  mem_names : ∀ name, name ∈ s.names ↔ ∃ offset, (name, offset) ∈ l
  /-- The number of bindings is that of the pairs. -/
  live : s.live = l.length
  /-- Nothing is bound exactly when there are no pairs. -/
  isEmpty : s.isEmpty = true ↔ l = []

namespace Scope

/-! ## Entering and undoing -/

/-- The last binding is entered last. -/
theorem enterAll_concat (s : Scope) (added : Bindings) (binding : String × Nat) :
    s.enterAll (added ++ [binding]) = (s.enterAll added).enter binding.1 binding.2 := by
  simp [enterAll]

/-- Each binding entered is one more. -/
@[simp]
theorem live_enterAll (s : Scope) (added : Bindings) :
    (s.enterAll added).live = s.live + added.length := by
  induction added using List.reverseRecOn with
  | nil => rfl
  | append_singleton added binding ih =>
    rw [enterAll_concat, List.length_append, List.length_singleton, ← Nat.add_assoc, ← ih]
    rfl

/-- Undoing bindings right after they were made takes back the last of them. -/
theorem undoLatest_enterAll (s : Scope) (added : Bindings) {count : Nat}
    (h : count ≤ added.length) :
    (s.enterAll added).undoLatest count = s.enterAll (added.take (added.length - count)) := by
  induction count generalizing added with
  | zero => rw [undoLatest, Nat.sub_zero, List.take_length]
  | succ count ih =>
    obtain rfl | ⟨rest, binding, rfl⟩ := added.eq_nil_or_concat'
    · cases h
    · rw [List.length_append, List.length_singleton] at h ⊢
      rw [enterAll_concat, undoLatest, undoLast?_enter]
      have htake : (rest ++ [binding]).take (rest.length + 1 - (count + 1)) =
          rest.take (rest.length - count) := by
        rw [Nat.add_sub_add_right]
        exact List.take_append_of_le_length (Nat.sub_le _ _)
      rw [htake]
      exact ih rest (by omega)

/-- Undoing as many bindings as have just been made restores the scope exactly. -/
theorem undo_enterAll (s : Scope) (added : Bindings) :
    (s.enterAll added).undo added.length = .ok s := by
  have hlive : added.length ≤ (s.enterAll added).live := by
    rw [live_enterAll]
    omega
  rw [undo, if_pos hlive, undoLatest_enterAll s added (Nat.le_refl _), Nat.sub_self,
    List.take_zero]
  rfl

/-- A scope that a binding was made in last has a name on top, and the name is bound. -/
theorem bound_top_enter (s : Scope) (name : String) (offset : Nat) :
    ∃ top chain, (s.enter name offset).top = some top ∧
      (s.enter name offset).chains[top]? = some chain :=
  ⟨name, _, rfl, Std.ExtTreeMap.getElem?_insert_self⟩

/-- While there are bindings left to undo, there is a name on top, and the name is bound. -/
theorem bound_top_undoLatest (added : Bindings) {count : Nat} (h : count < added.length) :
    ∃ top chain, ((({} : Scope).enterAll added).undoLatest count).top = some top ∧
      ((({} : Scope).enterAll added).undoLatest count).chains[top]? = some chain := by
  rw [undoLatest_enterAll _ _ (Nat.le_of_lt h)]
  -- What is left of the list is not empty, and its last pair has been entered last.
  have hleft : 0 < (added.take (added.length - count)).length := by
    rw [List.length_take]
    omega
  obtain hnil | ⟨rest, binding, hconcat⟩ := (added.take (added.length - count)).eq_nil_or_concat'
  · rw [hnil] at hleft
    cases hleft
  · rw [hconcat, enterAll_concat]
    exact bound_top_enter _ _ _

/-! ## What a scope shows -/

/-- The binding of a name that is in force is the last one made of it. -/
theorem getElem?_chains_enterAll (added : Bindings) (name : String) :
    (({} : Scope).enterAll added).chains[name]?.map (·.newest.offset) =
      (added.last? name).map Prod.snd := by
  induction added using List.reverseRecOn with
  | nil => rfl
  | append_singleton added binding ih =>
    rw [enterAll_concat]
    simp only [enter, Bindings.last?, Std.ExtTreeMap.getElem?_insert,
      Std.LawfulEqCmp.compare_eq_iff_eq, List.filter_append]
    by_cases hname : binding.1 = name
    · simp [hname]
    · rw [if_neg hname, ih, Bindings.last?]
      simp [hname]

/-- A name has a last pair exactly when it has a pair. -/
theorem isSome_last? (l : Bindings) (name : String) :
    (l.last? name).isSome = true ↔ ∃ offset, (name, offset) ∈ l := by
  rw [Bindings.last?, List.getLast?_isSome, ne_eq, List.filter_eq_nil_iff]
  simp

/-- A scope shows the list of the pairs that have been entered. -/
theorem shows_enterAll (l : Bindings) : (({} : Scope).enterAll l).Shows l where
  lookup name := by
    have h := getElem?_chains_enterAll l name
    rw [lookup, Bindings.lookup]
    cases hchain : (({} : Scope).enterAll l).chains[name]? with
    | none =>
      rw [hchain, Option.map_none, eq_comm, Option.map_eq_none_iff] at h
      rw [h]
    | some chain =>
      rw [hchain, Option.map_some, eq_comm, Option.map_eq_some_iff] at h
      obtain ⟨binding, hlast, hoffset⟩ := h
      rw [hlast]
      exact congrArg Except.ok hoffset.symm
  sorted := by
    have h : (({} : Scope).enterAll l).chains.keys.Pairwise fun a b => compare a b = .lt :=
      Std.ExtTreeMap.ordered_keys
    exact h.imp compare_lt_iff_lt.mp
  mem_names name := by
    rw [names, Std.ExtTreeMap.mem_keys, Std.ExtTreeMap.mem_iff_isSome_getElem?,
      ← Option.isSome_map, getElem?_chains_enterAll, Option.isSome_map, isSome_last?]
  live := by rw [live_enterAll, Nat.zero_add]
  isEmpty := by
    rw [isEmpty, live_enterAll, Nat.zero_add, beq_iff_eq, List.length_eq_zero_iff]

/-! ## Sequences of requests -/

/-- A request does to a scope what it does to the list of its bindings. -/
theorem perform_enterAll (l : Bindings) (op : Operation) :
    (({} : Scope).enterAll l).perform op = (l.perform op).map ({} : Scope).enterAll := by
  cases op with
  | enter name offset =>
    rw [perform, Bindings.perform, Except.map, enterAll_concat]
  | undo count =>
    rw [perform, Bindings.perform, undo, live_enterAll, Nat.zero_add]
    by_cases h : count ≤ l.length
    · rw [if_pos h, if_pos h, Except.map, undoLatest_enterAll _ _ h]
    · rw [if_neg h, if_neg h, Except.map]

/-- Requests are refused by a scope as by the list of its bindings, and leave the scope of the list
that they leave. -/
theorem replay_enterAll (ops : List Operation) (l : Bindings) :
    replay perform ops (({} : Scope).enterAll l) =
      (replay Bindings.perform ops l).map id ({} : Scope).enterAll := by
  induction ops generalizing l with
  | nil => rfl
  | cons op ops ih =>
    rw [replay, replay, perform_enterAll]
    cases l.perform op with
    | ok l' =>
      rw [Except.map]
      simp [ih, Prod.map]
    | error e =>
      rw [Except.map]
      simp [ih, Prod.map]

/-- A scope behaves as a list of bindings. After any requests to an empty scope, the requests
refused and their errors are those of the list, and the scope shows the list. Undoing any number of
bindings that there are finds, each time, a name on top that is bound. Undoing as many bindings as
are made anew restores the scope exactly. -/
theorem scope_refines_bindings (ops : List Operation) :
    let s := (replay perform ops {}).2
    let l := (replay Bindings.perform ops []).2
    (replay perform ops {}).1 = (replay Bindings.perform ops []).1 ∧ s.Shows l ∧
      (∀ count < s.live, ∃ top chain, (s.undoLatest count).top = some top ∧
        (s.undoLatest count).chains[top]? = some chain) ∧
      ∀ added : Bindings, (s.enterAll added).undo added.length = .ok s := by
  intro s l
  have hreplay := replay_enterAll ops []
  have hs : s = ({} : Scope).enterAll l := congrArg Prod.snd hreplay
  have hshows : s.Shows l := hs ▸ shows_enterAll l
  refine ⟨congrArg Prod.fst hreplay, hshows, ?_, undo_enterAll s⟩
  intro count hcount
  rw [hshows.live] at hcount
  rw [hs]
  exact bound_top_undoLatest l hcount

/-- A name is bound twice and the second binding undone with the one before it, after which there
are too few bindings to undo five. -/
theorem scope_refines_bindings_sample :
    let ops := [.enter "a" 1, .enter "b" 2, .enter "a" 3, .undo 2, .undo 5]
    (replay perform ops {}).1 = [none, none, none, none, some (.undoUnderflow 5 1)] ∧
      (replay perform ops {}).2.lookup "a" = .ok 1 ∧
      (replay perform ops {}).2.lookup "b" = .error (.notFound "b") := by
  intro ops
  obtain ⟨hanswers, hshows, -, -⟩ := scope_refines_bindings ops
  refine ⟨hanswers.trans (by decide), ?_, ?_⟩
  · rw [hshows.lookup]
    rfl
  · rw [hshows.lookup]
    rfl

end Scope

end XBytecode
