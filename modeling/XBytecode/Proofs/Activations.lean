import XBytecode.Proofs.Bindings
import XBytecode.Proofs.Operation

/-!
# Activations are stacked

A step of a session opens an activation on top of the others, closes the innermost one, or changes
nothing but the innermost one (`step_cases`). The scope of the innermost activation changes by what
the step asks of it (`request?`), and not otherwise.

A `History` is a session with the states in which it has set out to execute its instructions, and
every sequence of operations makes one (`History.after`). Two facts about histories follow from
`step_cases` by induction. As long as the depth stays above that at which a function was entered,
the activations that were there before stay below its own (`History.prefix_records`), so that they
are what is left when it returns. And every activation above the base holds the bindings that have
been asked for while it was the innermost one (`History.account`).
-/

namespace XBytecode

namespace Scope

/-- The operation is carried out on the first scope and gives the second; without one, the scopes
are the same. -/
def Serves (s t : Scope) : Option Operation → Prop
  | none => t = s
  | some op => s.perform op = .ok t

/-- Operations none of which is refused take the first scope to the second. -/
def Replays (ops : List Operation) (s t : Scope) : Prop :=
  replay perform ops s = (List.replicate ops.length none, t)

/-- One more operation is carried out behind the others. -/
theorem Replays.concat {ops : List Operation} {s t u : Scope} {op : Operation}
    (h : Replays ops s t) (hop : t.perform op = .ok u) : Replays (ops ++ [op]) s u := by
  induction ops generalizing s with
  | nil =>
    obtain rfl : s = t := congrArg Prod.snd h
    simp [Replays, replay, hop]
  | cons first ops ih =>
    unfold Replays at h ih ⊢
    rw [replay] at h
    rw [List.cons_append, replay]
    cases hfirst : s.perform first with
    | error e =>
      -- A refusal would stand at the head of the answers.
      rw [hfirst] at h
      have hhead := congrArg (·.1.head?) h
      simp [List.replicate_succ] at hhead
    | ok s' =>
      rw [hfirst] at h
      have hrest : replay perform ops s' = (List.replicate ops.length none, t) := by
        obtain ⟨hanswers, hscope⟩ := Prod.ext_iff.mp h
        refine Prod.ext ?_ hscope
        simpa [List.replicate_succ] using hanswers
      simp [ih hrest, List.replicate_succ]

end Scope

/-- What an instruction asks of the innermost scope, when the machine has executed it and left a
stack: a literal with a name and a parameter are bound to their slots, and values discarded take
their bindings with them. -/
def Instruction.request? (stack : Stack) : Instruction → Option Scope.Operation
  | .lit _ (some name) => some (.enter name (stack.size - 1))
  | .formal name offset => some (.enter name (stack.address offset))
  | .pop count => some (.undo count)
  | _ => none

namespace Session

open EStateM (Result get_bind_apply state_bind_pure)

/-! ## The records of a session -/

/-- There is a record for each activation. -/
@[simp]
theorem length_records (s : Session) : s.records.length = s.depth := by
  simp [records, depth]

/-- There is always an activation. -/
theorem depth_pos (s : Session) : 0 < s.depth :=
  Nat.succ_pos _

/-- The innermost activation is the last one. -/
theorem records_eq (s : Session) : s.records = s.records.dropLast ++ [s.current] := by
  have hlast : s.records.getLast? = some s.current := by
    rw [records, current, List.getLast?_cons, Array.getLast?_toList]
  exact (List.dropLast_append_getLast? s.current hlast).symm

/-- What is changed is the last record. -/
theorem records_updateCurrent (f : Activation → Activation) (s : Session) :
    (s.updateCurrent f).records = s.records.dropLast ++ [f s.current] := by
  unfold updateCurrent current
  cases h : s.calls.back? with
  | none =>
    have hnil : s.calls = #[] := Array.back?_eq_none_iff.mp h
    simp [records, hnil]
  | some a =>
    obtain ⟨rest, hcalls⟩ := Array.back?_eq_some_iff.mp h
    have hrecords : s.records = (s.base :: rest.toList) ++ [a] := by simp [records, hcalls]
    rw [hrecords, List.dropLast_concat]
    simp [records, hcalls]

/-- Logging leaves the records alone. -/
@[simp]
theorem records_trace (entry : String) (s : Session) : (s.trace entry).records = s.records := by
  unfold trace
  split <;> rfl

/-- Reaching a line changes no more than the line of the last record. -/
theorem records_reachLine (number : Int32) (s : Session) :
    ∃ line, (s.reachLine number).records = s.records.dropLast ++ [{ s.current with line }] := by
  unfold reachLine
  split
  · exact ⟨number, records_updateCurrent _ s⟩
  · exact ⟨s.current.line, records_eq s⟩

/-- A function is entered with an activation of its own, in which nothing is bound. -/
theorem records_enterFunction (name : String) (first last : Int32) (s : Session) :
    ∃ line, (s.enterFunction name first last).records =
      s.records ++ [{ name, first, last, line : Activation }] := by
  let a : Activation := { name, first, last, line := s.current.line }
  let opened : Session := { s with calls := s.calls.push a }
  have hrecords : opened.records = s.records ++ [a] := by simp [records, opened]
  have hcurrent : opened.current = a := by simp [current, opened]
  obtain ⟨line, hline⟩ := records_reachLine first opened
  rw [hrecords, hcurrent, List.dropLast_concat] at hline
  exact ⟨line, (records_trace _ _).trans hline⟩

/-- A return closes the innermost activation, unless that is the base. -/
theorem records_exitFunction (s : Session) :
    s.exitFunction.records = if 2 ≤ s.depth then s.records.dropLast else s.records := by
  have hrecords : s.exitFunction.records = s.base :: s.calls.pop.toList := by
    unfold exitFunction trace
    split <;> rfl
  rw [hrecords, Array.toList_pop, records, depth]
  split
  · next hdepth =>
    have hne : s.calls.toList ≠ [] := by
      rw [ne_eq, ← List.length_eq_zero_iff, Array.length_toList]
      omega
    exact (List.dropLast_cons_of_ne_nil hne).symm
  · next hdepth =>
    have hnil : s.calls.toList = [] := by
      rw [← List.length_eq_zero_iff, Array.length_toList]
      omega
    rw [hnil, List.dropLast_nil]

/-! ## One step -/

/-- What a step asks of the innermost scope, if it succeeds. -/
def request? (p : Program) (s : Session) : Option Scope.Operation :=
  match step p s with
  | .ok instr t => instr.request? t.machine.stack
  | .error _ _ => none

/-- A step executes the marker of a function. -/
def Enters (p : Program) (s : Session) : Prop :=
  ∃ name first last t, step p s = .ok (.function name first last) t

/-- A step executes a return. -/
def Leaves (p : Program) (s : Session) : Prop :=
  ∃ name t, step p s = .ok (.ret name) t

/-- An instruction that neither marks a function nor returns from one is followed in the innermost
activation only, whose scope then serves its request. -/
theorem records_follow {address : Nat} {instr : Instruction} {s t : Session}
    (h : follow address instr s = .ok () t)
    (hfunction : ∀ name first last, instr ≠ .function name first last)
    (hret : ∀ name, instr ≠ .ret name) :
    ∃ a : Activation, t.records = s.records.dropLast ++ [a] ∧
      s.current.scope.Serves a.scope (instr.request? s.machine.stack) := by
  cases instr with
  | function name first last => exact absurd rfl (hfunction name first last)
  | ret name => exact absurd rfl (hret name)
  | formal name offset =>
    obtain rfl := (Result.ok.inj h).2
    exact ⟨_, records_updateCurrent _ s, rfl⟩
  | line number =>
    obtain rfl := (Result.ok.inj h).2
    obtain ⟨line, hline⟩ := records_reachLine number s
    exact ⟨_, hline, rfl⟩
  | pop count =>
    rw [follow, retract] at h
    split at h
    · next scope hundo =>
      obtain rfl := (Result.ok.inj h).2
      exact ⟨_, records_updateCurrent _ s, hundo⟩
    · cases h
  | lit v name =>
    cases name with
    | none =>
      obtain rfl := (Result.ok.inj h).2
      exact ⟨_, records_eq s, rfl⟩
    | some name =>
      obtain rfl := (Result.ok.inj h).2
      exact ⟨_, records_updateCurrent _ s, rfl⟩
  | _ =>
    obtain rfl := (Result.ok.inj h).2
    exact ⟨_, records_eq s, rfl⟩

/-- A step that fails leaves the activations as they were. -/
theorem records_of_error {p : Program} {s t : Session} {e : Error} (h : step p s = .error e t) :
    t.records = s.records := by
  obtain ⟨f, m, -, -, rfl⟩ | ⟨n, m, -, -, rfl⟩ := step_error_cases h
  · rfl
  · rfl

/-- What a step does to the activations. It opens one on top of the others, or closes the innermost
one, or changes nothing but the innermost one, whose scope then serves the step's request. -/
theorem step_cases (p : Program) (s : Session) :
    (Enters p s ∧ ∃ a : Activation, (step p s).state.records = s.records ++ [a] ∧ a.scope = {}) ∨
      (Leaves p s ∧ 2 ≤ s.depth ∧ (step p s).state.records = s.records.dropLast) ∨
      (¬ Enters p s ∧ ¬ (Leaves p s ∧ 2 ≤ s.depth) ∧
        ∃ a : Activation, (step p s).state.records = s.records.dropLast ++ [a] ∧
          s.current.scope.Serves a.scope (request? p s)) := by
  cases hstep : step p s with
  | error e t =>
    have hrecords : t.records = s.records.dropLast ++ [s.current] :=
      (records_of_error hstep).trans (records_eq s)
    exact .inr (.inr ⟨by simp [Enters, hstep], by simp [Leaves, hstep], s.current, hrecords,
      by simp [request?, hstep, Scope.Serves]⟩)
  | ok instr t =>
    obtain ⟨m, -, hfollow⟩ := step_eq_ok.mp hstep
    by_cases henters : ∃ name first last, instr = .function name first last
    · obtain ⟨name, first, last, rfl⟩ := henters
      obtain ⟨line, hline⟩ := records_enterFunction name first last
        { s with machine := m, last := some (.function name first last) }
      obtain rfl := (Result.ok.inj hfollow).2
      exact .inl ⟨⟨name, first, last, _, hstep⟩, _, hline, rfl⟩
    have hnot : ¬ Enters p s := by simpa [Enters, hstep] using henters
    by_cases hleaves : ∃ name, instr = .ret name
    · obtain ⟨name, rfl⟩ := hleaves
      have hexit := records_exitFunction { s with machine := m, last := some (.ret name) }
      obtain rfl := (Result.ok.inj hfollow).2
      by_cases hdepth : 2 ≤ s.depth
      · exact .inr (.inl ⟨⟨name, _, hstep⟩, hdepth, hexit.trans (if_pos hdepth)⟩)
      · have hrecords := (hexit.trans (if_neg hdepth)).trans (records_eq s)
        exact .inr (.inr ⟨hnot, fun h => hdepth h.2, s.current, hrecords,
          by simp [request?, hstep, Scope.Serves, Instruction.request?]⟩)
    · obtain ⟨a, hrecords, hserves⟩ := records_follow hfollow (by grind) (by grind)
      have hnot' : ¬ Leaves p s := by simpa [Leaves, hstep] using hleaves
      refine .inr (.inr ⟨hnot, fun h => hnot' h.1, a, hrecords, ?_⟩)
      have hkeep := (follow_keeps s.machine.pc instr { s with machine := m, last := some instr }).1
      rw [hfollow, Result.state_ok] at hkeep
      simp only [request?, hstep, hkeep]
      exact hserves

/-- A function is entered without a request. -/
theorem Enters.request? {p : Program} {s : Session} (h : Enters p s) : s.request? p = none := by
  obtain ⟨name, first, last, t, hstep⟩ := h
  simp [Session.request?, hstep, Instruction.request?]

/-- A return is no marker of a function. -/
theorem Leaves.not_enters {p : Program} {s : Session} (h : Leaves p s) : ¬ Enters p s := by
  obtain ⟨name, t, hstep⟩ := h
  simp [Enters, hstep]

/-- A step keeps every activation below the innermost one. -/
theorem prefix_records_step (p : Program) (s : Session) :
    s.records.dropLast <+: (step p s).state.records := by
  obtain ⟨-, a, hrecords, -⟩ | ⟨-, -, hrecords⟩ | ⟨-, -, a, hrecords, -⟩ := step_cases p s
  · rw [hrecords]
    exact (List.dropLast_prefix _).trans (List.prefix_append _ _)
  · exact hrecords ▸ List.prefix_rfl
  · rw [hrecords]
    exact List.prefix_append _ _

/-- A step changes the depth by one at most, upwards with the marker of a function and downwards
with a return from one. -/
theorem depth_step (p : Program) (s : Session) :
    ((step p s).state.depth = s.depth + 1 ↔ Enters p s) ∧
      ((step p s).state.depth + 1 = s.depth ↔ Leaves p s ∧ 2 ≤ s.depth) ∧
      ((step p s).state.depth = s.depth ∨ (step p s).state.depth = s.depth + 1 ∨
        (step p s).state.depth + 1 = s.depth) := by
  have hpos := s.depth_pos
  obtain ⟨henters, a, hrecords, -⟩ | ⟨hleaves, hdepth, hrecords⟩ | ⟨hnot, hnot', a, hrecords, -⟩ :=
    step_cases p s
  all_goals
    have hlength := congrArg List.length hrecords
    simp only [length_records, List.length_append, List.length_dropLast, List.length_singleton]
      at hlength
  · have hnot : ¬ Leaves p s := fun h => h.not_enters henters
    grind
  · have hnot := hleaves.not_enters
    grind
  · grind

/-! ## Histories -/

/-- `History p source channel l s`: a session in the state `s`, started with a source and a channel,
which has set out to execute an instruction in each of the states `l`, in order. In between anything
can happen that leaves the activations alone. -/
inductive History (p : Program) (source : Source) (channel : Channel) :
    List Session → Session → Prop where
  /-- A new session. -/
  | start : History p source channel [] (start source channel)
  /-- A step, whether it succeeds or fails. -/
  | step {l : List Session} {s : Session} (h : History p source channel l s) :
      History p source channel (l ++ [s]) (step p s).state
  /-- Anything else. -/
  | aside {l : List Session} {s t : Session} (h : History p source channel l s)
      (hrecords : t.records = s.records) : History p source channel l t

/-- The requests made in states of a given depth, in order. -/
def requests (p : Program) (depth : Nat) (l : List Session) : List Scope.Operation :=
  (l.filter fun s => s.depth = depth).filterMap (request? p)

/-- `Account p l d scope`: the states `l` include one in which a function has been entered from the
depth `d`, from which on the depth has been greater, and the requests made since while the
activation of that function was the innermost one account for the scope. -/
def Account (p : Program) (l : List Session) (d : Nat) (scope : Scope) : Prop :=
  ∃ before caller since, l = before ++ caller :: since ∧ Enters p caller ∧ caller.depth = d ∧
    (∀ s ∈ since, d < s.depth) ∧ Scope.Replays (requests p (d + 1) since) {} scope

section Accounts

variable {p : Program} {l : List Session} {d : Nat} {scope scope' : Scope} {s : Session}

/-- A function that has just been entered has no bindings. -/
theorem Account.of_enters (h : Enters p s) : Account p (l ++ [s]) s.depth {} :=
  ⟨l, s, [], rfl, h, rfl, by simp, rfl⟩

/-- A step adds its request, if it makes one at the given depth. -/
theorem requests_concat (p : Program) (depth : Nat) (l : List Session) (s : Session) :
    requests p depth (l ++ [s]) =
      requests p depth l ++ (if s.depth = depth then s.request? p else none).toList := by
  by_cases h : s.depth = depth
  · cases hrequest : s.request? p <;> simp [requests, h, hrequest]
  · simp [requests, h]

/-- A step at a greater depth continues the account, with its request served if it is made by the
function itself. -/
theorem Account.concat (h : Account p l d scope) (hdepth : d < s.depth)
    (hserves : scope.Serves scope' (if s.depth = d + 1 then s.request? p else none)) :
    Account p (l ++ [s]) d scope' := by
  obtain ⟨before, caller, since, rfl, henters, hcaller, hsince, hreplay⟩ := h
  refine ⟨before, caller, since ++ [s], by simp, henters, hcaller, ?_, ?_⟩
  · intro x hx
    obtain hx | hx := List.mem_append.mp hx
    · exact hsince x hx
    · rwa [List.mem_singleton.mp hx]
  · rw [requests_concat]
    cases hrequest : if s.depth = d + 1 then s.request? p else none with
    | none =>
      rw [hrequest] at hserves
      obtain rfl : scope' = scope := hserves
      simpa using hreplay
    | some op =>
      rw [hrequest] at hserves
      exact hreplay.concat hserves

end Accounts

section Histories

variable {p : Program} {source : Source} {channel : Channel} {l : List Session} {s : Session}

/-- Every activation above the base is accounted for. -/
theorem History.account (h : History p source channel l s) {d : Nat} {a : Activation} (hd : 1 ≤ d)
    (ha : s.records[d]? = some a) : Account p l d a.scope := by
  -- The innermost activation alone would not do: a return uncovers the one below it.
  induction h generalizing a with
  | start =>
    have hnone : (Session.start source channel).records[d]? = none :=
      List.getElem?_eq_none (by simpa [records, Session.start] using hd)
    rw [hnone] at ha
    cases ha
  | aside h hrecords ih => exact ih (hrecords ▸ ha)
  | @step l s h ih =>
    have hlength := s.length_records
    have hcurrent := s.records_eq
    obtain ⟨henters, b, hrecords, hscope⟩ | ⟨-, -, hrecords⟩ | ⟨-, -, b, hrecords, hserves⟩ :=
      step_cases p s
    · rw [hrecords] at ha
      obtain ha | ⟨rfl, rfl⟩ : s.records[d]? = some a ∨ d = s.depth ∧ a = b := by grind
      · exact (ih ha).concat (by grind) (by simp [henters.request?, Scope.Serves])
      · rw [hscope]
        exact .of_enters henters
    · rw [hrecords] at ha
      obtain ⟨hdepth, ha⟩ : d + 1 < s.depth ∧ s.records[d]? = some a := by grind
      exact (ih ha).concat (by omega) (by simp [hdepth.ne', Scope.Serves])
    · rw [hrecords] at ha
      obtain ⟨hdepth, hbelow⟩ | ⟨hdepth, rfl, htop⟩ : (d + 1 < s.depth ∧ s.records[d]? = some a) ∨
          (s.depth = d + 1 ∧ a = b ∧ s.records[d]? = some s.current) := by grind
      · exact (ih hbelow).concat (by omega) (by simp [hdepth.ne', Scope.Serves])
      · exact (ih htop).concat (by omega) (by rwa [if_pos hdepth])

/-- While the depth is greater than it was when a function was entered, the activations that were
there before stay at the bottom. -/
theorem History.prefix_records (h : History p source channel l s) {before since : List Session}
    {caller : Session} (hl : l = before ++ caller :: since) (henters : Enters p caller)
    (hsince : ∀ x ∈ since, caller.depth < x.depth) : caller.records <+: s.records := by
  -- The last step is the entering itself or one that is taken at a greater depth.
  induction h generalizing since with
  | start => simp at hl
  | aside h hrecords ih =>
    rw [hrecords]
    exact ih hl hsince
  | @step l s h ih =>
    obtain rfl | ⟨since, last, rfl⟩ := since.eq_nil_or_concat'
    · obtain ⟨-, hcaller⟩ := List.append_inj' hl rfl
      obtain rfl := List.singleton_inj.mp hcaller
      obtain ⟨-, a, hrecords, -⟩ | ⟨hleaves, -⟩ | ⟨hnot, -⟩ := step_cases p s
      · rw [hrecords]
        exact List.prefix_append _ _
      · exact absurd henters hleaves.not_enters
      · exact absurd henters hnot
    · rw [← List.cons_append, ← List.append_assoc] at hl
      obtain ⟨hfront, hlast⟩ := List.append_inj' hl rfl
      obtain rfl := List.singleton_inj.mp hlast
      have hbelow : caller.records <+: s.records := ih hfront fun x hx => hsince x (by simp [hx])
      -- The depth is greater, so the innermost activation is not one of the caller's.
      have hdepth : caller.depth < s.depth := hsince s (by simp)
      have hdrop : caller.records <+: s.records.dropLast := by
        rw [List.dropLast_eq_take, List.prefix_take_iff, length_records, length_records]
        exact ⟨hbelow, by omega⟩
      exact hdrop.trans (prefix_records_step p s)

/-- What has happened up to one of its states is a history too. -/
theorem History.upTo (h : History p source channel l s) {before after : List Session} {b : Session}
    (hl : l = before ++ b :: after) : History p source channel before b := by
  induction h generalizing after with
  | start => simp at hl
  | aside h hrecords ih => exact ih hl
  | @step l s h ih =>
    obtain rfl | ⟨after, last, rfl⟩ := after.eq_nil_or_concat'
    · obtain ⟨rfl, hlast⟩ := List.append_inj' hl rfl
      obtain rfl := List.singleton_inj.mp hlast
      exact h
    · rw [← List.cons_append, ← List.append_assoc] at hl
      exact ih (List.append_inj' hl rfl).1

/-- Activations are stacked, and restored exactly. A step changes no activation below the innermost
one, and the depth by one at most: upwards exactly with the marker of a function, and downwards
exactly with a return that finds an activation above the base. When a function has been entered and,
with the depth greater than before throughout, a step leads back to the depth before, then all
activations are the ones from before the function. And the scope of the innermost activation above
the base is what the requests make of an empty one that have been made while this activation was the
innermost, since its function was entered. -/
theorem activations_stacked (h : History p source channel l s) :
    (∀ r : Session, r.records.dropLast <+: (step p r).state.records ∧
      ((step p r).state.depth = r.depth + 1 ↔ Enters p r) ∧
      ((step p r).state.depth + 1 = r.depth ↔ Leaves p r ∧ 2 ≤ r.depth) ∧
      ((step p r).state.depth = r.depth ∨ (step p r).state.depth = r.depth + 1 ∨
        (step p r).state.depth + 1 = r.depth)) ∧
    (∀ before caller inside last rest, l = before ++ caller :: (inside ++ last :: rest) →
      Enters p caller → (∀ r ∈ inside ++ [last], caller.depth < r.depth) →
      (step p last).state.depth = caller.depth →
      (step p last).state.records = caller.records) ∧
    (2 ≤ s.depth → Account p l (s.depth - 1) s.current.scope) := by
  refine ⟨fun r => ⟨prefix_records_step p r, depth_step p r⟩, ?_, ?_⟩
  · intro before caller inside last rest hl henters hinside hback
    rw [← List.cons_append, ← List.append_assoc] at hl
    have hsplit :
        before ++ caller :: inside ++ [last] = before ++ caller :: (inside ++ [last]) := by simp
    have hbelow : caller.records <+: (step p last).state.records :=
      (h.upTo hl).step.prefix_records hsplit henters hinside
    exact (hbelow.eq_of_length (by simpa using hback.symm)).symm
  · intro hdepth
    refine h.account (by omega) ?_
    have hlength := s.length_records
    have hcurrent := s.records_eq
    grind

/-! ## Histories of operations -/

/-- Setting a breakpoint leaves the activations alone. -/
theorem records_setBreakpoint (line : Nat) (s : Session) :
    (setBreakpoint line s).state.records = s.records := by
  unfold setBreakpoint
  split <;> rfl

/-- Clearing a breakpoint leaves the activations alone. -/
theorem records_clearBreakpoint (line : Nat) (s : Session) :
    (clearBreakpoint line s).state.records = s.records := by
  unfold clearBreakpoint
  split <;> rfl

/-- The loop of a mode continues a history with its attempts. -/
theorem History.proceed (h : History p source channel l s) (mode : Mode) (depth fuel : Nat) :
    History p source channel (l ++ proceedAttempts p mode depth fuel s)
      (Session.proceed p mode depth fuel s).state := by
  induction fuel generalizing l s with
  | zero =>
    rw [proceedAttempts, List.append_nil]
    exact h
  | succ fuel ih =>
    have hsettled : History p source channel l s.settled := h.aside rfl
    obtain ⟨-, hp, ha⟩ | ⟨-, hp, ha⟩ | ⟨-, e, t, hstep, hp, ha⟩ | ⟨-, instr, t, hstep, hp, ha⟩ :=
      proceed_cases p mode depth fuel s
    · rw [hp, ha, List.append_nil]
      exact h
    · rw [hp, ha, List.append_nil]
      exact hsettled
    · rw [hp, ha]
      have hnext := hsettled.step
      rwa [hstep] at hnext
    · rw [hp, ha, List.append_cons]
      have hnext := hsettled.step
      rw [hstep] at hnext
      exact ih hnext

/-- An operation that makes no attempt and leaves the activations alone adds nothing to history. -/
theorem History.perform_of_quiet (h : History p source channel l s) {op : Operation}
    (hnone : op.attempts p s = []) (hrecords : (op.perform p s).state.records = s.records) :
    History p source channel (l ++ op.attempts p s) (op.perform p s).state := by
  rw [hnone, List.append_nil]
  exact h.aside hrecords

/-- An operation continues a history with its attempts. -/
theorem History.perform (h : History p source channel l s) (op : Operation) :
    History p source channel (l ++ op.attempts p s) (op.perform p s).state := by
  cases op with
  | step =>
    rw [Operation.perform, state_bind_pure]
    exact h.step
  | run mode fuel =>
    rw [Operation.perform_run, state_bind_pure]
    exact h.proceed mode s.depth fuel
  | setBreakpoint line =>
    refine h.perform_of_quiet rfl ?_
    rw [Operation.perform, state_bind_pure]
    exact records_setBreakpoint line s
  | clearBreakpoint line =>
    refine h.perform_of_quiet rfl ?_
    rw [Operation.perform, state_bind_pure]
    exact records_clearBreakpoint line s
  | valueOf name =>
    refine h.perform_of_quiet rfl ?_
    rw [Operation.perform, get_bind_apply]
    cases s.valueOf name <;> rfl
  | setTracing on | takeLog | listVariables => exact h.perform_of_quiet rfl rfl

/-- A sequence of operations continues a history with its attempts. -/
theorem History.after (h : History p source channel l s) (ops : List Operation) :
    History p source channel (l ++ attempts p ops s) (Session.after p ops s) := by
  induction ops generalizing l s with
  | nil =>
    rw [attempts, List.append_nil]
    exact h
  | cons op ops ih =>
    rw [attempts, ← List.append_assoc]
    exact ih (h.perform op)

end Histories

/-- A program that calls a function with a variable of the same name as one of its own. -/
def nestedProgram : Program :=
  { instructions := #[.function "main" 1 2, .lit 3 (some "x"), .args 0, .call ⟨"f", some 5⟩, .halt,
      .label "f", .function "f" 3 4, .lit 7 (some "x"), .line 4, .ret (some "f")]
    labels := ∅ }

/-- A session with `nestedProgram` after a number of steps. -/
def nested (k : Nat) : Session :=
  after nestedProgram (List.replicate k .step) (start { lines := #["a", "b", "c", "d"] } {})

/-- The function is entered in the sixth step and left again in the ninth, and its caller's
activation is what it was. Before it is left, its own variable is in slot 1. -/
theorem activations_stacked_nested :
    Enters nestedProgram (nested 5) ∧ (nested 9).records = (nested 5).records ∧
      2 ≤ (nested 8).depth ∧
      Account nestedProgram ((List.range 8).map nested) 2 (nested 8).current.scope ∧
      (nested 8).current.scope.lookup "x" = .ok 1 := by
  have hhistory : ∀ k, History nestedProgram { lines := #["a", "b", "c", "d"] } {}
      (attempts nestedProgram (List.replicate k .step) _) (nested k) :=
    fun k => History.start.after _
  have henters : Enters nestedProgram (nested 5) := ⟨"f", 3, 4, _, rfl⟩
  refine ⟨henters, ?_, by decide, ?_, rfl⟩
  · obtain ⟨-, hsegment, -⟩ := activations_stacked (hhistory 9)
    exact hsegment ((List.range 5).map nested) (nested 5) [nested 6, nested 7] (nested 8) [] rfl
      henters (by decide) rfl
  · obtain ⟨-, -, hscope⟩ := activations_stacked (hhistory 8)
    exact hscope (by decide)

end Session

end XBytecode
