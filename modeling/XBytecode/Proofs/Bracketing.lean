import XBytecode.Proofs.Draining

/-!
# The log is well bracketed

Lines of the log that tell of a function entered and of one left match like brackets. `unmatched?`
reads the entries of a log in order and keeps the entry lines that no exit line has matched yet; it
gives up at an exit line without the indentation and the name of the latest of them. A step keeps
the unmatched entry lines together with the activations above the base (`Bracketed.step`), as long
as the base is not returned from, and so does every history (`History.bracketed`).

The lines are lines of the log's text because no entry has a line feed in it: the names in entry
lines come from the program, and those in exit lines from the entry lines that they match
(`forall_label_of_unmatched?`).
-/

namespace XBytecode

/-- What is shown of a name is a part of it. -/
theorem mem_of_mem_displayName {name : String} {c : Char} (h : c ∈ (displayName name).toList) :
    c ∈ name.toList := by
  rw [displayName, String.toList_ofList] at h
  generalize name.toList = letters at h ⊢
  induction letters with
  | nil => exact h
  | cons first rest ih =>
    rw [beforeSuffix] at h
    split at h
    · cases h
    · obtain rfl | h := List.mem_cons.mp h
      · exact List.mem_cons_self
      · exact List.mem_cons_of_mem _ (ih h)

namespace Session

variable {p : Program} {source : Source} {channel : Channel} {l : List Session} {s : Session}

/-! ## Matching -/

/-- The entry lines that are unmatched behind an entry, latest last, when `pending` are before it.
An exit line has to have the indentation and the name of the latest one. -/
def Entry.settle? (pending : List Entry) (e : Entry) : Option (List Entry) :=
  match e with
  | .opened .. => some (pending ++ [e])
  | .closed .. =>
    match pending.getLast? with
    | some latest => if latest.label = e.label then some pending.dropLast else none
    | none => none

/-- The entry lines that no exit line has matched, latest last, if every exit line matches the
latest unmatched entry line before it. -/
def unmatched? (es : List Entry) : Option (List Entry) :=
  es.foldlM Entry.settle? []

/-- What holds of the indentation and the name of every entry line holds of every exit line too. -/
theorem forall_label_of_unmatched? {P : Nat × String → Prop} {es pending pending' : List Entry}
    (h : es.foldlM Entry.settle? pending = some pending') (hpending : ∀ e ∈ pending, P e.label)
    (hopened : ∀ indent name values, .opened indent name values ∈ es → P (indent, name)) :
    ∀ e ∈ es, P e.label := by
  induction es generalizing pending with
  | nil => simp
  | cons e es ih =>
    rw [List.foldlM_cons, Option.bind_eq_bind, Option.bind_eq_some_iff] at h
    obtain ⟨next, hnext, hrest⟩ := h
    have hopened' : ∀ indent name values, .opened indent name values ∈ es → P (indent, name) :=
      fun indent name values h => hopened indent name values (List.mem_cons_of_mem _ h)
    cases e with
    | opened indent name values =>
      have hP : P (indent, name) := hopened indent name values List.mem_cons_self
      cases hnext
      refine List.forall_mem_cons.mpr ⟨hP, ih hrest ?_ hopened'⟩
      intro e he
      obtain he | he := List.mem_append.mp he
      · exact hpending e he
      · rw [List.mem_singleton.mp he]
        exact hP
    | closed indent name value =>
      rw [Entry.settle?] at hnext
      split at hnext
      · next latest hlatest =>
        split at hnext
        · next hlabel =>
          cases hnext
          have hP : P latest.label := hpending latest (List.mem_of_getLast? hlatest)
          rw [hlabel] at hP
          exact List.forall_mem_cons.mpr
            ⟨hP, ih hrest (fun e he => hpending e (List.dropLast_subset _ he)) hopened'⟩
        · cases hnext
      · cases hnext

/-! ## The activations above the base -/

/-- The innermost activation above the base is the last one named. -/
theorem names_eq (h : 2 ≤ s.depth) :
    s.ledger.names = s.ledger.names.dropLast ++ [s.current.display] := by
  cases hback : s.calls.back? with
  | none =>
    have hnil : s.calls = #[] := Array.back?_eq_none_iff.mp hback
    simp [depth, hnil] at h
  | some a =>
    obtain ⟨rest, hcalls⟩ := Array.back?_eq_some_iff.mp hback
    simp [ledger, current, hcalls]

/-- The indentations and names of the entry lines for activations above the base, outermost first:
the first one is indented by two. -/
def labels (names : List String) : List (Nat × String) :=
  names.mapIdx fun k name => (k + 2, name)

/-- An activation more is indented by one space more. -/
theorem labels_concat (names : List String) (name : String) :
    labels (names ++ [name]) = labels names ++ [(names.length + 2, name)] :=
  List.mapIdx_concat

/-- The entry lines unmatched behind attempts belong to the activations above the base, one to each
and in order. -/
def Bracketed (p : Program) (l : List Session) (s : Session) : Prop :=
  ∃ pending, unmatched? (entries p l) = some pending ∧
    pending.map Entry.label = labels s.ledger.names

/-- One more entry is matched against what is unmatched before it. -/
theorem unmatched?_concat {es pending : List Entry} (h : unmatched? es = some pending) (e : Entry) :
    unmatched? (es ++ [e]) = e.settle? pending := by
  rw [unmatched?] at h ⊢
  rw [List.foldlM_append, h]
  simp

/-- A step that is no return from the base keeps the log well bracketed. -/
theorem Bracketed.step (h : Bracketed p l s) (hreturn : Leaves p s → 2 ≤ s.depth) :
    Bracketed p (l ++ [s]) (step p s).state := by
  obtain ⟨pending, hpending, hlabels⟩ := h
  have hledger := ledger_step p s
  have hlength := s.length_names
  rw [Bracketed, entries_append, entries_singleton]
  by_cases henters : Enters p s
  · obtain ⟨name, first, last, t, hstep⟩ := henters
    rw [logged?_function hstep] at hledger ⊢
    rw [hledger, Option.toList_some, unmatched?_concat hpending]
    refine ⟨_, rfl, ?_⟩
    have hnames : (s.ledger.record
        (.opened (s.depth + 1) (displayName name) t.machine.stack.frameValues)).names =
        s.ledger.names ++ [displayName name] := rfl
    rw [List.foldl_cons, List.foldl_nil, hnames, labels_concat, List.map_append, hlabels, ← hlength]
    rfl
  by_cases hleaves : Leaves p s
  · have hdepth := hreturn hleaves
    obtain ⟨name, t, hstep⟩ := hleaves
    obtain ⟨v, hv⟩ := peek_of_ret hstep
    rw [logged?_ret hstep hv] at hledger ⊢
    rw [hledger, Option.toList_some, unmatched?_concat hpending]
    -- The latest unmatched entry line belongs to the innermost activation, which is left.
    obtain ⟨below, hnames⟩ : ∃ below, s.ledger.names = below ++ [s.current.display] :=
      ⟨_, names_eq hdepth⟩
    have hindent : below.length + 2 = s.depth := by
      rw [← hlength, hnames, List.length_append, List.length_singleton]
    rw [hnames, labels_concat, hindent, List.map_eq_append_iff] at hlabels
    obtain ⟨rest, latest?, rfl, hrest, hlatest⟩ := hlabels
    obtain ⟨latest, rfl, hlabel⟩ := List.map_eq_singleton_iff.mp hlatest
    refine ⟨rest, ?_, ?_⟩
    · have hfits : latest.label = (Entry.closed s.depth s.current.display v).label := hlabel
      simp [Entry.settle?, hfits]
    · have hleft : (s.ledger.record (.closed s.depth s.current.display v)).names =
          s.ledger.names.dropLast := rfl
      rw [List.foldl_cons, List.foldl_nil, hleft, hnames, List.dropLast_concat, hrest]
  · rw [logged?_eq_none henters hleaves] at hledger ⊢
    rw [hledger, Option.toList_none, List.append_nil]
    exact ⟨pending, hpending, hlabels⟩

/-- A history without a return from the base has a log that is well bracketed. -/
theorem History.bracketed (h : History p source channel l s)
    (hreturns : ∀ a ∈ l, Leaves p a → 2 ≤ a.depth) : Bracketed p l s := by
  induction h with
  | start => exact ⟨[], rfl, rfl⟩
  | @aside l s t h hrecords ih =>
    obtain ⟨pending, hpending, hlabels⟩ := ih hreturns
    have hcalls : t.calls.toList = s.calls.toList := (List.cons.inj hrecords).2
    have hnames : t.ledger.names = s.ledger.names := congrArg (List.map Activation.display) hcalls
    exact ⟨pending, hpending, by rw [hnames, hlabels]⟩
  | step h ih =>
    rw [List.forall_mem_append, List.forall_mem_singleton] at hreturns
    exact (ih hreturns.1).step hreturns.2

/-! ## Lines -/

/-- A numeral is no end of a line. -/
theorem ne_lineEnd_of_mem_ofWord {v : Int32} {c : Char} (h : c ∈ (Numeral.ofWord v).toList) :
    c ≠ '\n' ∧ c ≠ '\r' := by
  have hblank := (Numeral.isWord_ofWord v).unblank c h
  constructor
  · rintro rfl
    exact absurd hblank (by decide)
  · rintro rfl
    exact absurd hblank (by decide)

/-- An entry with a name that has no line feed makes one line. -/
theorem Entry.text_line {e : Entry} (h : '\n' ∉ e.label.2.toList) :
    '\n' ∉ e.text.toList ∧ e.text.toList.getLast? ≠ some '\r' := by
  cases e with
  | opened indent name values =>
    have hname : '\n' ∉ name.toList := h
    have hvalues : '\n' ∉ (",".intercalate (values.map Numeral.ofWord)).toList := by
      intro hmem
      obtain hcomma | ⟨part, hpart, hc⟩ := Text.mem_of_mem_intercalate hmem
      · simp at hcomma
      · obtain ⟨v, -, rfl⟩ := List.mem_map.mp hpart
        exact (ne_lineEnd_of_mem_ofWord hc).1 rfl
    rw [text]
    generalize ",".intercalate (values.map Numeral.ofWord) = arguments at hvalues ⊢
    simp [hname, hvalues, List.getLast?_cons]
  | closed indent name value =>
    have hname : '\n' ∉ name.toList := h
    have hvalue : '\n' ∉ (Numeral.ofWord value).toList :=
      fun hmem => (ne_lineEnd_of_mem_ofWord hmem).1 rfl
    have hlast : (Numeral.ofWord value).toList.getLast?.getD ' ' ≠ '\r' := by
      cases h : (Numeral.ofWord value).toList.getLast? with
      | none => decide
      | some c => exact (ne_lineEnd_of_mem_ofWord (List.mem_of_getLast? h)).2
    rw [text]
    generalize Numeral.ofWord value = numeral at hvalue hlast ⊢
    simp [hname, hvalue, hlast, List.getLast?_cons]

/-- The name in an entry line is that of a function of the program. -/
theorem exists_function_of_opened {indent : Nat} {name : String} {values : List Int32}
    (h : .opened indent name values ∈ entries p l) :
    ∃ function first last, .function function first last ∈ p.instructions ∧
      name = displayName function := by
  obtain ⟨a, -, ha⟩ := List.mem_filterMap.mp h
  unfold logged? at ha
  split at ha
  · next function first last t hstep =>
    cases ha
    have hget := (Machine.effect_of_step (machine_of_ok hstep)).1
    exact ⟨function, first, last, Array.mem_of_getElem? hget, rfl⟩
  · split at ha <;> cases ha
  · cases ha

/-- The entries of a log that is well bracketed make one line each. -/
theorem Bracketed.lines (h : Bracketed p l s)
    (hnames : ∀ name first last, .function name first last ∈ p.instructions → '\n' ∉ name.toList) :
    Text.lines (Text.unlines ((entries p l).map Entry.text)) = (entries p l).map Entry.text := by
  obtain ⟨pending, hpending, -⟩ := h
  have hopened : ∀ indent name values, .opened indent name values ∈ entries p l →
      '\n' ∉ (indent, name).2.toList := by
    intro indent name values hmem hfeed
    obtain ⟨function, first, last, hfunction, rfl⟩ := exists_function_of_opened hmem
    exact hnames function first last hfunction (mem_of_mem_displayName hfeed)
  have hlabels := forall_label_of_unmatched? (P := fun label => '\n' ∉ label.2.toList) hpending
    (by simp) hopened
  refine Text.lines_unlines_of_getLast? fun line hline => ?_
  obtain ⟨e, he, rfl⟩ := List.mem_map.mp hline
  exact Entry.text_line (hlabels e he)

/-! ## Sessions in which calls are logged -/

/-- A new session in which calls are logged. -/
def traced (source : Source) (channel : Channel) : Session :=
  (start source channel).setTracing true

/-- The log of calls and returns is well bracketed, and taking it loses nothing. In a session that
logs calls from its start on, and in which the base is not returned from, what has been logged are
the lines of the entries, one for each marker of a function executed and one for each return, which
shows the value that it leaves on top of the stack. Every exit line has the indentation and the name
of the latest unmatched entry line before it. The entry lines that are unmatched at the end belong
to the activations above the base, one to each and in order; that of the first one is indented by
two spaces, and each further one by one more. And the logs taken on the way, with what is left, are
the log of the session that never takes it. The end can be any moment, since a run may be given any
number of instructions. -/
theorem log_bracketed (p : Program)
    (hnames : ∀ name first last, .function name first last ∈ p.instructions → '\n' ∉ name.toList)
    (source : Source) (channel : Channel) (ops : List Operation)
    (hops : ∀ op ∈ ops, ∀ on, op ≠ .setTracing on)
    (hreturns : ∀ a ∈ attempts p ops (traced source channel), Leaves p a → 2 ≤ a.depth) :
    let s := traced source channel
    (∀ a,
      (∀ name first last t, step p a = .ok (.function name first last) t →
        logged? p a =
          some (.opened (a.depth + 1) (displayName name) t.machine.stack.frameValues)) ∧
      (∀ name t, step p a = .ok (.ret name) t → ∃ v, t.machine.stack.peek = .ok v ∧
        logged? p a = some (.closed a.depth a.current.display v)) ∧
      (¬ Enters p a → ¬ Leaves p a → logged? p a = none)) ∧
    Text.lines (drained p ops s ++ (after p ops s).log) =
      (entries p (attempts p ops s)).map Entry.text ∧
    (∃ pending, unmatched? (entries p (attempts p ops s)) = some pending ∧
      pending.map Entry.label =
        (after p ops s).calls.toList.mapIdx fun k a => (k + 2, a.display)) ∧
    drained p ops s ++ (after p ops s).log = (after p (ops.filter (· ≠ .takeLog)) s).log := by
  have hhistory : History p source channel (attempts p ops (traced source channel))
      (after p ops (traced source channel)) :=
    (History.start.aside (t := traced source channel) rfl).after ops
  have hbracketed := hhistory.bracketed hreturns
  refine ⟨fun a => ⟨fun name first last t => logged?_function, ?_, logged?_eq_none⟩, ?_, ?_,
    transcript_eq_log hops _⟩
  · intro name t hstep
    obtain ⟨v, hv⟩ := peek_of_ret hstep
    exact ⟨v, hv, logged?_ret hstep hv⟩
  · have htranscript := transcript_eq (p := p) (s := traced source channel) hops rfl
    have hempty : (traced source channel).log = "" := rfl
    rw [transcript, hempty, String.empty_append] at htranscript
    rw [htranscript]
    exact hbracketed.lines hnames
  · obtain ⟨pending, hpending, hlabels⟩ := hbracketed
    refine ⟨pending, hpending, ?_⟩
    refine List.ext_getElem? fun k => ?_
    simp only [hlabels, labels, ledger, List.getElem?_mapIdx, List.getElem?_map, Option.map_map]
    rfl

/-- The log of `nestedProgram` is taken inside the function that it calls, and looked at behind the
return from it. -/
def nestedOperations : List Operation :=
  [.run .resume 7, .takeLog, .step, .step]

/-- A new session with `nestedProgram` in which calls are logged. -/
def nestedTraced : Session :=
  traced { lines := #["a", "b", "c", "d"] } {}

/-- The function is entered before the log is taken and left afterwards, and its two lines match. -/
theorem log_bracketed_nested :
    drained nestedProgram nestedOperations nestedTraced = "  main()\n   f()\n" ∧
      Text.lines (drained nestedProgram nestedOperations nestedTraced ++
          (after nestedProgram nestedOperations nestedTraced).log) =
        ["  main()", "   f()", "   exit: f: 7"] := by
  have hnames : ∀ name first last, .function name first last ∈ nestedProgram.instructions →
      '\n' ∉ name.toList := by
    intro name first last hmem
    obtain ⟨rfl, -⟩ | ⟨rfl, -⟩ :
        (name = "main" ∧ first = 1 ∧ last = 2) ∨ name = "f" ∧ first = 3 ∧ last = 4 := by
      simpa [nestedProgram] using hmem
    · decide
    · decide
  have hall : (attempts nestedProgram nestedOperations nestedTraced).all
      (fun a => decide (a.machine.pc = 0 ∨ 2 ≤ a.depth)) = true := by decide +kernel
  have hreturns : ∀ a ∈ attempts nestedProgram nestedOperations nestedTraced,
      Leaves nestedProgram a → 2 ≤ a.depth := by
    rintro a ha ⟨name, t, hstep⟩
    obtain hpc | hdepth := of_decide_eq_true (List.all_eq_true.mp hall a ha)
    · -- The first instruction is no return.
      have hget := (Machine.effect_of_step (machine_of_ok hstep)).1
      rw [hpc] at hget
      cases hget
    · exact hdepth
  obtain ⟨-, hlines, -⟩ := log_bracketed nestedProgram hnames { lines := #["a", "b", "c", "d"] } {}
    nestedOperations (by decide) hreturns
  exact ⟨by decide +kernel, hlines.trans (by decide +kernel)⟩

end Session

end XBytecode
