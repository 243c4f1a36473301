import Std.Data.ExtTreeMap

/-!
# Scopes

A scope maps the variable names of one activation to stack slots. A later binding of a name shadows
the earlier ones, and the latest bindings can be undone, one by one, in reverse order. For this
every binding remembers the name that was bound just before it, and every name its shadowed
bindings, so that undoing never searches the table.
-/

namespace XBytecode

/-- One binding of a name. -/
structure Binding where
  /-- The slot of the variable, counted from the bottom of the stack. -/
  offset : Nat
  /-- The name that was bound last before this binding was made. -/
  previous : Option String
  deriving DecidableEq, Repr

/-- The bindings of one name. -/
structure BindingChain where
  /-- The latest binding, which is the one in force. -/
  newest : Binding
  /-- The bindings that it shadows, latest first. -/
  shadowed : List Binding
  deriving DecidableEq, Repr

/-- The variables of an activation. -/
structure Scope where
  /-- The bindings of each bound name. -/
  chains : Std.ExtTreeMap String BindingChain := ∅
  /-- The name that was bound last. -/
  top : Option String := none
  /-- The number of bindings, shadowed ones included. -/
  live : Nat := 0
  deriving DecidableEq, Inhabited

namespace Scope

/-- Why a scope operation is refused. -/
inductive Error where
  /-- The name is not bound. -/
  | notFound (name : String)
  /-- More bindings are to be undone than there are. -/
  | undoUnderflow (requested available : Nat)
  deriving DecidableEq, Repr

/-- The text of a scope error. -/
def Error.message : Error → String
  | notFound name => "'" ++ name ++ "' is not bound in this scope"
  | undoUnderflow requested available =>
    "cannot undo " ++ toString requested ++ " binding(s) with only " ++ toString available ++
      " live"

/-- Binds a name to a slot. -/
def enter (s : Scope) (name : String) (offset : Nat) : Scope :=
  let shadowed := match s.chains[name]? with
    | some chain => chain.newest :: chain.shadowed
    | none => []
  { chains := s.chains.insert name ⟨⟨offset, s.top⟩, shadowed⟩
    top := some name
    live := s.live + 1 }

/-- The scope without its latest binding, if it has one. -/
def undoLast? (s : Scope) : Option Scope :=
  match s.top with
  | none => none
  | some name =>
    match s.chains[name]? with
    | none => none
    | some chain =>
      let chains := match chain.shadowed with
        | [] => s.chains.erase name
        | binding :: rest => s.chains.insert name ⟨binding, rest⟩
      some { chains, top := chain.newest.previous, live := s.live - 1 }

/-- Undoing a binding right after it was made restores the scope exactly. -/
theorem undoLast?_enter (s : Scope) (name : String) (offset : Nat) :
    (s.enter name offset).undoLast? = some s := by
  obtain ⟨chains, top, live⟩ := s
  simp only [enter, undoLast?, Std.ExtTreeMap.getElem?_insert_self, Nat.add_sub_cancel]
  cases h : chains[name]? with
  | none =>
    congr 2
    apply Std.ExtTreeMap.ext_getElem?
    intro k
    simp only [Std.ExtTreeMap.getElem?_erase, Std.ExtTreeMap.getElem?_insert]
    split
    · next e => rw [← Std.LawfulEqCmp.eq_of_compare e, h]
    · rfl
  | some chain =>
    congr 2
    apply Std.ExtTreeMap.ext_getElem?
    intro k
    simp only [Std.ExtTreeMap.getElem?_insert]
    split
    · next e => rw [← Std.LawfulEqCmp.eq_of_compare e, h]
    · rfl

/-- The scope without its latest `n` bindings, or without all of them if there are fewer. -/
def undoLatest : Nat → Scope → Scope
  | 0, s => s
  | n + 1, s =>
    match s.undoLast? with
    | some rest => undoLatest n rest
    | none => s

/-- Undoes the latest `n` bindings; all of them or none. -/
def undo (s : Scope) (n : Nat) : Except Error Scope :=
  if n ≤ s.live then .ok (undoLatest n s) else .error (.undoUnderflow n s.live)

/-- The slot of a variable. -/
def lookup (s : Scope) (name : String) : Except Error Nat :=
  match s.chains[name]? with
  | some chain => .ok chain.newest.offset
  | none => .error (.notFound name)

/-- The bound names, in the order of their characters' code points. -/
def names (s : Scope) : List String :=
  s.chains.keys

/-- Whether nothing is bound. -/
def isEmpty (s : Scope) : Bool :=
  s.live == 0

end Scope

end XBytecode
