/-!
# Binary operators

The twelve operators of `BOP`. Arithmetic is that of 32-bit words: it wraps around, and division
rounds toward zero. Comparisons and the logical operators give the flags 1 and 0, and only 1
counts as true to a logical operator.
-/

namespace XBytecode

/-- A binary operator on machine words. -/
inductive Operator where
  | add
  | sub
  | mul
  | div
  | eq
  | ne
  | le
  | ge
  | lt
  | gt
  | or
  | and
  deriving DecidableEq, Repr, Inhabited

namespace Operator

/-- Every operator, once. -/
def all : List Operator :=
  [add, sub, mul, div, eq, ne, le, ge, lt, gt, or, and]

/-- The list of all operators misses none. -/
theorem mem_all (op : Operator) : op ∈ all := by
  cases op <;> decide

/-- How the operator is written. -/
def symbol : Operator → String
  | add => "+"
  | sub => "-"
  | mul => "*"
  | div => "/"
  | eq => "=="
  | ne => "!="
  | le => "<="
  | ge => ">="
  | lt => "<"
  | gt => ">"
  | or => "|"
  | and => "&"

/-- The operator that is written `text`. -/
def ofSymbol? (text : String) : Option Operator :=
  all.find? fun op => op.symbol == text

/-- Every operator is recognised by its symbol. -/
theorem ofSymbol?_symbol (op : Operator) : ofSymbol? op.symbol = some op := by
  cases op <;> decide +kernel

/-- A truth value as a machine word. -/
def flag (b : Bool) : Int32 :=
  if b then 1 else 0

/-- The value of `left op right`; division by zero has none. -/
def apply (op : Operator) (left right : Int32) : Option Int32 :=
  match op with
  | add => some (left + right)
  | sub => some (left - right)
  | mul => some (left * right)
  | div => if right = 0 then none else some (left / right)
  | eq => some (flag (left == right))
  | ne => some (flag (left != right))
  | le => some (flag (left ≤ right))
  | ge => some (flag (right ≤ left))
  | lt => some (flag (left < right))
  | gt => some (flag (right < left))
  | or => some (flag (left == 1 || right == 1))
  | and => some (flag (left == 1 && right == 1))

/-- Only a division by zero has no value. -/
theorem apply_eq_none_iff {op : Operator} {left right : Int32} :
    op.apply left right = none ↔ op = div ∧ right = 0 := by
  cases op <;> simp [apply]

end Operator

end XBytecode
