/-!
# Opcodes

The X instruction set has 18 opcodes. Each is written as one keyword, and a keyword is recognised
in any mix of ASCII letter cases.
-/

namespace XBytecode

/-- The operation that an instruction performs. -/
inductive Opcode where
  | args
  | bop
  | call
  | falseBranch
  | goto
  | halt
  | label
  | lit
  | load
  | pop
  | read
  | ret
  | store
  | write
  | dump
  | formal
  | function
  | line
  deriving DecidableEq, Repr, Inhabited

namespace Opcode

/-- Every opcode, once. -/
def all : List Opcode :=
  [args, bop, call, falseBranch, goto, halt, label, lit, load, pop, read, ret, store, write, dump,
    formal, function, line]

/-- The list of all opcodes misses none. -/
theorem mem_all (op : Opcode) : op ∈ all := by
  cases op <;> decide

/-- The canonical spelling, in capitals. -/
def keyword : Opcode → String
  | args => "ARGS"
  | bop => "BOP"
  | call => "CALL"
  | falseBranch => "FALSEBRANCH"
  | goto => "GOTO"
  | halt => "HALT"
  | label => "LABEL"
  | lit => "LIT"
  | load => "LOAD"
  | pop => "POP"
  | read => "READ"
  | ret => "RETURN"
  | store => "STORE"
  | write => "WRITE"
  | dump => "DUMP"
  | formal => "FORMAL"
  | function => "FUNCTION"
  | line => "LINE"

/-- The opcode that `word` spells. Keywords are ASCII capitals, so a word spells one exactly when
its ASCII letters, capitalised, do. -/
def ofKeyword? (word : String) : Option Opcode :=
  all.find? fun op => op.keyword == word.toUpper

/-- Every opcode is recognised by its keyword. -/
theorem ofKeyword?_keyword (op : Opcode) : ofKeyword? op.keyword = some op := by
  cases op <;> decide +kernel

/-- The number of operands that an instruction must have. -/
def arity : Opcode → Nat
  | halt | read | write | ret => 0
  | args | bop | call | falseBranch | goto | label | lit | pop | dump | line => 1
  | load | store | formal => 2
  | function => 3

/-- Whether the opcode only marks a place for the debugger. -/
def isMarker : Opcode → Bool
  | formal | function | line => true
  | _ => false

end Opcode

end XBytecode
