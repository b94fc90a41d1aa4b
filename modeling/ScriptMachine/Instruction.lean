import ScriptMachine.Value

/-!
# Instructions

An `Instruction` is a record of five words: an opcode, a mode, a type tag, an operand and the source
line it comes from. The mode is kept as a number, since what it selects depends on the opcode and
some opcodes ignore it; `Mode` names the numbers that mean something.
-/

namespace ScriptMachine

/-! ### Opcodes -/

/-- The opcodes, in the order of their numbers. -/
inductive Opcode where
  | finish
  | jumpIfZero
  | push
  | pop
  | add
  | callNative
  | sub
  | neg
  | mul
  | div
  | mod
  | not
  | and
  | or
  | eq
  | ne
  | ge
  | le
  | gt
  | lt
  | jump
  | sleep
  | except
  | cast
  | callScript
  | endExcept
  | returnExcept
  | nextExcept
  | breakExcept
  | swap
  | line
deriving DecidableEq, Repr, Inhabited

namespace Opcode

def all : List Opcode :=
  [finish, jumpIfZero, push, pop, add, callNative, sub, neg, mul, div, mod, not, and, or, eq, ne,
    ge, le, gt, lt, jump, sleep, except, cast, callScript, endExcept, returnExcept, nextExcept,
    breakExcept, swap, line]

/-- The number under which an opcode is stored: its place in the list. -/
def number (op : Opcode) : UInt32 := UInt32.ofNat (all.idxOf op)

def ofNumber? (number : UInt32) : Option Opcode := all[number.toNat]?

@[simp] theorem ofNumber?_number (op : Opcode) : ofNumber? op.number = some op := by
  cases op <;> rfl

/-- The mnemonic without type suffix. -/
def name : Opcode → String
  | finish => "END"
  | jumpIfZero => "JZ"
  | push => "PUSH"
  | pop => "POP"
  | add => "ADD"
  | callNative => "SYS"
  | sub => "SUB"
  | neg => "NEG"
  | mul => "MUL"
  | div => "DIV"
  | mod => "MOD"
  | not => "NOT"
  | and => "AND"
  | or => "OR"
  | eq => "EQ"
  | ne => "NE"
  | ge => "GE"
  | le => "LE"
  | gt => "GT"
  | lt => "LT"
  | jump => "JMP"
  | sleep => "SLEEP"
  | except => "EXCEPT"
  | cast => "CAST"
  | callScript => "CALL"
  | endExcept => "ENDEXCEPT"
  | returnExcept => "RETEXCEPT"
  | nextExcept => "ITEREXCEPT"
  | breakExcept => "BRKEXCEPT"
  | swap => "SWAP"
  | line => "LINE"

end Opcode

/-! ### Modes -/

namespace Mode

/-- A push of the operand itself; a pop that drops the value. -/
def immediate : UInt32 := 0

/-- A push or pop of the variable whose id is the operand. -/
def reference : UInt32 := 1

/-- A jump that is the edge of a loop. -/
def backward : UInt32 := 0

/-- A script call that the caller does not wait for. -/
def async : UInt32 := 1

/-- A cast that resets a variable. -/
def zero : UInt32 := 1

/-- The end of a handler's turn, with the handler kept. -/
def yield : UInt32 := 1

/-- A copy from below to the top, and not the other way. -/
def copyFrom : UInt32 := 1

end Mode

/-! ### Instructions -/

/-- One record of a program's code. -/
structure Instruction where
  opcode : Opcode
  mode : UInt32
  tag : Tag
  operand : UInt32
  line : UInt32
deriving DecidableEq, Repr, Inhabited

end ScriptMachine
