import ScriptMachine.Instruction
import ScriptMachine.Task
import ScriptMachine.Text.Utf8

/-!
# Programs, checkpoints and images

A `Program` is what a compiler produces: names of globals, code, scripts, the scripts to start by
themselves, and a pool of text. A `Checkpoint` is where a run of it stands. An `Image` is what a
file holds: a program, and a checkpoint if the file is a save file.
-/

namespace ScriptMachine

/-! ### Programs -/

/-- The only version of the format that is read. -/
def currentVersion : UInt32 := 7

/-- A compiled program. -/
structure Program where
  version : UInt32 := currentVersion
  /-- The names of the globals without the null variable, so that they count from 1. -/
  globals : List String := []
  code : List Instruction := []
  /-- The ids of the scripts that are started when the program is loaded. -/
  autostart : List UInt32 := []
  scripts : List Script := []
  /-- The text pool: texts end at a zero byte and are addressed by where they begin. -/
  data : List UInt8 := []
deriving DecidableEq, Repr, Inhabited

/-- The text that begins at an offset of a pool and ends before the next zero byte or with the pool;
none past the end of the pool. -/
def textAt? (data : List UInt8) (offset : Nat) : Option String :=
  if offset ≤ data.length then some (Text.decode ((data.drop offset).takeWhile (· != 0))) else none

namespace Program

def textAt? (p : Program) (offset : UInt32) : Option String :=
  ScriptMachine.textAt? p.data offset.toNat

def script? (p : Program) (id : UInt32) : Option Script := ofOrdinal? p.scripts id

/-- The greatest id in the script table. -/
def highestScript (p : Program) : UInt32 := p.scripts.foldl (fun id s => max id s.id) 0

end Program

/-! ### Checkpoints and images -/

/-- Where a run stands: everything but the program itself and the null variable, which is taken to
be blank. -/
structure Checkpoint where
  stack : Stack := .empty
  globals : List Variable := []
  tasks : List Task := []
  ticks : UInt32 := 0
  line : UInt32 := 0
  highestTask : UInt32 := 0
  highestScript : UInt32 := 0
  executed : UInt32 := 0
deriving DecidableEq, Repr, Inhabited

/-- The contents of a program file or save file. -/
structure Image where
  program : Program
  checkpoint : Option Checkpoint := none
deriving DecidableEq, Repr, Inhabited

end ScriptMachine
