import ScriptMachine.Image.Error
import ScriptMachine.Image.Writer

/-!
# Reading images

A `Reader` takes something off the front of the bytes, or says why it cannot; the name it is given
is that of the field it reads, for the case that the bytes end inside it.

What a writer produces is read back as it was. Beyond that, a table of names, code or scripts with a
negative length is read as empty, a flag byte other than 0 is set, and bytes that are no text are
read as replacement characters. A checkpoint is read exactly when there are bytes after the program,
and then nothing may follow it.
-/

namespace ScriptMachine

/-- Takes an `α` off the front of the bytes. -/
abbrev Reader := StateT (List UInt8) (Except LoadError)

namespace Reader

/-! ### Fields -/

def fail {α : Type} (e : LoadError) : Reader α := fun _ => .error e

def byte (field : String) : Reader UInt8
  | [] => .error (.truncated field)
  | b :: rest => .ok (b, rest)

def word (field : String) : Reader UInt32
  | b₀ :: b₁ :: b₂ :: b₃ :: rest =>
    .ok (UInt32.ofNat
      (b₀.toNat + b₁.toNat * 0x100 + b₂.toNat * 0x10000 + b₃.toNat * 0x1000000), rest)
  | _ => .error (.truncated field)

/-- The next `count` bytes. -/
def bytes (field : String) (count : Nat) : Reader (List UInt8) := fun input =>
  if count ≤ input.length then .ok (input.splitAt count) else .error (.truncated field)

/-- Everything up to a zero byte, which is taken too. -/
def text (field : String) : Reader String := fun input =>
  match input.dropWhile (· != 0) with
  | [] => .error (.truncated field)
  | _ :: rest => .ok (Text.decode (input.takeWhile (· != 0)), rest)

def flag (field : String) : Reader Bool := do return (← byte field) != 0

/-- The tag with the given number, if there is one. -/
def tagOf (number : UInt32) : Reader Tag :=
  match Tag.ofNumber? number with
  | some tag => return tag
  | none => fail (.invalidTag number)

/-! ### Tables -/

/-- Reads `count` entries, each with a reader that knows its place in the table. -/
def entriesFrom {α : Type} (entry : Nat → Reader α) (index : Nat) : Nat → Reader (List α)
  | 0 => return []
  | count + 1 => do
    let first ← entry index
    return first :: (← entriesFrom entry (index + 1) count)

def entries {α : Type} (count : Nat) (entry : Reader α) : Reader (List α) :=
  entriesFrom (fun _ => entry) 0 count

/-- The length of a table whose length is a signed number; a negative one means an empty table. -/
def signedCount (field : String) : Reader Nat := do return (← word field).toInt32.toInt.toNat

/-- A table of texts; the same name stands for its length and for the texts in it. -/
def names (field : String) : Reader (List String) := do
  entries (← signedCount field) (text field)

/-! ### Programs -/

def instruction (index : Nat) : Reader Instruction := do
  let opcode ← word "instruction"
  let mode ← word "instruction"
  let tag ← word "instruction"
  let operand ← word "instruction"
  let line ← word "instruction"
  match Opcode.ofNumber? opcode with
  | none => fail (.invalidOpcode opcode index)
  | some opcode => return { opcode, mode, tag := ← tagOf tag, operand, line }

def script : Reader Script := do
  let name ← text "script name"
  let file ← text "script filename"
  let kind ← word "script type"
  let offset ← word "script variables offset"
  let localNames ← names "script variables"
  let entry ← word "script instruction address"
  let parameterCount ← word "script parameter count"
  let id ← word "script id"
  return { name, file, kind := ⟨kind⟩, offset, localNames, entry, parameterCount, id }

/-- The text pool, whose length may not be negative. -/
def data : Reader (List UInt8) := do
  let size := (← word "data size").toInt32
  if size < 0 then fail (.negativeCount "data" size) else bytes "data" size.toInt.toNat

def header : Reader UInt32 := do
  let magic ← bytes "header" 4
  if magic ≠ Image.magic then fail (.badMagic magic)
  let version ← word "version"
  if version ≠ currentVersion then fail (.unsupportedVersion version)
  return version

def program : Reader Program := do
  let version ← header
  let globals ← names "global variable names"
  let code ← entriesFrom instruction 0 (← signedCount "code count")
  let autostart ← entries (← signedCount "autostart count") (word "autostart id")
  let scripts ← entries (← signedCount "script count") script
  return { version, globals, code, autostart, scripts, data := ← data }

/-! ### Checkpoints -/

/-- A payload that was read before becomes a value once its type tag is read. -/
def tagged : List UInt32 → Reader (List Value)
  | [] => return []
  | bits :: rest => do
    let tag ← tagOf (← word "stack types")
    return ⟨tag, bits⟩ :: (← tagged rest)

def stack : Reader Stack := do
  let count ← word "stack count"
  if Stack.capacity < count.toNat then fail (.stackTooLarge count)
  let pushes ← word "stack push count"
  let pops ← word "stack pop count"
  -- All payloads come before the first tag.
  let payloads ← entries count.toNat (word "stack values")
  match Stack.ofValues? (← tagged payloads) pushes pops with
  | some s => return s
  | none => fail (.stackTooLarge count)

/-- The tag is checked after the whole record is read. -/
def variableSlot : Reader Variable := do
  let tag ← byte "variable type"
  let bits ← word "variable value"
  let name ← text "variable name"
  return ⟨name, ⟨← tagOf tag.toUInt32, bits⟩⟩

def variableTable (field : String) : Reader (List Variable) := do
  entries (← word field).toNat variableSlot

/-- A task of one of the given scripts, from which it has its name and file. That there is such a
script is checked after the whole record is read. -/
def task (scripts : List Script) : Reader Task := do
  let locals ← variableTable "task locals"
  let id ← word "task number"
  let address ← word "task instruction address"
  let savedAddress ← word "task previous instruction address"
  let waitingFor ← word "task waiting task"
  let offset ← word "task variables offset"
  let handlerIndex ← word "task exception handler index"
  let ticks ← word "task ticks"
  let scriptId ← word "task script id"
  let kind ← word "task type"
  let inHandler ← flag "task flags"
  let stopped ← flag "task flags"
  let yielded ← flag "task flags"
  let sleeping ← flag "task flags"
  let stack ← stack
  let handlers ← entries (← word "task exception handler count").toNat
    (word "task exception handlers")
  match ofOrdinal? scripts scriptId with
  | none => fail (.unknownScript id scriptId)
  | some script =>
    return {
      id, scriptId, name := script.name, file := script.file, kind := ⟨kind⟩, address, savedAddress,
      waitingFor, offset, locals, stack, handlers, handlerIndex, ticks, inHandler, stopped, yielded,
      sleeping }

def checkpoint (scripts : List Script) : Reader Checkpoint := do
  let stack ← stack
  let globals ← variableTable "global values"
  let tasks ← entries (← word "task count").toNat (task scripts)
  let ticks ← word "clock ticks"
  let line ← word "current line number"
  let highestTask ← word "highest task id"
  let highestScript ← word "highest script id"
  let executed ← word "executed instruction count"
  return { stack, globals, tasks, ticks, line, highestTask, highestScript, executed }

end Reader

/-- The image in a list of bytes. -/
def Image.decode (bytes : List UInt8) : Except LoadError Image := do
  let (program, rest) ← Reader.program bytes
  -- Nothing in the program says whether a checkpoint follows, only whether bytes do.
  if rest.isEmpty then return { program }
  let (checkpoint, rest) ← Reader.checkpoint program.scripts rest
  if rest.isEmpty then return { program, checkpoint := some checkpoint }
  throw (.trailingBytes rest.length)

end ScriptMachine
