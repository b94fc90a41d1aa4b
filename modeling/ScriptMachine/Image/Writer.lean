import ScriptMachine.Image

/-!
# Writing images

The bytes of an image. Every number is a 32-bit word, least significant byte first, unless it is
called a byte; a text is its bytes and a zero byte; a table is its length and its entries.

* a program is the four bytes of `Image.magic`, the version, the names of the globals, the code, the
  scripts to start, the scripts, and the text pool;
* a checkpoint, if there is one, is the main stack, the globals, the tasks and five counters.
-/

namespace ScriptMachine

/-- The four bytes every image begins with. -/
def Image.magic : List UInt8 := [0x4C, 0x48, 0x56, 0x4D]

namespace Writer

def word (w : UInt32) : List UInt8 :=
  let n := w.toNat
  [UInt8.ofNat n, UInt8.ofNat (n / 0x100), UInt8.ofNat (n / 0x10000), UInt8.ofNat (n / 0x1000000)]

def text (s : String) : List UInt8 := Text.encode s ++ [0]

def flag (b : Bool) : List UInt8 := [if b then 1 else 0]

def table {α : Type} (entry : α → List UInt8) (entries : List α) : List UInt8 :=
  word (UInt32.ofNat entries.length) ++ entries.flatMap entry

/-! ### Programs -/

def instruction (i : Instruction) : List UInt8 :=
  word i.opcode.number ++ word i.mode ++ word i.tag.number ++ word i.operand ++ word i.line

def script (s : Script) : List UInt8 :=
  text s.name ++ text s.file ++ word s.kind.bits ++ word s.offset ++ table text s.localNames
    ++ word s.entry ++ word s.parameterCount ++ word s.id

def program (p : Program) : List UInt8 :=
  Image.magic ++ word p.version ++ table text p.globals ++ table instruction p.code
    ++ table word p.autostart ++ table script p.scripts ++ table (fun b => [b]) p.data

/-! ### Checkpoints -/

/-- All payloads come before all type tags. -/
def stack (s : Stack) : List UInt8 :=
  word (UInt32.ofNat s.size) ++ word s.pushes ++ word s.pops
    ++ s.values.flatMap (fun v => word v.bits) ++ s.values.flatMap (fun v => word v.tag.number)

/-- The type tag is a byte. -/
def variableSlot (v : Variable) : List UInt8 :=
  [v.value.tag.number.toUInt8] ++ word v.value.bits ++ text v.name

/-- The name and file of a task are those of its script, so they are not written. -/
def task (t : Task) : List UInt8 :=
  table variableSlot t.locals ++ word t.id ++ word t.address ++ word t.savedAddress
    ++ word t.waitingFor ++ word t.offset ++ word t.handlerIndex ++ word t.ticks ++ word t.scriptId
    ++ word t.kind.bits ++ flag t.inHandler ++ flag t.stopped ++ flag t.yielded ++ flag t.sleeping
    ++ stack t.stack ++ table word t.handlers

def checkpoint (c : Checkpoint) : List UInt8 :=
  stack c.stack ++ table variableSlot c.globals ++ table task c.tasks ++ word c.ticks ++ word c.line
    ++ word c.highestTask ++ word c.highestScript ++ word c.executed

end Writer

/-- The bytes of an image. -/
def Image.encode (i : Image) : List UInt8 :=
  Writer.program i.program ++ (i.checkpoint.map Writer.checkpoint).getD []

end ScriptMachine
