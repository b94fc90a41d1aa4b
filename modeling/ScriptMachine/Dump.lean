import ScriptMachine.Listing

/-!
# Dumps

The contents of an image as text, in sections. A section is a list of lines; a section about the
checkpoint of an image that has none is a single line that says so.
-/

namespace ScriptMachine

/-- The parts of a dump. -/
inductive Section where
  | info
  | all
  | header
  | globals
  | code
  | autostart
  | scripts
  | data
  | stack
  | values
  | tasks
  | counters
deriving DecidableEq, Repr

namespace Section

def every : List Section :=
  [info, all, header, globals, code, autostart, scripts, data, stack, values, tasks, counters]

def name : Section → String
  | info => "info"
  | all => "all"
  | header => "header"
  | globals => "globals"
  | code => "code"
  | autostart => "autostart"
  | scripts => "scripts"
  | data => "data"
  | stack => "stack"
  | values => "values"
  | tasks => "tasks"
  | counters => "runtime-info"

def ofName? (name : String) : Option Section := every.find? (·.name == name)

end Section

namespace Dump

/-- A label and a number. -/
def counted (label : String) (n : Nat) : String := label ++ ": " ++ toString n

def noCheckpoint : String := "--- No status data ---"

/-! ### The program -/

def headerLines (p : Program) : List String :=
  ["Magic: LHVM", counted "Version" p.version.toNat, ""]

def globalLines (p : Program) : List String :=
  "Global variables:"
    :: p.globals.zipIdx.map (fun (name, index) => toString (index + 1) ++ ": " ++ name) ++ [""]

def codeLine : ListingLine → String
  | .opening signature => "begin " ++ signature
  | .localName name => "\tLocal " ++ name
  | .label name => name ++ ":"
  | .code _ text => "\t" ++ text
  | .blank => ""

def codeLines (p : Program) : List String :=
  "Code:" :: (p.symbols []).listing.map codeLine ++ [""]

def autostartLines (p : Program) : List String :=
  let line (id : UInt32) : String :=
    ((p.script? id).map (·.name)).getD ("<missing script " ++ toString id.toNat ++ ">")
  "Autostart scripts:" :: p.autostart.map line ++ [""]

def scriptLines (p : Program) : List String :=
  "Scripts:" :: p.scripts.map (fun s => s.signature ++ " = " ++ toString s.entry.toNat) ++ [""]

/-- The texts of a pool with their offsets. The walk goes on behind the text it has read, by the
length of the text as it is shown, and one more for the zero byte. It takes at most as many steps as
there are bytes. A text is looked up under a word, so that no more than 2 ^ 32 bytes of a pool can
be told apart. -/
def dataEntries (data : List UInt8) (offset : Nat) : Nat → List (Nat × String)
  | 0 => []
  | steps + 1 =>
    if offset < data.length then
      let text := (textAt? data (UInt32.ofNat offset).toNat).getD ""
      (offset, text) :: dataEntries data (offset + text.utf8ByteSize + 1) steps
    else []

def dataLines (p : Program) : List String :=
  "Data:" :: (dataEntries p.data 0 p.data.length).map
    (fun (offset, text) => toString offset ++ ": " ++ text) ++ [""]

/-! ### The checkpoint -/

def counterLines (c : Checkpoint) : List String :=
  [ counted "Ticks count" c.ticks.toNat,
    counted "Current line number" c.line.toNat,
    counted "Highest task ID" c.highestTask.toNat,
    counted "Highest script ID" c.highestScript.toNat,
    counted "Executed instructions" c.executed.toNat,
    "" ]

def stackLines (s : Stack) : List String :=
  "Stack:" :: s.values.zipIdx.map (fun (v, index) => toString index ++ ": " ++ v.text) ++ [""]

/-- Variables with their ids, which count up from `first`. -/
def variableLines (first : Nat) (slots : List Variable) : List String :=
  slots.zipIdx.map fun (v, index) =>
    toString (first + index) ++ ", " ++ v.name ++ " = " ++ v.value.text

def valueLines (c : Checkpoint) : List String :=
  "Global variables values:" :: variableLines 1 c.globals ++ [""]

def taskLines (t : Task) : List String :=
  [ counted "Task number" t.id.toNat,
    "Type: " ++ t.kind.name,
    counted "Script ID" t.scriptId.toNat,
    "Script name: " ++ t.name,
    "Filename: " ++ t.file,
    counted "Instruction address" t.address.toNat,
    counted "Prev instruction address" t.savedAddress.toNat,
    counted "Ticks" t.ticks.toNat,
    "Sleeping: " ++ toString t.sleeping,
    counted "Waiting task number" t.waitingFor.toNat,
    "Stop: " ++ toString t.stopped,
    "Yield: " ++ toString t.yielded,
    "In exception handler: " ++ toString t.inHandler,
    counted "Current exception handler index" t.handlerIndex.toNat,
    "Exception handlers instructions pointers:" ]
    ++ t.handlers.map (fun address => toString address.toNat)
    ++ ["", counted "Local variables offset" t.offset.toNat, "Variables:"]
    ++ variableLines (t.offset.toNat + 1) t.locals
    ++ [""] ++ stackLines t.stack ++ ["----------------------------------------", ""]

def tasksLines (c : Checkpoint) : List String :=
  "Active tasks:" :: c.tasks.flatMap taskLines ++ [""]

/-! ### Sections -/

def infoLines (i : Image) : List String :=
  [ counted "LHVM Version" i.program.version.toNat,
    counted "Global vars count" i.program.globals.length,
    counted "Scripts count" i.program.scripts.length,
    counted "Instructions count" i.program.code.length,
    counted "Autostart count" i.program.autostart.length,
    counted "Data size" i.program.data.length,
    "" ]
    ++ match i.checkpoint with
      | none => [noCheckpoint, ""]
      | some c => "--- Status data ---" :: counted "Tasks count" c.tasks.length :: counterLines c

/-- What a section shows of the checkpoint. -/
def checkpointLines (i : Image) (lines : Checkpoint → List String) : List String :=
  (i.checkpoint.map lines).getD [noCheckpoint]

def lines (i : Image) : Section → List String
  | .info => infoLines i
  | .header => headerLines i.program
  | .globals => globalLines i.program
  | .code => codeLines i.program
  | .autostart => autostartLines i.program
  | .scripts => scriptLines i.program
  | .data => dataLines i.program
  | .stack => checkpointLines i fun c => stackLines c.stack
  | .values => checkpointLines i valueLines
  | .tasks => checkpointLines i tasksLines
  | .counters => checkpointLines i counterLines
  | .all =>
    infoLines i ++ autostartLines i.program ++ globalLines i.program ++ scriptLines i.program
      ++ dataLines i.program
      ++ match i.checkpoint with
        | none => []
        | some c => counterLines c ++ valueLines c ++ stackLines c.stack ++ tasksLines c

end Dump

/-- A section of an image as text. -/
def Image.dump (i : Image) (s : Section) : String :=
  String.join ((Dump.lines i s).map (· ++ "\n"))

end ScriptMachine
