import ScriptMachine.Script
import ScriptMachine.Stack

/-!
# Tasks

A `Task` is a running instance of a script. It owns an operand stack, its locals and its exception
handlers; everything else it reaches through the machine, which knows it by its id.
-/

namespace ScriptMachine

/-- A running instance of a script. -/
structure Task where
  id : UInt32
  scriptId : UInt32
  name : String
  file : String
  kind : ScriptKind
  /-- Where the next instruction stands. -/
  address : UInt32
  /-- Where normal flow goes on once the exception handler returns. -/
  savedAddress : UInt32
  /-- The task this one waits for, or 0. -/
  waitingFor : UInt32
  offset : UInt32
  locals : List Variable
  stack : Stack
  /-- The addresses of the registered handlers, the most recent last. -/
  handlers : List UInt32
  /-- The place in `handlers` of the one that runs. -/
  handlerIndex : UInt32
  /-- Ticks since the task was started or last passed a condition. -/
  ticks : UInt32
  inHandler : Bool
  stopped : Bool
  yielded : Bool
  sleeping : Bool
deriving DecidableEq, Repr, Inhabited

namespace Task

/-- A task at the entry of its script, with fresh locals. -/
def start (id : UInt32) (script : Script) : Task :=
  { id
    scriptId := script.id
    name := script.name
    file := script.file
    kind := script.kind
    address := script.entry
    savedAddress := 0
    waitingFor := 0
    offset := script.offset
    locals := script.localNames.map .fresh
    stack := .empty
    handlers := []
    handlerIndex := 0
    ticks := 0
    inHandler := false
    stopped := false
    yielded := false
    sleeping := false }

def isWaiting (t : Task) : Bool := t.waitingFor != 0

/-- The address of the handler that runs. -/
def currentHandler? (t : Task) : Option UInt32 := t.handlers[t.handlerIndex.toNat]?

/-- The objects held by the locals, in their order. -/
def heldObjects (t : Task) : List UInt32 := t.locals.filterMap (·.value.object?)

/-- What a task is doing, the most telling state first. -/
inductive Status where
  | stopped
  | waiting
  | inHandler
  | sleeping
  | runnable
deriving DecidableEq, Repr

def status (t : Task) : Status :=
  if t.stopped then .stopped
  else if t.isWaiting then .waiting
  else if t.inHandler then .inHandler
  else if t.sleeping then .sleeping
  else .runnable

def Status.name : Status → String
  | stopped => "stopped"
  | waiting => "waiting"
  | inHandler => "in handler"
  | sleeping => "sleeping"
  | runnable => "runnable"

end Task

end ScriptMachine
