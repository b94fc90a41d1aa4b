import ScriptMachine.Fault
import ScriptMachine.History
import ScriptMachine.Image
import ScriptMachine.Task.Table

/-!
# Machines

A `State` is a loaded program together with everything that changes while it runs. A `Machine` is a
state and what lies on the other side of it: the log of the events that the host was told about, and
what the host keeps for itself.

Values go over the stack that is in `State.focus`: the stack of the task whose turn it is, or the
main stack outside of any task. `Machine.push` and `Machine.pop` never fail; what goes wrong becomes
a fault in the log, and a missing value is read as `Value.zero`.
-/

namespace ScriptMachine

/-! ### Events -/

/-- What the host is told. -/
inductive Event where
  | nativeEntered (function : UInt32)
  | nativeLeft (function : UInt32)
  | taskStopped (task : UInt32)
  | fault (fault : Fault)
  /-- A variable began to hold an object. -/
  | objectHeld (object : UInt32)
  /-- A variable ceased to hold an object. -/
  | objectReleased (object : UInt32)
  /-- A text that the body of a native function left. -/
  | note (text : String)
deriving DecidableEq, Repr

/-- What a host keeps for itself between the calls of its natives. -/
structure HostMemory where
  history : History := default
  kept : Option Moment := none
deriving DecidableEq, Repr, Inhabited

/-! ### States -/

/-- Whose stack is addressed. -/
inductive Focus where
  | main
  | task (id : UInt32)
deriving DecidableEq, Repr

/-- A loaded program and where its run stands. Outside of any turn the focus is on the main stack
and no task is running. -/
structure State where
  program : Program := {}
  stack : Stack := .empty
  /-- The null variable and the globals; nothing before a program is loaded. -/
  globals : List Variable := []
  tasks : TaskTable := .empty
  ticks : UInt32 := 0
  line : UInt32 := 0
  highestTask : UInt32 := 0
  highestScript : UInt32 := 0
  executed : UInt32 := 0
  focus : Focus := .main
  running : Option UInt32 := none
deriving DecidableEq, Repr, Inhabited

namespace State

/-- The stack in focus; none if its task is gone. -/
def currentStack? (s : State) : Option Stack :=
  match s.focus with
  | .main => some s.stack
  | .task id => (s.tasks.find? id).map (·.stack)

/-- The program, and where its run stands if asked for. -/
def image (s : State) (withCheckpoint : Bool) : Image :=
  { program := s.program
    checkpoint :=
      if withCheckpoint then
        some {
          stack := s.stack, globals := s.globals.drop 1, tasks := s.tasks.toList, ticks := s.ticks,
          line := s.line, highestTask := s.highestTask, highestScript := s.highestScript,
          executed := s.executed }
      else none }

end State

/-! ### Machines -/

/-- A state with the log of its events, the oldest first, and the memory of its host. -/
structure Machine extends State where
  log : Array Event := #[]
  memory : HostMemory := {}
  /-- How many tasks were ever started. Ids wrap around, this count does not. -/
  started : Nat := 0
deriving DecidableEq, Repr, Inhabited

namespace Machine

def emit (m : Machine) (e : Event) : Machine := { m with log := m.log.push e }

/-- Tells the host of a fault. -/
def fault (m : Machine) (code : FaultCode) (text : String) (number : UInt32) : Machine :=
  m.emit (.fault ⟨code, text, number⟩)

def updateTask (m : Machine) (id : UInt32) (change : Task → Task) : Machine :=
  { m with tasks := m.tasks.update id change }

/-! ### The stack in focus -/

/-- Replaces the stack in focus. -/
def setStack (m : Machine) (s : Stack) : Machine :=
  match m.focus with
  | .main => { m with stack := s }
  | .task id => m.updateTask id fun t => { t with stack := s }

/-- The task whose stack is in focus was removed. -/
def lostStack (m : Machine) : Machine :=
  m.fault .taskIdNotFound "" <|
    match m.focus with
    | .main => 0
    | .task id => id

/-- Puts a value on the stack; a full stack drops it. -/
def push (m : Machine) (v : Value) : Machine :=
  match m.currentStack? with
  | none => m.lostStack
  | some s =>
    match s.push? v with
    | some s => m.setStack s
    | none => m.fault .stackFull "" 0

/-- Takes a value off the stack; an empty stack yields zero. -/
def pop (m : Machine) : Value × Machine :=
  match m.currentStack? with
  | none => (.zero, m.lostStack)
  | some s =>
    match s.pop? with
    | some (v, s) => (v, m.setStack s)
    | none => (.zero, m.fault .stackEmpty "" 0)

/-- Puts values on the stack, the first one first. -/
def pushAll (m : Machine) (values : List Value) : Machine := values.foldl push m

/-- Takes values off the stack, the topmost first. -/
def popMany : Nat → Machine → List Value × Machine
  | 0, m => ([], m)
  | count + 1, m =>
    let (v, m) := m.pop
    let (rest, m) := popMany count m
    (v :: rest, m)

/-! ### Variables -/

/-- The variable with the given id, as a task sees it. -/
def findVariable? (m : Machine) (task id : UInt32) : Option Variable := do
  let t ← m.tasks.find? task
  match Place.ofId id t.offset with
  | .globalSlot index => m.globals[index]?
  | .localSlot index => t.locals[index]?

/-- Stores a value where a task sees the variable with the given id. -/
def setVariable (m : Machine) (task id : UInt32) (v : Value) : Machine :=
  let store (slots : List Variable) (index : Nat) : List Variable :=
    slots.modify index fun x => { x with value := v }
  match m.tasks.find? task with
  | none => m
  | some t =>
    match Place.ofId id t.offset with
    | .globalSlot index => { m with globals := store m.globals index }
    | .localSlot index => m.updateTask task fun t => { t with locals := store t.locals index }

/-- An unknown variable is read as blank. -/
def readVariable (m : Machine) (task id : UInt32) : Value × Machine :=
  match m.findVariable? task id with
  | some x => (x.value, m)
  | none => (.blank, m.fault .invalidOperand "" id)

/-- Stores a value, and tells the host which object the variable holds from now on before it tells
which one it held until now. -/
def writeVariable (m : Machine) (task id : UInt32) (v : Value) : Machine :=
  match m.findVariable? task id with
  | none => m.fault .invalidOperand "" id
  | some old =>
    -- Held before released: an object that stays where it is is never let go of in between.
    let held := v.object?.toList.map .objectHeld
    let released := old.value.object?.toList.map .objectReleased
    (held ++ released).foldl emit (m.setVariable task id v)

end Machine

end ScriptMachine
