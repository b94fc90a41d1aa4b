import ScriptMachine.Machine

/-!
# Starting and stopping tasks

A task is started under an id one above the highest ever given, and takes its parameters from the
stack in focus. A task is stopped at once: it leaves the table, its locals let go of the objects
they hold, and the host is told. Asking for a script or task that is not there is a fault.
-/

namespace ScriptMachine

namespace Machine

/-! ### Starting -/

/-- Fills the stack of a task that is about to start; a value that finds no room is dropped. -/
def passParameters (m : Machine) (t : Task) : List Value → Task × Machine
  | [] => (t, m)
  | v :: rest =>
    match t.stack.push? v with
    | some s => passParameters m { t with stack := s } rest
    | none => passParameters (m.fault .stackFull t.name t.id) t rest

/-- Gives the next id away. -/
def takeId (m : Machine) : Machine :=
  { m with highestTask := m.highestTask + 1, started := m.started + 1 }

/-- Puts a task into the table. -/
def enrol (m : Machine) (t : Task) : Machine := { m with tasks := m.tasks.insert t }

/-- Starts a task of a script. The parameters keep their order on the way from the stack in focus to
the stack of the task. -/
def spawn (m : Machine) (script : Script) : UInt32 × Machine :=
  -- The id is taken before the parameters are, so that a fault on the way does not change it.
  let id := m.highestTask + 1
  let (values, m) := popMany script.parameterCount.toNat m.takeId
  let (t, m) := m.passParameters (Task.start id script) values.reverse
  (id, m.enrol t)

/-- Starts the script with the given id. Yields the id of the task, or 0 if there is no such
script. -/
def start (m : Machine) (script : UInt32) : UInt32 × Machine :=
  match m.program.script? script with
  | some s => m.spawn s
  | none => (0, m.fault .scriptIdNotFound "" script)

/-- Starts the first script of the given name if its kind is in the mask. Yields the id of the task,
or 0. -/
def startNamed (m : Machine) (name : String) (mask : ScriptKind) : UInt32 × Machine :=
  match m.program.scripts.find? (·.name == name) with
  | none => (0, m.fault .scriptNameNotFound name 0)
  | some s =>
    if s.kind.overlaps mask then m.spawn s else (0, m.fault .noScriptOfKind name mask.bits)

/-! ### Stopping -/

/-- Removes a task, if it is there. -/
def remove (m : Machine) (id : UInt32) : Machine :=
  match m.tasks.find? id with
  | none => m
  | some t =>
    -- The objects are let go of before the host hears that the task is gone.
    let events := t.heldObjects.map .objectReleased ++ [.taskStopped id]
    events.foldl emit { m with tasks := m.tasks.erase id }

def stop (m : Machine) (id : UInt32) : Machine :=
  if m.tasks.contains id then m.remove id else m.fault .taskIdNotFound "" id

/-- Stops the tasks that are selected, in ascending order of id. -/
def stopWhere (m : Machine) (selected : Task → Bool) : Machine :=
  ((m.tasks.toList.filter selected).map (·.id)).foldl stop m

def stopAll (m : Machine) : Machine := m.stopWhere fun _ => true

/-- Stops the tasks whose kind is in the mask. -/
def stopKind (m : Machine) (mask : ScriptKind) : Machine := m.stopWhere (·.kind.overlaps mask)

/-- Stops the tasks whose script name and file are selected. -/
def stopNamed (m : Machine) (selected : String → String → Bool) : Machine :=
  m.stopWhere fun t => selected t.name t.file

end Machine

end ScriptMachine
