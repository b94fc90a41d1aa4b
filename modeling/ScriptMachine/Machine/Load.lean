import ScriptMachine.Image.Reader
import ScriptMachine.Machine.Tasks

/-!
# Loading and restoring

Loading replaces the state by the beginning of a program and starts its scripts; restoring replaces
it by a checkpoint, whose tasks are those that were started then. Both forget everything about the
program before. What cannot be loaded is refused before anything has changed.
-/

namespace ScriptMachine

/-- The image in a file, given what the file holds if there is one. -/
def Image.ofFile : Option (List UInt8) → Except LoadError Image
  | none => .error .fileNotFound
  | some bytes => Image.decode bytes

/-- The name of the variable with the id 0. -/
def nullVariableName : String := "Null variable"

namespace Machine

/-- Drops the program and all that came of it. The version stays: it is that of the last image. -/
def reboot (m : Machine) : Machine :=
  { m with toState := { program := { version := m.program.version } } }

/-- Puts a program in, with nothing run of it yet. -/
def install (m : Machine) (p : Program) : Machine :=
  { m.reboot with program := p, highestScript := p.highestScript }

/-- The program of an image, with nothing started of it yet. -/
def beginning (m : Machine) (i : Image) : Machine :=
  { m.install i.program with globals := (nullVariableName :: i.program.globals).map .fresh }

/-- Begins the program of an image; a checkpoint is ignored. -/
def load (m : Machine) (i : Image) : Machine :=
  i.program.autostart.foldl (fun m script => (m.start script).2) (m.beginning i)

/-- Goes on from the checkpoint of an image. -/
def restore (m : Machine) (i : Image) : Except LoadError Machine :=
  match i.checkpoint with
  | none => .error .missingCheckpoint
  | some c =>
    .ok {
      m.install i.program with
      -- The null variable is not saved, so it begins anew.
      stack := c.stack
      globals := .fresh nullVariableName :: c.globals
      tasks := .ofList c.tasks
      ticks := c.ticks
      line := c.line
      highestTask := c.highestTask
      highestScript := c.highestScript
      executed := c.executed }

/-- Goes on from the checkpoint of an image, or else begins its program. -/
def resume (m : Machine) (i : Image) : Machine := (m.restore i).toOption.getD (m.load i)

def loadBytes (m : Machine) (bytes : List UInt8) : Except LoadError Machine :=
  return m.load (← Image.decode bytes)

def restoreBytes (m : Machine) (bytes : List UInt8) : Except LoadError Machine := do
  m.restore (← Image.decode bytes)

end Machine

/-- The bytes of a save file. -/
def State.save (s : State) : List UInt8 := (s.image true).encode

/-- A state as a moment of a history. -/
def State.moment (s : State) : Moment :=
  { tick := s.ticks, executed := s.executed, tasks := s.tasks.size, save := s.save }

end ScriptMachine
