import ScriptMachine.Listing
import ScriptMachine.Machine.Load

/-!
# Routines

A `Routine` is what a host does with a machine: it makes a `Request`, and goes on in a way that may
depend on the answer. The body of a native function is a routine too, carried out in the middle of
the turn of the task that calls it, so a routine is data and not a function on machines; what it
does to a machine is said where machines run.

Most of what a host wants is a request or a look at the state (`Request.observe`); the rest is
composed here.
-/

namespace ScriptMachine

/-! ### Requests -/

/-- What a host may ask of a machine. -/
inductive Request where
  | observe
  | push (v : Value)
  | pop
  /-- Run one tick for the tasks whose kind is in the mask. -/
  | tick (mask : ScriptKind)
  | start (script : UInt32)
  | startNamed (name : String) (mask : ScriptKind)
  | stop (task : UInt32)
  | stopAll
  | stopKind (mask : ScriptKind)
  | stopNamed (selected : String → String → Bool)
  | load (image : Image)
  | restore (image : Image)
  | reboot
  /-- What the host has kept for itself. -/
  | memory
  | keep (memory : HostMemory)
  /-- Leave a text in the log. -/
  | note (text : String)

/-- The type of the answer to a request. -/
@[reducible] def Request.Answer : Request → Type
  | observe => State
  | pop => Value
  | start _ => UInt32
  | startNamed _ _ => UInt32
  | restore _ => Except LoadError Unit
  | memory => HostMemory
  | _ => Unit

/-- Requests one after the other, each chosen in view of the answers so far, and a result. -/
inductive Routine (α : Type) where
  | done (result : α)
  | ask (q : Request) (next : q.Answer → Routine α)

namespace Routine

/-- Carries on with the result of a routine. -/
def bind {α β : Type} : Routine α → (α → Routine β) → Routine β
  | done a, f => f a
  | ask q next, f => ask q fun answer => (next answer).bind f

instance : Monad Routine where
  pure := done
  bind := bind

/-- The routine of a single request. -/
def request (q : Request) : Routine q.Answer := ask q done

/-- Every request that the routine may come to make is allowed. -/
def Only {α : Type} (allowed : Request → Prop) : Routine α → Prop
  | done _ => True
  | ask q next => allowed q ∧ ∀ answer, (next answer).Only allowed

/-! ### Values -/

def pushInt (n : Int32) : Routine Unit := request (.push (.ofInt n))

def pushSingle (x : Single) : Routine Unit := request (.push (.ofSingle x))

/-- A vector is three numbers, x lowest. -/
def pushVector (x y z : Single) : Routine Unit := do
  pushSingle x
  pushSingle y
  pushSingle z

def pushObject (id : UInt32) : Routine Unit := request (.push (.ofObject id))

def pushBool (b : Bool) : Routine Unit := request (.push (.ofBool b))

def pop : Routine Value := request .pop

def popInt : Routine Int32 := return (← pop).int

def popSingle : Routine Single := return (← pop).single

def popVector : Routine (Single × Single × Single) := do
  let z ← popSingle
  let y ← popSingle
  let x ← popSingle
  return (x, y, z)

def popObject : Routine UInt32 := return (← pop).object

def popBool : Routine Bool := return (← pop).truth

/-- Puts the sum of the two topmost integers in their place. -/
def addInts : Routine Unit := do
  let b ← popInt
  let a ← popInt
  pushInt (a + b)

/-! ### Tasks -/

def observe : Routine State := request .observe

/-- The task whose turn it is. -/
def runningTask : Routine (Option UInt32) := return (← observe).running

/-- Puts the id of the running task on the stack, or 0 outside of any turn. -/
def pushRunning : Routine Unit := do
  pushInt ((← runningTask).getD 0).toInt32

/-- Stops the running task, or asks in vain for task 0. -/
def stopRunning : Routine (Option UInt32) := do
  let task ← runningTask
  request (.stop (task.getD 0))
  return task

def ticks (mask : ScriptKind) : Nat → Routine Unit
  | 0 => return
  | count + 1 => do
    request (.tick mask)
    ticks mask count

/-! ### Files -/

/-- Loads an image that may have failed to be read. -/
def load (source : Except LoadError Image) : Routine (Except LoadError Unit) :=
  match source with
  | .error e => return .error e
  | .ok image => do
    request (.load image)
    return .ok ()

/-- Restores an image that may have failed to be read. -/
def restore (source : Except LoadError Image) : Routine (Except LoadError Unit) :=
  match source with
  | .error e => return .error e
  | .ok image => request (.restore image)

/-- Saves, restores what was saved and saves again. Yields the size of the save file, and whether
both are the same. -/
def resave : Routine (Except LoadError (Nat × Bool)) := do
  let before := (← observe).save
  match ← restore (Image.decode before) with
  | .error e => return .error e
  | .ok () => return .ok (before.length, before = (← observe).save)

/-! ### Tick history -/

def history : Routine History := return (← request .memory).history

def setHistory (h : History) : Routine Unit := do
  request (.keep { ← request .memory with history := h })

/-- Adds a moment to the history, if there is room for it. -/
def pushMoment (moment : Moment) : Routine (Except History.LimitExceeded History) := do
  match (← history).push moment with
  | .error e => return .error e
  | .ok h =>
    setHistory h
    return .ok h

def recordMoment : Routine (Except History.LimitExceeded History) := do
  pushMoment (← observe).moment

/-- Takes the newest moment out of the history, and goes back to it or only keeps it. -/
def popMoment (keep : Bool) : Routine (Except LoadError (Option (Moment × History))) := do
  match (← history).pop? with
  | none => return .ok none
  | some (moment, h) =>
    setHistory h
    if keep then
      request (.keep { ← request .memory with kept := some moment })
      return .ok (some (moment, h))
    else
      match ← restore (Image.decode moment.save) with
      | .error e => return .error e
      | .ok () => return .ok (some (moment, h))

/-- Adds the kept moment to the history; nothing happens if none was kept. -/
def pushKept : Routine (Option (Except History.LimitExceeded History)) := do
  match (← request .memory).kept with
  | none => return none
  | some moment => return some (← pushMoment moment)

def truncateHistory (length : Nat) : Routine History := do
  let h := (← history).truncate length
  setHistory h
  return h

/-- Looks up a moment by its number, and goes back to it if asked to. -/
def getMoment (index : Nat) (goBack : Bool) : Routine (Except LoadError (Option Moment)) := do
  match (← history).get? index with
  | none => return .ok none
  | some moment =>
    if goBack then
      match ← restore (Image.decode moment.save) with
      | .error e => return .error e
      | .ok () => return .ok (some moment)
    else return .ok (some moment)

end Routine

/-! ### Natives -/

/-- A function that programs can call by number. Without a body, a call of it takes `inputs` values
off the stack and puts `outputs` blank ones on it. -/
structure Native where
  name : String
  inputs : UInt32
  outputs : UInt32
  body : Option (Routine Unit)

/-- What stays the same over the life of a machine: its natives, and how many seconds a tick
lasts. -/
structure Setting where
  natives : List Native := []
  tickLength : Single

/-- Ticks last a tenth of a second. -/
def Setting.defaultTickLength : Single := .ofRatio false Single.unitsInOne 10

/-- The names that a listing of the program can use. -/
def State.symbols (s : State) (setting : Setting) : Symbols :=
  s.program.symbols (setting.natives.map (·.name))

end ScriptMachine
