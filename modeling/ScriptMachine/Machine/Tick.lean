import ScriptMachine.Machine.Execute

/-!
# Ticks

One tick of a machine. Every task whose kind is in the mask gets its turns, a handler before normal
flow, in ascending order of id; then the tasks that have ended are removed, and those that waited
for a task that is gone are released.

A turn (`Machine.slice`) ends when the task stops, yields, waits, or enters or leaves a handler. It
need not end at all, so it has a budget of instructions; out of budget there is no result. A pass
goes from the last id it served to the next one above it and needs no budget: ids run out.
-/

namespace ScriptMachine

namespace Machine

/-! ### Turns -/

/-- Where a turn stands. -/
inductive Turn where
  | ended (m : Machine)
  | going (m : Machine)

/-- Nothing more is to be done in a turn that began inside a handler, or outside. -/
def turnEnds (begunInHandler : Bool) (t : Task) : Bool :=
  t.stopped || t.yielded || t.isWaiting || t.inHandler != begunInHandler

section

variable (setting : Setting) (carryOut : Routine Unit → Machine → Option Machine)

/-- Executes an instruction of a task that is at its address, and moves the address on. -/
def advance (task : UInt32) (i : Instruction) (m : Machine) : Option Machine := do
  let (flow, m) ← execute setting carryOut task i { m with executed := m.executed + 1 }
  match flow with
  | .next => return m.updateTask task fun t => { t with address := t.address + 1 }
  | .jumped | .stay => return m

/-- Goes on with a turn by one instruction. A task that has run out of the code is stopped. -/
def step (task : UInt32) (begunInHandler : Bool) (m : Machine) : Option Turn :=
  match m.tasks.find? task with
  | none => some (.ended m)
  | some t =>
    if turnEnds begunInHandler t then some (.ended m)
    else
      match m.program.code[t.address.toNat]? with
      | some i => (m.advance setting carryOut task i).map .going
      | none =>
        -- No instruction was executed, so none is counted.
        let m := m.fault .invalidOperand t.name t.address
        some (.ended (m.updateTask task fun t => { t with stopped := true }))

/-- The rest of a turn. -/
def steps (task : UInt32) (begunInHandler : Bool) : Nat → Machine → Option Machine
  | 0, _ => none
  | budget + 1, m =>
    match m.step setting carryOut task begunInHandler with
    | none => none
    | some (.ended m) => some m
    | some (.going m) => steps task begunInHandler budget m

/-- The turn of a task. Its stack is in focus until the turn is over. Only tasks of the table get
one: a pass looks each of them up just before (`TaskTable.after?`). -/
def slice (budget : Nat) (task : UInt32) (m : Machine) : Option Machine :=
  match m.tasks.find? task with
  -- Never taken, for the reason above. A turn given up here, before its end, would leave the missing
  -- task in focus; the machine is left alone instead.
  | none => some m
  | some t => do
    let inside := { m with focus := .task task, running := some task }
    let begun := inside.updateTask task fun t => { t with yielded := false }
    -- What a native has loaded or restored meanwhile does not change whose turn it was before.
    let ended ← begun.steps setting carryOut task t.inHandler budget
    return { ended with focus := m.focus, running := m.running }

/-! ### Passes -/

/-- The turn that a task gets in the first pass: in its handler if it is in one, or else in its most
recent handler, to which it is diverted unless it waits. -/
def handlerTurn (budget : Nat) (mask : ScriptKind) (t : Task) (m : Machine) : Option Machine :=
  if !t.kind.overlaps mask then some m
  else if t.inHandler then m.slice setting carryOut budget t.id
  else if t.isWaiting then some m
  else
    match t.handlers.getLast? with
    | none => some m
    | some address =>
      -- The handlers registered before it get their turn only if it asks for them.
      let diverted := m.updateTask t.id fun t =>
        { t with
          savedAddress := t.address
          handlerIndex := UInt32.ofNat (t.handlers.length - 1)
          address
          inHandler := true }
      diverted.slice setting carryOut budget t.id

/-- The turn that a task gets in the second pass. -/
def normalTurn (budget : Nat) (mask : ScriptKind) (t : Task) (m : Machine) : Option Machine :=
  if t.kind.overlaps mask && !t.inHandler && !t.isWaiting then
    m.slice setting carryOut budget t.id
  else some m

end

/-- How many ids there are above a cursor. -/
def idsAfter : Option UInt32 → Nat
  | none => UInt32.size
  | some id => UInt32.size - 1 - id.toNat

theorem idsAfter_lt {table : TaskTable} {cursor : Option UInt32} {t : Task}
    (h : table.after? cursor = some t) : idsAfter (some t.id) < idsAfter cursor := by
  have ht := t.id.toNat_lt_size
  match cursor with
  | none => simp only [idsAfter]; omega
  | some id =>
    have hlt : id < t.id := by simpa using List.find?_some h
    rw [UInt32.lt_iff_toNat_lt] at hlt
    simp only [idsAfter]
    omega

/-- Serves the tasks above a cursor in ascending order of id. The task to be served next is looked
up in the table as the one before has left it. -/
def pass (serve : Task → Machine → Option Machine) (cursor : Option UInt32) (m : Machine) :
    Option Machine :=
  match _h : m.tasks.after? cursor with
  | none => some m
  | some t =>
    match serve t m with
    | none => none
    | some m => pass serve (some t.id) m
termination_by idsAfter cursor
decreasing_by exact idsAfter_lt _h

/-! ### The end of a tick -/

/-- Lets time go by for the tasks of the kinds in the mask, and moves those past their call that
waited for a task that is gone. -/
def release (m : Machine) (mask : ScriptKind) : Machine :=
  let pass (t : Task) : Task :=
    if t.isWaiting && !m.tasks.contains t.waitingFor then
      { t with waitingFor := 0, address := t.address + 1 }
    else t
  -- Nobody leaves the table here, so it does not matter in which order tasks are looked at.
  { m with
    tasks := m.tasks.map fun t =>
      if t.kind.overlaps mask then pass { t with ticks := t.ticks + 1 } else t }

/-- Removes the tasks that have ended, releases those that waited for them, and counts the tick. -/
def settle (m : Machine) (mask : ScriptKind) : Machine :=
  let m := (m.stopWhere (·.stopped)).release mask
  { m with ticks := m.ticks + 1 }

/-- A tick in which no turn takes more instructions than the budget. -/
def tickWithin (setting : Setting) (carryOut : Routine Unit → Machine → Option Machine)
    (budget : Nat) (mask : ScriptKind) (m : Machine) : Option Machine := do
  let m ← m.pass (handlerTurn setting carryOut budget mask) none
  let m ← m.pass (normalTurn setting carryOut budget mask) none
  return m.settle mask

end Machine

end ScriptMachine
