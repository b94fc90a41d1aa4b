import ScriptMachine.Machine.Routine
import ScriptMachine.Operator

/-!
# Instructions at work

What one instruction does to a machine in the turn of a task, and how the task goes on from there
(`Flow`). The address of the task is moved on by whoever executes instructions one after the other;
here it is only changed by jumps.

A call of a native function with a body is the one instruction that may not come to an end, since
the body may run whole ticks. How a body is carried out is a parameter of `Machine.execute`; every
other instruction is a total function.
-/

namespace ScriptMachine

/-- Where a task goes on after an instruction. -/
inductive Flow where
  /-- With the instruction that follows. -/
  | next
  /-- Where the instruction has put its address. -/
  | jumped
  /-- With the same instruction once more, if at all. -/
  | stay
deriving DecidableEq, Repr

namespace Machine

/-! ### The stack -/

/-- The tag of a single slot that a typed push or pop moves. A vector travels as three numbers. -/
def slotTag : Tag → Tag
  | .vector => .float
  | tag => tag

/-- Puts the operand, or the variable that it addresses, on the stack. -/
def pushOperand (m : Machine) (task : UInt32) (i : Instruction) : Machine :=
  if i.mode = Mode.immediate then m.push ⟨slotTag i.tag, i.operand⟩
  else if i.mode = Mode.reference then
    let (v, m) := m.readVariable task i.operand
    m.push (v.retag (slotTag i.tag))
  else m.fault .invalidOperand "PUSH" i.mode

/-- Drops the topmost value, or moves it into the variable that the operand addresses. -/
def popOperand (m : Machine) (task : UInt32) (i : Instruction) : Machine :=
  if i.mode = Mode.immediate then m.pop.2
  else if i.mode = Mode.reference then
    let (v, m) := m.pop
    m.writeVariable task i.operand (v.retag (slotTag i.tag))
  else m.fault .invalidOperand "POP" i.mode

/-- Replaces the stack in focus by one that was made from it, or reports that it is too small. -/
def rearrange (m : Machine) (s : Option Stack) (name : String) (number : UInt32) : Machine :=
  match s with
  | some s => m.setStack s
  | none => m.fault .stackEmpty name number

/-- Exchanges the two topmost values, or copies a value from one end of a distance to the other. -/
def exchange (m : Machine) (i : Instruction) : Machine :=
  let depth := i.operand.toNat
  -- Only a copy over a distance has a direction.
  if i.tag ≠ .int ∨ depth = 0 then m.rearrange (m.currentStack? >>= Stack.swap?) "SWAP" 0
  else if i.mode = Mode.copyFrom then
    match m.currentStack?.bind (·.peek? depth) with
    | some v => m.push v
    | none => m.fault .stackEmpty "COPY" i.operand
  else
    let copy (s : Stack) : Option Stack := (s.peek? 0).bind (s.poke? depth)
    m.rearrange (m.currentStack?.bind copy) "COPY" i.operand

/-- Changes the tag of the topmost value, or makes a variable blank. -/
def cast (m : Machine) (task : UInt32) (i : Instruction) : Machine :=
  if i.mode = Mode.zero then m.writeVariable task i.operand .blank
  else
    let retagged (s : Stack) : Option Stack := (s.peek? 0).bind fun v => s.poke? 0 (v.retag i.tag)
    m.rearrange (m.currentStack?.bind retagged) "CAST" 0

/-- Replaces the operands of an operator by its results. -/
def operate (m : Machine) (op : Operator) (i : Instruction) : Machine :=
  let (taken, m) := popMany (op.arity i.tag) m
  let outcome := op.eval i.tag (taken.getD · .zero)
  let m := m.pushAll outcome.results
  match outcome.trouble with
  | none => m
  | some code =>
    m.fault code i.opcode.name (if code = .invalidType then i.tag.number else 0)

/-! ### Flow -/

/-- Goes to the address in the operand. A jump backward also ends the turn. -/
def jump (m : Machine) (task : UInt32) (i : Instruction) : Machine :=
  m.updateTask task fun t =>
    { t with address := i.operand, yielded := t.yielded || i.mode = Mode.backward }

/-- A condition that holds is passed, and time begins anew. -/
def jumpIfZero (m : Machine) (task : UInt32) (i : Instruction) : Flow × Machine :=
  let (condition, m) := m.pop
  if condition.truth then (.next, m.updateTask task fun t => { t with ticks := 0 })
  else (.jumped, m.jump task i)

/-- The task has lived for so many seconds since its ticks began. -/
def elapsed (setting : Setting) (t : Task) (seconds : Single) : Bool :=
  ((Single.ofNat t.ticks.toNat).mul setting.tickLength).atLeast seconds

/-- Takes a duration, and tells whether it has passed. -/
def sleep (setting : Setting) (m : Machine) (task : UInt32) : Machine :=
  let (duration, m) := m.pop
  match m.tasks.find? task with
  | none => m
  | some t =>
    let passed := elapsed setting t duration.single
    (m.updateTask task fun t => { t with sleeping := !passed }).push (.ofBool passed)

/-- Starts a script. A caller that is not asynchronous stays where it is until the new task is
gone. -/
def callScript (m : Machine) (task : UInt32) (i : Instruction) : Flow × Machine :=
  let (callee, m) := m.start i.operand
  -- A script that is not there was reported; there is nothing to wait for.
  if callee = 0 ∨ i.mode = Mode.async then (.next, m)
  else (.stay, m.updateTask task fun t => { t with waitingFor := callee })

/-! ### Exception handlers -/

/-- Unregisters the most recent handler, or ends the turn and keeps it. -/
def endExcept (m : Machine) (task : UInt32) (i : Instruction) : Machine :=
  if i.mode = Mode.yield then m.updateTask task fun t => { t with yielded := true }
  else if (m.tasks.find? task).any (·.handlers.isEmpty) then
    m.fault .invalidOperand "ENDEXCEPT" task
  else m.updateTask task fun t => { t with handlers := t.handlers.dropLast }

/-- Returns from the handler to where normal flow was left. -/
def returnExcept (m : Machine) (task : UInt32) : Flow × Machine :=
  if (m.tasks.find? task).any (·.inHandler) then
    (.jumped, m.updateTask task fun t => { t with address := t.savedAddress, inHandler := false })
  else (.next, m.fault .invalidOperand "RETEXCEPT" task)

/-- Goes on with the handler registered before the one that runs, or returns if there is none. -/
def nextExcept (m : Machine) (task : UInt32) : Flow × Machine :=
  match m.tasks.find? task with
  | none => (.stay, m)
  | some t =>
    if !t.inHandler ∨ t.handlerIndex = 0 then m.returnExcept task
    else
      -- Handlers may have been unregistered since, so the lower place can be empty.
      let index := t.handlerIndex - 1
      let m := m.updateTask task fun t => { t with handlerIndex := index }
      match t.handlers[index.toNat]? with
      | some address => (.jumped, m.updateTask task fun t => { t with address })
      | none => (m.fault .invalidOperand "ITEREXCEPT" task).returnExcept task

/-! ### Natives -/

/-- A call of a native without a body keeps the balance of the stack. -/
def callUnbound (m : Machine) (function : UInt32) (native : Native) : Machine :=
  let m := (popMany native.inputs.toNat (m.fault .nativeNotFound native.name function)).2
  m.pushAll (List.replicate native.outputs.toNat .blank)

/-! ### All instructions -/

/-- An instruction that is no call of a native function. -/
def obey (setting : Setting) (task : UInt32) (i : Instruction) (m : Machine) : Flow × Machine :=
  match i.opcode with
  | .finish => (.stay, m.updateTask task fun t => { t with stopped := true })
  | .jumpIfZero => m.jumpIfZero task i
  | .push => (.next, m.pushOperand task i)
  | .pop => (.next, m.popOperand task i)
  | .jump => (.jumped, m.jump task i)
  | .sleep => (.next, sleep setting m task)
  | .except => (.next, m.updateTask task fun t => { t with handlers := t.handlers ++ [i.operand] })
  | .cast => (.next, m.cast task i)
  | .callScript => m.callScript task i
  | .endExcept => (.next, m.endExcept task i)
  | .returnExcept => m.returnExcept task
  | .nextExcept => m.nextExcept task
  | .breakExcept =>
    (.next, m.updateTask task fun t => { t with handlers := [], inHandler := false })
  | .swap => (.next, m.exchange i)
  | .line => (.next, { m with line := i.operand })
  | opcode =>
    match opcode.operator? with
    | some op => (.next, m.operate op i)
    | none => (.next, m)

/-- An instruction in the turn of a task; none if the body of a native does not come to an end. -/
def execute (setting : Setting) (carryOut : Routine Unit → Machine → Option Machine)
    (task : UInt32) (i : Instruction) (m : Machine) : Option (Flow × Machine) :=
  if i.opcode ≠ .callNative then some (obey setting task i m)
  else
    let function := i.operand
    match setting.natives[function.toNat]? with
    | none => some (.next, m.fault .nativeNotFound "" function)
    | some native =>
      match native.body with
      | none => some (.next, m.callUnbound function native)
      | some body => do
        let m ← carryOut body (m.emit (.nativeEntered function))
        return (.next, m.emit (.nativeLeft function))

end Machine

end ScriptMachine
