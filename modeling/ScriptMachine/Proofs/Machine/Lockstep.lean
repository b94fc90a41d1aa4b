import Mathlib.Data.Option.Basic
import ScriptMachine.Machine.Run

/-!
# Machines in lockstep

Two machines may differ in what the turn of a task never reads. Then the turn does the same in both,
and afterwards they differ in the same way. `Lockstep task R` says of a relation between machines
that it is of this kind: related machines agree on what the turn of the task reads, and they stay
related by what it writes. Functions that are put together from such reads and writes then keep the
relation, and yield the same. There is one fact for each function, up to a single instruction
(`Lockstep.obey`).

The loop of a turn asks for less than that: it is enough that the instructions of the program keep
the relation, and what is done between them (`Paced`, `Paced.steps`).

The past of a machine is one thing that a turn does not read; the tasks of others are another.
-/

namespace ScriptMachine

/-! ### Related results -/

section

variable {α β γ δ : Type} {R : α → β → Prop} {S : γ → δ → Prop} {p : Option α} {q : Option β}

/-- Both go on with related results, or neither does. -/
theorem rel_bind (h : Option.Rel R p q) {f : α → Option γ} {g : β → Option δ}
    (h_rest : ∀ a b, R a b → Option.Rel S (f a) (g b)) :
    Option.Rel S (p.bind f) (q.bind g) := by
  cases h with
  | none => exact .none
  | some h_results => exact h_rest _ _ h_results

theorem rel_map (h : Option.Rel R p q) {f : α → γ} {g : β → δ}
    (h_rest : ∀ a b, R a b → S (f a) (g b)) : Option.Rel S (p.map f) (q.map g) := by
  rw [Option.map_eq_bind, Option.map_eq_bind]
  exact rel_bind h fun a b h_results => .some (h_rest a b h_results)

end

namespace Machine

/-! ### Relations that a turn keeps -/

/-- Related machines agree on what the turn of a task reads, and stay related by what it writes. -/
structure Lockstep (task : UInt32) (R : Machine → Machine → Prop) : Prop where
  same_focus {m n : Machine} (h : R m n) : n.focus = m.focus
  same_stack {m n : Machine} (h : R m n) : n.currentStack? = m.currentStack?
  same_task {m n : Machine} (h : R m n) : n.tasks.find? task = m.tasks.find? task
  same_program {m n : Machine} (h : R m n) : n.program = m.program
  same_globals {m n : Machine} (h : R m n) : n.globals = m.globals
  same_highestTask {m n : Machine} (h : R m n) : n.highestTask = m.highestTask
  same_executed {m n : Machine} (h : R m n) : n.executed = m.executed
  emit {m n : Machine} (h : R m n) (e : Event) : R (m.emit e) (n.emit e)
  setStack {m n : Machine} (h : R m n) (s : Stack) : R (m.setStack s) (n.setStack s)
  updateTask {m n : Machine} (h : R m n) (change : Task → Task) :
    R (m.updateTask task change) (n.updateTask task change)
  setGlobals {m n : Machine} (h : R m n) (globals : List Variable) :
    R { m with globals } { n with globals }
  takeId {m n : Machine} (h : R m n) : R m.takeId n.takeId
  enrol {m n : Machine} (h : R m n) (t : Task) : R (m.enrol t) (n.enrol t)
  setLine {m n : Machine} (h : R m n) (line : UInt32) : R { m with line } { n with line }
  setExecuted {m n : Machine} (h : R m n) (executed : UInt32) :
    R { m with executed } { n with executed }

/-- The same result, and machines that are related. -/
def Alike {α : Type} (R : Machine → Machine → Prop) (p q : α × Machine) : Prop :=
  q.1 = p.1 ∧ R p.2 q.2

namespace Lockstep

variable {task : UInt32} {R : Machine → Machine → Prop} {m n : Machine}

section

variable (h : Lockstep task R) (h_m : R m n)

include h h_m

/-! ### Values and variables -/

theorem fault (code : FaultCode) (text : String) (number : UInt32) :
    R (m.fault code text number) (n.fault code text number) := h.emit h_m _

theorem foldl_emit (es : List Event) : R (es.foldl Machine.emit m) (es.foldl Machine.emit n) := by
  induction es generalizing m n with
  | nil => exact h_m
  | cons e es ih => exact ih (h.emit h_m e)

theorem lostStack : R m.lostStack n.lostStack := by
  unfold Machine.lostStack
  rw [h.same_focus h_m]
  exact h.fault h_m ..

theorem push (v : Value) : R (m.push v) (n.push v) := by
  unfold Machine.push
  -- Both stacks are the same, so there is room on both or on neither.
  rw [h.same_stack h_m]
  cases m.currentStack? with
  | none => exact h.lostStack h_m
  | some s =>
    dsimp only
    cases s.push? v with
    | none => exact h.fault h_m ..
    | some t => exact h.setStack h_m t

theorem pop : Alike R m.pop n.pop := by
  unfold Machine.pop
  rw [h.same_stack h_m]
  cases m.currentStack? with
  | none => exact ⟨rfl, h.lostStack h_m⟩
  | some s =>
    dsimp only
    cases s.pop? with
    | none => exact ⟨rfl, h.fault h_m ..⟩
    | some r => exact ⟨rfl, h.setStack h_m r.2⟩

theorem pushAll (values : List Value) : R (m.pushAll values) (n.pushAll values) := by
  induction values generalizing m n with
  | nil => exact h_m
  | cons v rest ih => exact ih (h.push h_m v)

theorem popMany (count : Nat) : Alike R (popMany count m) (popMany count n) := by
  induction count generalizing m n with
  | zero => exact ⟨rfl, h_m⟩
  | succ count ih =>
    -- The same value is taken off both, and the rest by induction.
    obtain ⟨h_value, h_popped⟩ := h.pop h_m
    obtain ⟨h_rest, h_machine⟩ := ih h_popped
    refine ⟨?_, h_machine⟩
    dsimp only [Machine.popMany]
    rw [h_value, h_rest]

theorem findVariable? (id : UInt32) : n.findVariable? task id = m.findVariable? task id := by
  unfold Machine.findVariable?
  rw [h.same_task h_m, h.same_globals h_m]

theorem setVariable (id : UInt32) (v : Value) :
    R (m.setVariable task id v) (n.setVariable task id v) := by
  unfold Machine.setVariable
  rw [h.same_task h_m, h.same_globals h_m]
  cases m.tasks.find? task with
  | none => exact h_m
  | some t =>
    -- the offset of the task tells whether it is a global or one of its locals
    dsimp only
    cases Place.ofId id t.offset with
    | globalSlot index => exact h.setGlobals h_m _
    | localSlot index => exact h.updateTask h_m _

theorem readVariable (id : UInt32) :
    Alike R (m.readVariable task id) (n.readVariable task id) := by
  unfold Machine.readVariable
  rw [h.findVariable? h_m]
  cases m.findVariable? task id with
  | none => exact ⟨rfl, h.fault h_m ..⟩
  | some x => exact ⟨rfl, h_m⟩

theorem writeVariable (id : UInt32) (v : Value) :
    R (m.writeVariable task id v) (n.writeVariable task id v) := by
  unfold Machine.writeVariable
  rw [h.findVariable? h_m]
  cases m.findVariable? task id with
  | none => exact h.fault h_m ..
  -- the events are those of the old value and of the new one
  | some old => exact h.foldl_emit (h.setVariable h_m id v) _

/-! ### Tasks -/

theorem passParameters (t : Task) (values : List Value) :
    Alike R (m.passParameters t values) (n.passParameters t values) := by
  induction values generalizing m n t with
  | nil => exact ⟨rfl, h_m⟩
  | cons v rest ih =>
    unfold Machine.passParameters
    cases t.stack.push? v with
    -- there is no room for a value, of which the host is told; the stack is that of the new task
    | none => exact ih (h.fault h_m ..) t
    | some s => exact ih h_m _

theorem spawn (script : Script) : Alike R (m.spawn script) (n.spawn script) := by
  obtain ⟨h_values, h_popped⟩ := h.popMany (h.takeId h_m) script.parameterCount.toNat
  have h_passed := h.passParameters h_popped (Task.start (m.highestTask + 1) script)
    (Machine.popMany script.parameterCount.toNat m.takeId).1.reverse
  unfold Machine.spawn
  -- both give the same id away
  rw [h.same_highestTask h_m]
  dsimp only
  rw [h_values]
  refine ⟨rfl, ?_⟩
  dsimp only
  rw [h_passed.1]
  exact h.enrol h_passed.2 _

theorem start (script : UInt32) : Alike R (m.start script) (n.start script) := by
  unfold Machine.start
  rw [h.same_program h_m]
  cases m.program.script? script with
  | none => exact ⟨rfl, h.fault h_m ..⟩
  | some s => exact h.spawn h_m s

theorem startNamed (name : String) (mask : ScriptKind) :
    Alike R (m.startNamed name mask) (n.startNamed name mask) := by
  unfold Machine.startNamed
  rw [h.same_program h_m]
  cases m.program.scripts.find? (·.name == name) with
  | none => exact ⟨rfl, h.fault h_m ..⟩
  | some s =>
    dsimp only
    split
    · exact h.spawn h_m s
    · exact ⟨rfl, h.fault h_m ..⟩

/-! ### Instructions -/

theorem pushOperand (i : Instruction) : R (m.pushOperand task i) (n.pushOperand task i) := by
  unfold Machine.pushOperand
  split
  · exact h.push h_m _
  · split
    · obtain ⟨h_value, h_read⟩ := h.readVariable h_m i.operand
      dsimp only
      rw [h_value]
      exact h.push h_read _
    · exact h.fault h_m ..

theorem popOperand (i : Instruction) : R (m.popOperand task i) (n.popOperand task i) := by
  obtain ⟨h_value, h_popped⟩ := h.pop h_m
  unfold Machine.popOperand
  split
  · exact h_popped
  · split
    · dsimp only
      rw [h_value]
      exact h.writeVariable h_popped ..
    · exact h.fault h_m ..

theorem rearrange (s : Option Stack) (name : String) (number : UInt32) :
    R (m.rearrange s name number) (n.rearrange s name number) := by
  unfold Machine.rearrange
  cases s with
  | none => exact h.fault h_m ..
  | some s => exact h.setStack h_m s

theorem exchange (i : Instruction) : R (m.exchange i) (n.exchange i) := by
  unfold Machine.exchange
  rw [h.same_stack h_m]
  dsimp only
  split
  · exact h.rearrange h_m ..
  · split
    · cases m.currentStack?.bind (·.peek? i.operand.toNat) with
      | none => exact h.fault h_m ..
      | some v => exact h.push h_m v
    · exact h.rearrange h_m ..

theorem cast (i : Instruction) : R (m.cast task i) (n.cast task i) := by
  unfold Machine.cast
  rw [h.same_stack h_m]
  split
  · exact h.writeVariable h_m ..
  · exact h.rearrange h_m ..

theorem operate (op : Operator) (i : Instruction) : R (m.operate op i) (n.operate op i) := by
  obtain ⟨h_values, h_popped⟩ := h.popMany h_m (op.arity i.tag)
  unfold Machine.operate
  dsimp only
  rw [h_values]
  split
  · exact h.pushAll h_popped _
  · exact h.fault (h.pushAll h_popped _) ..

theorem jumpIfZero (i : Instruction) :
    Alike R (m.jumpIfZero task i) (n.jumpIfZero task i) := by
  obtain ⟨h_condition, h_popped⟩ := h.pop h_m
  unfold Machine.jumpIfZero
  dsimp only
  rw [h_condition]
  split
  · exact ⟨rfl, h.updateTask h_popped _⟩
  · exact ⟨rfl, h.updateTask h_popped _⟩

theorem sleep (setting : Setting) : R (sleep setting m task) (sleep setting n task) := by
  obtain ⟨h_duration, h_popped⟩ := h.pop h_m
  unfold Machine.sleep
  dsimp only
  rw [h_duration, h.same_task h_popped]
  cases m.pop.2.tasks.find? task with
  | none => exact h_popped
  | some t =>
    dsimp only
    -- lest the comparison of two numbers be computed
    generalize elapsed setting t m.pop.1.single = passed
    exact h.push (h.updateTask h_popped _) _

theorem callScript (i : Instruction) :
    Alike R (m.callScript task i) (n.callScript task i) := by
  obtain ⟨h_callee, h_started⟩ := h.start h_m i.operand
  unfold Machine.callScript
  dsimp only
  rw [h_callee]
  split
  · exact ⟨rfl, h_started⟩
  · exact ⟨rfl, h.updateTask h_started _⟩

theorem endExcept (i : Instruction) : R (m.endExcept task i) (n.endExcept task i) := by
  unfold Machine.endExcept
  rw [h.same_task h_m]
  split
  · exact h.updateTask h_m _
  · split
    · exact h.fault h_m ..
    · exact h.updateTask h_m _

theorem returnExcept : Alike R (m.returnExcept task) (n.returnExcept task) := by
  unfold Machine.returnExcept
  rw [h.same_task h_m]
  split
  · exact ⟨rfl, h.updateTask h_m _⟩
  · exact ⟨rfl, h.fault h_m ..⟩

theorem nextExcept : Alike R (m.nextExcept task) (n.nextExcept task) := by
  unfold Machine.nextExcept
  rw [h.same_task h_m]
  cases m.tasks.find? task with
  | none => exact ⟨rfl, h_m⟩
  | some t =>
    dsimp only
    split
    · exact h.returnExcept h_m
    · -- the place is lowered first, whether or not a handler is still there
      have h_lower := h.updateTask h_m fun u => { u with handlerIndex := t.handlerIndex - 1 }
      cases t.handlers[(t.handlerIndex - 1).toNat]? with
      | none => exact h.returnExcept (h.fault h_lower ..)
      | some address => exact ⟨rfl, h.updateTask h_lower _⟩

theorem callUnbound (function : UInt32) (native : Native) :
    R (m.callUnbound function native) (n.callUnbound function native) := by
  obtain ⟨-, h_popped⟩ := h.popMany
    (h.fault h_m .nativeNotFound native.name function) native.inputs.toNat
  exact h.pushAll h_popped _

theorem obey (setting : Setting) (i : Instruction) :
    Alike R (obey setting task i m) (obey setting task i n) := by
  unfold Machine.obey
  cases i.opcode with
  -- these change the task and nothing else
  | finish | except | breakExcept | jump => exact ⟨rfl, h.updateTask h_m _⟩
  | line => exact ⟨rfl, h.setLine h_m _⟩
  | jumpIfZero => exact h.jumpIfZero h_m i
  | push => exact ⟨rfl, h.pushOperand h_m i⟩
  | pop => exact ⟨rfl, h.popOperand h_m i⟩
  | sleep => exact ⟨rfl, h.sleep h_m setting⟩
  | cast => exact ⟨rfl, h.cast h_m i⟩
  | callScript => exact h.callScript h_m i
  | endExcept => exact ⟨rfl, h.endExcept h_m i⟩
  | returnExcept => exact h.returnExcept h_m
  | nextExcept => exact h.nextExcept h_m
  | swap => exact ⟨rfl, h.exchange h_m i⟩
  | _ =>
    -- an operator, or nothing that an instruction does
    dsimp only
    split
    · exact ⟨rfl, h.operate h_m ..⟩
    · exact ⟨rfl, h_m⟩

end

end Lockstep

/-! ### Turns -/

/-- What the loop of a turn asks of a relation. The instructions that are executed in it are those
of the program. -/
structure Paced (setting : Setting) (task : UInt32) (R : Machine → Machine → Prop) : Prop where
  same_task {m n : Machine} (h : R m n) : n.tasks.find? task = m.tasks.find? task
  same_program {m n : Machine} (h : R m n) : n.program = m.program
  same_executed {m n : Machine} (h : R m n) : n.executed = m.executed
  emit {m n : Machine} (h : R m n) (e : Event) : R (m.emit e) (n.emit e)
  updateTask {m n : Machine} (h : R m n) (change : Task → Task) :
    R (m.updateTask task change) (n.updateTask task change)
  setExecuted {m n : Machine} (h : R m n) (executed : UInt32) :
    R { m with executed } { n with executed }
  obey {m n : Machine} (h : R m n) {i : Instruction} (h_code : i ∈ m.program.code) :
    Alike R (obey setting task i m) (obey setting task i n)
  callUnbound {m n : Machine} (h : R m n) (function : UInt32) (native : Native) :
    R (m.callUnbound function native) (n.callUnbound function native)

variable {task : UInt32} {R : Machine → Machine → Prop} {m n : Machine}

theorem Lockstep.paced (h : Lockstep task R) (setting : Setting) : Paced setting task R where
  same_task := h.same_task
  same_program := h.same_program
  same_executed := h.same_executed
  emit := h.emit
  updateTask := h.updateTask
  setExecuted := h.setExecuted
  obey h_m _ _ := h.obey h_m setting _
  callUnbound := h.callUnbound

/-- Turns that stand alike. -/
inductive AlikeTurn (R : Machine → Machine → Prop) : Turn → Turn → Prop
  | ended {m n : Machine} (h : R m n) : AlikeTurn R (.ended m) (.ended n)
  | going {m n : Machine} (h : R m n) : AlikeTurn R (.going m) (.going n)

namespace Paced

variable {setting : Setting} (h : Paced setting task R)
  {carryOut : Routine Unit → Machine → Option Machine}
  (h_bodies : ∀ native ∈ setting.natives, ∀ body ∈ native.body, ∀ {m n}, R m n →
    Option.Rel R (carryOut body m) (carryOut body n))
  (h_m : R m n)

include h h_bodies h_m

theorem execute {i : Instruction} (h_code : i ∈ m.program.code) :
    Option.Rel (Alike R) (execute setting carryOut task i m)
      (execute setting carryOut task i n) := by
  unfold Machine.execute
  split
  · exact .some (h.obey h_m h_code)
  · dsimp only
    cases h_native : setting.natives[i.operand.toNat]? with
    | none => exact .some ⟨rfl, h.emit h_m _⟩
    | some native =>
      dsimp only
      cases h_body : native.body with
      | none => exact .some ⟨rfl, h.callUnbound h_m ..⟩
      | some body =>
        -- That a body keeps the relation is what is asked of the way in which bodies are carried
        -- out.
        have h_carried := h_bodies native (List.mem_of_getElem? h_native) body h_body
          (h.emit h_m (.nativeEntered i.operand))
        exact rel_bind h_carried fun _ _ h_out => .some ⟨rfl, h.emit h_out _⟩

theorem advance {i : Instruction} (h_code : i ∈ m.program.code) :
    Option.Rel R (m.advance setting carryOut task i) (n.advance setting carryOut task i) := by
  have h_executed := h.execute h_bodies (h.setExecuted h_m (m.executed + 1)) h_code
  unfold Machine.advance
  rw [h.same_executed h_m]
  -- the address is moved on in both, or in neither
  refine rel_bind h_executed ?_
  rintro ⟨flow, m₁⟩ ⟨flow', n₁⟩ ⟨h_flow, h_out⟩
  obtain rfl : flow' = flow := h_flow
  cases flow' with
  | next => exact .some (h.updateTask h_out _)
  | jumped | stay => exact .some h_out

theorem step (begunInHandler : Bool) :
    Option.Rel (AlikeTurn R) (m.step setting carryOut task begunInHandler)
      (n.step setting carryOut task begunInHandler) := by
  unfold Machine.step
  rw [h.same_task h_m, h.same_program h_m]
  cases m.tasks.find? task with
  | none => exact .some (.ended h_m)
  | some t =>
    dsimp only
    split
    · exact .some (.ended h_m)
    · cases h_code : m.program.code[t.address.toNat]? with
      -- the same address is behind the code on both sides
      | none => exact .some (.ended (h.updateTask (h.emit h_m _) _))
      | some i =>
        have h_advance := h.advance h_bodies h_m (List.mem_of_getElem? h_code)
        exact rel_map h_advance fun _ _ => .going

/-- **Turns in lockstep.** They come to an end in both machines or in neither. -/
theorem steps (begunInHandler : Bool) (budget : Nat) :
    Option.Rel R (m.steps setting carryOut task begunInHandler budget)
      (n.steps setting carryOut task begunInHandler budget) := by
  -- on the budget: related machines take one step each and are related again
  induction budget generalizing m n with
  | zero => exact .none
  | succ budget ih =>
    have h_step := h.step h_bodies h_m begunInHandler
    unfold Machine.steps
    generalize m.step setting carryOut task begunInHandler = turn at h_step ⊢
    generalize n.step setting carryOut task begunInHandler = turn' at h_step ⊢
    cases h_step with
    | none => exact .none
    | some h_turn =>
      cases h_turn with
      | ended h_out => exact .some h_out
      | going h_out => exact ih h_out

end Paced

end Machine

end ScriptMachine
