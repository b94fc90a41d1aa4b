import ScriptMachine.Proofs.Machine.Extent

/-!
# Instructions and the task that executes them

`Acts` says that an instruction may change what its task goes by, but not which instruction changes
what. Here it is said for those that start tasks or have to do with exception handlers.

Most instructions are plain (`Instruction.Plain`): they work on a stack or a variable, and the next
one follows. All else about all tasks stays as it is (`Task.bearing`, `Machine.advance_plain`).
A call of a script starts it, and then its caller goes past the call or waits (`Task.afterCall`).
A handler is left by one of three instructions, and for each of them stands here what it makes of
its task; `Task.afterNext` is the one that may go on with another handler. At the end all
instructions are taken together (`Task.after`, `Machine.advance_after`).
-/

namespace ScriptMachine

/-- A task without what plain instructions may change: its stack, its locals, and whether it
sleeps. -/
def Task.bearing (t : Task) : Task := { t with stack := .empty, locals := [], sleeping := false }

theorem Task.of_bearing_eq {t t₁ : Task} (h : t₁.bearing = t.bearing) :
    t₁.inHandler = t.inHandler ∧ t₁.address = t.address ∧ t₁.handlerIndex = t.handlerIndex ∧
      t₁.handlers = t.handlers ∧ t₁.savedAddress = t.savedAddress := by
  unfold bearing at h
  simp only [mk.injEq] at h
  grind

namespace Machine

theorem turnEnds_bearing {begunInHandler : Bool} {t t₁ : Task}
    (h : t₁.bearing = t.bearing) : turnEnds begunInHandler t₁ = turnEnds begunInHandler t := by
  have h_ends : turnEnds begunInHandler t₁.bearing = turnEnds begunInHandler t.bearing := by rw [h]
  exact h_ends

theorem turnEnds_eq_false_iff {begunInHandler : Bool} {t : Task} :
    turnEnds begunInHandler t = false ↔ t.stopped = false ∧ t.yielded = false ∧
      t.waitingFor = 0 ∧ t.inHandler = begunInHandler := by
  unfold turnEnds Task.isWaiting
  simp only [Bool.or_eq_false_iff, bne_eq_false_iff_eq, and_assoc]

variable {α : Type} {view : Task → α} {m m' : Machine} {task : UInt32}

/-! ### Views of tasks -/

/-- The program stays, and tasks are the same as far as they are in view. -/
structure Steady (view : Task → α) (m m' : Machine) : Prop where
  program : m'.program = m.program
  tasks (id : UInt32) : (m'.tasks.find? id).map view = (m.tasks.find? id).map view

namespace Steady

theorem of_tasks_eq (h_program : m'.program = m.program) (h_tasks : m'.tasks = m.tasks) :
    Steady view m m' := ⟨h_program, fun _ => by rw [h_tasks]⟩

theorem refl (m : Machine) : Steady view m m := .of_tasks_eq rfl rfl

theorem trans {m'' : Machine} (h : Steady view m m') (h' : Steady view m' m'') :
    Steady view m m'' :=
  ⟨h'.program.trans h.program, fun id => (h'.tasks id).trans (h.tasks id)⟩

theorem map_tasks (change : Task → Task) (h : ∀ t, view { change t with id := t.id } = view t)
    (h_program : m'.program = m.program) (h_tasks : m'.tasks = m.tasks.map change) :
    Steady view m m' := by
  refine ⟨h_program, fun id => ?_⟩
  rw [h_tasks, TaskTable.find?_map, Option.map_map]
  exact congrArg (fun f => (m.tasks.find? id).map f) (funext h)

theorem updateTask (m : Machine) (task : UInt32) {change : Task → Task}
    (h : ∀ t, view { change t with id := t.id } = view t) :
    Steady view m (m.updateTask task change) := by
  refine .map_tasks _ (fun t => ?_) rfl rfl
  dsimp only
  split
  · exact h t
  · rfl

theorem exists_find? (h : Steady view m m') {t : Task} (h_find : m.tasks.find? task = some t) :
    ∃ t', m'.tasks.find? task = some t' ∧ view t' = view t := by
  have h_tasks := h.tasks task
  rw [h_find, Option.map_some] at h_tasks
  exact Option.map_eq_some_iff.1 h_tasks

end Steady

theorem Exchange.steady (h : Exchange m m') : Steady Task.bearing m m' := by
  cases h with
  | tell => exact .of_tasks_eq rfl rfl
  | restack _ _ =>
    unfold setStack
    split
    · exact .of_tasks_eq rfl rfl
    · exact .updateTask m _ fun _ => rfl

theorem Exchanges.steady (h : Exchanges m m') : Steady Task.bearing m m' := by
  induction h with
  | refl => exact .refl m
  | tail _ h_exchange ih => exact ih.trans h_exchange.steady

theorem steady_writeVariable (m : Machine) (task id : UInt32) (v : Value) :
    Steady Task.bearing m (m.writeVariable task id v) := by
  obtain ⟨globals, change, h_set, -, h_locals⟩ := setVariable_spec m task id v
  unfold writeVariable
  split
  · exact .of_tasks_eq rfl rfl
  · -- releasing and holding objects is told and no more, and a local is out of view
    rw [foldl_emit, h_set]
    refine .map_tasks change (fun t => ?_) rfl rfl
    obtain ⟨locals, h_change, -⟩ := h_locals t
    rw [h_change]
    rfl

theorem steady_popOperand (m : Machine) (task : UInt32) (i : Instruction) :
    Steady Task.bearing m (m.popOperand task i) := by
  by_cases h : i.mode = Mode.reference
  · -- only with this mode is anything stored
    rw [popOperand_of_reference m task h]
    exact (exchange_pop m).steady.trans (steady_writeVariable ..)
  · exact (exchanges_popOperand m task h).steady

theorem steady_cast (m : Machine) (task : UInt32) (i : Instruction) :
    Steady Task.bearing m (m.cast task i) := by
  by_cases h : i.mode = Mode.zero
  · rw [cast_of_zero m task h]
    exact steady_writeVariable ..
  · exact (exchange_cast m task h).steady

theorem steady_sleep (setting : Setting) (m : Machine) (task : UInt32) :
    Steady Task.bearing m (sleep setting m task) := by
  have h_sleeps (m : Machine) (b : Bool) : Steady Task.bearing m
      (m.updateTask task fun t => { t with sleeping := b }) := .updateTask m task fun _ => rfl
  have h_pop := (exchange_pop m).steady
  unfold sleep
  generalize m.pop = popped at h_pop ⊢
  obtain ⟨duration, m₁⟩ := popped
  dsimp only at h_pop ⊢
  split
  · exact h_pop
  · exact (h_pop.trans (h_sleeps ..)).trans (exchange_push ..).steady

end Machine

/-! ### Plain instructions -/

/-- The instruction is no jump, no end, no call but of a native without a body, and none of those
for exception handlers. -/
def Instruction.Plain (setting : Setting) (i : Instruction) : Prop :=
  match i.opcode with
  | .finish | .jump | .jumpIfZero | .callScript | .except | .endExcept | .returnExcept
  | .nextExcept | .breakExcept => False
  | .callNative => ∀ native ∈ setting.natives[i.operand.toNat]?, native.body = none
  | _ => True

namespace Machine

variable {m m' : Machine} {task : UInt32} {setting : Setting} {i : Instruction}
  {carryOut : Routine Unit → Machine → Option Machine} {t : Task}

theorem find?_updateTask_self (h_find : m.tasks.find? task = some t) (change : Task → Task) :
    (m.updateTask task change).tasks.find? task = some { change t with id := t.id } := by
  refine (TaskTable.find?_update_self m.tasks task change).trans ?_
  rw [h_find]
  rfl

theorem obey_plain (m : Machine) (task : UInt32) (h : i.Plain setting)
    (h_native : i.opcode ≠ .callNative) :
    ∃ m', obey setting task i m = (.next, m') ∧ Steady Task.bearing m m' := by
  unfold Instruction.Plain at h
  unfold obey
  cases h_opcode : i.opcode with
  | finish | jump | jumpIfZero | callScript | except | endExcept | returnExcept | nextExcept
  | breakExcept =>
    rw [h_opcode] at h
    exact h.elim
  | callNative => exact absurd h_opcode h_native
  | push => exact ⟨_, rfl, (exchanges_pushOperand ..).steady⟩
  | pop => exact ⟨_, rfl, steady_popOperand ..⟩
  | sleep => exact ⟨_, rfl, steady_sleep ..⟩
  | cast => exact ⟨_, rfl, steady_cast ..⟩
  | swap => exact ⟨_, rfl, (exchange_exchange m i).steady⟩
  | line => exact ⟨_, rfl, .of_tasks_eq rfl rfl⟩
  | _ =>
    -- an operator
    exact ⟨_, rfl, (exchanges_operate ..).steady⟩

variable (carryOut) in
theorem execute_plain (m : Machine) (task : UInt32) (h : i.Plain setting) :
    ∃ m', execute setting carryOut task i m = some (.next, m') ∧ Steady Task.bearing m m' := by
  unfold execute
  by_cases h_native : i.opcode = .callNative
  · unfold Instruction.Plain at h
    rw [h_native] at h
    rw [if_neg (not_not_intro h_native)]
    dsimp only
    cases h_found : setting.natives[i.operand.toNat]? with
    -- a number that no native has: the host is told of that
    | none => exact ⟨_, rfl, .of_tasks_eq rfl rfl⟩
    | some native =>
      simp only [h native h_found]
      exact ⟨_, rfl, (exchanges_callUnbound ..).steady⟩
  · obtain ⟨m', h_obey, h_steady⟩ := obey_plain m task h h_native
    rw [if_pos h_native, h_obey]
    exact ⟨m', rfl, h_steady⟩

variable (carryOut) in
/-- **Plain instructions** are followed by the next one, and leave all else about their task as it
was. -/
theorem advance_plain (h : i.Plain setting) (h_find : m.tasks.find? task = some t) :
    ∃ m' t', m.advance setting carryOut task i = some m' ∧ m'.program = m.program ∧
      m'.tasks.find? task = some t' ∧
      t'.bearing = { t.bearing with address := t.address + 1 } := by
  obtain ⟨m₁, h_execute, h_steady⟩ :=
    execute_plain carryOut { m with executed := m.executed + 1 } task h
  obtain ⟨u, h_u, h_same⟩ := h_steady.exists_find? h_find
  refine ⟨m₁.updateTask task fun t => { t with address := t.address + 1 }, _, ?_,
    h_steady.program, (TaskTable.find?_update_self m₁.tasks task _).trans (by rw [h_u]; rfl), ?_⟩
  · unfold advance
    rw [h_execute]
    rfl
  · -- the address is in view, so it is still that of the instruction
    have h_address : u.bearing.address = t.bearing.address := by rw [h_same]
    change u.address = t.address at h_address
    rw [← h_same, ← h_address]
    rfl

end Machine

/-! ### Calls of scripts -/

/-- How a task goes on after a call: past it, or waiting for the task that was started. -/
def Task.afterCall (i : Instruction) (callee : UInt32) (t : Task) : Task :=
  if callee = 0 ∨ i.mode = Mode.async then { t with address := t.address + 1 }
  else { t with waitingFor := callee }

theorem Task.afterCall_spec (i : Instruction) (callee : UInt32) (t : Task) :
    ∃ address waitingFor, t.afterCall i callee = { t with address, waitingFor } := by
  unfold afterCall
  split
  · exact ⟨_, _, rfl⟩
  · exact ⟨_, _, rfl⟩

namespace Machine

variable {m m' : Machine} {task : UInt32} {setting : Setting} {i : Instruction}
  {carryOut : Routine Unit → Machine → Option Machine} {t : Task}

/-- **A call of a script that is found** starts it, whoever may have the next id. -/
theorem advance_callScript {script : Script} (h_call : i.opcode = .callScript)
    (h_script : m.program.script? i.operand = some script) :
    m.advance setting carryOut task i =
      some ((spawn { m with executed := m.executed + 1 } script).2.updateTask task
        (Task.afterCall i (m.highestTask + 1))) := by
  have h_start : start { m with executed := m.executed + 1 } i.operand =
      spawn { m with executed := m.executed + 1 } script := by
    unfold start
    dsimp only
    rw [h_script]
  have h_callee : (spawn { m with executed := m.executed + 1 } script).1 = m.highestTask + 1 := rfl
  have h_plain : i.opcode ≠ .callNative := by
    rw [h_call]
    decide
  unfold advance execute Task.afterCall
  rw [if_pos h_plain, obey_callScript setting h_call]
  unfold callScript
  rw [h_start]
  dsimp only
  -- if the id has wrapped around to 0, nobody is waited for, as after a start that was refused
  rw [h_callee]
  split <;> rfl

end Machine

/-! ### Instructions that leave a handler -/

/-- A task that goes back to where normal flow was left. -/
def Task.returned (t : Task) : Task := { t with address := t.savedAddress, inHandler := false }

/-- A task that goes on with the handler registered before, or returns if there is none. -/
def Task.afterNext (t : Task) : Task :=
  if t.handlerIndex = 0 then t.returned
  else
    match t.handlers[(t.handlerIndex - 1).toNat]? with
    | some address => { t with handlerIndex := t.handlerIndex - 1, address }
    | none => { t with handlerIndex := t.handlerIndex - 1 }.returned

namespace Task

variable {t : Task}

/-- The place before the one that runs. -/
theorem place_pred (h : t.handlerIndex ≠ 0) :
    (t.handlerIndex - 1).toNat + 1 = t.handlerIndex.toNat := by
  have h_pos : 1 ≤ t.handlerIndex.toNat :=
    Nat.pos_of_ne_zero fun h_zero => h (UInt32.toNat_inj.1 h_zero)
  have h_pred : (t.handlerIndex - 1).toNat = t.handlerIndex.toNat - 1 :=
    UInt32.toNat_sub_of_le _ _ (UInt32.le_iff_toNat_le.2 h_pos)
  rw [h_pred]
  exact Nat.sub_add_cancel h_pos

theorem afterNext_of_first (h : t.handlerIndex = 0) : t.afterNext = t.returned := if_pos h

theorem afterNext_of_some (h : t.handlerIndex ≠ 0) {address : UInt32}
    (h_next : t.handlers[(t.handlerIndex - 1).toNat]? = some address) :
    t.afterNext = { t with handlerIndex := t.handlerIndex - 1, address } := by
  unfold afterNext
  rw [if_neg h, h_next]

theorem afterNext_of_none (h : t.handlerIndex ≠ 0)
    (h_next : t.handlers[(t.handlerIndex - 1).toNat]? = none) :
    t.afterNext = { t with handlerIndex := t.handlerIndex - 1 }.returned := by
  unfold afterNext
  rw [if_neg h, h_next]

end Task

/-- A task that drops all handlers and goes on where it is. -/
def Task.afterBreak (t : Task) : Task :=
  { t with handlers := [], inHandler := false, address := t.address + 1 }

namespace Machine

variable {m m' : Machine} {task : UInt32} {setting : Setting} {i : Instruction}
  {carryOut : Routine Unit → Machine → Option Machine} {t : Task}

theorem returnExcept_of_inHandler (h_find : m.tasks.find? task = some t)
    (h_inside : t.inHandler) : m.returnExcept task = (.jumped, m.updateTask task .returned) := by
  unfold returnExcept
  rw [h_find]
  exact if_pos h_inside

theorem nextExcept_of_inHandler (h_find : m.tasks.find? task = some t) (h_inside : t.inHandler) :
    ∃ m', m.nextExcept task = (.jumped, m') ∧ m'.program = m.program ∧
      m'.tasks.find? task = some t.afterNext := by
  let m₁ := m.updateTask task fun u => { u with handlerIndex := t.handlerIndex - 1 }
  have h_lowered : m₁.tasks.find? task = some { t with handlerIndex := t.handlerIndex - 1 } :=
    find?_updateTask_self h_find _
  unfold nextExcept
  simp only [h_find]
  by_cases h_first : t.handlerIndex = 0
  · rw [if_pos (.inr h_first), Task.afterNext_of_first h_first,
      returnExcept_of_inHandler h_find h_inside]
    exact ⟨_, rfl, rfl, find?_updateTask_self h_find _⟩
  · -- the place is one less before it is looked up, whether or not there is a handler
    rw [if_neg (by simp [h_inside, h_first])]
    cases h_next : t.handlers[(t.handlerIndex - 1).toNat]? with
    | some address =>
      rw [Task.afterNext_of_some h_first h_next]
      exact ⟨_, rfl, rfl, find?_updateTask_self h_lowered _⟩
    | none =>
      have h_told : (m₁.fault .invalidOperand "ITEREXCEPT" task).tasks.find? task =
        some { t with handlerIndex := t.handlerIndex - 1 } := h_lowered
      dsimp only
      rw [Task.afterNext_of_none h_first h_next, returnExcept_of_inHandler h_told h_inside]
      exact ⟨_, rfl, rfl, find?_updateTask_self h_told _⟩

theorem advance_of_next (h_native : i.opcode ≠ .callNative)
    (h : obey setting task i { m with executed := m.executed + 1 } = (.next, m')) :
    m.advance setting carryOut task i =
      some (m'.updateTask task fun t => { t with address := t.address + 1 }) := by
  unfold advance execute
  rw [if_pos h_native, h]
  rfl

theorem advance_of_jumped (h_native : i.opcode ≠ .callNative)
    (h : obey setting task i { m with executed := m.executed + 1 } = (.jumped, m')) :
    m.advance setting carryOut task i = some m' := by
  unfold advance execute
  rw [if_pos h_native, h]
  rfl

variable (setting carryOut)

/-- **Returning from a handler.** -/
theorem advance_returnExcept (h_opcode : i.opcode = .returnExcept)
    (h_find : m.tasks.find? task = some t) (h_inside : t.inHandler) :
    ∃ m', m.advance setting carryOut task i = some m' ∧ m'.program = m.program ∧
      m'.tasks.find? task = some t.returned := by
  let m₁ : Machine := { m with executed := m.executed + 1 }
  have h_obey : obey setting task i m₁ = (.jumped, m₁.updateTask task .returned) := by
    unfold obey
    rw [h_opcode]
    exact returnExcept_of_inHandler h_find h_inside
  exact ⟨_, advance_of_jumped (by rw [h_opcode]; decide) h_obey, rfl,
    find?_updateTask_self (m := m₁) h_find _⟩

/-- **Going on with the next handler.** -/
theorem advance_nextExcept (h_opcode : i.opcode = .nextExcept)
    (h_find : m.tasks.find? task = some t) (h_inside : t.inHandler) :
    ∃ m', m.advance setting carryOut task i = some m' ∧ m'.program = m.program ∧
      m'.tasks.find? task = some t.afterNext := by
  let m₁ : Machine := { m with executed := m.executed + 1 }
  obtain ⟨m', h_next, h_program, h_after⟩ := nextExcept_of_inHandler (m := m₁) h_find h_inside
  have h_obey : obey setting task i m₁ = (.jumped, m') := by
    unfold obey
    rw [h_opcode]
    exact h_next
  exact ⟨m', advance_of_jumped (by rw [h_opcode]; decide) h_obey, h_program, h_after⟩

/-- **Dropping all handlers.** -/
theorem advance_breakExcept (h_opcode : i.opcode = .breakExcept)
    (h_find : m.tasks.find? task = some t) :
    ∃ m', m.advance setting carryOut task i = some m' ∧ m'.program = m.program ∧
      m'.tasks.find? task = some t.afterBreak := by
  let m₁ : Machine := { m with executed := m.executed + 1 }
  let m₂ := m₁.updateTask task fun t => { t with handlers := [], inHandler := false }
  have h_dropped : m₂.tasks.find? task = some { t with handlers := [], inHandler := false } :=
    find?_updateTask_self (m := m₁) h_find _
  refine ⟨m₂.updateTask task fun t => { t with address := t.address + 1 }, ?_, rfl,
    find?_updateTask_self h_dropped _⟩
  unfold advance execute obey
  rw [h_opcode]
  rfl

end Machine

/-! ### Every instruction -/

/-- A task that goes on with the instruction that follows. -/
def Task.passed (t : Task) : Task := { t with address := t.address + 1 }

/-- A task that jumps. -/
def Task.jumped (i : Instruction) (t : Task) : Task :=
  { t with address := i.operand, yielded := t.yielded || i.mode = Mode.backward }

/-- Where a task is after an instruction that has led there. -/
def Flow.lead (flow : Flow) (t : Task) : Task :=
  match flow with
  | .next => t.passed
  | .jumped | .stay => t

/-- What an instruction makes of its task, up to what plain instructions may change. It depends on
whether the condition on the stack holds, and on the id of the task that a call has started, or 0
if it was refused. -/
def Task.after (i : Instruction) (holds : Bool) (callee : UInt32) (t : Task) : Task :=
  match i.opcode with
  | .finish => { t with stopped := true }
  | .jump => t.jumped i
  | .jumpIfZero => if holds then { t.passed with ticks := 0 } else t.jumped i
  | .callScript => t.afterCall i callee
  | .except => { t.passed with handlers := t.handlers ++ [i.operand] }
  | .endExcept =>
    if i.mode = Mode.yield then { t.passed with yielded := true }
    else { t.passed with handlers := t.handlers.dropLast }
  | .returnExcept => if t.inHandler then t.returned else t.passed
  | .nextExcept => if t.inHandler then t.afterNext else t.passed
  | .breakExcept => t.afterBreak
  | _ => t.passed

theorem Task.after_of_plain {setting : Setting} {i : Instruction} (h : i.Plain setting)
    (holds : Bool) (callee : UInt32) (t : Task) : t.after i holds callee = t.passed := by
  unfold Instruction.Plain at h
  unfold after
  cases h_opcode : i.opcode <;> first | rfl | (rw [h_opcode] at h; exact h.elim)

namespace Machine

variable {m m₁ : Machine} {task : UInt32} {setting : Setting} {i : Instruction}
  {carryOut : Routine Unit → Machine → Option Machine} {t t₁ : Task}

/-- The id of the task that a call starts, or 0 if there is no such script. -/
def callee (m : Machine) (i : Instruction) : UInt32 :=
  if (m.program.script? i.operand).isSome then m.highestTask + 1 else 0

variable (carryOut) in
theorem advance_of_obey {flow : Flow} (h_native : i.opcode ≠ .callNative)
    (h : obey setting task i { m with executed := m.executed + 1 } = (flow, m₁))
    (h_program : m₁.program = m.program) (h_find : m₁.tasks.find? task = some t₁) :
    ∃ m', m.advance setting carryOut task i = some m' ∧ m'.program = m.program ∧
      m'.tasks.find? task = some (flow.lead t₁) := by
  unfold advance execute
  rw [if_pos h_native, h]
  cases flow with
  | next => exact ⟨_, rfl, h_program, find?_updateTask_self h_find _⟩
  | jumped | stay => exact ⟨_, rfl, h_program, h_find⟩

/-- What is done before an instruction is executed, counting it, does not change the condition. -/
theorem truth_pop_executed (m : Machine) (executed : UInt32) :
    (pop { m with executed }).1.truth = m.pop.1.truth := by
  have h_current : ({ m with executed } : Machine).currentStack? = m.currentStack? := rfl
  unfold pop
  rw [h_current]
  cases m.currentStack? with
  | none => rfl
  | some s => cases h_pop : s.pop? <;> simp only [h_pop]

theorem exists_jumpIfZero (h_find : m.tasks.find? task = some t) :
    ∃ flow m₁ t₁, m.jumpIfZero task i = (flow, m₁) ∧ m₁.program = m.program ∧
      m₁.tasks.find? task = some t₁ ∧ (flow.lead t₁).bearing =
        (if m.pop.1.truth then { t.passed with ticks := 0 } else t.jumped i).bearing := by
  -- the condition is taken off the stack, which is out of view
  obtain ⟨u, h_u, h_same⟩ := (exchange_pop m).steady.exists_find? h_find
  have h_program := (exchange_pop m).steady.program
  unfold jumpIfZero
  cases h_holds : m.pop.1.truth with
  | true =>
    simp only [h_holds, if_true]
    refine ⟨_, _, _, rfl, h_program, find?_updateTask_self h_u _, ?_⟩
    have h_passed := congrArg (fun v : Task => { v.passed with ticks := 0 }) h_same
    exact h_passed
  | false =>
    simp only [h_holds, Bool.false_eq_true, if_false]
    refine ⟨_, _, _, rfl, h_program, find?_updateTask_self h_u _, ?_⟩
    have h_jumped := congrArg (Task.jumped i) h_same
    exact h_jumped

theorem exists_endExcept (h_find : m.tasks.find? task = some t) :
    ∃ t₁, (m.endExcept task i).program = m.program ∧
      (m.endExcept task i).tasks.find? task = some t₁ ∧
      t₁.passed = if i.mode = Mode.yield then { t.passed with yielded := true }
        else { t.passed with handlers := t.handlers.dropLast } := by
  unfold endExcept
  split
  · exact ⟨_, rfl, find?_updateTask_self h_find _, rfl⟩
  · split
    · -- without a handler there is none to unregister, and the host is told
      rename_i h_none
      rw [h_find, Option.any_some, List.isEmpty_iff] at h_none
      refine ⟨t, rfl, h_find, ?_⟩
      rw [h_none, List.dropLast_nil, ← h_none]
      rfl
    · exact ⟨_, rfl, find?_updateTask_self h_find _, rfl⟩

theorem returnExcept_of_outside (h_find : m.tasks.find? task = some t)
    (h_outside : ¬ t.inHandler) :
    m.returnExcept task = (.next, m.fault .invalidOperand "RETEXCEPT" task) := by
  unfold returnExcept
  rw [h_find]
  exact if_neg h_outside

/-- Outside of handlers there is no next one, and this comes to the same as returning. -/
theorem nextExcept_of_outside (h_find : m.tasks.find? task = some t) (h_outside : ¬ t.inHandler) :
    m.nextExcept task = (.next, m.fault .invalidOperand "RETEXCEPT" task) := by
  unfold nextExcept
  simp only [h_find]
  rw [if_pos (.inl (by simp [h_outside]))]
  exact returnExcept_of_outside h_find h_outside

theorem exists_callScript (h_find : m.tasks.find? task = some t)
    (h_own : (m.program.script? i.operand).isSome → task ≠ m.highestTask + 1) :
    ∃ flow m₁ t₁, m.callScript task i = (flow, m₁) ∧ m₁.program = m.program ∧
      m₁.tasks.find? task = some t₁ ∧
      (flow.lead t₁).bearing = (t.afterCall i (m.callee i)).bearing := by
  unfold callScript start Task.afterCall callee
  cases h_script : m.program.script? i.operand with
  | none =>
    -- nobody is started, so the caller goes past the call
    simp only [Option.isSome_none, Bool.false_eq_true, if_false, true_or, if_true]
    exact ⟨_, _, t, rfl, rfl, h_find, rfl⟩
  | some script =>
    -- the caller is not the task that is started
    rw [h_script] at h_own
    obtain ⟨s, h_after, -⟩ := find?_spawn_of_ne m script h_find (h_own rfl)
    have h_program := (began_spawn m script).program
    simp only [Option.isSome_some, if_true, show (m.spawn script).1 = m.highestTask + 1 from rfl]
    split
    · exact ⟨_, _, _, rfl, h_program, h_after, rfl⟩
    · exact ⟨_, _, _, rfl, h_program, find?_updateTask_self h_after _, rfl⟩

/-- The instructions that are not plain, one by one: where they lead, and what they make of their
task on the way. -/
theorem obey_after (h_plain : ¬ i.Plain setting) (h_native : i.opcode ≠ .callNative)
    (h_find : m.tasks.find? task = some t)
    (h_own : i.opcode = .callScript → (m.program.script? i.operand).isSome →
      task ≠ m.highestTask + 1) :
    ∃ flow m₁ t₁, obey setting task i m = (flow, m₁) ∧ m₁.program = m.program ∧
      m₁.tasks.find? task = some t₁ ∧
      (flow.lead t₁).bearing = (t.after i m.pop.1.truth (m.callee i)).bearing := by
  unfold obey Task.after
  cases h_opcode : i.opcode with
  | callNative => exact absurd h_opcode h_native
  | finish | jump | except | breakExcept =>
    -- these say at once what becomes of the task
    exact ⟨_, _, _, rfl, rfl, find?_updateTask_self h_find _, rfl⟩
  | jumpIfZero => exact exists_jumpIfZero h_find
  | callScript => exact exists_callScript h_find (h_own h_opcode)
  | endExcept =>
    obtain ⟨t₁, h_program, h_find₁, h_after⟩ := exists_endExcept (i := i) h_find
    exact ⟨_, _, t₁, rfl, h_program, h_find₁, congrArg Task.bearing h_after⟩
  | returnExcept =>
    -- those that leave a handler depend on whether the task is in one
    dsimp only
    split
    · rename_i h_inside
      exact ⟨_, _, _, returnExcept_of_inHandler h_find h_inside, rfl,
        find?_updateTask_self h_find _, rfl⟩
    · rename_i h_outside
      exact ⟨_, _, _, returnExcept_of_outside h_find h_outside, rfl, h_find, rfl⟩
  | nextExcept =>
    dsimp only
    split
    · rename_i h_inside
      obtain ⟨m₁, h_eq, h_program, h_find₁⟩ := nextExcept_of_inHandler h_find h_inside
      exact ⟨_, _, _, h_eq, h_program, h_find₁, rfl⟩
    · rename_i h_outside
      exact ⟨_, _, _, nextExcept_of_outside h_find h_outside, rfl, h_find, rfl⟩
  | _ =>
    unfold Instruction.Plain at h_plain
    rw [h_opcode] at h_plain
    exact absurd trivial h_plain

variable (carryOut) in
/-- **What an instruction makes of its task.** It is no call of a native with a body, and if it
starts a task, that one does not take the place of its own. -/
theorem advance_after (h_body : i.opcode = .callNative →
      ∀ native ∈ setting.natives[i.operand.toNat]?, native.body = none)
    (h_find : m.tasks.find? task = some t)
    (h_own : i.opcode = .callScript → (m.program.script? i.operand).isSome →
      task ≠ m.highestTask + 1) :
    ∃ m' t', m.advance setting carryOut task i = some m' ∧ m'.program = m.program ∧
      m'.tasks.find? task = some t' ∧
      t'.bearing = (t.after i m.pop.1.truth (m.callee i)).bearing := by
  by_cases h_plain : i.Plain setting
  · rw [Task.after_of_plain h_plain]
    exact advance_plain carryOut h_plain h_find
  · -- What is not plain has a case of its own; a native could only be one with a body.
    have h_native : i.opcode ≠ .callNative := by
      intro h_opcode
      refine h_plain ?_
      unfold Instruction.Plain
      rw [h_opcode]
      exact h_body h_opcode
    obtain ⟨flow, m₁, t₁, h_eq, h_program, h_find₁, h_after⟩ :=
      obey_after (m := { m with executed := m.executed + 1 }) h_plain h_native h_find h_own
    -- The instruction is counted first, which does not change what is on the stack.
    rw [truth_pop_executed] at h_after
    obtain ⟨m', h_advance, h_program', h_find'⟩ :=
      advance_of_obey carryOut h_native h_eq h_program h_find₁
    exact ⟨m', _, h_advance, h_program', h_find', h_after⟩

end Machine

end ScriptMachine
