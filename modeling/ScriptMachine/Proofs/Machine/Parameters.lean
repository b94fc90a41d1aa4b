import ScriptMachine.Proofs.Machine.Fate
import ScriptMachine.Proofs.Machine.Instructions

/-!
# Parameters

A task that is started takes its parameters off the stack in focus, and they come to stand on its
own stack as they stood there. What that comes to depends on how many are asked for, how many there
are and how many a stack holds. So it is said of stacks first: `Stack.without` is what is left, and
`Stack.filled` what values come to that find room. With these a start is written out in one equation
(`Machine.spawn_eq`), in which nothing is left open but the two stacks and what the host is told.

All that is to be known of parameters is read off that equation (`Machine.parameters_move`). For
the stack in focus to be that of the caller afterwards, the caller must not be the task whose id is
given away; it is not as long as ids do not wrap around.
-/

namespace ScriptMachine

/-! ### Stacks -/

namespace Stack

/-- What is left when values are taken off, as far as there are so many. -/
def without (s : Stack) (count : Nat) : Stack where
  slots := s.slots.drop count
  pushes := s.pushes
  pops := s.pops + UInt32.ofNat (min count s.size)
  size_le := by
    rw [List.length_drop]
    exact Nat.le_trans (Nat.sub_le ..) s.size_le

/-- Values are put on top one after the other, as far as there is room. -/
def filled (s : Stack) (values : List Value) : Stack :=
  values.foldl (fun s v => (s.push? v).getD s) s

variable {s t : Stack} {v : Value}

theorem without_zero (s : Stack) : s.without 0 = s := by
  unfold without
  rw [Nat.zero_min]
  exact congrArg (fun pops => { s with pops }) (UInt32.add_zero _)

/-- From an empty stack nothing is taken. -/
theorem without_of_none (h : s.pop? = none) (count : Nat) : s.without count = s := by
  have h_size := pop?_eq_none_iff.1 h
  obtain ⟨slots, pushes, pops, size_le⟩ := s
  obtain rfl : slots = [] := List.eq_nil_of_length_eq_zero h_size
  unfold without size
  simp

theorem without_succ (h : s.pop? = some (v, t)) (count : Nat) :
    s.without (count + 1) = t.without count := by
  obtain ⟨slots, pushes, pops, size_le⟩ := s
  cases slots with
  | nil => contradiction
  | cons top rest =>
    cases h
    unfold without size
    simp only [List.drop_succ_cons, List.length_cons, Nat.add_min_add_right, UInt32.ofNat_add,
      mk.injEq, true_and]
    rw [UInt32.add_assoc, UInt32.add_comm 1]
    rfl

theorem values_without (s : Stack) (count : Nat) :
    (s.without count).values = s.values.take (s.size - count) := by
  show (s.slots.drop count).reverse = _
  rw [List.reverse_drop]
  rfl

theorem values_push (h : s.push? v = some t) : t.values = s.values ++ [v] := by
  unfold values
  rw [slots_push h, List.reverse_cons]

theorem filled_of_some (h : s.push? v = some t) (rest : List Value) :
    s.filled (v :: rest) = t.filled rest := by
  unfold filled
  rw [List.foldl_cons, h]
  rfl

theorem filled_of_none (h : s.push? v = none) (rest : List Value) :
    s.filled (v :: rest) = s.filled rest := by
  unfold filled
  rw [List.foldl_cons, h]
  rfl

/-- **What finds room.** The values that are there stay, and of those that come the first ones that
there is room for. -/
theorem values_filled (s : Stack) (values : List Value) :
    (s.filled values).values = (s.values ++ values).take capacity := by
  induction values generalizing s with
  | nil =>
    -- nothing comes, and what is there has room
    rw [List.append_nil, List.take_of_length_le (by rw [length_values]; exact s.size_le)]
    rfl
  | cons v rest ih =>
    cases h_push : s.push? v with
    | some t => rw [filled_of_some h_push, ih, values_push h_push, List.append_assoc]; rfl
    | none =>
      -- the stack is full, so neither this value nor those after it make a difference
      have h_full : s.values.length = capacity := s.length_values.trans (push?_eq_none_iff.1 h_push)
      rw [filled_of_none h_push, ih, List.take_left' h_full, List.take_left' h_full]

theorem size_filled_of_some (h : s.push? v = some t) : t.size = s.size + 1 := by
  unfold size
  rw [slots_push h, List.length_cons]

end Stack

/-! ### The stack in focus -/

namespace TaskTable

variable {table : TaskTable} {id : UInt32}

/-- Of two stacks that a task is given, the second one counts. -/
theorem update_update (table : TaskTable) (id : UInt32) (s s' : Stack) :
    (table.update id fun t => { t with stack := s }).update id (fun t => { t with stack := s' }) =
      table.update id fun t => { t with stack := s' } := by
  refine toList_injective ?_
  show (table.toList.map _).map _ = table.toList.map _
  rw [List.map_map]
  refine List.map_congr_left fun t _ => ?_
  by_cases h_id : t.id = id
  · simp [h_id]
  · simp [h_id]

theorem update_self {t : Task} (h : table.find? id = some t) :
    table.update id (fun u => { u with stack := t.stack }) = table := by
  obtain ⟨h_mem, h_id⟩ := find?_eq_some_iff.1 h
  refine toList_injective ?_
  show table.toList.map _ = table.toList
  refine (List.map_congr_left fun u h_u => ?_).trans (List.map_id _)
  show { if u.id = id then { u with stack := t.stack } else u with id := u.id } = u
  -- Ids are all different, so the task with this id is the one that the stack was taken from.
  by_cases h_same : u.id = id
  · obtain rfl := eq_of_id_eq h_u h_mem (h_same.trans h_id.symm)
    rw [if_pos h_same]
  · rw [if_neg h_same]

end TaskTable

namespace Machine

variable {m : Machine} {s : Stack}

theorem setStack_of_main (h : m.focus = .main) (s : Stack) :
    m.setStack s = { m with stack := s } := by
  unfold setStack
  rw [h]

theorem setStack_of_task {id : UInt32} (h : m.focus = .task id) (s : Stack) :
    m.setStack s = m.updateTask id fun t => { t with stack := s } := by
  unfold setStack
  rw [h]

theorem currentStack?_of_main (h : m.focus = .main) : m.currentStack? = some m.stack := by
  unfold State.currentStack?
  rw [h]

theorem currentStack?_of_task {id : UInt32} (h : m.focus = .task id) :
    m.currentStack? = (m.tasks.find? id).map (·.stack) := by
  unfold State.currentStack?
  rw [h]

theorem setStack_setStack (m : Machine) (s s' : Stack) :
    (m.setStack s).setStack s' = m.setStack s' := by
  cases h_focus : m.focus with
  | main =>
    rw [setStack_of_main h_focus s, setStack_of_main h_focus s']
    exact setStack_of_main (m := { m with stack := s }) h_focus s'
  | task id =>
    -- the stack in focus is that of a task, and it is the same task both times
    rw [setStack_of_task h_focus s, setStack_of_task h_focus s']
    have h_inside : (m.updateTask id fun t => { t with stack := s }).focus = .task id := h_focus
    rw [setStack_of_task h_inside]
    unfold updateTask
    dsimp only
    rw [TaskTable.update_update]

theorem setStack_self (h : m.currentStack? = some s) : m.setStack s = m := by
  cases h_focus : m.focus with
  | main =>
    rw [currentStack?_of_main h_focus] at h
    cases h
    exact setStack_of_main h_focus m.stack
  | task id =>
    rw [currentStack?_of_task h_focus] at h
    obtain ⟨t, h_find, rfl⟩ := Option.map_eq_some_iff.1 h
    rw [setStack_of_task h_focus]
    unfold updateTask
    rw [TaskTable.update_self h_find]

theorem currentStack?_setStack (h : m.currentStack? = some s) (s' : Stack) :
    (m.setStack s').currentStack? = some s' := by
  cases h_focus : m.focus with
  | main =>
    rw [setStack_of_main h_focus]
    exact currentStack?_of_main (m := { m with stack := s' }) h_focus
  | task id =>
    rw [currentStack?_of_task h_focus] at h
    obtain ⟨t, h_find, -⟩ := Option.map_eq_some_iff.1 h
    have h_inside : (m.updateTask id fun t => { t with stack := s' }).focus = .task id := h_focus
    rw [setStack_of_task h_focus, currentStack?_of_task h_inside]
    unfold updateTask
    rw [TaskTable.find?_update_self, h_find]
    rfl

theorem focus_setStack (m : Machine) (s : Stack) : (m.setStack s).focus = m.focus := by
  unfold setStack
  split <;> rfl

theorem log_setStack (m : Machine) (s : Stack) : (m.setStack s).log = m.log := by
  unfold setStack
  split <;> rfl

/-! ### Taking and passing -/

/-- What the host is told when a value is asked for and there is none. -/
def missingValue : Event := .fault ⟨.stackEmpty, "", 0⟩

/-- **Taking values off.** For those that are missing there are zeros, and the host is told of each
of them. -/
theorem popMany_eq (h : m.currentStack? = some s) (count : Nat) : popMany count m =
    (s.slots.take count ++ List.replicate (count - s.size) .zero,
      (List.replicate (count - s.size) missingValue).foldl emit
        (m.setStack (s.without count))) := by
  induction count generalizing m s with
  | zero =>
    rw [Nat.zero_sub, Stack.without_zero, setStack_self h]
    rfl
  | succ count ih =>
    unfold popMany pop
    rw [h]
    dsimp only
    cases h_pop : s.pop? with
    | some p =>
      -- one value less is to be taken, off a stack that is shorter by one
      obtain ⟨v, t⟩ := p
      have h_slots := Stack.slots_pop h_pop
      have h_size : s.size = t.size + 1 := congrArg List.length h_slots
      dsimp only
      rw [ih (currentStack?_setStack h t), setStack_setStack, Stack.without_succ h_pop, h_size,
        Nat.add_sub_add_right, h_slots]
      rfl
    | none =>
      -- nothing is left, so this value is missing, and so are all after it
      have h_size := Stack.pop?_eq_none_iff.1 h_pop
      have h_empty : s.slots = [] := List.eq_nil_of_length_eq_zero h_size
      have h_told : (m.fault .stackEmpty "" 0).currentStack? = some s := h
      dsimp only
      rw [ih h_told, Stack.without_of_none h_pop, Stack.without_of_none h_pop, setStack_self h,
        setStack_self h_told, h_size, h_empty, List.take_nil, List.take_nil, Nat.sub_zero,
        Nat.sub_zero]
      rfl

/-- **Passing values.** The host is told of each that finds no room. -/
theorem passParameters_eq (m : Machine) (t : Task) (values : List Value) :
    m.passParameters t values = ({ t with stack := t.stack.filled values },
      (List.replicate (t.stack.size + values.length - Stack.capacity)
        (.fault ⟨.stackFull, t.name, t.id⟩)).foldl emit m) := by
  induction values generalizing m t with
  | nil =>
    have h_room : t.stack.size + 0 - Stack.capacity = 0 := Nat.sub_eq_zero_of_le t.stack.size_le
    rw [List.length_nil, h_room]
    rfl
  | cons v rest ih =>
    unfold passParameters
    rw [List.length_cons]
    cases h_push : t.stack.push? v with
    | some s =>
      dsimp only
      rw [ih, Stack.filled_of_some h_push, Stack.size_filled_of_some h_push, Nat.add_right_comm,
        Nat.add_assoc _ _ 1]
    | none =>
      -- the stack is full and stays so: the host is told, and the others find no room either
      have h_full := Stack.push?_eq_none_iff.1 h_push
      dsimp only
      rw [ih, Stack.filled_of_none h_push, h_full, Nat.add_sub_cancel_left,
        Nat.add_sub_cancel_left, List.replicate_succ]
      rfl

/-- The values that a script or an operator finds on a stack, with zeros below them if they are too
few. -/
def parameters (s : Stack) (count : Nat) : List Value :=
  List.replicate (count - s.size) .zero ++ s.values.drop (s.size - count)

theorem length_parameters (s : Stack) (count : Nat) : (parameters s count).length = count := by
  unfold parameters
  rw [List.length_append, List.length_replicate, List.length_drop, s.length_values]
  omega

/-- They are taken from the top down. -/
theorem reverse_parameters (s : Stack) (count : Nat) : (parameters s count).reverse =
    s.slots.take count ++ List.replicate (count - s.size) .zero := by
  unfold parameters Stack.values
  rw [List.reverse_append, List.reverse_replicate, Stack.size, ← List.reverse_take,
    List.reverse_reverse]

/-- **A start,** written out. -/
theorem spawn_eq (h : m.currentStack? = some s) (script : Script) : m.spawn script =
    (m.highestTask + 1,
      ((List.replicate (script.parameterCount.toNat - s.size) missingValue ++
          List.replicate (script.parameterCount.toNat - Stack.capacity)
            (Event.fault ⟨.stackFull, script.name, m.highestTask + 1⟩)).foldl emit
        (m.takeId.setStack (s.without script.parameterCount.toNat))).enrol
        { Task.start (m.highestTask + 1) script with
          stack := Stack.empty.filled (parameters s script.parameterCount.toNat) }) := by
  have h_taken : m.takeId.currentStack? = some s := h
  -- a new task has nothing on its stack yet
  have h_new : (Task.start (m.highestTask + 1) script).stack.size +
      script.parameterCount.toNat = script.parameterCount.toNat := Nat.zero_add _
  unfold spawn
  rw [popMany_eq h_taken, ← reverse_parameters]
  dsimp only
  rw [List.reverse_reverse, passParameters_eq, length_parameters, h_new, List.foldl_append]
  rfl

/-! ### Starts -/

/-- A task of a script has been started off a stack: what that has left of the stack, what the new
task has, and what the host was told. -/
structure HandsOver (m : Machine) (s : Stack) (script : Script) (m' : Machine) : Prop where
  /-- The topmost values are gone, as many as the script asks for and the stack had. -/
  caller : ∃ rest, m'.currentStack? = some rest ∧
    rest.values = s.values.take (s.size - script.parameterCount.toNat)
  /-- They are in their order on the new stack, above zeros for those that were missing. If none
  was, both stacks together are what there was. -/
  callee : ∃ new : Stack,
    m'.tasks.find? (m.highestTask + 1) = some { Task.start (m.highestTask + 1) script with
      stack := new, locals := script.localNames.map fun name => ⟨name, ⟨.float, 0⟩⟩ } ∧
    new.values = (List.replicate (script.parameterCount.toNat - s.size) (⟨.int, 0⟩ : Value) ++
      s.values.drop (s.size - script.parameterCount.toNat)).take Stack.capacity ∧
    (script.parameterCount.toNat ≤ s.size →
      s.values.take (s.size - script.parameterCount.toNat) ++ new.values = s.values)
  /-- The host was told of the values that were missing, and then of those that found no room. -/
  told : m'.log = m.log ++
    (List.replicate (script.parameterCount.toNat - s.size) (Event.fault ⟨.stackEmpty, "", 0⟩) ++
      List.replicate (script.parameterCount.toNat - Stack.capacity)
        (Event.fault ⟨.stackFull, script.name, m.highestTask + 1⟩)).toArray

variable {m' : Machine} {script : Script}

theorem currentStack?_enrol {t : Task} (h : m.focus ≠ .task t.id) :
    (m.enrol t).currentStack? = m.currentStack? := by
  cases h_focus : m.focus with
  | main =>
    rw [currentStack?_of_main h_focus]
    exact currentStack?_of_main (m := m.enrol t) h_focus
  | task id =>
    have h_inside : (m.enrol t).focus = .task id := h_focus
    rw [currentStack?_of_task h_focus, currentStack?_of_task h_inside, find?_enrol,
      if_neg fun h_id => h (h_focus.trans (congrArg Focus.task h_id.symm))]

theorem currentStack?_updateTask (m : Machine) (task : UInt32) {change : Task → Task}
    (h : ∀ t, (change t).stack = t.stack) :
    (m.updateTask task change).currentStack? = m.currentStack? := by
  cases h_focus : m.focus with
  | main =>
    rw [currentStack?_of_main h_focus]
    exact currentStack?_of_main (m := m.updateTask task change) h_focus
  | task id =>
    have h_inside : (m.updateTask task change).focus = .task id := h_focus
    rw [currentStack?_of_task h_focus, currentStack?_of_task h_inside]
    unfold updateTask
    dsimp only
    rw [TaskTable.find?_update, Option.map_map]
    refine congrArg (fun f => (m.tasks.find? id).map f) (funext fun t => ?_)
    -- Whether or not the task is the one in focus, it has the stack that it had.
    show Task.stack (if id = task then { change t with id := t.id } else t) = t.stack
    split
    · exact h t
    · rfl

/-- What is in focus does not have the next id. -/
theorem focus_ne_next (h_ids : m.IdsGiven) (h_room : m.highestTask.toNat + 1 < UInt32.size)
    (h : m.currentStack? = some s) : m.focus ≠ .task (m.highestTask + 1) := by
  intro h_focus
  rw [currentStack?_of_task h_focus, fresh_of_idsGiven h_ids h_room] at h
  contradiction

/-- **A start hands over.** -/
theorem handsOver_spawn (h_ids : m.IdsGiven) (h_room : m.highestTask.toNat + 1 < UInt32.size)
    (h : m.currentStack? = some s) (script : Script) :
    m.HandsOver s script (m.spawn script).2 := by
  have h_taken : m.takeId.currentStack? = some s := h
  -- The new task does not take the place of the one in focus, whose stack is looked at afterwards.
  have h_focus : ∀ s', (m.takeId.setStack s').focus ≠ .task (m.highestTask + 1) := by
    intro s'
    rw [focus_setStack]
    exact focus_ne_next h_ids h_room h
  have h_values : (Stack.empty.filled (parameters s script.parameterCount.toNat)).values =
      (parameters s script.parameterCount.toNat).take Stack.capacity := Stack.values_filled ..
  rw [spawn_eq h, foldl_emit]
  refine ⟨⟨_, ?_, Stack.values_without ..⟩, ⟨_, ?_, h_values, fun h_enough => ?_⟩, ?_⟩
  · rw [currentStack?_enrol (h_focus _)]
    exact currentStack?_setStack h_taken _
  · rw [find?_enrol]
    exact if_pos rfl
  · -- nothing is missing, and what a stack had finds room on another
    have h_new : (parameters s script.parameterCount.toNat).length ≤ Stack.capacity := by
      rw [length_parameters]
      exact Nat.le_trans h_enough s.size_le
    have h_moved : parameters s script.parameterCount.toNat =
        s.values.drop (s.size - script.parameterCount.toNat) := by
      unfold parameters
      rw [Nat.sub_eq_zero_of_le h_enough]
      rfl
    rw [h_values, List.take_of_length_le h_new, h_moved, List.take_append_drop]
  · rw [log_setStack]
    rfl

theorem HandsOver.updateTask (h : m.HandsOver s script m') {task : UInt32}
    (h_task : task ≠ m.highestTask + 1) {change : Task → Task}
    (h_change : ∀ t, (change t).stack = t.stack) :
    m.HandsOver s script (m'.updateTask task change) where
  caller := by
    rw [currentStack?_updateTask m' task h_change]
    exact h.caller
  callee := by
    have h_other : (m'.updateTask task change).tasks.find? (m.highestTask + 1) =
        m'.tasks.find? (m.highestTask + 1) := TaskTable.find?_update_of_ne _ h_task.symm change
    rw [h_other]
    exact h.callee
  told := h.told

/-- **Parameters move intact.** Let all ids have been given away, and let the next one not wrap
around. Whoever starts a task of a script, by its id, by its name or by a call, hands the parameters
over from the stack in focus, and the task has the next id. In the turn of a task that stack is its
own. -/
theorem parameters_move (h_ids : m.IdsGiven) (h_room : m.highestTask.toNat + 1 < UInt32.size)
    (h : m.currentStack? = some s) :
    (∀ {id : UInt32} {script : Script}, m.program.script? id = some script →
      (m.start id).1 = m.highestTask + 1 ∧ m.HandsOver s script (m.start id).2) ∧
    (∀ {name : String} {mask : ScriptKind} {script : Script},
      m.program.scripts.find? (·.name == name) = some script → script.kind.overlaps mask →
      (m.startNamed name mask).1 = m.highestTask + 1 ∧
        m.HandsOver s script (m.startNamed name mask).2) ∧
    ∀ (setting : Setting) (carryOut : Routine Unit → Machine → Option Machine) {task : UInt32}
        {t : Task} {i : Instruction} {script : Script},
      m.tasks.find? task = some t → i.opcode = .callScript →
      m.program.script? i.operand = some script →
      ∃ m', m.advance setting carryOut task i = some m' ∧ m.HandsOver s script m' := by
  refine ⟨fun {id script} h_script => ?_, fun {name mask script} h_script h_kind => ?_, ?_⟩
  · unfold start
    rw [h_script]
    exact ⟨rfl, handsOver_spawn h_ids h_room h script⟩
  · unfold startNamed
    rw [h_script]
    dsimp only
    rw [if_pos h_kind]
    exact ⟨rfl, handsOver_spawn h_ids h_room h script⟩
  · intro setting carryOut task t i script h_find h_call h_script
    -- that an instruction has been counted makes no difference
    have h_spawn : m.HandsOver s script (spawn { m with executed := m.executed + 1 } script).2 := by
      obtain ⟨h_caller, h_callee, h_told⟩ :=
        handsOver_spawn (m := { m with executed := m.executed + 1 }) h_ids h_room h script
      exact ⟨h_caller, h_callee, h_told⟩
    -- The caller is live and nobody has the next id, so it is not the new task that is made to
    -- wait.
    have h_task : task ≠ m.highestTask + 1 := by
      rintro rfl
      exact nomatch h_find.symm.trans (fresh_of_idsGiven h_ids h_room)
    refine ⟨_, advance_callScript h_call h_script, h_spawn.updateTask h_task fun u => ?_⟩
    obtain ⟨address, waitingFor, h_spec⟩ := Task.afterCall_spec i (m.highestTask + 1) u
    rw [h_spec]

end Machine

/-! ### Too few and too many -/

/-- A script that takes two of three values, and one that takes more than a stack holds. -/
def takingImage : Image :=
  { program := {
      code := [⟨.finish, 0, .untyped, 0, 0⟩]
      scripts := [⟨"Walk", "walk.chl", .script, 0, ["x", "y", "tmp"], 0, 2, 1⟩,
        ⟨"Wide", "walk.chl", .script, 0, [], 0, 33, 2⟩] } }

def takingStack : Stack :=
  { slots := [⟨.object, 7⟩, ⟨.float, 2⟩, ⟨.int, 1⟩], pushes := 3, pops := 0 }

def takingMachine : Machine := { Machine.load {} takingImage with stack := takingStack }

/-- The first script leaves one value and has the others in their order. The second one has all of
them above thirty zeros, but for the topmost, which finds no room. -/
theorem parameters_move_taking :
    takingMachine.currentStack? = some takingStack ∧
    (∃ rest, (takingMachine.start 1).2.currentStack? = some rest ∧ rest.values = [⟨.int, 1⟩]) ∧
    (∃ t, (takingMachine.start 1).2.tasks.find? 1 = some t ∧
      t.stack.values = [⟨.float, 2⟩, ⟨.object, 7⟩] ∧
      t.locals = [⟨"x", ⟨.float, 0⟩⟩, ⟨"y", ⟨.float, 0⟩⟩, ⟨"tmp", ⟨.float, 0⟩⟩]) ∧
    (∃ t, (takingMachine.start 2).2.tasks.find? 1 = some t ∧
      t.stack.values = List.replicate 30 ⟨.int, 0⟩ ++ [⟨.int, 1⟩, ⟨.float, 2⟩]) ∧
    (takingMachine.start 2).2.log = takingMachine.log ++
      (List.replicate 30 (Event.fault ⟨.stackEmpty, "", 0⟩) ++
        [Event.fault ⟨.stackFull, "Wide", 1⟩]).toArray := by
  have h_ids : takingMachine.IdsGiven := by
    unfold State.IdsGiven
    decide +kernel
  have h_highest : takingMachine.highestTask = 0 := by decide +kernel
  have h_room : takingMachine.highestTask.toNat + 1 < UInt32.size := by
    rw [h_highest]
    decide
  have h_walk : takingMachine.program.script? 1 =
      some ⟨"Walk", "walk.chl", .script, 0, ["x", "y", "tmp"], 0, 2, 1⟩ := by decide +kernel
  have h_broad : takingMachine.program.script? 2 =
      some ⟨"Wide", "walk.chl", .script, 0, [], 0, 33, 2⟩ := by decide +kernel
  obtain ⟨h_start, -⟩ := Machine.parameters_move (s := takingStack) h_ids h_room rfl
  obtain ⟨-, ⟨rest, h_rest, h_left⟩, ⟨new, h_new, h_moved, -⟩, -⟩ := h_start h_walk
  obtain ⟨-, -, ⟨wide, h_wide, h_filled, -⟩, h_told⟩ := h_start h_broad
  rw [h_highest] at h_new h_wide h_told
  exact ⟨rfl, ⟨rest, h_rest, h_left⟩, ⟨_, h_new, h_moved, rfl⟩, ⟨_, h_wide, h_filled⟩, h_told⟩

end ScriptMachine
