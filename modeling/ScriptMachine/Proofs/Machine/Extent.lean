import ScriptMachine.Proofs.Machine.Runs

/-!
# How far operations reach

Most of what a machine does leaves all tasks alone but the one in focus, and of that one it leaves
alone what decides about its life: its kind, the task that it waits for and the mark that it has
ended (`Task.standing`). That is said once, of all `Acts` (`Confined`). What is left are the
operations that do more, and for each of them stands here what it does to the table:

* a start adds one task under the next id and takes values from the stack in focus (`Began`);
* a stop takes out those that are selected, and nothing else (`stopWhere_eq`);
* the end of a tick takes out those that have ended and releases those that waited for one that is
  gone (`find?_settle`).

With `advance_cases` an instruction is confined, or it is the end of a script, or a call.
-/

namespace ScriptMachine

/-- A task without its stack, its locals and what its instructions go by. -/
def Task.standing (t : Task) : Task := { t.withoutControl with stack := .empty, locals := [] }

namespace TaskTable

/-- What is known of the life of the task with an id. -/
def standing? (table : TaskTable) (id : UInt32) : Option Task := (table.find? id).map Task.standing

variable {table : TaskTable} {id task : UInt32}

theorem standing?_eq_none_iff : table.standing? id = none ↔ table.find? id = none :=
  Option.map_eq_none_iff

theorem contains_of_standing? {table' : TaskTable}
    (h : table'.standing? id = table.standing? id) (h_live : table.contains id) :
    table'.contains id := by
  have h_some : (table'.standing? id).isSome = (table.standing? id).isSome := by rw [h]
  unfold standing? at h_some
  rw [Option.isSome_map, Option.isSome_map] at h_some
  exact h_some.trans h_live

/-- A change that keeps the standing of tasks. -/
theorem standing?_update {change : Task → Task} (h : ∀ t, (change t).standing = t.standing) :
    (table.update task change).standing? id = table.standing? id := by
  unfold standing?
  by_cases h_id : id = task
  · subst h_id
    rw [find?_update_self, Option.map_map]
    refine congrArg (fun f => (table.find? id).map f) (funext fun t => ?_)
    have h_t : { (change t).standing with id := t.id } = t.standing := by
      rw [h t]
      rfl
    exact h_t
  · rw [find?_update_of_ne table h_id]

end TaskTable

theorem Task.standing_of_withoutControl {t u : Task} (h : t.withoutControl = u.withoutControl) :
    t.standing = u.standing := by
  unfold Task.standing
  rw [h]

theorem Task.of_standing_eq {t u : Task} (h : t.standing = u.standing) :
    t.kind = u.kind ∧ t.waitingFor = u.waitingFor ∧ t.stopped = u.stopped := by
  have h_kind : t.standing.kind = u.standing.kind := by rw [h]
  have h_waits : t.standing.waitingFor = u.standing.waitingFor := by rw [h]
  have h_stopped : t.standing.stopped = u.standing.stopped := by rw [h]
  exact ⟨h_kind, h_waits, h_stopped⟩

/-- The task in focus. -/
def Focus.task? : Focus → Option UInt32
  | .main => none
  | .task id => some id

theorem Focus.eq_of_task? {focus : Focus} {task : UInt32} (h : focus.task? = some task) :
    focus = .task task := by
  cases focus with
  | main => contradiction
  | task id => exact congrArg Focus.task (Option.some.inj h)

namespace Machine

variable {m m' : Machine} {own : Option UInt32} {task : UInt32}

/-! ### Acts -/

/-- Nobody comes or goes, and beyond the own task, if there is one, nobody is touched. -/
structure Confined (own : Option UInt32) (m m' : Machine) : Prop where
  program : m'.program = m.program
  highestTask : m'.highestTask = m.highestTask
  started : m'.started = m.started
  others {id : UInt32} (h : own ≠ some id) : m'.tasks.find? id = m.tasks.find? id
  standing (id : UInt32) : m'.tasks.standing? id = m.tasks.standing? id
  log : ∃ es, m'.log.toList = m.log.toList ++ es ∧ ∀ id, .taskStopped id ∉ es

namespace Confined

theorem trans {m'' : Machine} (h : Confined own m m') (h' : Confined own m' m'') :
    Confined own m m'' where
  program := h'.program.trans h.program
  highestTask := h'.highestTask.trans h.highestTask
  started := h'.started.trans h.started
  others h_id := (h'.others h_id).trans (h.others h_id)
  standing id := (h'.standing id).trans (h.standing id)
  log := by
    obtain ⟨es, h_log, h_es⟩ := h.log
    obtain ⟨es', h_log', h_es'⟩ := h'.log
    refine ⟨es ++ es', ?_, fun id h_mem => ?_⟩
    · rw [h_log', h_log, List.append_assoc]
    · exact (List.mem_append.1 h_mem).elim (h_es id) (h_es' id)

/-- Something happens beside the tasks, and no end of a task is told. -/
theorem of_tasks_eq (h_program : m'.program = m.program)
    (h_highest : m'.highestTask = m.highestTask) (h_started : m'.started = m.started)
    (h_tasks : m'.tasks = m.tasks)
    (h_log : ∃ es, m'.log.toList = m.log.toList ++ es ∧ ∀ id, .taskStopped id ∉ es) :
    Confined own m m' :=
  ⟨h_program, h_highest, h_started, fun _ => by rw [h_tasks], fun _ => by rw [h_tasks], h_log⟩

/-- Nothing happens but what a task does not notice. -/
theorem of_eq (h_program : m'.program = m.program) (h_highest : m'.highestTask = m.highestTask)
    (h_started : m'.started = m.started) (h_tasks : m'.tasks = m.tasks) (h_log : m'.log = m.log) :
    Confined own m m' :=
  .of_tasks_eq h_program h_highest h_started h_tasks ⟨[], by simp [h_log]⟩

theorem refl (m : Machine) : Confined own m m := .of_eq rfl rfl rfl rfl rfl

theorem emit (m : Machine) {e : Event} (h : e.Plain) : Confined own m (m.emit e) := by
  refine .of_tasks_eq rfl rfl rfl rfl ⟨[e], by simp [Machine.emit], fun id h_mem => ?_⟩
  rw [List.mem_singleton.1 h_mem |>.symm] at h
  exact h

theorem updateTask (m : Machine) (task : UInt32) {change : Task → Task}
    (h : ∀ t, (change t).standing = t.standing) :
    Confined (some task) m (m.updateTask task change) where
  program := rfl
  highestTask := rfl
  started := rfl
  others h_id := TaskTable.find?_update_of_ne m.tasks (fun h => h_id (congrArg some h.symm)) change
  standing _ := TaskTable.standing?_update h
  log := ⟨[], by simp [Machine.updateTask]⟩

end Confined

theorem Exchange.confined (h : Exchange m m') : Confined m.focus.task? m m' := by
  cases h with
  | tell e h_plain => exact .emit m h_plain
  | restack _ _ =>
    unfold setStack
    cases m.focus with
    | main => exact .of_eq rfl rfl rfl rfl rfl
    | task id => exact .updateTask m id fun _ => rfl

theorem Exchanges.confined (h : Exchanges m m') : Confined m.focus.task? m m' := by
  induction h with
  | refl => exact .refl m
  | tail h h_exchange ih =>
    have h_confined := h_exchange.confined
    rw [(Exchanges.focus_eq h).1] at h_confined
    exact ih.trans h_confined

theorem confined_setVariable (m : Machine) (task id : UInt32) (v : Value) :
    Confined (some task) m (m.setVariable task id v) := by
  unfold setVariable
  split
  · exact .refl m
  · dsimp only
    split
    · exact .of_eq rfl rfl rfl rfl rfl
    · exact .updateTask m task fun _ => rfl

theorem confined_writeVariable (m : Machine) (task id : UInt32) (v : Value) :
    Confined (some task) m (m.writeVariable task id v) := by
  unfold writeVariable
  split
  · exact .emit m trivial
  · refine (confined_setVariable m task id v).trans ?_
    rw [foldl_emit]
    refine .of_tasks_eq rfl rfl rfl rfl ⟨_, Array.toList_append, fun id h_mem => ?_⟩
    -- what the variable holds is told, and what it held
    simp at h_mem

theorem Act.confined (h : Act task m m') (h_focus : m.focus = .task task) :
    Confined (some task) m m' := by
  cases h with
  | exchange h =>
    have h_confined := h.confined
    rwa [h_focus] at h_confined
  | store id v => exact confined_writeVariable m task id v
  | steer change h_change =>
    exact .updateTask m task fun t => Task.standing_of_withoutControl (h_change t)
  | mark => exact .of_eq rfl rfl rfl rfl rfl

theorem Acts.confined (h : Acts task m m') (h_focus : m.focus = .task task) :
    Confined (some task) m m' := by
  induction h with
  | refl => exact .refl m
  | tail h h_act ih => exact ih.trans (h_act.confined ((Acts.runs h).focus_eq.1.trans h_focus))

/-! ### Starts -/

/-- A task of a script was started under the next id. Its parameters came from the stack in focus;
beyond the own task nobody is touched. -/
structure Began (own : Option UInt32) (script : Script) (m m' : Machine) : Prop where
  program : m'.program = m.program
  highestTask : m'.highestTask = m.highestTask + 1
  started : m'.started = m.started + 1
  new : ∃ s, m'.tasks.find? (m.highestTask + 1) =
    some { Task.start (m.highestTask + 1) script with stack := s }
  others {id : UInt32} (h_new : id ≠ m.highestTask + 1) (h : own ≠ some id) :
    m'.tasks.find? id = m.tasks.find? id
  standing {id : UInt32} (h_new : id ≠ m.highestTask + 1) :
    m'.tasks.standing? id = m.tasks.standing? id
  log : ∃ es, m'.log.toList = m.log.toList ++ es ∧ ∀ id, .taskStopped id ∉ es

theorem find?_enrol (m : Machine) (t : Task) (id : UInt32) :
    (m.enrol t).tasks.find? id = if t.id = id then some t else m.tasks.find? id :=
  TaskTable.find?_insert ..

theorem began_spawn (m : Machine) (script : Script) :
    Began m.focus.task? script m (m.spawn script).2 := by
  obtain ⟨m₁, s, h_exchanges, -, h_spawn⟩ := spawn_spec m script
  have h_confined : Confined m.focus.task? m.takeId m₁ := h_exchanges.confined
  rw [h_spawn]
  -- the parameters come over before the task is enrolled, which happens under the next id only
  have h_other {id : UInt32} (h_new : id ≠ m.highestTask + 1) :
      (m₁.enrol { Task.start (m.highestTask + 1) script with stack := s }).tasks.find? id =
        m₁.tasks.find? id := by
    rw [find?_enrol]
    exact if_neg h_new.symm
  refine ⟨h_confined.program, h_confined.highestTask, h_confined.started, ⟨s, ?_⟩,
    fun h_new h_id => ?_, fun h_new => ?_, h_confined.log⟩
  · rw [find?_enrol]
    exact if_pos rfl
  · exact (h_other h_new).trans (h_confined.others h_id)
  · unfold TaskTable.standing?
    rw [h_other h_new]
    exact h_confined.standing _

namespace Began

variable {script : Script} {m'' : Machine}

theorem after (h' : Began own script m' m'') (h : Confined own m m') : Began own script m m'' := by
  obtain ⟨es, h_log, h_es⟩ := h.log
  obtain ⟨es', h_log', h_es'⟩ := h'.log
  obtain ⟨h_program, h_highest, h_started, h_new, h_others, h_standing, -⟩ := h'
  -- what was confined before has not given the next id away
  rw [h.highestTask] at h_highest h_new h_others h_standing
  refine ⟨h_program.trans h.program, h_highest, h_started.trans (by rw [h.started]), h_new,
    fun h_ne h_id => (h_others h_ne h_id).trans (h.others h_id),
    fun h_ne => (h_standing h_ne).trans (h.standing _), es ++ es', ?_, fun id h_mem => ?_⟩
  · rw [h_log', h_log, List.append_assoc]
  · exact (List.mem_append.1 h_mem).elim (h_es id) (h_es' id)

/-- The own task goes on, and it is not the new one. -/
theorem updateTask (h : Began (some task) script m m') (h_own : task ≠ m.highestTask + 1)
    {change : Task → Task} (h_change : ∀ t, (change t).standing = t.standing) :
    Began (some task) script m (m'.updateTask task change) := by
  have h_confined := Confined.updateTask m' task h_change
  obtain ⟨s, h_new⟩ := h.new
  refine ⟨h.program, h.highestTask, h.started, ⟨s, ?_⟩,
    fun h_ne h_id => (h_confined.others h_id).trans (h.others h_ne h_id),
    fun h_ne => (h_confined.standing _).trans (h.standing h_ne), h.log⟩
  rw [← h_new]
  exact h_confined.others fun h_same => h_own (Option.some.inj h_same)

end Began

/-- What comes of a start: a task of a script of the program, or a refusal. -/
def Starting (own : Option UInt32) (m : Machine) (p : UInt32 × Machine) : Prop :=
  (∃ script ∈ m.program.scripts, p = m.spawn script) ∨ p.1 = 0 ∧ Confined own m p.2

theorem starting_start (own : Option UInt32) (m : Machine) (id : UInt32) :
    Starting own m (m.start id) := by
  unfold start
  cases h_script : m.program.script? id with
  | none => exact .inr ⟨rfl, .emit m trivial⟩
  | some script => exact .inl ⟨script, mem_of_ofOrdinal? h_script, rfl⟩

theorem starting_startNamed (own : Option UInt32) (m : Machine) (name : String)
    (mask : ScriptKind) : Starting own m (m.startNamed name mask) := by
  unfold startNamed
  -- no script of the name, or one of a kind that the mask excludes: both are refusals
  cases h_script : m.program.scripts.find? (·.name == name) with
  | none => exact .inr ⟨rfl, .emit m trivial⟩
  | some script =>
    dsimp only
    split
    · exact .inl ⟨script, List.mem_of_find?_eq_some h_script, rfl⟩
    · exact .inr ⟨rfl, .emit m trivial⟩

theorem Starting.extent {p : UInt32 × Machine} (h : Starting m.focus.task? m p) :
    (∃ script ∈ m.program.scripts, Began m.focus.task? script m p.2) ∨
      Confined m.focus.task? m p.2 := by
  rcases h with ⟨script, h_script, rfl⟩ | ⟨-, h_confined⟩
  · exact .inl ⟨script, h_script, began_spawn m script⟩
  · exact .inr h_confined

/-- A start that succeeds yields the next id, and the task is there. -/
theorem Starting.given {p : UInt32 × Machine} (h : Starting own m p) (h_zero : p.1 ≠ 0) :
    p.1 = m.highestTask + 1 ∧ ∃ t, p.2.tasks.find? (m.highestTask + 1) = some t := by
  rcases h with ⟨script, -, rfl⟩ | ⟨h_refused, -⟩
  · obtain ⟨s, h_new⟩ := (began_spawn m script).new
    exact ⟨rfl, _, h_new⟩
  · contradiction

/-- Of a task an exchange changes nothing but the stack. -/
theorem Exchange.exists_stack (h : Exchange m m') {t : Task}
    (h_find : m.tasks.find? task = some t) :
    ∃ s, m'.tasks.find? task = some { t with stack := s } := by
  cases h with
  | tell => exact ⟨t.stack, h_find⟩
  | restack _ _ =>
    unfold setStack
    split
    · exact ⟨t.stack, h_find⟩
    · unfold Machine.updateTask
      rw [TaskTable.find?_update, h_find]
      split <;> exact ⟨_, rfl⟩

/-- Of the task in focus a start changes nothing but the stack. -/
theorem exists_stack_spawn (m : Machine) (script : Script) {t : Task}
    (h_find : m.tasks.find? task = some t) (h_new : task ≠ m.highestTask + 1) :
    ∃ s, (m.spawn script).2.tasks.find? task = some { t with stack := s } := by
  obtain ⟨m₁, s, h_exchanges, -, h_spawn⟩ := spawn_spec m script
  -- the parameters are exchanges with the stack in focus, however many there are
  have h_kept : ∃ s, m₁.tasks.find? task = some { t with stack := s } := by
    clear h_spawn
    induction h_exchanges with
    | refl => exact ⟨t.stack, h_find⟩
    | tail _ h_exchange ih =>
      obtain ⟨s, h_s⟩ := ih
      obtain ⟨s', h_s'⟩ := h_exchange.exists_stack h_s
      exact ⟨s', h_s'⟩
  obtain ⟨s', h_s'⟩ := h_kept
  refine ⟨s', ?_⟩
  rw [h_spawn, find?_enrol]
  exact (if_neg h_new.symm).trans h_s'

/-- Of the tasks with other ids only the one in focus is changed, and of that only the stack. -/
theorem find?_spawn_of_ne (m : Machine) (script : Script) {id : UInt32} {t : Task}
    (h_find : m.tasks.find? id = some t) (h_new : id ≠ m.highestTask + 1) : ∃ s,
    (m.spawn script).2.tasks.find? id = some { t with stack := s } ∧
      (m.focus ≠ .task id → s = t.stack) := by
  -- the task gives up its parameters if it is the one in focus, and else it is left alone
  by_cases h_focus : m.focus = .task id
  · obtain ⟨s, h_s⟩ := exists_stack_spawn m script h_find h_new
    exact ⟨s, h_s, absurd h_focus⟩
  · have h_other : m.focus.task? ≠ some id := fun h => h_focus (Focus.eq_of_task? h)
    exact ⟨t.stack, ((began_spawn m script).others h_new h_other).trans h_find, fun _ => rfl⟩

end Machine

/-! ### Stops -/

/-- What the host is told when a task is gone: what its locals let go of, in their order, and then
the end of the task. -/
def Task.farewell (t : Task) : List Event :=
  t.heldObjects.map .objectReleased ++ [.taskStopped t.id]

namespace Machine

variable {m m' : Machine} {task : UInt32}

theorem remove_eq {t : Task} (h : m.tasks.find? task = some t) : m.remove task =
    { m with tasks := m.tasks.erase task, log := m.log ++ t.farewell.toArray } := by
  obtain rfl := TaskTable.id_of_find? h
  unfold remove
  rw [h]
  exact foldl_emit ..

theorem stop_of_find? {t : Task} (h : m.tasks.find? task = some t) : m.stop task =
    { m with tasks := m.tasks.erase task, log := m.log ++ t.farewell.toArray } := by
  unfold stop
  rw [if_pos (TaskTable.contains_eq_true_iff.2 ⟨t, h⟩), remove_eq h]

/-- **Stopping tasks.** Those that are selected leave the table in ascending order of id, each with
its farewell, and nothing else happens. -/
theorem stopWhere_eq (m : Machine) (selected : Task → Bool) : m.stopWhere selected =
    { m with
      tasks := m.tasks.filter fun t => !selected t
      log := m.log ++ ((m.tasks.toList.filter selected).flatMap Task.farewell).toArray } := by
  -- any tasks of the table may be stopped one after the other, as their ids are different
  have h_stops (tasks : List Task) (m : Machine) (h_mem : ∀ t ∈ tasks, t ∈ m.tasks.toList)
      (h_ids : tasks.Pairwise (·.id < ·.id)) : (tasks.map (·.id)).foldl stop m =
        { m with
          tasks := m.tasks.filter fun t => !(tasks.map (·.id)).contains t.id
          log := m.log ++ (tasks.flatMap Task.farewell).toArray } := by
    induction tasks generalizing m with
    | nil =>
      -- nobody is named, so nobody leaves
      have h_all : m.tasks.filter (fun t => !([].map Task.id).contains t.id) = m.tasks :=
        TaskTable.toList_injective (List.filter_eq_self.2 fun _ _ => rfl)
      rw [h_all]
      simp
    | cons t rest ih =>
      -- the first one is there; once it is gone the rest are still there, as they have other ids
      obtain ⟨h_above, h_rest⟩ := List.pairwise_cons.1 h_ids
      have h_find := TaskTable.find?_eq_some_iff.2 ⟨h_mem t List.mem_cons_self, rfl⟩
      rw [List.map_cons, List.foldl_cons, stop_of_find? h_find, ih _ (fun u h_u => ?_) h_rest]
      · -- to remove one and then the rest is to remove all of them
        have h_tasks : (m.tasks.erase t.id).filter (fun u => !(rest.map (·.id)).contains u.id) =
            m.tasks.filter fun u => !(t.id :: rest.map (·.id)).contains u.id := by
          refine TaskTable.toList_injective ?_
          change (m.tasks.toList.filter _).filter _ = m.tasks.toList.filter _
          rw [List.filter_filter]
          refine List.filter_congr fun u _ => ?_
          rw [List.contains_cons, Bool.not_or, Bool.and_comm]
          rfl
        rw [h_tasks, List.flatMap_cons]
        simp
      · refine List.mem_filter.2 ⟨h_mem u (List.mem_cons_of_mem t h_u), ?_⟩
        exact bne_iff_ne.2 (UInt32.ne_of_lt (h_above u h_u)).symm
  unfold stopWhere
  rw [h_stops _ m (fun t h_t => (List.mem_filter.1 h_t).1) (m.tasks.ascending.filter _)]
  congr 2
  refine TaskTable.toList_injective (List.filter_congr fun t h_t => ?_)
  congr 1
  rw [Bool.eq_iff_iff, List.contains_iff_mem, List.mem_map]
  constructor
  · -- an id stands for one task of the table, so it is the same to go by ids
    rintro ⟨u, h_u, h_id⟩
    obtain ⟨h_u, h_selected⟩ := List.mem_filter.1 h_u
    rwa [TaskTable.eq_of_id_eq h_t h_u h_id.symm]
  · intro h_selected
    exact ⟨t, List.mem_filter.2 ⟨h_t, h_selected⟩, rfl⟩

/-- One task is stopped as if it alone were selected, or the host is told that it is not there. -/
theorem stop_cases (own : Option UInt32) (m : Machine) (id : UInt32) :
    m.stop id = m.stopWhere (·.id == id) ∨ Confined own m (m.stop id) := by
  cases h_find : m.tasks.find? id with
  | none =>
    right
    unfold stop
    rw [if_neg (by simp [TaskTable.contains_eq_false_iff.2 h_find])]
    exact .emit m trivial
  | some t =>
    left
    obtain ⟨h_mem, rfl⟩ := TaskTable.find?_eq_some_iff.1 h_find
    -- an id selects exactly one task of the table
    have h_one : (m.tasks.toList.filter (·.id == t.id)).map (·.id) = [t.id] := by
      obtain ⟨before, after, h_list, h_erase, -⟩ := TaskTable.exists_split h_find
      have h_ne (u : Task) (h_u : u ∈ before ++ after) : ¬ (u.id == t.id) = true := by
        rw [← h_erase] at h_u
        simpa using (List.mem_filter.1 h_u).2
      rw [h_list, List.filter_append, List.filter_cons_of_pos (by simp),
        List.filter_eq_nil_iff.2 fun u h_u => h_ne u (List.mem_append_left _ h_u),
        List.filter_eq_nil_iff.2 fun u h_u => h_ne u (List.mem_append_right _ h_u)]
      rfl
    unfold stopWhere
    rw [h_one]
    rfl

theorem find?_stopWhere (m : Machine) (selected : Task → Bool) (id : UInt32) :
    (m.stopWhere selected).tasks.find? id = (m.tasks.find? id).filter fun t => !selected t := by
  rw [stopWhere_eq]
  exact TaskTable.find?_filter ..

end Machine

/-! ### The end of a tick -/

/-- What the end of a tick makes of a task, given the tasks that are left. -/
def TaskTable.letGo (left : TaskTable) (mask : ScriptKind) (t : Task) : Task :=
  if t.kind.overlaps mask then
    if t.isWaiting && !left.contains t.waitingFor then
      { t with ticks := t.ticks + 1, waitingFor := 0, address := t.address + 1 }
    else { t with ticks := t.ticks + 1 }
  else t

section

variable (left : TaskTable) (mask : ScriptKind) (t : Task)

theorem TaskTable.id_letGo : (left.letGo mask t).id = t.id := by
  unfold letGo
  split
  · split <;> rfl
  · rfl

theorem TaskTable.kind_letGo : (left.letGo mask t).kind = t.kind := by
  unfold letGo
  split
  · split <;> rfl
  · rfl

variable {left mask t} in
theorem TaskTable.letGo_of_not_overlaps (h : t.kind.overlaps mask = false) :
    left.letGo mask t = t := by
  unfold letGo
  rw [h]
  rfl

variable {left mask t} in
theorem TaskTable.letGo_of_left (h_mask : t.kind.overlaps mask)
    (h_left : left.contains t.waitingFor) :
    left.letGo mask t = { t with ticks := t.ticks + 1 } := by
  unfold letGo
  rw [if_pos h_mask, if_neg (by simp [h_left])]

variable {left mask t} in
theorem TaskTable.letGo_of_gone (h_mask : t.kind.overlaps mask) (h_waits : t.waitingFor ≠ 0)
    (h_gone : left.contains t.waitingFor = false) : left.letGo mask t =
      { t with ticks := t.ticks + 1, waitingFor := 0, address := t.address + 1 } := by
  unfold letGo Task.isWaiting
  rw [if_pos h_mask, if_pos (by simp [h_waits, h_gone])]

/-- A wait goes on if it is for a task that is left, or if time does not go by for the task. -/
theorem TaskTable.waitingFor_letGo :
    (left.letGo mask t).waitingFor = 0 ∨ (left.letGo mask t).waitingFor = t.waitingFor ∧
      (t.kind.overlaps mask → t.waitingFor ≠ 0 → left.contains t.waitingFor) := by
  unfold letGo Task.isWaiting
  split
  · split
    · exact .inl rfl
    · rename_i h_stays
      refine .inr ⟨rfl, fun _ h_waits => ?_⟩
      simpa [h_waits] using h_stays
  · rename_i h_other
    exact .inr ⟨rfl, fun h => absurd h h_other⟩

theorem TaskTable.stopped_letGo : (left.letGo mask t).stopped = t.stopped := by
  unfold letGo
  split
  · split <;> rfl
  · rfl

end

namespace Machine

variable {m m' : Machine} {task : UInt32}

theorem find?_release (m : Machine) (mask : ScriptKind) (id : UInt32) :
    (m.release mask).tasks.find? id = (m.tasks.find? id).map (m.tasks.letGo mask) := by
  have h_tasks : (m.release mask).tasks = m.tasks.map (m.tasks.letGo mask) := by
    unfold release TaskTable.letGo
    dsimp only
    congr
  rw [h_tasks, TaskTable.find?_map]
  refine congrArg (fun f => (m.tasks.find? id).map f) (funext fun t => ?_)
  rw [← TaskTable.id_letGo m.tasks mask t]

/-- **The end of a tick.** Those that have ended are gone, and each of the others is looked at in
view of those that are left. -/
theorem find?_settle (m : Machine) (mask : ScriptKind) (id : UInt32) :
    (m.settle mask).tasks.find? id = ((m.tasks.find? id).filter fun t => !t.stopped).map
      ((m.settle mask).tasks.letGo mask) := by
  have h_tasks : (m.settle mask).tasks = ((m.stopWhere (·.stopped)).release mask).tasks := rfl
  -- nobody leaves while time goes by
  have h_left : (m.settle mask).tasks.letGo mask = (m.stopWhere (·.stopped)).tasks.letGo mask := by
    funext t
    unfold TaskTable.letGo TaskTable.contains
    rw [h_tasks, find?_release, Option.isSome_map]
  rw [h_left, h_tasks, find?_release, find?_stopWhere]

theorem find?_settle_of_runs (mask : ScriptKind) {t : Task} (h_find : m.tasks.find? task = some t)
    (h_runs : t.stopped = false) :
    (m.settle mask).tasks.find? task = some ((m.settle mask).tasks.letGo mask t) := by
  rw [find?_settle, h_find, Option.filter_some, h_runs]
  rfl

/-- At the end of a tick nothing is told but the end of tasks. -/
theorem settle_eq (m : Machine) (mask : ScriptKind) : m.settle mask =
    { m.stopWhere (·.stopped) with tasks := (m.settle mask).tasks, ticks := m.ticks + 1 } := by
  unfold settle release
  rw [stopWhere_eq]

/-! ### Instructions -/

/-- No body of a native is carried out. -/
def noBody (_ : Routine Unit) (_ : Machine) : Option Machine := none

/-- What an instruction of a task comes to. -/
inductive Advanced (m : Machine) (task : UInt32) (i : Instruction) : Machine → Prop
  | acted {m' : Machine} (h_finish : i.opcode ≠ .finish)
      (h_refused : i.opcode = .callScript → (m.start i.operand).1 = 0)
      (h : Confined (some task) m m') : Advanced m task i m'
  /-- A task is started that is not waited for. -/
  | began {m' : Machine} {script : Script} (h_call : i.opcode = .callScript)
      (h_mode : i.mode = Mode.async ∨ m.highestTask + 1 = 0)
      (h : Began (some task) script m m') : Advanced m task i m'
  /-- The caller waits, and up to its stack it is as it was. -/
  | called {m' : Machine} {script : Script} (h_call : i.opcode = .callScript)
      (h_mode : i.mode ≠ Mode.async) (h : Began (some task) script m m')
      (h_caller : ∀ t, m.tasks.find? task = some t →
        ∃ s, m'.tasks.find? task = some { t with stack := s }) :
      Advanced m task i (m'.updateTask task fun t => { t with waitingFor := m.highestTask + 1 })
  | finished {m' : Machine} (h_finish : i.opcode = .finish) (h : Confined (some task) m m') :
      Advanced m task i (m'.updateTask task fun t => { t with stopped := true })

/-- An instruction that does not carry out the body of a native acts, unless it is the end of a
script or a call. -/
theorem execute_cases {setting : Setting} {i : Instruction} {flow : Flow}
    (h : execute setting noBody task i m = some (flow, m')) :
    (i.opcode ≠ .finish ∧ i.opcode ≠ .callScript ∧ Acts task m m') ∨
      ((i.opcode = .finish ∨ i.opcode = .callScript) ∧ (flow, m') = obey setting task i m) := by
  unfold execute at h
  split at h
  · -- of the instructions that call no native two are set apart
    by_cases h_finish : i.opcode = .finish
    · exact .inr ⟨.inl h_finish, (Option.some.inj h).symm⟩
    · by_cases h_call : i.opcode = .callScript
      · exact .inr ⟨.inr h_call, (Option.some.inj h).symm⟩
      · have h_acts := acts_obey m task setting i h_finish h_call
        rw [Option.some.inj h] at h_acts
        exact .inl ⟨h_finish, h_call, h_acts⟩
  · rename_i h_native
    have h_opcode := Decidable.not_not.1 h_native
    refine .inl ⟨by rw [h_opcode]; decide, by rw [h_opcode]; decide, ?_⟩
    dsimp only at h
    split at h
    · cases h
      exact (gestures_fault ..).acts
    · split at h
      · cases h
        exact (exchanges_callUnbound ..).gestures.acts
      · -- a body would have to be carried out
        contradiction

/-- A call of a script is refused, or it starts a task. -/
theorem callScript_cases (m : Machine) (i : Instruction) (h_focus : m.focus = .task task)
    (h_own : task ≠ m.highestTask + 1) :
    (∃ m₁, m.callScript task i = (.next, m₁) ∧ (m.start i.operand).1 = 0 ∧
      Confined (some task) m m₁) ∨
    (∃ script m₁, m.callScript task i = (.next, m₁) ∧
      (i.mode = Mode.async ∨ m.highestTask + 1 = 0) ∧ Began (some task) script m m₁) ∨
    ∃ script m₁, i.mode ≠ Mode.async ∧ Began (some task) script m m₁ ∧
      (∀ t, m.tasks.find? task = some t →
        ∃ s, m₁.tasks.find? task = some { t with stack := s }) ∧
      m.callScript task i =
        (.stay, m₁.updateTask task fun t => { t with waitingFor := m.highestTask + 1 }) := by
  unfold callScript
  rcases starting_start (some task) m i.operand with
    ⟨script, -, h_start⟩ | ⟨h_zero, h_confined⟩
  · have h_began := began_spawn m script
    rw [h_focus, ← h_start] at h_began
    have h_callee : (m.start i.operand).1 = m.highestTask + 1 := by
      rw [h_start]
      rfl
    dsimp only
    rw [h_callee]
    -- the caller waits unless it was told not to, or the id has wrapped around to 0
    split
    · rename_i h_goes
      exact .inr (.inl ⟨script, _, rfl, h_goes.symm, h_began⟩)
    · rename_i h_waits
      refine .inr (.inr ⟨script, _, fun h => h_waits (.inr h), h_began, fun t h_find => ?_, rfl⟩)
      rw [h_start]
      exact exists_stack_spawn m script h_find h_own
  · dsimp only
    rw [if_pos (.inl h_zero)]
    exact .inl ⟨_, rfl, h_zero, h_confined⟩

/-- Whether a script is there does not depend on how many instructions were executed. -/
theorem start_fst (m : Machine) (executed id : UInt32) :
    (start { m with executed } id).1 = (m.start id).1 := by
  unfold start
  cases m.program.script? id <;> rfl

/-- **What instructions come to.** The task is there, so it is not the one that may be started. -/
theorem advance_cases {setting : Setting} {i : Instruction}
    (h : m.advance setting noBody task i = some m') (h_focus : m.focus = .task task)
    (h_own : task ≠ m.highestTask + 1) : Advanced m task i m' := by
  unfold advance at h
  obtain ⟨⟨flow, m₁⟩, h_execute, h⟩ := Option.bind_eq_some_iff.1 h
  have h_count : Confined (some task) m { m with executed := m.executed + 1 } :=
    .of_eq rfl rfl rfl rfl rfl
  -- the count before and the address after concern the task alone
  have h_next (m₁ : Machine) : Confined (some task) m₁
      (m₁.updateTask task fun t => { t with address := t.address + 1 }) :=
    .updateTask m₁ task fun _ => rfl
  rcases execute_cases h_execute with ⟨h_finish, h_call, h_acts⟩ | ⟨h_finish | h_call, h_obey⟩
  · have h_confined := h_count.trans (h_acts.confined h_focus)
    cases flow with
    | next =>
      cases h
      exact .acted h_finish (absurd · h_call) (h_confined.trans (h_next m₁))
    | jumped | stay =>
      cases h
      exact .acted h_finish (absurd · h_call) h_confined
  · -- the end of a script, which leaves the address
    rw [obey_finish setting h_finish] at h_obey
    cases h_obey
    cases h
    exact .finished h_finish h_count
  · -- a call of a script, with its three ways to go on
    have h_finish : i.opcode ≠ .finish := by rw [h_call]; decide
    rw [obey_callScript setting h_call] at h_obey
    rcases callScript_cases { m with executed := m.executed + 1 } i h_focus h_own with
      ⟨_, h_eq, h_zero, h_confined⟩ | ⟨_, _, h_eq, h_mode, h_began⟩ |
        ⟨_, _, h_mode, h_began, h_caller, h_eq⟩ <;>
      cases h_obey.trans h_eq <;> cases h
    · rw [start_fst] at h_zero
      exact .acted h_finish (fun _ => h_zero) ((h_count.trans h_confined).trans (h_next _))
    · exact .began h_call h_mode ((h_began.after h_count).updateTask h_own fun _ => rfl)
    · exact .called h_call h_mode (h_began.after h_count) h_caller

end Machine

end ScriptMachine
