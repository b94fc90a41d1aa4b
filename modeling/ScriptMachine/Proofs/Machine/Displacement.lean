import ScriptMachine.Proofs.Machine.Fate
import ScriptMachine.Proofs.Machine.Instructions
import ScriptMachine.Proofs.Machine.Restorable

/-!
# Starts that displace a task

A task is put into the table under the id after the highest one ever given, and nobody looks whether
that id is taken. It is not, as long as the count of the ids is right. A save file, however, has the
count and the tasks one beside the other, and reading it does not hold them together. So after a
restore the next id may belong to a live task, which is then replaced without a word to the host
(`Scene.Displaces`).

`Machine.restored_starts_add` says when that happens and when not. A start adds a task and leaves
all others in their place (`Scene.Adds`) if and only if the next id is not taken and not 0. From a
save file that does not count too low (`State.IdsGiven`) all starts do, until ids wrap around; from
any other there is a run that does not get that far (`Machine.exists_displacement`).
-/

namespace ScriptMachine

variable {setting : Setting} {c c' : Config} {d : Deed} {scenes : List Scene} {script : Script}

/-! ### Starting a script under whatever id comes next -/

namespace Machine

variable {m m' : Machine} {id : UInt32} {t : Task}

theorem quiet_takeId (m : Machine) (script : Script) : ∃ m₁ s,
    m.takeId.Quiet m₁ ∧ (m.spawn script).2 =
      m₁.enrol { Task.start (m.highestTask + 1) script with stack := s } := by
  obtain ⟨m₁, s, h_exchanges, -, h_spawn⟩ := spawn_spec m script
  exact ⟨m₁, s, h_exchanges.quiet, by rw [h_spawn]⟩

theorem size_spawn (h_fresh : m.tasks.find? (m.highestTask + 1) = none) (script : Script) :
    (m.spawn script).2.tasks.size = m.tasks.size + 1 := by
  obtain ⟨m₁, s, h_quiet, h_spawn⟩ := quiet_takeId m script
  have h_ids : m₁.tasks.toList.map (·.id) = m.tasks.toList.map (·.id) := h_quiet.ids
  have h_fresh₁ : m₁.tasks.find? (m.highestTask + 1) = none := by
    refine TaskTable.find?_eq_none_iff.2 fun u h_u h_id => ?_
    have h_mem : u.id ∈ m.tasks.toList.map (·.id) := h_ids ▸ List.mem_map_of_mem h_u
    obtain ⟨v, h_v, h_same⟩ := List.mem_map.1 h_mem
    exact TaskTable.find?_eq_none_iff.1 h_fresh v h_v (h_same.trans h_id)
  have h_size : m₁.tasks.size = m.tasks.size := by
    have h_length := congrArg List.length h_ids
    rwa [List.length_map, List.length_map] at h_length
  rw [h_spawn, ← h_size]
  exact TaskTable.size_insert h_fresh₁

theorem ids_spawn (h_find : m.tasks.find? (m.highestTask + 1) = some t) (script : Script) :
    (m.spawn script).2.tasks.toList.map (·.id) = m.tasks.toList.map (·.id) := by
  obtain ⟨m₁, s, h_quiet, h_spawn⟩ := quiet_takeId m script
  have h_ids : m₁.tasks.toList.map (·.id) = m.tasks.toList.map (·.id) := h_quiet.ids
  -- Passing parameters leaves the ids in the table, so the next one is still taken.
  have h_mem : m.highestTask + 1 ∈ m₁.tasks.toList.map (·.id) := by
    rw [h_ids]
    obtain ⟨h_t, h_id⟩ := TaskTable.find?_eq_some_iff.1 h_find
    exact h_id ▸ List.mem_map_of_mem h_t
  obtain ⟨u, h_u, h_id⟩ := List.mem_map.1 h_mem
  rw [h_spawn, ← h_ids]
  exact TaskTable.ids_insert (TaskTable.find?_eq_some_iff.2 ⟨h_u, h_id⟩)

theorem log_spawn (m : Machine) (script : Script) :
    ∃ es, (m.spawn script).2.log.toList = m.log.toList ++ es ∧ ∀ e ∈ es, e.Plain := by
  obtain ⟨m₁, s, h_quiet, h_spawn⟩ := quiet_takeId m script
  rw [h_spawn]
  exact h_quiet.log

end Machine

/-! ### Scenes in which a task is started -/

namespace Scene

/-- In this scene a script is found and started. -/
def Finds (scene : Scene) (script : Script) : Prop :=
  match scene.deed with
  | .ask _ (.start id) _ => scene.before.machine.program.script? id = some script
  | .ask _ (.startNamed name mask) _ =>
    scene.before.machine.program.scripts.find? (·.name == name) = some script ∧
      script.kind.overlaps mask
  | .execute _ i =>
    i.opcode = .callScript ∧ scene.before.machine.program.script? i.operand = some script
  | _ => False

/-- In this scene a start, or a call in the code, yields an id. -/
def Yields (scene : Scene) (id : UInt32) : Prop :=
  match scene.deed with
  | .ask _ (.start _) answer => answer = id
  | .ask _ (.startNamed _ _) answer => answer = id
  | .execute _ i => (scene.before.machine.start i.operand).1 = id
  | _ => False

/-- A task of the script is added under an id that nobody had. The others stay as they are, but that
the one in focus gives parameters, and that a caller goes past its call or waits. -/
structure Adds (scene : Scene) (script : Script) (id : UInt32) : Prop where
  nonzero : id ≠ 0
  fresh : scene.before.machine.tasks.find? id = none
  new : ∃ s, scene.after.machine.tasks.find? id = some { Task.start id script with stack := s }
  others {other : UInt32} {t : Task} (h : scene.before.machine.tasks.find? other = some t) :
    ∃ s address waitingFor,
      scene.after.machine.tasks.find? other = some { t with stack := s, address, waitingFor } ∧
      (scene.before.machine.focus ≠ .task other → s = t.stack) ∧
      ((∀ i, scene.deed ≠ .execute other i) → address = t.address ∧ waitingFor = t.waitingFor)
  size : scene.after.machine.tasks.size = scene.before.machine.tasks.size + 1

/-- The id was taken. Nobody is added, the task that had it has lost what its locals held, and the
host is told neither of that nor of its end. -/
structure Displaces (scene : Scene) (script : Script) (id : UInt32) : Prop where
  ids : scene.after.machine.tasks.toList.map (·.id) = scene.before.machine.tasks.toList.map (·.id)
  locals : ∃ t, scene.after.machine.tasks.find? id = some t ∧
    t.locals = script.localNames.map .fresh
  log : ∃ es, scene.after.machine.log.toList = scene.before.machine.log.toList ++ es ∧
    ∀ e ∈ es, e.Plain

end Scene

/-- **What a start does.** The script is started, and a caller goes on after its call. -/
theorem Step.spawns (h : Step setting c d c') (h_finds : Scene.Finds ⟨c, d, c'⟩ script) :
    Scene.Yields ⟨c, d, c'⟩ (c.machine.highestTask + 1) ∧
    (((∀ task i, d ≠ .execute task i) ∧ c'.machine = (c.machine.spawn script).2) ∨
      ∃ task i t, d = .execute task i ∧ c.machine.tasks.find? task = some t ∧
        c'.machine = (Machine.spawn { c.machine with executed := c.machine.executed + 1 }
          script).2.updateTask task (Task.afterCall i (c.machine.highestTask + 1))) := by
  -- The host and a native ask for a start in the same way, by number or by name.
  have h_answer {m m' : Machine} {caller : Option UInt32} {q : Request} {a : q.Answer}
      {stage stage' : Stage} (h_answer : m.answer noTick q = some (a, m'))
      (h_finds : Scene.Finds ⟨⟨m, stage⟩, .ask caller q a, ⟨m', stage'⟩⟩ script) :
      Scene.Yields ⟨⟨m, stage⟩, .ask caller q a, ⟨m', stage'⟩⟩ (m.highestTask + 1) ∧
        m' = (m.spawn script).2 := by
    cases q with
    | start id =>
      have h_start : m.start id = m.spawn script := by
        unfold Machine.start
        rw [show m.program.script? id = some script from h_finds]
      have h_same : m.spawn script = (a, m') := h_start.symm.trans (Option.some.inj h_answer)
      exact ⟨(congrArg Prod.fst h_same).symm, (congrArg Prod.snd h_same).symm⟩
    | startNamed name mask =>
      obtain ⟨h_named, h_kind⟩ := h_finds
      have h_start : m.startNamed name mask = m.spawn script := by
        unfold Machine.startNamed
        rw [show m.program.scripts.find? (·.name == name) = some script from h_named]
        exact if_pos h_kind
      have h_same : m.spawn script = (a, m') := h_start.symm.trans (Option.some.inj h_answer)
      exact ⟨(congrArg Prod.fst h_same).symm, (congrArg Prod.snd h_same).symm⟩
    | _ => exact h_finds.elim
  cases h with
  | ask _ h_a | request _ h_a =>
    obtain ⟨h_yields, h_machine⟩ := h_answer h_a h_finds
    exact ⟨h_yields, .inl ⟨fun _ _ => by simp, h_machine⟩⟩
  | @execute m _ _ t i h_find _ _ h_advance =>
    obtain ⟨h_call, h_script⟩ := h_finds
    rw [Machine.advance_callScript h_call h_script] at h_advance
    have h_start : m.start i.operand = m.spawn script := by
      unfold Machine.start
      rw [show m.program.script? i.operand = some script from h_script]
    exact ⟨congrArg Prod.fst h_start, .inr ⟨_, i, t, rfl, h_find, (Option.some.inj h_advance).symm⟩⟩
  | enter _ _ _ h_opcode =>
    -- a native may start scripts, but not by being entered
    obtain ⟨h_call, -⟩ := h_finds
    exact absurd (h_opcode.symm.trans h_call) (by decide)
  | _ => exact h_finds.elim

/-- A start adds a task if nobody has the next id. -/
theorem Step.adds (h : Step setting c d c') (h_finds : Scene.Finds ⟨c, d, c'⟩ script)
    (h_zero : c.machine.highestTask + 1 ≠ 0)
    (h_fresh : c.machine.tasks.find? (c.machine.highestTask + 1) = none) :
    Scene.Adds ⟨c, d, c'⟩ script (c.machine.highestTask + 1) := by
  -- nobody who is live is mistaken for the new task
  have h_ne {other : UInt32} {t : Task} (h_find : c.machine.tasks.find? other = some t) :
      other ≠ c.machine.highestTask + 1 := by
    intro h_same
    rw [h_same, h_fresh] at h_find
    contradiction
  obtain ⟨-, ⟨h_ask, h_machine⟩ | ⟨task, i, u, h_execute, h_caller, h_machine⟩⟩ := h.spawns h_finds
  · -- a start that is asked for: the machine is the one after the start
    obtain ⟨s, h_new⟩ := (Machine.began_spawn c.machine script).new
    refine ⟨h_zero, h_fresh, ⟨s, h_machine ▸ h_new⟩, fun {other t} h_find => ?_,
      h_machine ▸ Machine.size_spawn h_fresh script⟩
    obtain ⟨s, h_after, h_stack⟩ := Machine.find?_spawn_of_ne c.machine script h_find (h_ne h_find)
    exact ⟨s, t.address, t.waitingFor, h_machine ▸ h_after, h_stack, fun _ => ⟨rfl, rfl⟩⟩
  · -- the caller is live, so it is not the new task
    have h_task := h_ne h_caller
    let m₁ : Machine := { c.machine with executed := c.machine.executed + 1 }
    obtain ⟨s, h_new⟩ := (Machine.began_spawn m₁ script).new
    refine ⟨h_zero, h_fresh, ⟨s, ?_⟩, fun {other t} h_find => ?_, ?_⟩
    · dsimp only
      rw [h_machine]
      exact (TaskTable.find?_update_of_ne _ h_task.symm _).trans h_new
    · obtain ⟨s, h_after, h_stack⟩ := Machine.find?_spawn_of_ne m₁ script h_find (h_ne h_find)
      dsimp only
      rw [h_machine]
      by_cases h_other : other = task
      · subst h_other
        obtain ⟨address, waitingFor, h_call⟩ :=
          Task.afterCall_spec i (c.machine.highestTask + 1) { t with stack := s }
        refine ⟨s, address, waitingFor, ?_, h_stack, fun h_not => absurd h_execute (h_not i)⟩
        refine (TaskTable.find?_update_self (m₁.spawn script).2.tasks other _).trans ?_
        rw [h_after, Option.map_some, h_call]
      · exact ⟨s, t.address, t.waitingFor,
          (TaskTable.find?_update_of_ne _ h_other _).trans h_after, h_stack, fun _ => ⟨rfl, rfl⟩⟩
    · have h_size := Machine.size_spawn (m := m₁) h_fresh script
      dsimp only
      rw [h_machine]
      exact (List.length_map _).trans h_size

/-- **A start displaces** the task that has the next id. -/
theorem Step.displaces (h : Step setting c d c') (h_finds : Scene.Finds ⟨c, d, c'⟩ script)
    {t : Task} (h_find : c.machine.tasks.find? (c.machine.highestTask + 1) = some t) :
    Scene.Displaces ⟨c, d, c'⟩ script (c.machine.highestTask + 1) := by
  obtain ⟨-, ⟨-, h_machine⟩ | ⟨task, i, u, -, -, h_machine⟩⟩ := h.spawns h_finds
  · -- the table has the ids that it had, and the new task stands under one of them
    obtain ⟨s, h_new⟩ := (Machine.began_spawn c.machine script).new
    exact ⟨h_machine ▸ Machine.ids_spawn h_find script, ⟨_, h_machine ▸ h_new, rfl⟩,
      h_machine ▸ Machine.log_spawn c.machine script⟩
  · let m₁ : Machine := { c.machine with executed := c.machine.executed + 1 }
    obtain ⟨s, h_new⟩ := (Machine.began_spawn m₁ script).new
    refine ⟨?_, ?_, ?_⟩ <;> dsimp only <;> rw [h_machine]
    · exact (TaskTable.ids_map _ _).trans (Machine.ids_spawn (m := m₁) h_find script)
    · refine ⟨_, (TaskTable.find?_update ..).trans (by rw [h_new, Option.map_some]), ?_⟩
      -- the caller itself may be the one that is displaced
      split
      · obtain ⟨address, waitingFor, h_call⟩ := Task.afterCall_spec i (c.machine.highestTask + 1)
          { Task.start (m₁.highestTask + 1) script with stack := s }
        rw [h_call]
        rfl
      · rfl
    · exact Machine.log_spawn m₁ script

/-! ### Ids that are counted -/

/-- A start gives one id away. -/
theorem Step.started_of_finds (h : Step setting c d c') (h_finds : Scene.Finds ⟨c, d, c'⟩ script) :
    c'.machine.started = c.machine.started + 1 := by
  obtain ⟨-, ⟨-, h_machine⟩ | ⟨task, i, u, -, -, h_machine⟩⟩ := h.spawns h_finds
  · rw [h_machine]
    exact (Machine.began_spawn _ script).started
  · rw [h_machine]
    exact (Machine.began_spawn _ script).started

/-- **Where the count is right**, every start adds a task until ids wrap around. -/
theorem Course.adds (h : Course setting c scenes c') (h_given : c.machine.IdsGiven)
    (h_room : c.machine.highestTask.toNat + (c'.machine.started - c.machine.started) <
      UInt32.size) :
    ∀ scene ∈ scenes, ∀ script, scene.Finds script →
      scene.Adds script (scene.before.machine.highestTask + 1) := by
  intro scene h_scene script h_finds
  obtain ⟨past, future, rfl⟩ := List.append_of_mem h_scene
  obtain ⟨h_past, h_step, h_future⟩ := h.at_scene
  have h_le := h_past.accounts.started_le
  have h_le' := h_future.accounts.started_le
  have h_one := h_step.started_of_finds h_finds
  obtain ⟨h_given', h_highest, -⟩ := h_past.accounts.books h_given (by omega)
  -- this start is one of those that were counted, so the next id is no less than all before
  have h_next : (scene.before.machine.highestTask + 1).toNat =
      scene.before.machine.highestTask.toNat + 1 := Machine.toNat_next (by omega)
  refine h_step.adds h_finds (fun h_zero => ?_) ?_
  · rw [h_zero] at h_next
    exact absurd h_next (Nat.succ_ne_zero _).symm
  · exact Machine.fresh_of_idsGiven h_given' (by omega)

/-- A start that the host asks for. -/
def Machine.startScene (m : Machine) (script : UInt32) : Scene :=
  ⟨⟨m, .idle⟩, .ask none (.start script) (m.start script).1, ⟨(m.start script).2, .idle⟩⟩

@[simp] theorem Machine.before_startScene (m : Machine) (id : UInt32) :
    (m.startScene id).before.machine = m := rfl

theorem Machine.step_startScene (setting : Setting) (m : Machine) (id : UInt32) :
    Step setting ⟨m, .idle⟩ (m.startScene id).deed ⟨(m.start id).2, .idle⟩ := .ask trivial rfl

theorem Machine.finds_startScene {m : Machine} {id : UInt32}
    (h : m.program.script? id = some script) : (m.startScene id).Finds script := h

theorem Machine.course_startScene (setting : Setting) (m : Machine) (id : UInt32) :
    Course setting ⟨m, .idle⟩ [m.startScene id] ⟨(m.start id).2, .idle⟩ :=
  .cons (m.step_startScene setting id) (.nil _)

/-- **Where the count is too low**, starting a script again and again comes to the id of a live task
before ids wrap around. -/
theorem Machine.exists_displacement (setting : Setting) {m : Machine} {id k : UInt32} {t : Task}
    (h_find : m.tasks.find? id = some t) (h_above : m.highestTask < id)
    (h_script : m.program.script? k = some script) :
    ∃ scenes c', Course setting ⟨m, .idle⟩ scenes c' ∧
      m.highestTask.toNat + (c'.machine.started - m.started) < UInt32.size ∧
      ∃ scene ∈ scenes, scene.Finds script ∧
        ¬ scene.Adds script (scene.before.machine.highestTask + 1) := by
  -- on how many ids there are between the highest one and that of the task
  obtain ⟨n, h_n⟩ : ∃ n, m.highestTask.toNat + n + 1 = id.toNat := by
    rw [UInt32.lt_iff_toNat_lt] at h_above
    exact ⟨id.toNat - m.highestTask.toNat - 1, by omega⟩
  have h_size : id.toNat < UInt32.size := id.toNat_lt_size
  induction n generalizing m t with
  | zero =>
    have h_next : m.highestTask + 1 = id :=
      UInt32.toNat_inj.1 ((Machine.toNat_next (by omega)).trans h_n)
    have h_finds := finds_startScene h_script
    have h_one : (m.start k).2.started = m.started + 1 :=
      (m.step_startScene setting k).started_of_finds h_finds
    refine ⟨_, _, m.course_startScene setting k, by dsimp only; omega, _, List.mem_cons_self,
      h_finds, fun h_adds => ?_⟩
    have h_fresh : m.tasks.find? (m.highestTask + 1) = none := h_adds.fresh
    rw [h_next, h_find] at h_fresh
    contradiction
  | succ n ih =>
    -- a start leaves the task where it is, and comes one id nearer to it
    have h_next : (m.highestTask + 1).toNat = m.highestTask.toNat + 1 :=
      Machine.toNat_next (by omega)
    have h_new : id ≠ m.highestTask + 1 := by
      intro h_same
      rw [h_same] at h_n
      omega
    have h_start : m.start k = m.spawn script := by
      unfold Machine.start
      rw [h_script]
    have h_began := began_spawn m script
    obtain ⟨s, h_left, -⟩ := find?_spawn_of_ne m script h_find h_new
    rw [← h_start] at h_began h_left
    obtain ⟨scenes, c', h_course, h_room, scene, h_scene, h_finds, h_not⟩ :=
      ih h_left (by rw [h_began.highestTask, UInt32.lt_iff_toNat_lt, h_next]; omega)
        (by rw [h_began.program]; exact h_script) (by rw [h_began.highestTask, h_next]; omega)
    have h_le : (m.start k).2.started ≤ c'.machine.started := h_course.accounts.started_le
    rw [h_began.highestTask, h_began.started, h_next] at h_room
    rw [h_began.started] at h_le
    exact ⟨_, c', .cons (m.step_startScene setting k) h_course, by omega, scene,
      List.mem_cons_of_mem _ h_scene, h_finds, h_not⟩

/-- **Starting a task after a restore.** Take any save file that is accepted, and any run of
ordinary requests from there, with natives that run no ticks. A start or call that finds its script
yields the id after the highest one. It adds a task under that id and leaves the others in their
place if and only if the id is not 0 and nobody has it; if somebody has it, the start displaces the
task without a word. The save file decides which: all starts until ids wrap around add tasks if and
only if no task was saved with an id above the highest one that was saved. -/
theorem Machine.restored_starts_add (h_setting : setting.Immediate) {bytes : List UInt8}
    {m₀ m : Machine} (h_restore : m₀.restoreBytes bytes = .ok m) :
    (∀ {α : Type} {r : Routine α} {m' : Machine} {a : α}, r.Only Request.Ordinary →
      perform setting r m = some (a, m') →
      Config.Reaches setting ⟨m, .idle⟩ ⟨m', .idle⟩) ∧
    (∀ {scenes : List Scene} {c' : Config}, Course setting ⟨m, .idle⟩ scenes c' →
      ∀ scene ∈ scenes, ∀ script, scene.Finds script →
        scene.Yields (scene.before.machine.highestTask + 1) ∧
        (scene.Adds script (scene.before.machine.highestTask + 1) ↔
          scene.before.machine.highestTask + 1 ≠ 0 ∧
          scene.before.machine.tasks.find? (scene.before.machine.highestTask + 1) = none) ∧
        ∀ t, scene.before.machine.tasks.find? (scene.before.machine.highestTask + 1) = some t →
          scene.Displaces script (scene.before.machine.highestTask + 1)) ∧
    ((∀ scenes c', Course setting ⟨m, .idle⟩ scenes c' →
        m.highestTask.toNat + (c'.machine.started - m.started) < UInt32.size →
        ∀ scene ∈ scenes, ∀ script, scene.Finds script →
          scene.Adds script (scene.before.machine.highestTask + 1)) ↔
      m.IdsGiven) := by
  have h_m := State.Restorable.of_restoreBytes h_restore
  refine ⟨fun h_ordinary h_run => ?_, fun h_course scene h_scene script h_finds => ?_,
    fun h_adds t h_t => ?_, fun h_given scenes c' h_course h_room => ?_⟩
  · exact Routine.reaches h_setting lifetime ⟨h_m.focus, h_m.running⟩ h_ordinary h_run
  · obtain ⟨past, future, rfl⟩ := List.append_of_mem h_scene
    obtain ⟨-, h_step, -⟩ := h_course.at_scene
    exact ⟨(h_step.spawns h_finds).1,
      ⟨fun h => ⟨h.nonzero, h.fresh⟩, fun h => h_step.adds h_finds h.1 h.2⟩,
      fun t h_t => h_step.displaces h_finds h_t⟩
  · -- every task that was put back has a script, which can be started
    by_contra h_above
    obtain ⟨script, h_script⟩ := (h_m.tasks t h_t).script
    obtain ⟨scenes, c', h_course, h_room, scene, h_scene, h_finds, h_not⟩ :=
      exists_displacement setting (TaskTable.find?_eq_some_iff.2 ⟨h_t, rfl⟩)
        (UInt32.not_le.1 h_above) h_script
    exact h_not (h_adds scenes c' h_course h_room scene h_scene script h_finds)
  · exact h_course.adds h_given h_room

/-! ### A save file that counts right, and one that does not -/

def savedScript : Script := ⟨"Main", "main.chl", .script, 0, ["x"], 0, 0, 1⟩

/-- A save file with one task, which holds an object, and with a count of the ids beside it. -/
def savedImage (highestTask : UInt32) : Image :=
  { program := { scripts := [savedScript] }
    checkpoint := some {
      tasks := [{ Task.start 1 savedScript with locals := [⟨"x", .ofObject 7⟩] }]
      highestTask, highestScript := 1 } }

def savedMachine (highestTask : UInt32) : Machine :=
  (Machine.restoreBytes {} (savedImage highestTask).encode).toOption.getD {}

/-- With the count 1 the task gets the id 2, and with the count 0 it takes the place of task 1. -/
theorem restored_starts_add_saved :
    Machine.restoreBytes {} (savedImage 1).encode = .ok (savedMachine 1) ∧
    ((savedMachine 1).startScene 1).Adds savedScript 2 ∧
    Machine.restoreBytes {} (savedImage 0).encode = .ok (savedMachine 0) ∧
    ((savedMachine 0).startScene 1).Displaces savedScript 1 := by
  have h_right : Machine.restoreBytes {} (savedImage 1).encode = .ok (savedMachine 1) := by
    decide +kernel
  have h_low : Machine.restoreBytes {} (savedImage 0).encode = .ok (savedMachine 0) := by
    decide +kernel
  obtain ⟨-, -, h_adds⟩ := Machine.restored_starts_add plainSetting_immediate h_right
  obtain ⟨-, h_starts, -⟩ := Machine.restored_starts_add plainSetting_immediate h_low
  refine ⟨h_right, ?_, h_low, ?_⟩
  · have h_given : (savedMachine 1).IdsGiven := by
      unfold State.IdsGiven
      decide +kernel
    have h_second : (savedMachine 1).highestTask + 1 = 2 := by decide +kernel
    have h_finds : ((savedMachine 1).startScene 1).Finds savedScript :=
      Machine.finds_startScene (by decide +kernel)
    have h_new := h_adds.2 h_given _ _ ((savedMachine 1).course_startScene plainSetting 1)
      (by decide +kernel) _ List.mem_cons_self _ h_finds
    rwa [Machine.before_startScene, h_second] at h_new
  · have h_first : (savedMachine 0).highestTask + 1 = 1 := by decide +kernel
    have h_live : ((savedMachine 0).tasks.find? 1).isSome := by decide +kernel
    obtain ⟨t, h_t⟩ := Option.isSome_iff_exists.1 h_live
    have h_finds : ((savedMachine 0).startScene 1).Finds savedScript :=
      Machine.finds_startScene (by decide +kernel)
    obtain ⟨-, -, h_displaces⟩ := h_starts ((savedMachine 0).course_startScene plainSetting 1) _
      List.mem_cons_self _ h_finds
    rw [Machine.before_startScene, h_first] at h_displaces
    exact h_displaces t h_t

/-- The save file is accepted, and the first start takes the place of the task that was saved. Its
object is not let go of, and its end is not told. -/
theorem start_displaces_saved :
    Machine.restoreBytes {} (savedImage 0).encode = .ok (savedMachine 0) ∧
    ((savedMachine 0).start 1).1 = 1 ∧
    (savedMachine 0).tasks.toList.map (fun t => (t.id, t.heldObjects)) = [(1, [7])] ∧
    ((savedMachine 0).start 1).2.tasks.toList.map (fun t => (t.id, t.heldObjects)) = [(1, [])] ∧
    ((savedMachine 0).start 1).2.log = #[] ∧
    ¬ ∀ (bytes : List UInt8) (m₀ m : Machine) (scenes : List Scene) (c' : Config) (scene : Scene)
      (script : Script) (id : UInt32), m₀.restoreBytes bytes = .ok m →
      Course plainSetting ⟨m, .idle⟩ scenes c' → scene ∈ scenes → scene.Finds script →
      scene.Yields id → scene.Adds script id := by
  have h_restore : Machine.restoreBytes {} (savedImage 0).encode = .ok (savedMachine 0) := by
    decide +kernel
  refine ⟨h_restore, by decide +kernel, by decide +kernel, by decide +kernel, by decide +kernel,
    fun h => ?_⟩
  have h_finds : ((savedMachine 0).startScene 1).Finds savedScript :=
    Machine.finds_startScene (by decide +kernel)
  obtain ⟨h_yields, -⟩ := ((savedMachine 0).step_startScene plainSetting 1).spawns h_finds
  have h_fresh := (h _ {} (savedMachine 0) _ _ _ _ _ h_restore
    ((savedMachine 0).course_startScene plainSetting 1) List.mem_cons_self h_finds h_yields).fresh
  simp only [Machine.before_startScene] at h_fresh
  -- the id that was yielded is that of the task
  have h_live : (savedMachine 0).tasks.find? ((savedMachine 0).highestTask + 1) ≠ none := by
    decide +kernel
  exact h_live h_fresh

end ScriptMachine
