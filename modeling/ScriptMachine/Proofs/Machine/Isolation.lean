import Mathlib.Data.Set.Defs
import ScriptMachine.Proofs.Machine.Fate
import ScriptMachine.Proofs.Machine.Lockstep

/-!
# Tasks are isolated

All tasks are in one table, and the one whose turn it is finds its own entry there by its id, and
its stack through the focus of the machine. So it could reach the others. It does not, as long as
no native has a body. That is a fact about two machines and one about a single machine:

* in machines that differ in other tasks, the turn of a task does the same (`Agree.slice`);
* beyond the task whose turn it is, a turn leaves all tasks as they are and adds new ones
  (`aside_slice`).

A tick is made of turns, so it does not touch the tasks that its mask leaves out, unless they have
been stopped before (`spares_tickWithin`).
-/

namespace ScriptMachine

/-- No native has a body. -/
def Setting.Unbound (setting : Setting) : Prop := ∀ native ∈ setting.natives, native.body = none

theorem Setting.Unbound.ordinary {setting : Setting} (h : setting.Unbound) : setting.Ordinary := by
  intro native h_native body h_body
  rw [h native h_native] at h_body
  contradiction

namespace Machine

variable {setting : Setting} {carryOut : Routine Unit → Machine → Option Machine}
  {m m' m'' n : Machine} {own id : UInt32} {t : Task} {mask : ScriptKind} {budget : Nat}

/-! ### Natives without bodies -/

/-- No body can be carried out. -/
theorem carries_noBody : Carries noBody := by
  intro body h_body m m' h
  contradiction

section

variable (h : setting.Unbound) (carryOut)

include h

/-- It does not matter how bodies are carried out. -/
theorem execute_unbound (i : Instruction) :
    execute setting carryOut own i m = execute setting noBody own i m := by
  unfold execute
  split
  · rfl
  · dsimp only
    cases h_native : setting.natives[i.operand.toNat]? with
    | none => rfl
    | some native =>
      dsimp only
      rw [h native (List.mem_of_getElem? h_native)]

theorem steps_unbound (begunInHandler : Bool) :
    m.steps setting carryOut own begunInHandler budget =
      m.steps setting noBody own begunInHandler budget := by
  -- a step is the same, so the rest of the turn is
  have h_step (m : Machine) :
      m.step setting carryOut own begunInHandler = m.step setting noBody own begunInHandler := by
    unfold step advance
    simp only [execute_unbound carryOut h]
  induction budget generalizing m with
  | zero => rfl
  | succ budget ih =>
    unfold steps
    simp only [h_step, ih]

theorem slice_unbound :
    m.slice setting carryOut budget own = m.slice setting noBody budget own := by
  unfold slice
  simp only [steps_unbound carryOut h]

theorem turn_unbound (p : Pass) : p.turn setting carryOut budget mask =
    p.turn setting noBody budget mask := by
  funext t m
  rw [Pass.turn_eq, Pass.turn_eq]
  simp only [slice_unbound carryOut h]

end

/-! ### Turns and where they lead -/

/-- From the beginning of a turn to its end, and then the focus is where it was. -/
theorem slice_of_find? (h : m.tasks.find? own = some t) :
    m.slice setting carryOut budget own =
      ((m.begin own).steps setting carryOut own t.inHandler budget).map fun ended =>
        { ended with focus := m.focus, running := m.running } := by
  unfold slice
  rw [h]
  exact Option.map_eq_bind.symm

theorem slice_of_gone (h : m.tasks.find? own = none) :
    m.slice setting carryOut budget own = some m := by
  unfold slice
  rw [h]

/-! ### Machines that differ in other tasks -/

/-- Machines that differ in their tasks only. Of each of the ids both have the same task, or
none. -/
inductive Agree (ids : Set UInt32) (m : Machine) : Machine → Prop
  | intro (tasks : TaskTable) (h : ∀ id ∈ ids, tasks.find? id = m.tasks.find? id) :
    Agree ids m { m with tasks }

namespace Agree

variable {ids : Set UInt32}

theorem updateTask (h : m.Agree ids n) (task : UInt32) (change : Task → Task) :
    (m.updateTask task change).Agree ids (n.updateTask task change) := by
  obtain ⟨tasks, h_tasks⟩ := h
  refine .intro (tasks.update task change) fun id h_id => ?_
  have h_same := h_tasks id h_id
  change (tasks.update task change).find? id = (m.tasks.update task change).find? id
  rw [TaskTable.find?_update, TaskTable.find?_update, h_same]

theorem enrol (h : m.Agree ids n) (t : Task) : (m.enrol t).Agree ids (n.enrol t) := by
  obtain ⟨tasks, h_tasks⟩ := h
  -- whoever had this id before is replaced in both tables
  refine .intro (tasks.insert t) fun id h_id => ?_
  have h_same := h_tasks id h_id
  change (tasks.insert t).find? id = (m.tasks.insert t).find? id
  rw [TaskTable.find?_insert, TaskTable.find?_insert, h_same]

/-- The same in the turn of a task, whose stack is in focus. -/
def InTurn (own : UInt32) (ids : Set UInt32) (m n : Machine) : Prop :=
  m.focus = .task own ∧ m.Agree ids n

/-- **What a turn reads and writes.** Of all tasks, one in its turn reads none but itself. -/
theorem lockstep (h_own : own ∈ ids) : Lockstep own (InTurn own ids) where
  same_focus := fun ⟨_, .intro _ _⟩ => rfl
  same_stack := by
    rintro m _ ⟨h_focus, tasks, h_tasks⟩
    -- the stack in focus is that of the task itself
    have h_same := h_tasks own h_own
    unfold State.currentStack?
    dsimp only
    rw [h_focus]
    dsimp only
    rw [h_same]
  same_task := fun ⟨_, .intro _ h_tasks⟩ => h_tasks own h_own
  same_program := fun ⟨_, .intro _ _⟩ => rfl
  same_globals := fun ⟨_, .intro _ _⟩ => rfl
  same_highestTask := fun ⟨_, .intro _ _⟩ => rfl
  same_executed := fun ⟨_, .intro _ _⟩ => rfl
  emit := fun ⟨h_focus, .intro tasks h_tasks⟩ _ => ⟨h_focus, .intro tasks h_tasks⟩
  setStack := by
    rintro m n ⟨h_focus, h⟩ s
    have h_focus' : n.focus = .task own := by
      obtain ⟨tasks, -⟩ := h
      exact h_focus
    unfold Machine.setStack
    rw [h_focus, h_focus']
    exact ⟨h_focus, h.updateTask own _⟩
  updateTask := fun ⟨h_focus, h⟩ change => ⟨h_focus, h.updateTask own change⟩
  setGlobals := fun ⟨h_focus, .intro tasks h_tasks⟩ _ => ⟨h_focus, .intro tasks h_tasks⟩
  takeId := fun ⟨h_focus, .intro tasks h_tasks⟩ => ⟨h_focus, .intro tasks h_tasks⟩
  enrol := fun ⟨h_focus, h⟩ t => ⟨h_focus, h.enrol t⟩
  setLine := fun ⟨h_focus, .intro tasks h_tasks⟩ _ => ⟨h_focus, .intro tasks h_tasks⟩
  setExecuted := fun ⟨h_focus, .intro tasks h_tasks⟩ _ => ⟨h_focus, .intro tasks h_tasks⟩

theorem begin (h : m.Agree ids n) (own : UInt32) : (m.begin own).Agree ids (n.begin own) := by
  obtain ⟨tasks, h_tasks⟩ := h
  have h_inside : { m with focus := .task own, running := some own }.Agree ids
      { m with tasks, focus := .task own, running := some own } := ⟨tasks, h_tasks⟩
  exact h_inside.updateTask own _

/-- **Turns do not see other tasks.** -/
theorem slice (h : m.Agree ids n) (h_unbound : setting.Unbound) (h_own : own ∈ ids) :
    Option.Rel (Agree ids) (m.slice setting carryOut budget own)
      (n.slice setting carryOut budget own) := by
  have h_same : n.tasks.find? own = m.tasks.find? own := by
    obtain ⟨tasks, h_tasks⟩ := h
    exact h_tasks own h_own
  have h_focus : n.focus = m.focus ∧ n.running = m.running := by
    obtain ⟨tasks, h_tasks⟩ := h
    exact ⟨rfl, rfl⟩
  cases h_find : m.tasks.find? own with
  | none =>
    rw [slice_of_gone h_find, slice_of_gone (h_same.trans h_find)]
    exact .some h
  | some t =>
    rw [slice_of_find? h_find, slice_of_find? (h_same.trans h_find), h_focus.1, h_focus.2]
    have h_bodies : ∀ native ∈ setting.natives, ∀ body ∈ native.body, ∀ {m n},
        InTurn own ids m n → Option.Rel (InTurn own ids) (carryOut body m) (carryOut body n) := by
      -- there is no such body
      intro native h_native body h_body
      rw [h_unbound native h_native] at h_body
      contradiction
    have h_steps :=
      ((lockstep h_own).paced setting).steps h_bodies ⟨rfl, h.begin own⟩ t.inHandler budget
    refine rel_map h_steps ?_
    rintro ended _ ⟨-, tasks, h_tasks⟩
    exact ⟨tasks, h_tasks⟩

end Agree

/-! ### Ids that do not wrap around -/

/-- All ids were given away before, and those that are given away on the way do not wrap around. -/
structure Ample (m m' : Machine) : Prop where
  ids : m.IdsGiven
  room : m.highestTask.toNat + (m'.started - m.started) < UInt32.size

theorem Ample.split (h : Ample m m'') (h_first : Accounts m m') (h_second : Accounts m' m'') :
    Ample m m' ∧ Ample m' m'' := by
  have h_le := h_first.started_le
  have h_le' := h_second.started_le
  have h_room := h.room
  -- What the first part gave away is behind its highest id, so the second part begins with less
  -- room, but enough.
  obtain ⟨h_ids', h_highest, -⟩ := h_first.books h.ids (by omega)
  exact ⟨⟨h.ids, by omega⟩, h_ids', by omega⟩

/-- Whoever is changed keeps its id. -/
theorem Ample.updateTask (h : Ample m m') (task : UInt32) (change : Task → Task) :
    Ample (m.updateTask task change) m' where
  ids := h.ids.of_ids (m.tasks.ids_map _) (UInt32.le_refl _)
  room := h.room

/-! ### What a turn leaves alone -/

/-- A stretch of the turn of a task, which stays. Each of the others is as it was, or it is new. -/
structure Aside (own : UInt32) (m m' : Machine) : Prop where
  program : m'.program = m.program
  stays : m'.tasks.contains own
  highestTask_le : m.highestTask ≤ m'.highestTask
  others {id : UInt32} (h_other : id ≠ own) : m'.tasks.find? id = m.tasks.find? id ∨
    m.tasks.find? id = none ∧ m.highestTask < id ∧ id ≤ m'.highestTask ∧
      ∃ script ∈ m.program.scripts, ∃ s,
        m'.tasks.find? id = some { Task.start id script with stack := s }

namespace Aside

theorem refl (h_live : m.tasks.contains own) : Aside own m m where
  program := rfl
  stays := h_live
  highestTask_le := UInt32.le_refl _
  others _ := .inl rfl

theorem trans (h : Aside own m m') (h' : Aside own m' m'') : Aside own m m'' where
  program := h'.program.trans h.program
  stays := h'.stays
  highestTask_le := UInt32.le_trans h.highestTask_le h'.highestTask_le
  others {id} h_other := by
    have h_le := h.highestTask_le
    have h_le' := h'.highestTask_le
    rcases h.others h_other with h_same | ⟨h_none, h_lt, h_given, h_new⟩
    · -- nothing of this id until then, so whatever happens to it happens later
      rw [← h_same, ← h.program]
      exact (h'.others h_other).imp_right fun ⟨h_none, h_lt, h_rest⟩ =>
        ⟨h_none, UInt32.lt_of_le_of_lt h_le h_lt, h_rest⟩
    · right
      rcases h'.others h_other with h_same | ⟨-, h_lt', -⟩
      · rw [← h_same] at h_new
        exact ⟨h_none, h_lt, UInt32.le_trans h_given h_le', h_new⟩
      · -- ids are given away once
        exact absurd h_given (UInt32.not_le.2 h_lt')

/-- Something happens beside the tasks. -/
theorem of_eq (h_live : m.tasks.contains own) (h_program : m'.program = m.program)
    (h_tasks : m'.tasks = m.tasks) (h_highest : m'.highestTask = m.highestTask) :
    Aside own m m' where
  program := h_program
  stays := h_tasks ▸ h_live
  highestTask_le := UInt32.le_of_eq h_highest.symm
  others _ := .inl (by rw [h_tasks])

/-- The task itself may be changed in any way. -/
theorem updateTask (h : Aside own m m') (change : Task → Task) :
    Aside own m (m'.updateTask own change) where
  program := h.program
  stays := by
    change ((m'.tasks.update own change).find? own).isSome
    rw [TaskTable.find?_update_self, Option.isSome_map]
    exact h.stays
  highestTask_le := h.highestTask_le
  others {id} h_other := by
    have h_same : (m'.updateTask own change).tasks.find? id = m'.tasks.find? id :=
      TaskTable.find?_update_of_ne m'.tasks h_other change
    rw [h_same]
    exact h.others h_other

end Aside

theorem Confined.aside (h : Confined (some own) m m') (h_live : m.tasks.contains own) :
    Aside own m m' where
  program := h.program
  stays := TaskTable.contains_of_standing? (h.standing own) h_live
  highestTask_le := UInt32.le_of_eq h.highestTask.symm
  others h_other := .inl (h.others fun h_same => h_other (Option.some.inj h_same).symm)

/-- The next id is above all that were given away. -/
theorem Ample.next (h : Ample m m') (h_started : m'.started = m.started + 1) :
    m.highestTask < m.highestTask + 1 ∧ m.tasks.find? (m.highestTask + 1) = none := by
  have h_room := h.room
  have h_later : m.highestTask < m.highestTask + 1 := by
    rw [UInt32.lt_iff_toNat_lt, toNat_next (by omega)]
    exact Nat.lt_succ_self _
  exact ⟨h_later, fresh_of_idsGiven h.ids (by omega)⟩

theorem Began.aside {script : Script} (h : Began (some own) script m m')
    (h_script : script ∈ m.program.scripts) (h_live : m.tasks.contains own)
    (h_ample : Ample m m') : Aside own m m' := by
  obtain ⟨h_later, h_none⟩ := h_ample.next h.started
  -- the task whose turn it is does not replace itself
  have h_own : own ≠ m.highestTask + 1 := by
    rintro rfl
    rw [TaskTable.contains_eq_false_iff.2 h_none] at h_live
    contradiction
  have h_le : m.highestTask ≤ m'.highestTask := by
    rw [h.highestTask]
    exact UInt32.le_of_lt h_later
  refine ⟨h.program, TaskTable.contains_of_standing? (h.standing h_own) h_live, h_le,
    fun {id} h_other => ?_⟩
  -- Under the next id there is the new task, and under any other what was there before.
  by_cases h_new : id = m.highestTask + 1
  · subst h_new
    exact .inr ⟨h_none, h_later, UInt32.le_of_eq h.highestTask.symm, script, h_script, h.new⟩
  · exact .inl (h.others h_new fun h_same => h_other (Option.some.inj h_same).symm)

/-! ### Turns -/

theorem aside_start (script : UInt32) (h_live : m.tasks.contains own)
    (h_focus : m.focus = .task own) (h_ample : Ample m (m.start script).2) :
    Aside own m (m.start script).2 := by
  have h_start := starting_start m.focus.task? m script
  rcases h_start.extent with ⟨s, h_script, h_began⟩ | h_confined
  · -- parameters are taken off the stack in focus, that of the task itself
    rw [h_focus] at h_began
    exact h_began.aside h_script h_live h_ample
  · rw [h_focus] at h_confined
    exact h_confined.aside h_live

theorem aside_execute {i : Instruction} {flow : Flow} (h_live : m.tasks.contains own)
    (h_focus : m.focus = .task own) (h_ample : Ample m m')
    (h : execute setting noBody own i m = some (flow, m')) : Aside own m m' := by
  rcases execute_cases h with ⟨-, -, h_acts⟩ | ⟨h_finish | h_call, h_obey⟩
  · -- all but END and a call act on the task itself and on what is no task
    exact (h_acts.confined h_focus).aside h_live
  · rw [obey_finish setting h_finish] at h_obey
    cases h_obey
    exact (Aside.refl h_live).updateTask _
  · rw [obey_callScript setting h_call] at h_obey
    unfold callScript at h_obey
    dsimp only at h_obey
    split at h_obey
    · cases h_obey
      exact aside_start i.operand h_live h_focus h_ample
    · -- to wait is to be changed, and it is the task itself that waits
      cases h_obey
      have h_started : Ample m (m.start i.operand).2 := ⟨h_ample.ids, h_ample.room⟩
      exact (aside_start i.operand h_live h_focus h_started).updateTask _

theorem aside_advance {i : Instruction} (h_live : m.tasks.contains own)
    (h_focus : m.focus = .task own) (h_ample : Ample m m')
    (h : m.advance setting noBody own i = some m') : Aside own m m' := by
  unfold advance at h
  obtain ⟨⟨flow, m₁⟩, h_execute, h⟩ := Option.bind_eq_some_iff.1 h
  -- Counting the instruction touches no task.
  have h_count : Aside own m { m with executed := m.executed + 1 } := .of_eq h_live rfl rfl rfl
  have h_executed (h_ample : Ample m m₁) : Aside own m m₁ :=
    h_count.trans (aside_execute h_count.stays h_focus ⟨h_ample.ids, h_ample.room⟩ h_execute)
  cases flow with
  | next =>
    cases h
    exact (h_executed ⟨h_ample.ids, h_ample.room⟩).updateTask _
  | jumped | stay =>
    cases h
    exact h_executed h_ample

theorem aside_step {begunInHandler : Bool} {turn : Turn} (h_live : m.tasks.contains own)
    (h_focus : m.focus = .task own) (h_ample : Ample m turn.machine)
    (h : m.step setting noBody own begunInHandler = some turn) : Aside own m turn.machine := by
  unfold step at h
  split at h
  · -- the task is not there any more, or the turn is over: nothing has happened
    cases h
    exact .refl h_live
  · rename_i t h_find
    split at h
    · cases h
      exact .refl h_live
    · split at h
      · obtain ⟨m₁, h_advance, rfl⟩ := Option.map_eq_some_iff.1 h
        exact aside_advance h_live h_focus h_ample h_advance
      · cases h
        -- The code has ended without END: the host is told, and the task is stopped.
        have h_told : Aside own m (m.fault .invalidOperand t.name t.address) :=
          .of_eq h_live rfl rfl rfl
        exact h_told.updateTask _

/-- **A turn.** Along its steps the next id stays ahead of all tasks. -/
theorem aside_steps {begunInHandler : Bool} (h_setting : setting.Ordinary)
    (h_live : m.tasks.contains own) (h_focus : m.focus = .task own) (h_ample : Ample m m')
    (h : m.steps setting noBody own begunInHandler budget = some m') : Aside own m m' := by
  -- on the budget: that all ids are given away and that there is room for more is handed on
  induction budget generalizing m with
  | zero => contradiction
  | succ budget ih =>
    unfold steps at h
    split at h
    · contradiction
    · rename_i h_step
      cases h
      have h_ended : Ample m (Turn.ended m').machine := h_ample
      exact aside_step h_live h_focus h_ended h_step
    · rename_i m₁ h_step
      have h_first := runs_step h_setting carries_noBody h_step
      have h_rest := runs_steps h_setting carries_noBody h
      obtain ⟨h_ample₁, h_ample₂⟩ := h_ample.split h_first.accounts h_rest.accounts
      have h_aside : Aside own m m₁ := aside_step h_live h_focus h_ample₁ h_step
      exact h_aside.trans (ih h_aside.stays (h_first.focus_eq.1.trans h_focus) h_ample₂ h)

theorem aside_slice (h_unbound : setting.Unbound) (h_live : m.tasks.contains own)
    (h_ample : Ample m m') (h : m.slice setting carryOut budget own = some m') :
    Aside own m m' := by
  obtain ⟨t, h_find⟩ := TaskTable.contains_eq_true_iff.1 h_live
  rw [slice_of_find? h_find] at h
  obtain ⟨ended, h_steps, rfl⟩ := Option.map_eq_some_iff.1 h
  rw [steps_unbound carryOut h_unbound] at h_steps
  have h_begun : Aside own m (m.begin own) := (confined_begin m own).aside h_live
  have h_inside : Ample { m with focus := .task own, running := some own } ended :=
    ⟨h_ample.ids, h_ample.room⟩
  have h_steps' := aside_steps h_unbound.ordinary h_begun.stays rfl (h_inside.updateTask own _)
    h_steps
  have h_aside := h_begun.trans h_steps'
  -- what is left is to put the focus back
  exact ⟨h_aside.program, h_aside.stays, h_aside.highestTask_le, h_aside.others⟩

/-! ### Ticks -/

/-- A stretch of a run that leaves one task as it is. -/
structure Spares (t : Task) (m m' : Machine) : Prop where
  accounts : Accounts m m'
  kept (h_ample : Ample m m') (h_find : m.tasks.find? t.id = some t) :
    m'.tasks.find? t.id = some t

namespace Spares

theorem refl (m : Machine) : Spares t m m := ⟨.refl m, fun _ h_find => h_find⟩

theorem trans (h : Spares t m m') (h' : Spares t m' m'') : Spares t m m'' where
  accounts := h.accounts.trans h'.accounts
  kept h_ample h_find := by
    obtain ⟨h_first, h_second⟩ := h_ample.split h.accounts h'.accounts
    exact h'.kept h_second (h.kept h_first h_find)

end Spares

section

variable (h_unbound : setting.Unbound)

include h_unbound

theorem runs_turn {p : Pass} {u : Task}
    (h : p.turn setting noBody budget mask u m = some m') : Runs m m' := by
  cases p with
  | handlers => exact runs_handlerTurn h_unbound.ordinary carries_noBody h
  | normal => exact runs_normalTurn h_unbound.ordinary carries_noBody h

theorem aside_turn {p : Pass} {u : Task} (h_live : m.tasks.contains u.id) (h_ample : Ample m m')
    (h : p.turn setting carryOut budget mask u m = some m') : Aside u.id m m' := by
  rw [Pass.turn_eq] at h
  cases h_service : p.service mask u with
  | skip =>
    rw [h_service] at h
    cases h
    exact .refl h_live
  | serve =>
    rw [h_service] at h
    exact aside_slice h_unbound h_live h_ample h
  | divert address =>
    rw [h_service] at h
    have h_diverted : Aside u.id m (m.divert u.id address) :=
      (confined_divert m u.id address).aside h_live
    exact h_diverted.trans (aside_slice h_unbound h_diverted.stays (h_ample.updateTask u.id _) h)

/-- A task whose kind is not in the mask is neither served nor touched by who is. -/
theorem spares_turn {p : Pass} {u : Task} (h_served : m.tasks.find? u.id = some u)
    (h_mask : t.kind.overlaps mask = false)
    (h : p.turn setting noBody budget mask u m = some m') : Spares t m m' where
  accounts := (runs_turn h_unbound h).accounts
  kept h_ample h_find := by
    by_cases h_same : t.id = u.id
    · -- the pass comes to the task, and passes it by
      rw [← h_same, h_find] at h_served
      obtain rfl := Option.some.inj h_served
      rw [Pass.turn_eq, Pass.service_of_not_overlaps h_mask] at h
      cases h
      exact h_find
    · have h_live := TaskTable.contains_eq_true_iff.2 ⟨u, h_served⟩
      rcases (aside_turn h_unbound h_live h_ample h).others h_same with h_left | ⟨h_none, -⟩
      · exact h_left.trans h_find
      · rw [h_find] at h_none
        contradiction

theorem spares_pass {p : Pass} {cursor : Option UInt32} (h_mask : t.kind.overlaps mask = false)
    (h : m.pass (p.turn setting noBody budget mask) cursor = some m') : Spares t m m' :=
  pass_lift Spares.refl Spares.trans
    (fun h_served h_turn => spares_turn h_unbound h_served h_mask h_turn) h

/-- **A tick and those it leaves out.** Their turn does not come, and no time goes by for them. -/
theorem spares_tickWithin (h_mask : t.kind.overlaps mask = false) (h_runs : t.stopped = false)
    (h : tickWithin setting carryOut budget mask m = some m') : Spares t m m' := by
  obtain ⟨m₁, h_handlers, h⟩ := Option.bind_eq_some_iff.1 h
  obtain ⟨m₂, h_normal, h⟩ := Option.bind_eq_some_iff.1 h
  cases h
  change m.pass (Pass.handlers.turn setting carryOut budget mask) none = some m₁ at h_handlers
  change m₁.pass (Pass.normal.turn setting carryOut budget mask) none = some m₂ at h_normal
  rw [turn_unbound carryOut h_unbound] at h_handlers h_normal
  -- it is not stopped, so it stays at the end of the tick
  have h_settle : Spares t m₂ (m₂.settle mask) := by
    refine ⟨(runs_settle m₂ mask).accounts, fun _ h_find => ?_⟩
    rw [find?_settle_of_runs mask h_find h_runs, TaskTable.letGo_of_not_overlaps h_mask]
  have h_first : Spares t m m₁ := spares_pass h_unbound h_mask h_handlers
  exact (h_first.trans (spares_pass h_unbound h_mask h_normal)).trans h_settle

end

/-- **Tasks are isolated.** Let no native have a body, let all live tasks have ids that were given
away, and let ids not wrap around. Then the turn of a task leaves the others as they are and adds
new ones of scripts of the program, and its effect on the task itself, on the globals, the counters
and the log is the same in machines that differ in nothing but other tasks. So a tick leaves every
task as it is whose kind is not in the mask and which was not stopped before. -/
theorem isolated (h_unbound : setting.Unbound) (h_ids : m.IdsGiven) :
    (∀ (carryOut : Routine Unit → Machine → Option Machine) (budget : Nat) (own : UInt32),
      m.tasks.contains own →
        (∀ m', m.slice setting carryOut budget own = some m' →
          m.highestTask.toNat + (m'.started - m.started) < UInt32.size → Aside own m m') ∧
        ∀ (ids : Set UInt32) (n : Machine), own ∈ ids → m.Agree ids n →
          Option.Rel (Agree ids) (m.slice setting carryOut budget own)
            (n.slice setting carryOut budget own)) ∧
    ∀ (bound : Nat) (mask : ScriptKind) (m' : Machine), tick setting bound mask m = some m' →
      m.highestTask.toNat + (m'.started - m.started) < UInt32.size →
      ∀ t, m.tasks.find? t.id = some t → t.kind.overlaps mask = false → t.stopped = false →
        m'.tasks.find? t.id = some t := by
  refine ⟨fun carryOut budget own h_live => ⟨fun m' h h_room => ?_, fun ids n h_own h_agree => ?_⟩,
    fun bound mask m' h h_room t h_find h_mask h_runs => ?_⟩
  · exact aside_slice h_unbound h_live ⟨h_ids, h_room⟩ h
  · exact h_agree.slice h_unbound h_own
  · cases bound with
    | zero => contradiction
    | succ bound =>
      have h_spares : Spares t m m' := spares_tickWithin h_unbound h_mask h_runs h
      exact h_spares.kept ⟨h_ids, h_room⟩ h_find

end Machine

/-! ### Two tasks side by side -/

/-- A script that calls a native and starts the help script, which ends at once. -/
def helpingImage : Image :=
  { program := {
      code := [⟨.push, Mode.immediate, .int, 4, 0⟩, ⟨.callNative, 0, .untyped, 0, 0⟩,
        ⟨.callScript, Mode.async, .untyped, 2, 0⟩, ⟨.finish, 0, .untyped, 0, 0⟩]
      autostart := [1, 2]
      scripts := [⟨"Main", "", .script, 0, [], 0, 0, 1⟩, ⟨"Help", "", .help, 0, [], 3, 0, 2⟩] } }

def unboundSetting : Setting :=
  { natives := [⟨"probe", 1, 0, none⟩], tickLength := Setting.defaultTickLength }

def helpingMachine : Machine := Machine.load {} helpingImage

/-- The first task has had a turn. -/
def helpedMachine : Machine :=
  (helpingMachine.slice unboundSetting Machine.noBody 5 1).getD {}

/-- A tick has passed that leaves out the second task, and the one that it starts. -/
def helpedTickMachine : Machine := (Machine.tick unboundSetting 5 .script helpingMachine).getD {}

theorem unboundSetting_unbound : unboundSetting.Unbound := by
  intro native h_native
  obtain rfl := List.mem_singleton.1 h_native
  rfl

/-- The first task starts a third one. What becomes of it does not depend on the second one, which
is as it was after a turn of the first one, and after a tick that leaves it out. -/
theorem isolated_helping :
    helpingMachine.slice unboundSetting Machine.noBody 5 1 = some helpedMachine ∧
    helpedMachine.tasks.toList.map (·.id) = [1, 2, 3] ∧
    Machine.Aside 1 helpingMachine helpedMachine ∧
    (∃ n, (helpingMachine.updateTask 2 fun t => { t with ticks := 9 }).slice unboundSetting
        Machine.noBody 5 1 = some n ∧ helpedMachine.Agree {id | id ≠ 2} n) ∧
    ∃ t, helpingMachine.tasks.find? 2 = some t ∧ helpedTickMachine.tasks.find? 2 = some t := by
  have h_slice : helpingMachine.slice unboundSetting Machine.noBody 5 1 = some helpedMachine := by
    decide +kernel
  have h_tick : Machine.tick unboundSetting 5 .script helpingMachine = some helpedTickMachine := by
    decide +kernel
  have h_ids : helpingMachine.IdsGiven := by
    unfold State.IdsGiven
    decide +kernel
  have h_find : ∃ t, helpingMachine.tasks.find? 2 = some t ∧ t.id = 2 ∧
      t.kind.overlaps .script = false ∧ t.stopped = false :=
    ⟨Task.start 2 ⟨"Help", "", .help, 0, [], 3, 0, 2⟩, by decide +kernel⟩
  obtain ⟨h_turns, h_ticks⟩ := Machine.isolated unboundSetting_unbound h_ids
  obtain ⟨h_aside, h_same⟩ := h_turns Machine.noBody 5 1 (by decide +kernel)
  have h_agree : helpingMachine.Agree {id | id ≠ 2}
      (helpingMachine.updateTask 2 fun t => { t with ticks := 9 }) :=
    ⟨_, fun id h_id => TaskTable.find?_update_of_ne helpingMachine.tasks h_id _⟩
  have h_first : (1 : UInt32) ≠ 2 := by decide
  have h_rel := h_same {id | id ≠ 2} _ h_first h_agree
  refine ⟨h_slice, by decide +kernel, h_aside _ h_slice (by decide +kernel), ?_, ?_⟩
  · rw [h_slice] at h_rel
    generalize Machine.slice unboundSetting Machine.noBody 5 1 _ = ended at h_rel ⊢
    cases h_rel with
    | some h_ended => exact ⟨_, rfl, h_ended⟩
  · obtain ⟨t, h_t, h_id, h_mask, h_runs⟩ := h_find
    rw [← h_id] at h_t ⊢
    exact ⟨t, h_t, h_ticks 5 .script _ h_tick (by decide +kernel) t h_t h_mask h_runs⟩

end ScriptMachine
