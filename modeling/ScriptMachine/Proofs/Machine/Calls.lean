import ScriptMachine.Proofs.Machine.Instructions
import ScriptMachine.Proofs.Machine.Waiting

/-!
# Calls that wait

A call that is not asynchronous holds its caller until the task that it has started is gone
(`Machine.call_holds`). As long as it is held the caller does not execute anything, it is not
diverted to a handler, and but for the count of its ticks nothing about it changes. Only two things
put an end to that: a stop that selects the caller, or the end of the first tick for its kind that
finds the other task gone, which moves the caller past the call. And as ids are not given away
twice, it happens once.

The caller may well get turns while it is held, if it called in a handler; such a turn is over at
once (`Config.Held.step`).
-/

namespace ScriptMachine

variable {setting : Setting} {c c' : Config} {d : Deed} {scenes : List Scene} {first : Nat}
  {id : UInt32} {t : Task}

/-! ### Bystanders -/

/-- **A task that does nothing itself** stays as it is before the tick is over, or it is stopped. -/
theorem Config.Sound.bystander (h : c.Sound first) (h_step : Step setting c d c')
    (h_find : c.machine.tasks.find? id = some t) (h_actor : d.actor? ≠ some id)
    (h_settle : ∀ mask, d ≠ .settle mask) :
    c'.machine.tasks.find? id = some t ∨ (d.Selects t ∧ c'.machine.tasks.find? id = none) := by
  obtain rfl := TaskTable.id_of_find? h_find
  -- whether the task is still there decides which fates it can have met
  cases h_after : c'.machine.tasks.find? t.id with
  | none =>
    have h_fate := h.fate h_step h_find
    rw [h_after] at h_fate
    cases h_fate with
    | stopped h_selects => exact .inr ⟨h_selects, rfl⟩
    -- who has ended is removed at the end of a tick, and this is none
    | reaped h_deed _ => exact absurd h_deed (h_settle _)
  | some t' =>
    have h_fate := h.fate h_step h_find
    rw [h_after] at h_fate
    cases h_fate with
    | kept _ h_other => exact .inl (congrArg some (h_other h_actor))
    -- to wait and to end are a task's own doing, and to be released is the end of a tick
    | waits h_deed => exact absurd (h_deed ▸ rfl) h_actor
    | halts h_deed _ => exact absurd (Deed.actor?_of_halts h_deed) h_actor
    | settled h_deed _ => exact absurd h_deed (h_settle _)

/-! ### A task that is held -/

/-- A task is as it was but for the count of its ticks and the mark that it has yielded, and no
native is called in its turn. -/
structure Config.Held (c : Config) (t : Task) : Prop where
  live : ∃ ticks yielded, c.machine.tasks.find? t.id = some { t with ticks, yielded }
  stage {s : Stint} {function : UInt32} {rest : Routine Unit}
    (h : c.stage = .native s function rest) : s.task ≠ t.id

/-- In this deed the task executes an instruction or is diverted to a handler. -/
def Deed.Moves (d : Deed) (task : UInt32) : Prop :=
  match d with
  | .execute actor _ | .divert actor => actor = task
  | _ => False

/-- The task is past the call in which it waited. -/
def Task.released (t : Task) : Task := { t with waitingFor := 0, address := t.address + 1 }

theorem Deed.actor?_of_moves (h : d.Moves id) : d.actor? = some id := by
  cases d with
  | execute actor i | divert actor => exact congrArg some h
  | _ => exact h.elim

/-- The end of a tick lets go of a task that waits only if the other task is gone. -/
theorem settle_of_waiting {m : Machine} (h_live : m.tasks.find? id = some t)
    (h_waits : t.waitingFor ≠ 0) (h_runs : t.stopped = false) (mask : ScriptKind) :
    (∃ ticks, (m.settle mask).tasks.find? id = some { t with ticks } ∧
      (t.kind.overlaps mask → ∃ u, (m.settle mask).tasks.find? t.waitingFor = some u)) ∨
    t.kind.overlaps mask ∧ (m.settle mask).tasks.find? t.waitingFor = none ∧
      ∃ ticks, (m.settle mask).tasks.find? id = some { t.released with ticks } := by
  have h_settled := Machine.find?_settle_of_runs mask h_live h_runs
  -- only the kinds in the mask are looked at, and those are released that wait for nobody in the
  -- table
  cases h_mask : t.kind.overlaps mask with
  | false =>
    rw [TaskTable.letGo_of_not_overlaps h_mask] at h_settled
    exact .inl ⟨t.ticks, h_settled, nofun⟩
  | true =>
    cases h_callee : (m.settle mask).tasks.find? t.waitingFor with
    | some u =>
      have h_left := TaskTable.contains_eq_true_iff.2 ⟨u, h_callee⟩
      rw [TaskTable.letGo_of_left h_mask h_left] at h_settled
      exact .inl ⟨_, h_settled, fun _ => ⟨u, rfl⟩⟩
    | none =>
      have h_gone := TaskTable.contains_eq_false_iff.2 h_callee
      rw [TaskTable.letGo_of_gone h_mask h_waits h_gone] at h_settled
      exact .inr ⟨rfl, rfl, _, h_settled⟩

/-- Whom a stop selects depends on what a task is, and not on what it does. -/
theorem Deed.Selects.congr {u : Task} (h : d.Selects u) (h_id : u.id = t.id)
    (h_kind : u.kind = t.kind) (h_name : u.name = t.name) (h_file : u.file = t.file) :
    d.Selects t := by
  cases d with
  | ask caller q a =>
    have h_same : q.selects t = q.selects u := by
      unfold Request.selects
      cases q <;> simp only [h_id, h_kind, h_name, h_file]
    exact h_same.trans h
  | _ => exact h.elim

/-- What the task does itself comes to nothing: its turns are over when they begin. -/
theorem Config.Held.own_step (h : c.Held t) (h_waits : t.waitingFor ≠ 0)
    (h_step : Step setting c d c') (h_actor : d.actor? = some t.id) :
    c'.Held t ∧ ¬ d.Moves t.id := by
  obtain ⟨ticks, yielded, h_live⟩ := h.live
  cases h_step with
  | ask | tick | skip | nextPass | settle => contradiction
  | @serve m _ _ _ u h_next h_service =>
    -- its turn begins, and of that the mark that it has not yielded is all that is left
    have h_id : u.id = t.id := Option.some.inj h_actor
    refine ⟨⟨⟨ticks, false, ?_⟩, nofun⟩, id⟩
    rw [h_id]
    refine (TaskTable.find?_update_self m.tasks t.id _).trans ?_
    rw [h_live]
    rfl
  | @divert _ _ _ _ u _ h_next h_service =>
    have h_id : u.id = t.id := Option.some.inj h_actor
    have h_find := TaskTable.find?_of_after? h_next
    rw [h_id, h_live] at h_find
    obtain rfl := Option.some.inj h_find
    -- a task that waits is not diverted
    exact absurd (Pass.service_eq_divert_iff.1 h_service).2.2.2.1 h_waits
  | @execute _ _ s _ _ h_find h_goes | @enter _ s _ _ _ _ h_find h_goes
  | @overrun _ s _ h_find h_goes =>
    have h_id : s.task = t.id := Option.some.inj h_actor
    rw [h_id, h_live] at h_find
    obtain rfl := Option.some.inj h_find
    exact absurd (Machine.turnEnds_eq_false_iff.1 h_goes).2.2.1 h_waits
  -- there is no native that it has called
  | request | leave => exact absurd (Option.some.inj h_actor) (h.stage rfl)
  | close => exact ⟨⟨⟨ticks, yielded, h_live⟩, nofun⟩, id⟩

/-- **What holds and what does not.** A task that waits stays held in a step; or it is stopped; or
the step is the end of a tick for its kind, the task that it waits for is gone, and so it is
released. -/
theorem Config.Held.step (h : c.Held t) (h_waits : t.waitingFor ≠ 0) (h_runs : t.stopped = false)
    (h_sound : c.Sound first) (h_step : Step setting c d c') :
    (c'.Held t ∧ ¬ d.Moves t.id ∧ ∀ mask, d = .settle mask → t.kind.overlaps mask →
      ∃ u, c'.machine.tasks.find? t.waitingFor = some u) ∨
    (d.Selects t ∧ c'.machine.tasks.find? t.id = none) ∨
    ∃ mask, d = .settle mask ∧ t.kind.overlaps mask ∧
      c'.machine.tasks.find? t.waitingFor = none ∧
      ∃ ticks yielded, c'.machine.tasks.find? t.id = some { t.released with ticks, yielded } := by
  obtain ⟨ticks, yielded, h_live⟩ := h.live
  by_cases h_settle : ∃ mask, d = .settle mask
  · -- the end of a tick is the one step that may release it
    obtain ⟨mask, rfl⟩ := h_settle
    cases h_step with
    | settle h_none =>
      rcases settle_of_waiting h_live h_waits h_runs mask with ⟨ticks, h_live', h_left⟩ |
        ⟨h_mask, h_gone, ticks, h_released⟩
      · refine .inl ⟨⟨⟨ticks, yielded, h_live'⟩, nofun⟩, id, fun mask h_deed => ?_⟩
        obtain rfl := Deed.settle.inj h_deed
        exact h_left
      · exact .inr (.inr ⟨mask, rfl, h_mask, h_gone, ticks, yielded, h_released⟩)
  · have h_other (mask : ScriptKind) : d ≠ .settle mask := fun h_deed => h_settle ⟨mask, h_deed⟩
    -- any other step is its own, which comes to nothing, or somebody else's
    by_cases h_actor : d.actor? = some t.id
    · obtain ⟨h_held, h_moves⟩ := h.own_step h_waits h_step h_actor
      exact .inl ⟨h_held, h_moves, fun mask h_deed => absurd h_deed (h_other mask)⟩
    · rcases h_sound.bystander h_step h_live h_actor h_other with h_live' | h_stopped
      · refine .inl ⟨⟨⟨ticks, yielded, h_live'⟩, fun h_native h_same => h_actor ?_⟩,
          fun h_moves => h_actor (Deed.actor?_of_moves h_moves),
          fun mask h_deed => absurd h_deed (h_other mask)⟩
        exact h_same ▸ h_step.actor?_of_stint (h_native ▸ rfl)
      · exact .inr (.inl ⟨h_stopped.1.congr rfl rfl rfl rfl, h_stopped.2⟩)

/-- The step ends a wait: the task is stopped, or it is released since the other one is gone. -/
def Scene.Frees (scene : Scene) (t : Task) : Prop :=
  (scene.deed.Selects t ∧ scene.after.machine.tasks.find? t.id = none) ∨
    ∃ mask, scene.deed = .settle mask ∧ t.kind.overlaps mask ∧
      scene.after.machine.tasks.find? t.waitingFor = none ∧
      ∃ ticks yielded, scene.after.machine.tasks.find? t.id =
        some { t.released with ticks, yielded }

/-- **A wait from its beginning to its end.** The course has a first part in which the task is held,
and if there is more of it, the next step frees the task. -/
theorem Course.held (h : Course setting c scenes c') (h_held : c.Held t)
    (h_waits : t.waitingFor ≠ 0) (h_runs : t.stopped = false) (h_sound : c.Sound first)
    (h_room : c'.machine.started - first < UInt32.size) :
    ∃ held rest, scenes = held ++ rest ∧
      (∀ s ∈ held, s.after.Held t ∧ ¬ s.deed.Moves t.id ∧
        ∀ mask, s.deed = .settle mask → t.kind.overlaps mask →
          ∃ u, s.after.machine.tasks.find? t.waitingFor = some u) ∧
      (rest = [] ∨ ∃ scene later, rest = scene :: later ∧ scene.Frees t) :=
  h.lasts (P := (·.Held t)) (fun h_step h_sound _ h_held =>
    h_held.step h_waits h_runs h_sound h_step) h_sound h_room h_held

/-- A wait for a task that was started before does not begin. -/
theorem Config.Sound.not_waits (h : c.Sound first) (h_step : Step setting c d c')
    (h_room : c'.machine.started - first < UInt32.size) {callee : UInt32} (h_zero : callee ≠ 0)
    (h_given : callee ≤ c.machine.highestTask)
    (h_not : ∀ t, c.machine.tasks.find? id = some t → t.waitingFor ≠ callee) :
    ∀ t, c'.machine.tasks.find? id = some t → t.waitingFor ≠ callee := by
  intro t' h_find'
  cases h_find : c.machine.tasks.find? id with
  | none =>
    obtain ⟨-, -, script, s, rfl⟩ := (h.arrival h_step).eq_start h_find h_find'
    exact h_zero.symm
  | some t =>
    intro h_same
    rcases h.waits_cases h_step h_find h_find' (h_same ▸ h_zero) with h_eq | ⟨-, h_eq, -, h_started⟩
    · exact h_not t h_find (h_eq ▸ h_same)
    · -- the new wait is for a later task
      have h_next := h.counted.next h_started h_room
      rw [← h_same, h_eq, UInt32.le_iff_toNat_le, h_next] at h_given
      omega

theorem Course.not_waits (h : Course setting c scenes c') (h_sound : c.Sound first)
    (h_room : c'.machine.started - first < UInt32.size) {callee : UInt32} (h_zero : callee ≠ 0)
    (h_given : callee ≤ c.machine.highestTask)
    (h_not : ∀ t, c.machine.tasks.find? id = some t → t.waitingFor ≠ callee) :
    ∀ s ∈ scenes, ∀ t, s.after.machine.tasks.find? id = some t → t.waitingFor ≠ callee := by
  intro s h_s
  obtain ⟨past, future, rfl⟩ := List.append_of_mem h_s
  -- that the id was given away is what keeps a new wait from being for it
  have h_keeps {c₁ c₂ : Config} {d : Deed} (h_step : Step setting c₁ d c₂) (h : c₁.Sound first)
      (h_room : c₂.machine.started - first < UInt32.size)
      (h_c : callee ≤ c₁.machine.highestTask ∧
        ∀ t, c₁.machine.tasks.find? id = some t → t.waitingFor ≠ callee) :
      callee ≤ c₂.machine.highestTask ∧
        ∀ t, c₂.machine.tasks.find? id = some t → t.waitingFor ≠ callee :=
    ⟨UInt32.le_trans h_c.1 ((h.arrival h_step).highestTask_le h.counted h_room),
      h.not_waits h_step h_room h_zero h_c.1 h_c.2⟩
  -- so it is an invariant, and the scene is one place of the course
  obtain ⟨-, -, -, -, h_after⟩ := h.invariant_at h_keeps h_sound h_room ⟨h_given, h_not⟩
  exact h_after

/-! ### Calls -/

/-- A call that succeeds and is not asynchronous leaves its caller held. -/
theorem Config.Sound.held_of_call {task : UInt32} {call : Instruction} {callee : UInt32}
    (h : c.Sound first) (h_step : Step setting c (.execute task call) c')
    (h_call : call.opcode = .callScript) (h_mode : call.mode ≠ Mode.async)
    (h_start : (c.machine.start call.operand).1 = callee) (h_callee : callee ≠ 0) :
    ∃ t s, c.machine.tasks.find? task = some t ∧ t.stopped = false ∧
      c'.machine.tasks.find? task = some { t with stack := s, waitingFor := callee } ∧
      c'.Held { t with stack := s, waitingFor := callee } := by
  cases h_step with
  | @execute m m' st t _ h_find h_goes _ h_advance =>
    -- the turn goes on, so the caller has not ended
    have h_runs : t.stopped = false := (Machine.turnEnds_eq_false_iff.1 h_goes).1
    obtain ⟨h_next, -⟩ := (Machine.starting_start none m call.operand).given (h_start ▸ h_callee)
    obtain rfl : callee = m.highestTask + 1 := h_start.symm.trans h_next
    -- of what an instruction can come to only the call that waits is left
    cases h.advanced h_find h_advance with
    | acted _ h_refused _ => exact absurd (h_start ▸ h_refused h_call) h_callee
    | began _ h_goes _ => exact absurd h_goes (not_or_intro h_mode h_callee)
    | @called m₁ _ _ _ _ h_caller =>
      obtain ⟨s, h_kept⟩ := h_caller t h_find
      -- the caller as the start has left it, with the wait written down
      have h_waits : (m₁.updateTask st.task fun t =>
          { t with waitingFor := m.highestTask + 1 }).tasks.find? st.task =
            some { t with stack := s, waitingFor := m.highestTask + 1 } := by
        refine (TaskTable.find?_update_self m₁.tasks st.task _).trans ?_
        rw [h_kept]
        rfl
      have h_id := TaskTable.id_of_find? h_find
      refine ⟨t, s, h_find, h_runs, h_waits, ⟨t.ticks, t.yielded, ?_⟩, nofun⟩
      rw [← h_waits, ← h_id]
    | finished h_finish _ =>
      rw [h_call] at h_finish
      contradiction
  | enter _ _ _ h_opcode _ _ =>
    rw [h_opcode] at h_call
    contradiction

/-- **A call holds its caller until the task that it has started is gone.** Let a program be loaded,
by a host with natives that run no ticks, and let a call that is not asynchronous start a task. The
caller waits where it is. Whatever is done then, there is a first part of it in which the caller
executes nothing, is not diverted to a handler and but for the count of its ticks and the mark that
it has yielded stays as it is; and no tick for its kind ends in that part without the other task
being there. If there is more, the caller is stopped next, or a tick for its kind ends and finds the
other task gone, whereupon the caller is past the call and waits for nobody. For this task it never
waits again. -/
theorem Machine.call_holds (h_setting : setting.Immediate) (m₀ : Machine) (i : Image) :
    TakesCourses setting m₀ i ∧
    ∀ {past future : List Scene} {c c₁ c₂ : Config} {task callee : UInt32} {call : Instruction},
      Course setting ⟨m₀.beginning i, .idle⟩ past c → Step setting c (.execute task call) c₁ →
      call.opcode = .callScript → call.mode ≠ Mode.async →
      (c.machine.start call.operand).1 = callee → callee ≠ 0 →
      Course setting c₁ future c₂ → c₂.machine.started - m₀.started < UInt32.size →
      ∃ t t₁ s, c.machine.tasks.find? task = some t ∧ c₁.machine.tasks.find? task = some t₁ ∧
        t₁ = { t with stack := s, waitingFor := callee } ∧
        (∃ u, c₁.machine.tasks.find? callee = some u) ∧
        ∃ held rest, future = held ++ rest ∧
          (∀ scene ∈ held,
            (∃ ticks yielded,
              scene.after.machine.tasks.find? task = some { t₁ with ticks, yielded }) ∧
            (∀ i, scene.deed ≠ .execute task i) ∧ scene.deed ≠ .divert task ∧
            ∀ mask, scene.deed = .settle mask → t.kind.overlaps mask →
              ∃ u, scene.after.machine.tasks.find? callee = some u) ∧
          (rest = [] ∨ ∃ scene later, rest = scene :: later ∧
            ((scene.deed.Selects t ∧ scene.after.machine.tasks.find? task = none) ∨
              ∃ mask, scene.deed = .settle mask ∧ t.kind.overlaps mask ∧
                scene.after.machine.tasks.find? callee = none ∧
                ∃ ticks yielded, scene.after.machine.tasks.find? task =
                  some { t₁ with waitingFor := 0, address := t.address + 1, ticks, yielded }) ∧
            ∀ scene ∈ later, ∀ u, scene.after.machine.tasks.find? task = some u →
              u.waitingFor ≠ callee) := by
  refine ⟨takesCourses h_setting m₀ i, ?_⟩
  intro past future c c₁ c₂ task callee call h_past h_step h_call h_mode h_start h_callee h_future
    h_room
  -- the whole course is sound, so it is at the call and after it
  have h_course := h_past.append (.cons h_step h_future)
  obtain ⟨h_sound, h_sound₁⟩ := h_course.sound_at (Config.sound_beginning m₀ i) h_room
  obtain ⟨t, s, h_find, h_runs, h_waits, h_held⟩ :=
    h_sound.held_of_call h_step h_call h_mode h_start h_callee
  obtain rfl := TaskTable.id_of_find? h_find
  obtain ⟨-, u, h_live⟩ := h_sound.starts h_step ⟨h_callee, h_call, h_start⟩
  -- from the call on the caller is held, and the part in which it is has an end or lasts
  obtain ⟨held, rest, h_scenes, h_holds, h_end⟩ :=
    h_future.held h_held h_callee h_runs h_sound₁ h_room
  refine ⟨t, _, s, h_find, h_waits, rfl, ⟨u, h_live⟩, held, rest, h_scenes,
    fun scene h_scene => ?_, h_end.imp_right ?_⟩
  · obtain ⟨h_still, h_moves, h_left⟩ := h_holds scene h_scene
    refine ⟨h_still.live, fun i h_deed => h_moves ?_, fun h_deed => h_moves ?_, h_left⟩
    · rw [h_deed]
      rfl
    · rw [h_deed]
      rfl
  · rintro ⟨scene, later, rfl, h_frees⟩
    refine ⟨scene, later, rfl, h_frees.imp_left fun h =>
      ⟨h.1.congr rfl rfl rfl rfl, h.2⟩, ?_⟩
    subst h_scenes
    obtain ⟨h_before, h_last, h_later⟩ := h_future.at_scene
    obtain ⟨-, h_sound₂⟩ := h_future.sound_at h_sound₁ h_room
    have h_le := h_later.started_le
    -- the id of the other task was given away before
    have h_given := UInt32.le_trans (h_sound₁.counted.given h_live).2
      ((h_before.append (.cons h_last (.nil _))).highestTask_le h_sound₁ (by omega))
    -- and nobody waits anew for an id that is not the last one
    refine h_later.not_waits h_sound₂ h_room h_callee h_given fun u h_u => ?_
    rcases h_frees with ⟨-, h_gone⟩ | ⟨mask, -, -, -, ticks, yielded, h_released⟩
    · exact nomatch h_gone.symm.trans h_u
    · obtain rfl := Option.some.inj (h_released.symm.trans h_u)
      exact h_callee.symm

/-- The call is over when the tick is, and until then the caller has done nothing. -/
theorem call_holds_calling :
    ∃ held scene later, Course plainSetting ⟨calledMachine, .turn ⟨.normal, .all, 1, false⟩⟩
        (held ++ scene :: later) ⟨returnedMachine, .idle⟩ ∧
      (∀ s ∈ held, (∀ i, s.deed ≠ .execute 1 i) ∧ s.deed ≠ .divert 1 ∧ ∃ ticks yielded,
        s.after.machine.tasks.find? 1 =
          some { Task.start 1 callingScript with waitingFor := 2, ticks, yielded }) ∧
      (scene.after.machine.tasks.find? 1 = none ∨ ∃ ticks yielded,
        scene.after.machine.tasks.find? 1 =
          some { Task.start 1 callingScript with address := 1, ticks, yielded }) := by
  obtain ⟨-, h_holds⟩ := Machine.call_holds plainSetting_immediate {} callingImage
  obtain ⟨past, h_past⟩ := reaches_calling
  obtain ⟨future, h_future⟩ := reaches_ended
  have h_whole := h_future.append (.cons step_returned (.nil _))
  obtain ⟨t, t₁, s, h_find, h_find₁, -, -, held, rest, h_scenes, h_held, h_end⟩ :=
    h_holds h_past step_called rfl (by decide) rfl (by decide +kernel) h_whole (by decide +kernel)
  have h_t : t = Task.start 1 callingScript := by
    refine Option.some.inj (h_find.symm.trans ?_)
    decide +kernel
  have h_t₁ : t₁ = { Task.start 1 callingScript with waitingFor := 2 } := by
    refine Option.some.inj (h_find₁.symm.trans ?_)
    decide +kernel
  subst h_t h_t₁
  rcases h_end with rfl | ⟨scene, later, rfl, h_frees, -⟩
  · -- the tick would be over with the caller held, and yet the other task is gone
    rw [List.append_nil] at h_scenes
    have h_last : (⟨⟨endedMachine.rest, .pass .normal .all (some 2)⟩, .settle .all,
        ⟨returnedMachine, .idle⟩⟩ : Scene) ∈ held := by
      rw [← h_scenes]
      simp
    obtain ⟨-, -, -, h_left⟩ := h_held _ h_last
    obtain ⟨u, h_u⟩ := h_left .all rfl (by decide)
    have h_gone : returnedMachine.tasks.find? (callingMachine.start 2).1 = none := by
      decide +kernel
    exact nomatch h_gone.symm.trans h_u
  · rw [h_scenes] at h_whole
    refine ⟨held, scene, later, h_whole, fun s h_s => ?_, ?_⟩
    · obtain ⟨h_same, h_still, h_stays, -⟩ := h_held s h_s
      exact ⟨h_still, h_stays, h_same⟩
    · rcases h_frees with ⟨-, h_stopped⟩ | ⟨-, -, -, -, h_released⟩
      · exact .inl h_stopped
      · exact .inr h_released

end ScriptMachine
