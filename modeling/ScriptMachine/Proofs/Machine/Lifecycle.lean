import ScriptMachine.Proofs.Machine.Fate

/-!
# The life of a task

A task lives from its start to the one moment at which it leaves the table, and the host hears of
that moment exactly once. `Machine.lifecycle` says so for every id that is ever given away, and it
says what the cause was: a stop that selected the task, or the end of a tick after the task came to
the end of its script or ran out of the code. Nothing else marks a task, so no fault ever ends one.

What a single step tells of the end of tasks is `Told`. A course is looked at from where it begins:
a task that is live, or whose id was not yet given away, either stays that way, or there is a scene
in which it leaves (`Course.departure`); and who is gone stays gone (`Course.gone`).
-/

namespace ScriptMachine

/-! ### What is told in a step -/

/-- The farewell of a task is told, and its end at no other place. -/
def Parting (t : Task) (es : List Event) : Prop :=
  ∃ before after, es = before ++ (t.farewell ++ after) ∧
    .taskStopped t.id ∉ before ∧ .taskStopped t.id ∉ after

theorem taskStopped_mem_farewell {t : Task} {id : UInt32} :
    .taskStopped id ∈ t.farewell ↔ id = t.id := by
  unfold Task.farewell
  simp

theorem taskStopped_notMem_farewells {tasks : List Task} {id : UInt32}
    (h : ∀ t ∈ tasks, t.id ≠ id) : .taskStopped id ∉ tasks.flatMap Task.farewell := by
  intro h_mem
  obtain ⟨t, h_t, h_told⟩ := List.mem_flatMap.1 h_mem
  exact h t h_t (taskStopped_mem_farewell.1 h_told).symm

/-- Each of the tasks that are stopped together has its own farewell. -/
theorem parting_farewells {table : TaskTable} {t : Task} (h : table.find? t.id = some t) :
    Parting t (table.toList.flatMap Task.farewell) := by
  obtain ⟨before, after, h_list, h_erase, -⟩ := TaskTable.exists_split h
  -- all others in the table have other ids, so no other farewell speaks of this task
  have h_other (u : Task) (h_u : u ∈ before ++ after) : u.id ≠ t.id := by
    rw [← h_erase] at h_u
    simpa using (List.mem_filter.1 h_u).2
  refine ⟨before.flatMap Task.farewell, after.flatMap Task.farewell, ?_, ?_, ?_⟩
  · rw [h_list, List.flatMap_append, List.flatMap_cons]
  · exact taskStopped_notMem_farewells fun u h_u => h_other u (List.mem_append_left _ h_u)
  · exact taskStopped_notMem_farewells fun u h_u => h_other u (List.mem_append_right _ h_u)

namespace Parting

variable {t : Task} {es es' : List Event}

theorem append_right (h : Parting t es) (h_silent : .taskStopped t.id ∉ es') :
    Parting t (es ++ es') := by
  obtain ⟨before, after, rfl, h_before, h_after⟩ := h
  refine ⟨before, after ++ es', by simp only [List.append_assoc], h_before, fun h_mem => ?_⟩
  exact (List.mem_append.1 h_mem).elim h_after h_silent

theorem append_left (h : Parting t es) (h_silent : .taskStopped t.id ∉ es') :
    Parting t (es' ++ es) := by
  obtain ⟨before, after, rfl, h_before, h_after⟩ := h
  refine ⟨es' ++ before, after, by simp only [List.append_assoc], fun h_mem => ?_, h_after⟩
  exact (List.mem_append.1 h_mem).elim h_silent h_before

end Parting

namespace Machine

/-- What is told between two states of the table. -/
structure Told (m m' : Machine) (es : List Event) : Prop where
  log : m'.log.toList = m.log.toList ++ es
  parting {id : UInt32} {t : Task} (h : m.tasks.find? id = some t)
    (h_gone : m'.tasks.find? id = none) : Parting t es
  silent {id : UInt32} (h : m.tasks.find? id = none ∨ m'.tasks.find? id ≠ none) :
    .taskStopped id ∉ es

variable {m m' : Machine} {d : Deed}

/-- Nobody leaves, and of nobody it is told. -/
theorem told_of_live (h_log : ∃ es, m'.log.toList = m.log.toList ++ es ∧ ∀ id, .taskStopped id ∉ es)
    (h_live : ∀ id, m'.tasks.find? id = none → m.tasks.find? id = none) :
    ∃ es, Told m m' es := by
  obtain ⟨es, h_log, h_silent⟩ := h_log
  refine ⟨es, h_log, fun h_find h_gone => ?_, fun {id} _ => h_silent id⟩
  rw [h_live _ h_gone] at h_find
  contradiction

theorem told_stopWhere (m : Machine) (selected : Task → Bool) :
    ∃ es, Told m (m.stopWhere selected) es := by
  have h_left (id : UInt32) := find?_stopWhere m selected id
  rw [stopWhere_eq] at h_left ⊢
  refine ⟨_, Array.toList_append, fun {id t} h_find h_gone => ?_, fun {id} h => ?_⟩
  · -- who is gone was selected, and the farewells of the selected are what is told
    rw [h_left, h_find] at h_gone
    have h_selected : selected t := by simpa using h_gone
    obtain rfl := TaskTable.id_of_find? h_find
    have h_stopped : (m.tasks.filter selected).find? t.id = some t := by
      rw [TaskTable.find?_filter, h_find, Option.filter_some, if_pos h_selected]
    exact parting_farewells h_stopped
  · refine taskStopped_notMem_farewells fun t h_t h_id => ?_
    -- a task that is stopped was live, and is not any more
    obtain ⟨h_mem, h_selected⟩ := List.mem_filter.1 h_t
    have h_find := TaskTable.find?_eq_some_iff.2 ⟨h_mem, h_id⟩
    rw [h_left, h_find, Option.filter_some, h_selected] at h
    simp at h

/-- **What a step tells of the end of tasks.** -/
theorem Outcome.told (h : m.Outcome d m') (h_fresh : m.tasks.find? (m.highestTask + 1) = none) :
    ∃ es, Told m m' es := by
  have h_update {m₁ : Machine} {task : UInt32} {change : Task → Task} {id : UInt32}
      (h_gone : (m₁.updateTask task change).tasks.find? id = none) : m₁.tasks.find? id = none := by
    unfold updateTask at h_gone
    rw [TaskTable.find?_update] at h_gone
    exact Option.map_eq_none_iff.1 h_gone
  have h_confined {own : Option UInt32} {m₁ : Machine} (h : Confined own m m₁) (id : UInt32)
      (h_gone : m₁.tasks.find? id = none) : m.tasks.find? id = none :=
    find?_eq_none_of_standing? (h.standing id).symm h_gone
  -- a start replaces whoever has the next id, but nobody has
  have h_began {own : Option UInt32} {script : Script} {m₁ : Machine} (h : Began own script m m₁)
      (id : UInt32) (h_gone : m₁.tasks.find? id = none) : m.tasks.find? id = none := by
    by_cases h_id : id = m.highestTask + 1
    · rw [h_id]
      exact h_fresh
    · exact find?_eq_none_of_standing? (h.standing h_id).symm h_gone
  -- only the two outcomes that remove tasks tell of an end; the others leave all ids in the table
  cases h with
  | quiet h => exact told_of_live h.log (h_confined h)
  | began h => exact told_of_live h.log (h_began h)
  | called _ _ _ h _ => exact told_of_live h.log fun id h_gone => h_began h id (h_update h_gone)
  | finished _ h | overran h =>
    exact told_of_live h.log fun id h_gone => h_confined h id (h_update h_gone)
  | stopped => exact told_stopWhere m _
  | settled mask =>
    obtain ⟨es, h_log, h_parting, h_silent⟩ := told_stopWhere m (·.stopped)
    -- releasing removes nobody, so the end of a tick tells what its stop tells
    have h_gone {id : UInt32} : (m.settle mask).tasks.find? id = none ↔
        (m.stopWhere (·.stopped)).tasks.find? id = none := by
      rw [find?_settle, find?_stopWhere, Option.map_eq_none_iff]
    refine ⟨es, ?_, fun h_find h => h_parting h_find (h_gone.1 h), fun h => h_silent ?_⟩
    · rw [settle_eq]
      exact h_log
    · exact h.imp_right fun h_there => h_there ∘ h_gone.2

end Machine

theorem Config.Sound.told {setting : Setting} {c c' : Config} {d : Deed} {first : Nat}
    (h : c.Sound first) (h_step : Step setting c d c') :
    ∃ es, Machine.Told c.machine c'.machine es :=
  (h_step.outcome h.focused h.counted.fresh).told h.counted.fresh

/-! ### What is told in a course -/

variable {setting : Setting} {c c' : Config} {scenes : List Scene} {first : Nat} {id : UInt32}

/-- Ids are not taken back. -/
theorem Machine.Arrival.highestTask_le {m m' : Machine} (h : Arrival m m') (h_m : m.Counted first)
    (h_room : m'.started - first < UInt32.size) : m.highestTask ≤ m'.highestTask := by
  cases h with
  | nobody h_highest _ _ => exact UInt32.le_of_eq h_highest.symm
  | somebody h_highest h_started _ _ =>
    rw [h_highest, UInt32.le_iff_toNat_le, h_m.next h_started h_room]
    exact Nat.le_succ _

/-- An id that was given away is not given to another task. -/
theorem Machine.Arrival.absent {m m' : Machine} (h : Arrival m m') (h_m : m.Counted first)
    (h_room : m'.started - first < UInt32.size) (h_given : id ≤ m.highestTask)
    (h_gone : m.tasks.find? id = none) : m'.tasks.find? id = none := by
  cases h with
  | nobody _ _ h_absent => exact h_absent id h_gone
  | somebody _ h_started _ h_absent =>
    refine h_absent id (fun h_new => ?_) h_gone
    rw [UInt32.le_iff_toNat_le, h_new, h_m.next h_started h_room] at h_given
    omega

/-- **Who is gone stays gone,** and is not spoken of again. -/
theorem Course.gone (h : Course setting c scenes c') (h_sound : c.Sound first)
    (h_room : c'.machine.started - first < UInt32.size) (h_given : id ≤ c.machine.highestTask)
    (h_gone : c.machine.tasks.find? id = none) :
    (∀ s ∈ scenes, s.after.machine.tasks.find? id = none) ∧ c'.machine.tasks.find? id = none ∧
      ∃ es, c'.machine.log.toList = c.machine.log.toList ++ es ∧ .taskStopped id ∉ es := by
  -- along the course: no step gives the id away again, and none speaks of it
  induction h with
  | nil => exact ⟨List.forall_mem_nil _, h_gone, [], (List.append_nil _).symm, List.not_mem_nil⟩
  | @cons c c₁ c' d scenes h_step h_rest ih =>
    have h_le := h_rest.started_le
    have h_room₁ : c₁.machine.started - first < UInt32.size := by omega
    have h_arrival := h_sound.arrival h_step
    have h_gone₁ := h_arrival.absent h_sound.counted h_room₁ h_given h_gone
    obtain ⟨es₁, h_told⟩ := h_sound.told h_step
    obtain ⟨h_after, h_end, es₂, h_log, h_silent⟩ := ih (h_sound.step h_step h_room₁) h_room
      (UInt32.le_trans h_given (h_arrival.highestTask_le h_sound.counted h_room₁)) h_gone₁
    refine ⟨List.forall_mem_cons.2 ⟨h_gone₁, h_after⟩, h_end, es₁ ++ es₂, ?_, ?_⟩
    · rw [h_log, h_told.log, List.append_assoc]
    · exact fun h_mem => (List.mem_append.1 h_mem).elim (h_told.silent (.inl h_gone)) h_silent

/-- In this scene a task leaves the table: it was selected to be stopped, or it had ended before and
the tick is over. -/
structure Scene.Parts (scene : Scene) (t : Task) : Prop where
  live : scene.before.machine.tasks.find? t.id = some t
  gone : scene.after.machine.tasks.find? t.id = none
  cause : scene.deed.Selects t ∨ t.stopped ∧ ∃ mask, scene.deed = .settle mask

theorem Config.Sound.parts {d : Deed} (h : c.Sound first) (h_step : Step setting c d c') {t : Task}
    (h_live : c.machine.tasks.find? t.id = some t) (h_gone : c'.machine.tasks.find? t.id = none) :
    Scene.Parts ⟨c, d, c'⟩ t := by
  refine ⟨h_live, h_gone, ?_⟩
  have h_fate := h.fate h_step h_live
  rw [h_gone] at h_fate
  cases h_fate with
  | stopped h_selects => exact .inl h_selects
  | reaped h_deed h_stopped => exact .inr ⟨h_stopped, _, h_deed⟩

/-- The task is live, or it has still to be started. -/
def Config.Pending (c : Config) (id : UInt32) : Prop :=
  (∃ t, c.machine.tasks.find? id = some t) ∨ c.machine.highestTask < id

/-- A step leaves a task pending, or the task leaves in it. -/
theorem Config.Sound.pending_or_parts {d : Deed} (h : c.Sound first) (h_step : Step setting c d c')
    (h_room : c'.machine.started - first < UInt32.size) (h_pending : c.Pending id)
    {es : List Event} (h_told : Machine.Told c.machine c'.machine es) :
    (c'.Pending id ∧ .taskStopped id ∉ es) ∨
      ∃ t, t.id = id ∧ Scene.Parts ⟨c, d, c'⟩ t ∧ Parting t es := by
  -- a live task stays or leaves; for one that is still to come it is a question of the next id
  rcases h_pending with ⟨t, h_live⟩ | h_later
  · obtain rfl := TaskTable.id_of_find? h_live
    cases h_find : c'.machine.tasks.find? t.id with
    | none => exact .inr ⟨t, rfl, h.parts h_step h_live h_find, h_told.parting h_live h_find⟩
    | some t' =>
      refine .inl ⟨.inl ⟨t', h_find⟩, h_told.silent (.inr ?_)⟩
      rw [h_find]
      exact Option.some_ne_none t'
  · have h_none : c.machine.tasks.find? id = none := by
      cases h_find : c.machine.tasks.find? id with
      | none => rfl
      | some t => exact absurd (h.counted.given h_find).2 (UInt32.not_le.2 h_later)
    refine .inl ⟨?_, h_told.silent (.inl h_none)⟩
    cases h.arrival h_step with
    | nobody h_highest _ _ => exact .inr (h_highest ▸ h_later)
    | somebody h_highest h_started h_new _ =>
      -- it is this task that has come, or an earlier one
      by_cases h_id : id = c.machine.highestTask + 1
      · exact .inl ⟨_, h_id ▸ h_new⟩
      · right
        have h_next := h.counted.next h_started h_room
        have h_ne : id.toNat ≠ (c.machine.highestTask + 1).toNat := fun h_same =>
          h_id (UInt32.toNat_inj.1 h_same)
        rw [UInt32.lt_iff_toNat_lt] at h_later ⊢
        rw [h_highest]
        omega

/-- **The departure of a task.** In a course that begins before a task leaves, there is nothing told
of its end, or there is the one scene in which it leaves. -/
theorem Course.departure (h : Course setting c scenes c') (h_sound : c.Sound first)
    (h_room : c'.machine.started - first < UInt32.size) (h_pending : c.Pending id) :
    ∃ es, c'.machine.log.toList = c.machine.log.toList ++ es ∧
      ((c'.Pending id ∧ .taskStopped id ∉ es) ∨
        (c'.machine.tasks.find? id = none ∧ ∃ past scene future t,
          scenes = past ++ scene :: future ∧ t.id = id ∧ scene.Parts t ∧ Parting t es ∧
          ∀ s ∈ future, s.after.machine.tasks.find? id = none)) := by
  -- along the course, up to the scene in which the task leaves; from there on it is gone for good
  induction h with
  | nil => exact ⟨[], (List.append_nil _).symm, .inl ⟨h_pending, List.not_mem_nil⟩⟩
  | @cons c c₁ c' d scenes h_step h_rest ih =>
    have h_le := h_rest.started_le
    have h_room₁ : c₁.machine.started - first < UInt32.size := by omega
    have h_sound₁ := h_sound.step h_step h_room₁
    obtain ⟨es₁, h_told⟩ := h_sound.told h_step
    rcases h_sound.pending_or_parts h_step h_room₁ h_pending h_told with
      ⟨h_pending₁, h_silent⟩ | ⟨t, rfl, h_parts, h_parting⟩
    · obtain ⟨es₂, h_log, h_cases⟩ := ih h_sound₁ h_room h_pending₁
      refine ⟨es₁ ++ es₂, by rw [h_log, h_told.log, List.append_assoc], ?_⟩
      rcases h_cases with ⟨h_end, h_silent₂⟩ | ⟨h_end, past, scene, future, t, rfl, rfl, h_later⟩
      · exact .inl ⟨h_end, fun h_mem => (List.mem_append.1 h_mem).elim h_silent h_silent₂⟩
      · obtain ⟨h_parts, h_parting, h_gone⟩ := h_later
        exact .inr ⟨h_end, _ :: past, scene, future, t, rfl, rfl, h_parts,
          h_parting.append_left h_silent, h_gone⟩
    · -- it leaves here, so the rest of the course is silent about it
      have h_given := UInt32.le_trans (h_sound.counted.given h_parts.live).2
        ((h_sound.arrival h_step).highestTask_le h_sound.counted h_room₁)
      obtain ⟨h_gone, h_end, es₂, h_log, h_silent⟩ :=
        h_rest.gone h_sound₁ h_room h_given h_parts.gone
      refine ⟨es₁ ++ es₂, by rw [h_log, h_told.log, List.append_assoc], .inr ⟨h_end, ?_⟩⟩
      exact ⟨[], _, scenes, t, rfl, rfl, h_parts, h_parting.append_right h_silent, h_gone⟩

/-! ### What marks a task -/

/-- In this scene a task comes to the end of its script, or has run out of the code. -/
def Scene.Ends (scene : Scene) (task : UInt32) : Prop :=
  (∃ i, scene.deed = .execute task i ∧ i.opcode = .finish) ∨
    scene.deed = .overrun task ∧ ∃ t, scene.before.machine.tasks.find? task = some t ∧
      scene.before.machine.program.code[t.address.toNat]? = none

theorem Step.ends {d : Deed} (h : Step setting c d c') (h_halts : d.Halts id) :
    Scene.Ends ⟨c, d, c'⟩ id := by
  cases h with
  | execute | enter =>
    obtain ⟨rfl, h_finish⟩ := h_halts
    exact .inl ⟨_, rfl, h_finish⟩
  | overrun h_find _ h_code =>
    obtain rfl := h_halts
    exact .inr ⟨rfl, _, h_find, h_code⟩
  | _ => exact h_halts.elim

/-- A step marks nobody but a task that ends in it. -/
theorem Config.Sound.stopped_cause {d : Deed} (h : c.Sound first) (h_step : Step setting c d c')
    {t' : Task} (h_find : c'.machine.tasks.find? id = some t') (h_stopped : t'.stopped) :
    Scene.Ends ⟨c, d, c'⟩ id ∨ ∃ t, c.machine.tasks.find? id = some t ∧ t.stopped := by
  -- the mark was there before, or it was made in this step
  cases h_before : c.machine.tasks.find? id with
  | none =>
    -- tasks do not begin with the mark
    obtain ⟨-, -, script, s, rfl⟩ := (h.arrival h_step).eq_start h_before h_find
    contradiction
  | some t =>
    obtain rfl := TaskTable.id_of_find? h_before
    have h_fate := h.fate h_step h_before
    rw [h_find] at h_fate
    cases h_fate with
    | kept h_standing _ =>
      exact .inr ⟨t, rfl, (Task.of_standing_eq h_standing).2.2 ▸ h_stopped⟩
    | waits => exact .inr ⟨t, rfl, h_stopped⟩
    | halts h_deed _ => exact .inl (h_step.ends h_deed)
    | settled => exact .inr ⟨t, rfl, TaskTable.stopped_letGo .. ▸ h_stopped⟩

/-- **Who is marked has ended.** -/
theorem Course.stopped_cause (h : Course setting c scenes c') (h_sound : c.Sound first)
    (h_room : c'.machine.started - first < UInt32.size) {t' : Task}
    (h_find : c'.machine.tasks.find? id = some t') (h_stopped : t'.stopped) :
    (∃ s ∈ scenes, s.Ends id) ∨ ∃ t, c.machine.tasks.find? id = some t ∧ t.stopped := by
  -- backward from the end of the course, to the scene in which the mark was made
  induction h with
  | nil => exact .inr ⟨t', h_find, h_stopped⟩
  | @cons c c₁ c' d scenes h_step h_rest ih =>
    have h_le := h_rest.started_le
    have h_sound₁ := h_sound.step h_step (by omega)
    rcases ih h_sound₁ h_room h_find with ⟨s, h_s, h_ends⟩ | ⟨t, h_t, h_mark⟩
    · exact .inl ⟨s, List.mem_cons_of_mem _ h_s, h_ends⟩
    · rcases h_sound.stopped_cause h_step h_t h_mark with h_ends | h_before
      · exact .inl ⟨_, List.mem_cons_self, h_ends⟩
      · exact .inr h_before

/-! ### The whole life -/

/-- **The life of a task.** Let a program be loaded, by a host with natives that run no ticks. After
whatever is done then, the ids from 1 up to the highest one were given to one task each. Of a task
that is live the host has not been told that it is gone. Any other one has left in one scene, never
to come back, and that is told at one place of the log, right after what its locals let go of in
their order. A stop had selected it, or the tick was over and the task had come to the end of its
script or out of the code before. No task is ever marked for another reason. -/
theorem Machine.lifecycle (h_setting : setting.Immediate) (m₀ : Machine) (i : Image) :
    TakesCourses setting m₀ i ∧
    ∀ {scenes : List Scene} {c' : Config}, Course setting ⟨m₀.beginning i, .idle⟩ scenes c' →
      c'.machine.started - m₀.started < UInt32.size →
      c'.machine.highestTask.toNat = c'.machine.started - m₀.started ∧
      ∃ es, c'.machine.log.toList = m₀.log.toList ++ es ∧
        (∀ id, 0 < id → id ≤ c'.machine.highestTask →
          ((∃ t, c'.machine.tasks.find? id = some t) ∧ .taskStopped id ∉ es) ∨
          (c'.machine.tasks.find? id = none ∧
            ∃ past scene future t before after, scenes = past ++ scene :: future ∧
              scene.before.machine.tasks.find? id = some t ∧
              (∀ s ∈ scene :: future, s.after.machine.tasks.find? id = none) ∧
              es = before ++ (t.heldObjects.map .objectReleased ++ .taskStopped id :: after) ∧
              .taskStopped id ∉ before ∧ .taskStopped id ∉ after ∧
              (scene.deed.Selects t ∨
                (∃ mask, scene.deed = .settle mask) ∧ ∃ s ∈ past, s.Ends id))) ∧
        ∀ id t, c'.machine.tasks.find? id = some t → t.stopped → ∃ s ∈ scenes, s.Ends id := by
  refine ⟨takesCourses h_setting m₀ i, ?_⟩
  intro scenes c' h_course h_room
  have h_sound := Config.sound_beginning m₀ i
  -- nothing is live in the beginning, so whoever is marked was marked in the course
  have h_marked {scenes : List Scene} {c' : Config} {id : UInt32} {t : Task}
      (h : Course setting ⟨m₀.beginning i, .idle⟩ scenes c')
      (h_room : c'.machine.started - m₀.started < UInt32.size)
      (h_find : c'.machine.tasks.find? id = some t) (h_stopped : t.stopped) :
      ∃ s ∈ scenes, s.Ends id := by
    rcases h.stopped_cause h_sound h_room h_find h_stopped with h_ends | ⟨u, h_u, -⟩
    · exact h_ends
    · contradiction
  -- as many tasks were started as ids were given away: that is the first part
  have h_sound' := h_course.sound h_sound h_room
  have h_count := h_sound'.counted.started
  -- what was told since the beginning does not depend on the task that is asked about
  obtain ⟨es, h_log⟩ : ∃ es, c'.machine.log.toList = m₀.log.toList ++ es := by
    have h_first : (0 : UInt32) < 1 := by decide
    obtain ⟨es, h_log, -⟩ := h_course.departure h_sound h_room (.inr h_first)
    exact ⟨es, h_log⟩
  refine ⟨by omega, es, h_log, fun id h_pos h_given => ?_, fun id t => h_marked h_course h_room⟩
  -- every id was still to be given away in the beginning, so its departure is in the course
  obtain ⟨es', h_log', h_cases⟩ := h_course.departure h_sound h_room (.inr h_pos)
  obtain rfl : es = es' := List.append_cancel_left (h_log.symm.trans h_log')
  rcases h_cases with ⟨h_live | h_later, h_silent⟩ | ⟨h_end, past, scene, future, t, rfl, rfl, h⟩
  · exact .inl ⟨h_live, h_silent⟩
  · -- it would still be to come, but it was given away
    exact absurd h_given (UInt32.not_le.2 h_later)
  · obtain ⟨h_parts, ⟨before, after, rfl, h_before, h_after⟩, h_gone⟩ := h
    refine .inr ⟨h_end, past, scene, future, t, before, after, rfl, h_parts.live,
      List.forall_mem_cons.2 ⟨h_parts.gone, h_gone⟩, ?_, h_before, h_after, ?_⟩
    · unfold Task.farewell
      rw [List.append_assoc, List.singleton_append]
    · refine h_parts.cause.imp_right fun ⟨h_stopped, h_deed⟩ => ⟨h_deed, ?_⟩
      -- the mark was made before the task left, in the part of the course up to there
      obtain ⟨h_past, h_step, h_future⟩ := h_course.at_scene
      have h_le := h_step.started_le
      have h_le' := h_future.started_le
      exact h_marked h_past (by omega) h_parts.live h_stopped

/-- A task that stops itself by way of a native is gone in one scene, and lets go of its object. -/
theorem lifecycle_halted :
    ∃ scenes, Course haltingSetting ⟨Machine.beginning {} holdingImage, .idle⟩ scenes
        ⟨haltedMachine, .idle⟩ ∧
      ∃ scene ∈ scenes, ∃ t, scene.before.machine.tasks.find? 1 = some t ∧
        scene.after.machine.tasks.find? 1 = none ∧
        t.heldObjects.map .objectReleased ++ [.taskStopped 1] <:+: haltedMachine.log.toList := by
  have h_immediate : haltingSetting.Immediate := by
    intro native h_native body h_body
    obtain rfl := List.mem_singleton.1 h_native
    obtain rfl := Option.some.inj h_body
    exact ⟨trivial, fun _ => ⟨trivial, fun _ => trivial⟩⟩
  have h_run : Machine.perform haltingSetting (.request (.tick .all))
      (Machine.load {} holdingImage) = some ((), haltedMachine) := by decide +kernel
  obtain ⟨h_takes, h_lives⟩ := Machine.lifecycle h_immediate {} holdingImage
  obtain ⟨scenes, h_course⟩ :=
    h_takes.perform (r := .request (.tick .all)) ⟨trivial, fun _ => trivial⟩ h_run
  refine ⟨scenes, h_course, ?_⟩
  obtain ⟨-, es, h_log, h_ids, -⟩ := h_lives h_course (by decide)
  rcases h_ids 1 (by decide) (by decide) with ⟨⟨t, h_live⟩, -⟩ | ⟨-, h_gone⟩
  · contradiction
  · obtain ⟨past, scene, future, t, before, after, rfl, h_before, h_after, rfl, -⟩ := h_gone
    refine ⟨scene, by simp, t, h_before, h_after scene List.mem_cons_self, before, after, ?_⟩
    rw [h_log]
    simp

end ScriptMachine
