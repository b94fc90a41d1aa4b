import ScriptMachine.Proofs.Machine.Lifecycle

/-!
# Waiting tasks

A task that waits was there before the task that it waits for, so its id is less
(`Config.Ordered`). That is all it takes for nobody to wait in a circle, directly or through others
(`Machine.waits_ascend`), and the last of all tasks waits for nobody: once a tick for all kinds is
over, it is not waiting any more.

What a waiting task needs for the tick to release it is a kind, and it has one since it has had a
turn: a task without a kind is never served.
-/

namespace ScriptMachine

variable {setting : Setting} {c c' : Config} {d : Deed} {scenes : List Scene} {first : Nat}
  {id : UInt32}

/-! ### Kinds -/

theorem ScriptKind.overlaps_all {k mask : ScriptKind} (h : k.overlaps mask) : k.overlaps .all := by
  unfold overlaps at *
  rw [bne_iff_ne] at h ⊢
  intro h_zero
  have h_none : k.bits = 0 := by
    rw [← h_zero]
    exact UInt32.and_neg_one.symm
  rw [h_none, UInt32.zero_and] at h
  contradiction

/-- A task is served only if it has a kind. -/
theorem Pass.overlaps_all_of_service {p : Pass} {mask : ScriptKind} {t : Task} {service : Service}
    (h : p.service mask t = service) (h_serves : service ≠ .skip) : t.kind.overlaps .all := by
  have h_mask : t.kind.overlaps mask := by
    by_contra h_other
    exact h_serves (h.symm.trans (Pass.service_of_not_overlaps (Bool.not_eq_true _ ▸ h_other)))
  exact ScriptKind.overlaps_all h_mask

theorem Machine.Fate.kind_eq {m m' : Machine} {t t' : Task} (h : Fate m m' d t (some t')) :
    t'.kind = t.kind := by
  cases h with
  | kept h_standing _ => exact (Task.of_standing_eq h_standing).1
  | waits => rfl
  | halts _ h_standing => exact (Task.of_standing_eq h_standing).1
  | settled => exact TaskTable.kind_letGo ..

/-- A turn goes on, or a task with a kind is served. -/
theorem Step.task?_cases (h : Step setting c d c') (h_task : c'.stage.task? = some id) :
    c.stage.task? = some id ∨
      ∃ t, c.machine.tasks.find? id = some t ∧ t.kind.overlaps .all := by
  cases h with
  | ask | tick | skip | close | nextPass | settle => contradiction
  | serve h_next h_service | divert h_next h_service =>
    obtain rfl := Option.some.inj h_task
    exact .inr ⟨_, TaskTable.find?_of_after? h_next,
      Pass.overlaps_all_of_service h_service nofun⟩
  | execute | enter | request | leave | overrun => exact .inl h_task

/-! ### The order -/

/-- Whoever waits waits for a task that was started later, and has a kind. So has the task whose
turn it is, as long as it is there. -/
structure Config.Ordered (c : Config) : Prop where
  waits {id : UInt32} {t : Task} (h : c.machine.tasks.find? id = some t)
    (h_waits : t.waitingFor ≠ 0) :
    id < t.waitingFor ∧ t.waitingFor ≤ c.machine.highestTask ∧ t.kind.overlaps .all
  turn {id : UInt32} (h : c.stage.task? = some id) : id ≤ c.machine.highestTask ∧
    ∀ t, c.machine.tasks.find? id = some t → t.kind.overlaps .all

theorem Config.ordered_beginning (m : Machine) (i : Image) :
    Config.Ordered ⟨m.beginning i, .idle⟩ where
  waits h := nomatch h
  turn h := nomatch h

/-- Tasks keep their kind. -/
theorem Config.Sound.kind_eq (h : c.Sound first) (h_step : Step setting c d c') {t t' : Task}
    (h_find : c.machine.tasks.find? id = some t) (h_find' : c'.machine.tasks.find? id = some t') :
    t'.kind = t.kind := by
  have h_fate := h.fate h_step h_find
  rw [h_find'] at h_fate
  exact h_fate.kind_eq

/-- Whoever waits after a step has waited for the same task before, or calls the next one. -/
theorem Config.Sound.waits_cases (h : c.Sound first) (h_step : Step setting c d c') {t t' : Task}
    (h_find : c.machine.tasks.find? id = some t) (h_find' : c'.machine.tasks.find? id = some t')
    (h_waits : t'.waitingFor ≠ 0) : t'.waitingFor = t.waitingFor ∨
      c.stage.task? = some id ∧ t'.waitingFor = c.machine.highestTask + 1 ∧
        c'.machine.highestTask = c.machine.highestTask + 1 ∧
        c'.machine.started = c.machine.started + 1 := by
  have h_fate := h.fate h_step h_find
  rw [h_find'] at h_fate
  cases h_fate with
  | kept h_standing _ => exact .inl (Task.of_standing_eq h_standing).2.1
  | halts _ h_standing => exact .inl (Task.of_standing_eq h_standing).2.1
  | settled =>
    -- the end of a tick ends a wait, and begins none
    rcases TaskTable.waitingFor_letGo c'.machine.tasks _ t with h_zero | ⟨h_eq, -⟩
    · exact absurd h_zero h_waits
    · exact .inl h_eq
  | waits h_deed _ _ h_next h_started =>
    obtain rfl := TaskTable.id_of_find? h_find
    subst h_deed
    exact .inr ⟨h_step.task?_of_execute, rfl, h_next, h_started⟩

/-- **A step keeps the order.** -/
theorem Config.Ordered.step (h : c.Ordered) (h_sound : c.Sound first) (h_step : Step setting c d c')
    (h_room : c'.machine.started - first < UInt32.size) : c'.Ordered := by
  have h_arrival := h_sound.arrival h_step
  have h_highest := h_arrival.highestTask_le h_sound.counted h_room
  refine ⟨fun {id t'} h_find' h_waits => ?_, fun {id} h_task => ?_⟩
  · -- who waits now, and did it wait before
    cases h_find : c.machine.tasks.find? id with
    | none =>
      -- a task that was just started waits for nobody
      obtain ⟨-, -, script, s, rfl⟩ := h_arrival.eq_start h_find h_find'
      contradiction
    | some t =>
      rw [h_sound.kind_eq h_step h_find h_find']
      rcases h_sound.waits_cases h_step h_find h_find' h_waits with h_eq | ⟨h_turn, h_eq, h_new⟩
      · rw [h_eq] at h_waits ⊢
        obtain ⟨h_later, h_given, h_kind⟩ := h.waits h_find h_waits
        exact ⟨h_later, UInt32.le_trans h_given h_highest, h_kind⟩
      · -- the id that was given away last is above all others
        obtain ⟨h_next, h_started⟩ := h_new
        obtain ⟨h_given, h_kind⟩ := h.turn h_turn
        have h_toNat := h_sound.counted.next h_started h_room
        rw [h_eq]
        refine ⟨?_, UInt32.le_of_eq h_next.symm, h_kind t h_find⟩
        rw [UInt32.le_iff_toNat_le] at h_given
        rw [UInt32.lt_iff_toNat_lt, h_toNat]
        omega
  · -- whose turn it is now, and was it before
    rcases h_step.task?_cases h_task with h_before | ⟨t, h_find, h_kind⟩
    · obtain ⟨h_given, h_kind⟩ := h.turn h_before
      refine ⟨UInt32.le_trans h_given h_highest, fun t' h_find' => ?_⟩
      cases h_find : c.machine.tasks.find? id with
      | none =>
        -- it was gone, and its id does not come back
        rw [h_arrival.absent h_sound.counted h_room h_given h_find] at h_find'
        contradiction
      | some t =>
        rw [h_sound.kind_eq h_step h_find h_find']
        exact h_kind t h_find
    · refine ⟨UInt32.le_trans (h_sound.counted.given h_find).2 h_highest, fun t' h_find' => ?_⟩
      rw [h_sound.kind_eq h_step h_find h_find']
      exact h_kind

/-! ### New ids -/

/-- In this scene a start, or a call in the code, yields the id of a new task. -/
def Scene.Starts (scene : Scene) (id : UInt32) : Prop :=
  id ≠ 0 ∧
    match scene.deed with
    | .ask _ (.start _) answer => answer = id
    | .ask _ (.startNamed _ _) answer => answer = id
    | .execute _ i => i.opcode = .callScript ∧ (scene.before.machine.start i.operand).1 = id
    | _ => False

namespace Machine

/-- An answer that is the id of a task. -/
theorem answer_given {m m' : Machine} {caller : Option UInt32} {q : Request} {a : q.Answer}
    {stage stage' : Stage} (h : m.answer noTick q = some (a, m'))
    (h_starts : Scene.Starts ⟨⟨m, stage⟩, .ask caller q a, ⟨m', stage'⟩⟩ id) :
    id = m.highestTask + 1 ∧ ∃ t, m'.tasks.find? (m.highestTask + 1) = some t := by
  obtain ⟨h_zero, h_given⟩ := h_starts
  -- only the two requests that start something yield an id
  cases q with
  | start script =>
    obtain rfl : a = id := h_given
    have h_eq : m.start script = (a, m') := Option.some.inj h
    have h_start := starting_start none m script
    rw [h_eq] at h_start
    exact h_start.given h_zero
  | startNamed name mask =>
    obtain rfl : a = id := h_given
    have h_eq : m.startNamed name mask = (a, m') := Option.some.inj h
    have h_start := starting_startNamed none m name mask
    rw [h_eq] at h_start
    exact h_start.given h_zero
  | _ => exact h_given.elim

end Machine

theorem Config.Sound.starts (h : c.Sound first) (h_step : Step setting c d c')
    (h_starts : Scene.Starts ⟨c, d, c'⟩ id) :
    id = c.machine.highestTask + 1 ∧ ∃ t, c'.machine.tasks.find? id = some t := by
  have h_given : id = c.machine.highestTask + 1 ∧
      ∃ t, c'.machine.tasks.find? (c.machine.highestTask + 1) = some t := by
    -- an id is an answer, or the outcome of a call in the code
    cases h_step with
    | ask _ h_answer | request _ h_answer => exact Machine.answer_given h_answer h_starts
    | execute h_find _ _ h_advance =>
      obtain ⟨h_zero, h_call, h_callee⟩ := h_starts
      obtain ⟨h_next, -⟩ := (Machine.starting_start none _ _).given (h_callee ▸ h_zero)
      refine ⟨h_callee ▸ h_next, ?_⟩
      cases h.advanced h_find h_advance with
      | acted _ h_refused _ => exact absurd (h_callee ▸ h_refused h_call) h_zero
      | began _ _ h_began =>
        obtain ⟨s, h_new⟩ := h_began.new
        exact ⟨_, h_new⟩
      | called _ _ h_began _ =>
        obtain ⟨s, h_new⟩ := h_began.new
        -- the caller that waits now is not the new task
        have h_other := (h.counted.ne_next h_find).symm
        exact ⟨_, (TaskTable.find?_update_of_ne _ h_other _).trans h_new⟩
      | finished h_finish _ =>
        rw [h_call] at h_finish
        contradiction
    | enter _ _ _ h_opcode _ _ =>
      obtain ⟨-, h_call, -⟩ := h_starts
      rw [h_opcode] at h_call
      contradiction
    | _ => exact h_starts.2.elim
  exact ⟨h_given.1, h_given.1 ▸ h_given.2⟩

/-- Ids ascend in a course. -/
theorem Course.highestTask_le (h : Course setting c scenes c') (h_sound : c.Sound first)
    (h_room : c'.machine.started - first < UInt32.size) :
    c.machine.highestTask ≤ c'.machine.highestTask := by
  -- the highest id is an invariant from below
  have h_keeps {c₁ c₂ : Config} {d : Deed} (h_step : Step setting c₁ d c₂) (h : c₁.Sound first)
      (h_room : c₂.machine.started - first < UInt32.size)
      (h_le : c.machine.highestTask ≤ c₁.machine.highestTask) :
      c.machine.highestTask ≤ c₂.machine.highestTask :=
    UInt32.le_trans h_le ((h.arrival h_step).highestTask_le h.counted h_room)
  obtain ⟨-, h_le⟩ := h.invariant h_keeps h_sound h_room (UInt32.le_refl _)
  exact h_le

/-- Nobody was live under an id that was not given away yet. -/
theorem Course.not_live_before (h : Course setting c scenes c') (h_sound : c.Sound first)
    (h_room : c'.machine.started - first < UInt32.size) (h_later : c'.machine.highestTask < id) :
    ∀ s ∈ scenes, s.before.machine.tasks.find? id = none := by
  intro s h_s
  obtain ⟨past, future, rfl⟩ := List.append_of_mem h_s
  obtain ⟨h_past, h_step, h_future⟩ := h.at_scene
  obtain ⟨h_before, -⟩ := h.sound_at h_sound h_room
  have h_le := (Course.cons h_step h_future).highestTask_le h_before h_room
  -- a live task would have an id that was given away by then
  cases h_find : s.before.machine.tasks.find? id with
  | none => rfl
  | some t =>
    have h_given := UInt32.le_trans (h_before.counted.given h_find).2 h_le
    exact absurd h_given (UInt32.not_le.2 h_later)

/-! ### Nobody waits in a circle -/

/-- A live task waits for a task, whether or not that one is still live. -/
def State.WaitsFor (s : State) (waiting awaited : UInt32) : Prop :=
  ∃ t, s.tasks.find? waiting = some t ∧ t.waitingFor = awaited ∧ awaited ≠ 0

/-- Waiting leads to later tasks, from one to the next. -/
theorem Config.Ordered.lt_of_waits (h : c.Ordered) {waiting awaited : UInt32}
    (h_waits : Relation.TransGen c.machine.WaitsFor waiting awaited) : waiting < awaited := by
  have h_one {a b : UInt32} (h_waits : c.machine.WaitsFor a b) : a < b := by
    obtain ⟨t, h_find, rfl, h_zero⟩ := h_waits
    exact (h.waits h_find h_zero).1
  -- along the chain of waits, each of which goes up
  induction h_waits with
  | single h_waits => exact h_one h_waits
  | tail _ h_waits ih => exact UInt32.lt_trans ih (h_one h_waits)

/-- After a tick for all kinds, nobody who is above all others waits. -/
theorem Config.Ordered.last_runs (h : c'.Ordered) (h_sound : c.Sound first)
    (h_step : Step setting c (.settle .all) c') {t : Task}
    (h_find : c'.machine.tasks.find? id = some t)
    (h_last : ∀ other u, c'.machine.tasks.find? other = some u → other ≤ id) :
    t.waitingFor = 0 := by
  by_contra h_waits
  obtain ⟨h_later, -, h_kind⟩ := h.waits h_find h_waits
  -- the task that it waits for is left, or else it was released
  have h_left : c'.machine.tasks.contains t.waitingFor := by
    cases h_step with
    | @settle m _ cursor h_none =>
      have h_settled := Machine.find?_settle m .all id
      rw [h_find] at h_settled
      obtain ⟨u, -, rfl⟩ := Option.map_eq_some_iff.1 h_settled.symm
      rw [TaskTable.kind_letGo] at h_kind
      rcases TaskTable.waitingFor_letGo (m.settle .all).tasks .all u with h_zero | ⟨h_eq, h_left⟩
      · exact absurd h_zero h_waits
      · rw [h_eq] at h_waits ⊢
        exact h_left h_kind h_waits
  obtain ⟨u, h_u⟩ := TaskTable.contains_eq_true_iff.1 h_left
  exact absurd (h_last t.waitingFor u h_u) (UInt32.not_le.2 h_later)

/-- **Ids are fresh, and waiting ascends.** Let a program be loaded, by a host with natives that run
no ticks. Whatever is done then, the live tasks have ids from 1 up to the highest one, each its own,
and a task waits only for one with a greater id that was given away. A start or call that succeeds
yields the id after the highest one, which nobody ever had. So nobody waits in a circle; and after a
tick for all kinds, the task with the greatest id of all does not wait. -/
theorem Machine.waits_ascend (h_setting : setting.Immediate) (m₀ : Machine) (i : Image) :
    TakesCourses setting m₀ i ∧
    ∀ {scenes : List Scene} {c' : Config}, Course setting ⟨m₀.beginning i, .idle⟩ scenes c' →
      c'.machine.started - m₀.started < UInt32.size →
      (∀ id t, c'.machine.tasks.find? id = some t →
        t.id = id ∧ 1 ≤ id ∧ id ≤ c'.machine.highestTask ∧
        (t.waitingFor ≠ 0 → id < t.waitingFor ∧ t.waitingFor ≤ c'.machine.highestTask)) ∧
      (∀ past scene future id, scenes = past ++ scene :: future → scene.Starts id →
        id = scene.before.machine.highestTask + 1 ∧
        (∃ t, scene.after.machine.tasks.find? id = some t) ∧
        ∀ s ∈ past ++ [scene], s.before.machine.tasks.find? id = none) ∧
      (∀ id, ¬ Relation.TransGen c'.machine.WaitsFor id id) ∧
      ∀ scene ∈ scenes, scene.deed = .settle .all →
        ∀ id t, scene.after.machine.tasks.find? id = some t →
          (∀ other u, scene.after.machine.tasks.find? other = some u → other ≤ id) →
          t.waitingFor = 0 := by
  refine ⟨takesCourses h_setting m₀ i, ?_⟩
  intro scenes c' h_course h_room
  have h_sound := Config.sound_beginning m₀ i
  have h_ordered := Config.ordered_beginning m₀ i
  have h_keeps {c c' : Config} {d : Deed} (h_step : Step setting c d c') (h : c.Sound m₀.started)
      (h_room : c'.machine.started - m₀.started < UInt32.size) (h_c : c.Ordered) : c'.Ordered :=
    h_c.step h h_step h_room
  -- soundness and order hold from the beginning to the end of the course
  obtain ⟨h_sound', h_ordered'⟩ := h_course.invariant h_keeps h_sound h_room h_ordered
  refine ⟨fun id t h_find => ?_, fun past scene future id h_scenes h_starts => ?_,
    fun id h_circle => ?_, fun scene h_scene h_deed id t h_find h_last => ?_⟩
  · obtain ⟨h_pos, h_given⟩ := h_sound'.counted.given h_find
    refine ⟨TaskTable.id_of_find? h_find, h_pos, h_given, fun h_waits => ?_⟩
    obtain ⟨h_later, h_given', -⟩ := h_ordered'.waits h_find h_waits
    exact ⟨h_later, h_given'⟩
  · -- a new id: the count is right before the scene, so the id is the next one
    subst h_scenes
    obtain ⟨h_past, h_step, h_future⟩ := h_course.at_scene
    obtain ⟨h_before, -, h_after, -⟩ :=
      h_course.invariant_at h_keeps h_sound h_room h_ordered
    obtain ⟨h_next, h_live⟩ := h_before.starts h_step h_starts
    refine ⟨h_next, h_live, ?_⟩
    have h_le := h_step.started_le
    have h_le' := h_future.started_le
    -- it is above all ids that were given away before
    have h_fresh : scene.before.machine.tasks.find? id = none := h_next ▸ h_before.counted.fresh
    have h_later : scene.before.machine.highestTask < id :=
      h_next ▸ lt_next (h_next ▸ h_starts.1)
    refine List.forall_mem_append.2 ⟨?_, List.forall_mem_singleton.2 h_fresh⟩
    exact h_past.not_live_before h_sound (by omega) h_later
  · -- a circle would lead from an id up to itself
    exact absurd (h_ordered'.lt_of_waits h_circle) (UInt32.lt_irrefl id)
  · -- the tick ends in the middle of the course, where the order holds as well
    obtain ⟨past, future, rfl⟩ := List.append_of_mem h_scene
    obtain ⟨-, h_step, -⟩ := h_course.at_scene
    obtain ⟨h_before, -, -, h_after⟩ := h_course.invariant_at h_keeps h_sound h_room h_ordered
    rw [h_deed] at h_step
    exact h_after.last_runs h_before h_step h_find h_last

/-! ### A call, step by step -/

def callingScript : Script := ⟨"M", "", .script, 0, [], 0, 0, 1⟩

def calledScript : Script := ⟨"S", "", .script, 0, [], 1, 0, 2⟩

/-- A script that calls another one, which ends. -/
def callingImage : Image :=
  { program := {
      code := [⟨.callScript, 0, .untyped, 2, 0⟩, ⟨.finish, 0, .untyped, 0, 0⟩]
      autostart := [1]
      scripts := [callingScript, calledScript] } }

/-- The machine that is about to execute the call. -/
def callingMachine : Machine := (Machine.load {} callingImage).begin 1

/-- The caller waits for the other task. -/
def calledMachine : Machine :=
  (callingMachine.advance plainSetting Machine.noBody 1 ⟨.callScript, 0, .untyped, 2, 0⟩).getD {}

/-- The other task has come to its end. -/
def endedMachine : Machine :=
  ((calledMachine.rest.begin 2).advance plainSetting Machine.noBody 2
    ⟨.finish, 0, .untyped, 0, 0⟩).getD {}

/-- The caller is past the call. -/
def returnedMachine : Machine := endedMachine.rest.settle .all

theorem reaches_calling : Config.Reaches plainSetting ⟨Machine.beginning {} callingImage, .idle⟩
    ⟨callingMachine, .turn ⟨.normal, .all, 1, false⟩⟩ := by
  have h_load := Machine.reaches_load plainSetting {} callingImage
  have h_first : (Machine.load {} callingImage).tasks.after? none =
    some (Task.start 1 callingScript) := by decide +kernel
  have h_last : (Machine.load {} callingImage).tasks.after? (some 1) = none := by decide +kernel
  refine h_load.trans (.head (.tick _ .all) ?_)
  refine .head (.skip h_first (by decide +kernel)) (.head (.nextPass h_last) ?_)
  exact .single (.serve h_first (by decide +kernel))

theorem step_called : Step plainSetting ⟨callingMachine, .turn ⟨.normal, .all, 1, false⟩⟩
    (.execute 1 ⟨.callScript, 0, .untyped, 2, 0⟩)
    ⟨calledMachine, .turn ⟨.normal, .all, 1, false⟩⟩ := by
  have h_find : callingMachine.tasks.find? 1 = some (Task.start 1 callingScript) := by
    decide +kernel
  exact .execute h_find (by decide +kernel) (by decide +kernel) (by decide +kernel)

theorem reaches_ended : Config.Reaches plainSetting
    ⟨calledMachine, .turn ⟨.normal, .all, 1, false⟩⟩
    ⟨endedMachine.rest, .pass .normal .all (some 2)⟩ := by
  have h_caller : calledMachine.tasks.find? 1 =
    some { Task.start 1 callingScript with waitingFor := 2 } := by decide +kernel
  have h_next : calledMachine.rest.tasks.after? (some 1) = some (Task.start 2 calledScript) := by
    decide +kernel
  have h_callee : (calledMachine.rest.begin 2).tasks.find? 2 =
    some (Task.start 2 calledScript) := by decide +kernel
  have h_ended : endedMachine.tasks.find? 2 =
    some { Task.start 2 calledScript with stopped := true } := by decide +kernel
  have h_finish : Step plainSetting
      ⟨calledMachine.rest.begin 2, .turn ⟨.normal, .all, 2, false⟩⟩
      (.execute 2 ⟨.finish, 0, .untyped, 0, 0⟩)
      ⟨endedMachine, .turn ⟨.normal, .all, 2, false⟩⟩ :=
    .execute h_callee (by decide +kernel) (by decide +kernel) (by decide +kernel)
  refine .head (.close fun t h_t => ?_) (.head (.serve h_next (by decide +kernel))
    (.head h_finish (.single (.close fun t h_t => ?_))))
  · obtain rfl := Option.some.inj (h_caller.symm.trans h_t)
    rfl
  · obtain rfl := Option.some.inj (h_ended.symm.trans h_t)
    rfl

theorem step_returned : Step plainSetting ⟨endedMachine.rest, .pass .normal .all (some 2)⟩
    (.settle .all) ⟨returnedMachine, .idle⟩ := .settle (by decide +kernel)

/-- The caller waits for the task that comes after it, and at the end of the tick it does not. -/
theorem waits_ascend_calling :
    (∃ scenes, Course plainSetting ⟨Machine.beginning {} callingImage, .idle⟩ scenes
        ⟨calledMachine, .turn ⟨.normal, .all, 1, false⟩⟩ ∧
      (∀ s ∈ scenes, s.before.machine.tasks.find? 2 = none) ∧
      ∃ t, calledMachine.tasks.find? 1 = some t ∧ t.waitingFor = 2 ∧
        1 < t.waitingFor ∧ t.waitingFor ≤ calledMachine.highestTask ∧
        ¬ Relation.TransGen calledMachine.WaitsFor 1 1) ∧
    ∃ t, returnedMachine.tasks.find? 1 = some t ∧ t.waitingFor = 0 := by
  obtain ⟨-, h_ascends⟩ := Machine.waits_ascend plainSetting_immediate {} callingImage
  obtain ⟨past, h_past⟩ := reaches_calling
  obtain ⟨future, h_future⟩ := reaches_ended
  have h_called := h_past.append (.cons step_called (.nil _))
  have h_whole := h_called.append (h_future.append (.cons step_returned (.nil _)))
  constructor
  · obtain ⟨h_ids, h_starts, h_circle, -⟩ := h_ascends h_called (by decide +kernel)
    have h_find : calledMachine.tasks.find? 1 =
      some { Task.start 1 callingScript with waitingFor := 2 } := by decide +kernel
    obtain ⟨-, -, -, h_waits⟩ := h_ids 1 _ h_find
    obtain ⟨h_later, h_given⟩ := h_waits (by decide)
    obtain ⟨-, -, h_new⟩ := h_starts past _ [] 2 rfl ⟨by decide, rfl, by decide +kernel⟩
    exact ⟨_, h_called, h_new, _, h_find, rfl, h_later, h_given, h_circle 1⟩
  · obtain ⟨-, -, -, h_last⟩ := h_ascends h_whole (by decide +kernel)
    have h_tasks : returnedMachine.tasks.toList =
      [{ Task.start 1 callingScript with address := 1, ticks := 1 }] := by decide +kernel
    have h_find : returnedMachine.tasks.find? 1 =
      some { Task.start 1 callingScript with address := 1, ticks := 1 } := by decide +kernel
    have h_end := h_last ⟨⟨endedMachine.rest, .pass .normal .all (some 2)⟩, .settle .all,
      ⟨returnedMachine, .idle⟩⟩ (by simp) rfl
    refine ⟨_, h_find, h_end 1 _ h_find fun other u h_u => ?_⟩
    have h_mem := TaskTable.mem_of_find? h_u
    rw [h_tasks, List.mem_singleton] at h_mem
    rw [← TaskTable.id_of_find? h_u, h_mem]
    decide

end ScriptMachine
