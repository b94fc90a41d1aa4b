import ScriptMachine.Proofs.Machine.Detour

/-!
# Going on with the next handler

A task in a handler knows it by its place among those that are registered. Meanwhile handlers may
come and go, and the place is kept apart from them. One that asks for the next handler should go on
with the newest that is left below its place (`Task.walked`). It does as long as its place is not
above the number of handlers, and otherwise it returns, although there may be handlers left
(`Machine.next_handler`, `next_handler_lost`).

How far the place is below that number (`Task.slack`) is raised by the registration of a handler and
by going on with the next one, and lowered by unregistering one. A detour begins with a slack of one
or more, so as long as no more handlers are unregistered in it than that, none is passed over.
-/

namespace ScriptMachine

variable {setting : Setting} {c c' : Config} {d : Deed} {scenes : List Scene} {first : Nat}
  {id : UInt32} {t t' : Task} {i : Instruction}

/-! ### The next handler -/

/-- A task that goes on with the newest handler that is left below its place, or returns if none
is. -/
def Task.walked (t : Task) : Task :=
  match min t.handlerIndex.toNat t.handlers.length with
  | 0 => t.returned
  | k + 1 => { t with handlerIndex := UInt32.ofNat k, address := t.handlers[k]! }

namespace Task

theorem lookup_eq_none_iff (h_first : t.handlerIndex ≠ 0) :
    t.handlers[(t.handlerIndex - 1).toNat]? = none ↔
      t.handlers.length < t.handlerIndex.toNat := by
  rw [List.getElem?_eq_none_iff, ← place_pred h_first, Nat.lt_succ_iff]

/-- What is looked up is what is left below, if the place is not above all of it. -/
theorem afterNext_eq_walked (h : t.handlerIndex.toNat ≤ t.handlers.length) :
    t.afterNext = t.walked := by
  unfold walked
  rw [Nat.min_eq_left h]
  by_cases h_first : t.handlerIndex = 0
  · rw [afterNext_of_first h_first, h_first]
    rfl
  · -- the place before is one of the handlers, as the place is not above their number
    rw [← place_pred h_first]
    cases h_next : t.handlers[(t.handlerIndex - 1).toNat]? with
    | none => exact absurd ((lookup_eq_none_iff h_first).1 h_next) (Nat.not_lt.2 h)
    | some address =>
      rw [afterNext_of_some h_first h_next]
      dsimp only
      rw [UInt32.ofNat_toNat, List.getElem!_eq_getElem?_getD, h_next]
      rfl

end Task

namespace Machine

variable {m m' : Machine} {task : UInt32} {carryOut : Routine Unit → Machine → Option Machine}

/-- A task has gone on with the next handler as it should, and nothing is told. -/
structure WalksOn (m : Machine) (task : UInt32) (t : Task) (m' : Machine) : Prop where
  task : m'.tasks.find? task = some t.walked
  log : m'.log = m.log

/-- A fault is told if a place was looked up where no handler is left. -/
theorem nextExcept_log (h_find : m.tasks.find? task = some t) (h_inside : t.inHandler) :
    (m.nextExcept task).2.log = if t.handlers.length < t.handlerIndex.toNat then
      m.log.push (.fault ⟨.invalidOperand, "ITEREXCEPT", task⟩) else m.log := by
  -- To return is silent, so the one thing that can be told is that a place was empty.
  have h_returned {m : Machine} {t : Task} (h_find : m.tasks.find? task = some t)
      (h_inside : t.inHandler) : (m.returnExcept task).2.log = m.log := by
    rw [returnExcept_of_inHandler h_find h_inside]
    rfl
  unfold nextExcept
  simp only [h_find]
  by_cases h_first : t.handlerIndex = 0
  · rw [if_pos (.inr h_first), h_returned h_find h_inside, h_first]
    rfl
  · rw [if_neg (by simp [h_inside, h_first])]
    cases h_next : t.handlers[(t.handlerIndex - 1).toNat]? with
    | some address =>
      rw [if_neg fun h => nomatch ((Task.lookup_eq_none_iff h_first).2 h).symm.trans h_next]
      rfl
    | none =>
      rw [if_pos ((Task.lookup_eq_none_iff h_first).1 h_next)]
      let m₁ := (m.updateTask task fun u => { u with handlerIndex := t.handlerIndex - 1 }).fault
        .invalidOperand "ITEREXCEPT" task
      have h_told : m₁.tasks.find? task = some { t with handlerIndex := t.handlerIndex - 1 } :=
        find?_updateTask_self h_find _
      exact h_returned h_told h_inside

variable (setting carryOut) in
/-- **What asking for the next handler comes to.** -/
theorem advance_nextExcept_spec (h_opcode : i.opcode = .nextExcept)
    (h_find : m.tasks.find? task = some t) (h_inside : t.inHandler) :
    ∃ m', m.advance setting carryOut task i = some m' ∧
      (m.WalksOn task t m' ↔ t.handlerIndex.toNat ≤ t.handlers.length) ∧
      (t.handlers.length < t.handlerIndex.toNat →
        m'.tasks.find? task = some { t with handlerIndex := t.handlerIndex - 1 }.returned ∧
        m'.log = m.log.push (.fault ⟨.invalidOperand, "ITEREXCEPT", task⟩)) := by
  let m₁ : Machine := { m with executed := m.executed + 1 }
  obtain ⟨m', h_next, -, h_after⟩ := nextExcept_of_inHandler (m := m₁) h_find h_inside
  have h_obey : obey setting task i m₁ = (.jumped, m') := by
    unfold obey
    rw [h_opcode]
    exact h_next
  -- A fault is told just if the place was empty, so the log tells whether the task has walked on.
  have h_log := nextExcept_log (m := m₁) h_find h_inside
  rw [h_next] at h_log
  refine ⟨m', advance_of_jumped (by rw [h_opcode]; decide) h_obey, ⟨fun h => ?_, fun h => ?_⟩,
    fun h => ⟨?_, ?_⟩⟩
  · -- a log that has grown is not the same
    by_contra h_above
    rw [if_pos (Nat.lt_of_not_le h_above)] at h_log
    have h_size := congrArg Array.size (h_log.symm.trans h.log)
    rw [Array.size_push] at h_size
    exact Nat.succ_ne_self _ h_size
  · rw [if_neg (Nat.not_lt.2 h)] at h_log
    exact ⟨by rw [h_after, Task.afterNext_eq_walked h], h_log⟩
  · have h_first : t.handlerIndex ≠ 0 := by
      intro h_zero
      rw [h_zero] at h
      exact Nat.not_lt_zero _ h
    rw [h_after, Task.afterNext_of_none h_first ((Task.lookup_eq_none_iff h_first).2 h)]
  · rwa [if_pos h] at h_log

end Machine

/-! ### Slack -/

/-- How many handlers are registered beyond the place of the one that runs. -/
def Task.slack (t : Task) : Int := t.handlers.length - t.handlerIndex.toNat

/-- What an instruction in a handler adds to the slack of its task, if it is not more. -/
def Instruction.gain (i : Instruction) : Int :=
  match i.opcode with
  | .except | .nextExcept => 1
  | .endExcept => if i.mode = Mode.yield then 0 else -1
  | _ => 0

/-- What a step adds to the slack of a task, if it is not more. -/
def Deed.gain (id : UInt32) : Deed → Int
  | .execute task i => if task = id then i.gain else 0
  | _ => 0

/-- What has been added to the slack of a task. -/
def gained (id : UInt32) (scenes : List Scene) : Int :=
  scenes.foldr (fun s sum => s.deed.gain id + sum) 0

namespace Task

theorem slack_afterNext (h_inside : t.afterNext.inHandler) : t.afterNext.slack = t.slack + 1 := by
  by_cases h_first : t.handlerIndex = 0
  · -- the first handler has none before it, and the task would be outside
    rw [afterNext_of_first h_first] at h_inside
    contradiction
  · cases h_next : t.handlers[(t.handlerIndex - 1).toNat]? with
    | none =>
      rw [afterNext_of_none h_first h_next] at h_inside
      contradiction
    | some address =>
      have h_place := place_pred h_first
      rw [afterNext_of_some h_first h_next]
      unfold slack
      dsimp only
      omega

/-- Without a handler to unregister the slack stays as it is. -/
theorem slack_after (holds : Bool) (callee : UInt32) (h_inside : t.inHandler)
    (h_stays : (t.after i holds callee).inHandler) :
    t.slack + i.gain ≤ (t.after i holds callee).slack := by
  unfold after at h_stays ⊢
  unfold Instruction.gain
  cases h_opcode : i.opcode with
  | callScript =>
    obtain ⟨address, waitingFor, h_spec⟩ := afterCall_spec i callee t
    dsimp only
    rw [h_spec]
    exact Int.le_of_eq (Int.add_zero _)
  | except =>
    -- one handler more, at the same place
    unfold slack
    dsimp only [passed]
    rw [List.length_append, List.length_singleton]
    omega
  | endExcept =>
    -- one handler less, if there is one; the other mode only yields
    dsimp only
    split
    · exact Int.le_of_eq (Int.add_zero _)
    · unfold slack
      dsimp only [passed]
      rw [List.length_dropLast]
      omega
  | returnExcept =>
    -- these two leave the handler, which was ruled out
    simp only [h_opcode, h_inside, if_true] at h_stays
    contradiction
  | nextExcept =>
    simp only [h_opcode, h_inside, if_true] at h_stays ⊢
    exact Int.le_of_eq (slack_afterNext h_stays).symm
  | breakExcept =>
    rw [h_opcode] at h_stays
    contradiction
  | jumpIfZero =>
    dsimp only
    split <;> exact Int.le_of_eq (Int.add_zero _)
  | _ => exact Int.le_of_eq (Int.add_zero _)

theorem slack_bearing (h : t'.bearing = t.bearing) : t'.slack = t.slack := by
  obtain ⟨-, -, h_index, h_handlers, -⟩ := of_bearing_eq h
  unfold slack
  rw [h_index, h_handlers]

theorem slack_letGo (left : TaskTable) (mask : ScriptKind) (t : Task) :
    (left.letGo mask t).slack = t.slack := by
  unfold TaskTable.letGo
  split
  · split <;> rfl
  · rfl

end Task

theorem Deed.gain_execute (task : UInt32) (i : Instruction) :
    Deed.gain task (.execute task i) = i.gain := if_pos rfl

theorem Deed.gain_of_ne (h : d.actor? ≠ some id) : d.gain id = 0 := by
  cases d with
  | execute task i => exact if_neg fun h_task => h (congrArg some h_task)
  | _ => rfl

/-- **Slack in a step** in which a task stays in its handler. -/
theorem Config.Sound.slack_step (h : c.Sound first) (h_step : Step setting c d c')
    (h_find : c.machine.tasks.find? id = some t) (h_find' : c'.machine.tasks.find? id = some t')
    (h_inside : t.inHandler) (h_stays : t'.inHandler) : t.slack + d.gain id ≤ t'.slack := by
  -- Most steps leave the place and the handlers as they are.
  have h_kept (h_gain : d.gain id = 0) (h_same : t'.slack = t.slack) :
      t.slack + d.gain id ≤ t'.slack :=
    Int.le_of_eq (by rw [h_gain, h_same, Int.add_zero])
  by_cases h_actor : d.actor? = some id
  · cases h_step with
    | ask | tick | skip | nextPass | settle => contradiction
    | @serve m p mask cursor u h_next h_service =>
      obtain rfl := Option.some.inj h_actor
      have h_begun : (m.begin u.id).tasks.find? u.id = some { t with yielded := false } :=
        Machine.find?_updateTask_self h_find _
      cases h_find'.symm.trans h_begun
      exact h_kept rfl rfl
    | @divert m p mask cursor u _ h_next h_service =>
      -- who is in a handler is not diverted to another one
      obtain rfl := Option.some.inj h_actor
      cases h_find.symm.trans (TaskTable.find?_of_after? h_next)
      obtain ⟨-, -, h_serve⟩ := Pass.serve_of_inHandler h_inside (by rw [h_service]; nofun)
      exact nomatch h_serve.symm.trans h_service
    | @execute m m' s u i h_f _ _ h_advance =>
      obtain rfl := Option.some.inj h_actor
      cases h_find.symm.trans h_f
      obtain ⟨v, h_v, h_bearing⟩ :=
        Machine.bearing_of_advance h_advance h_find (h.counted.ne_next h_find)
      cases h_find'.symm.trans h_v
      obtain ⟨h_same, -⟩ := Task.of_bearing_eq h_bearing
      rw [Task.slack_bearing h_bearing, Deed.gain_execute]
      exact Task.slack_after _ _ h_inside (h_same ▸ h_stays)
    | @enter m s u i native body _ _ _ h_opcode =>
      obtain rfl := Option.some.inj h_actor
      cases h_find'.symm.trans h_find
      refine h_kept ?_ rfl
      rw [Deed.gain_execute]
      unfold Instruction.gain
      rw [h_opcode]
    | request h_immediate h_answer =>
      -- whatever a native asks for, the control flow of a live task stays as it is
      exact h_kept rfl (Task.slack_bearing (Machine.answer_bearing h_immediate h_answer h_find
        (h.counted.ne_next h_find) h_find'))
    | leave m s function =>
      obtain rfl := Option.some.inj h_actor
      have h_after : ((m.emit (.nativeLeft function)).updateTask s.task fun t =>
          { t with address := t.address + 1 }).tasks.find? s.task =
            some { t with address := t.address + 1 } := Machine.find?_updateTask_self h_find _
      cases h_find'.symm.trans h_after
      exact h_kept rfl rfl
    | @overrun m s u =>
      obtain rfl := Option.some.inj h_actor
      have h_after : ((m.fault .invalidOperand u.name u.address).updateTask s.task fun t =>
          { t with stopped := true }).tasks.find? s.task = some { t with stopped := true } :=
        Machine.find?_updateTask_self h_find _
      cases h_find'.symm.trans h_after
      exact h_kept rfl rfl
    | close =>
      cases h_find'.symm.trans h_find
      exact h_kept rfl rfl
  · -- what others do leaves the handlers of the task alone
    obtain rfl := TaskTable.id_of_find? h_find
    refine h_kept (Deed.gain_of_ne h_actor) ?_
    have h_fate := h.fate h_step h_find
    rw [h_find'] at h_fate
    cases h_fate with
    | kept _ h_other => rw [h_other h_actor]
    | waits h_deed => exact absurd (h_deed ▸ rfl) h_actor
    | halts h_deed _ => exact absurd (Deed.actor?_of_halts h_deed) h_actor
    | settled => exact Task.slack_letGo ..

/-- **Slack in a course** in which a task stays in its handler. -/
theorem Course.slack (h : Course setting c scenes c') (h_sound : c.Sound first)
    (h_room : c'.machine.started - first < UInt32.size)
    (h_find : c.machine.tasks.find? id = some t) (h_inside : t.inHandler)
    (h_stays : ∀ s ∈ scenes, ∃ u, s.after.machine.tasks.find? id = some u ∧ u.inHandler) :
    ∃ t', c'.machine.tasks.find? id = some t' ∧ t'.inHandler ∧
      t.slack + gained id scenes ≤ t'.slack := by
  induction h generalizing t with
  | nil => exact ⟨t, h_find, h_inside, Int.le_of_eq (Int.add_zero _)⟩
  | @cons c c₁ c' d scenes h_step h_rest ih =>
    obtain ⟨⟨u, h_u, h_in⟩, h_later⟩ := List.forall_mem_cons.1 h_stays
    have h_le := h_rest.started_le
    have h_first := h_sound.slack_step h_step h_find h_u h_inside h_in
    obtain ⟨t', h_find', h_inside', h_slack⟩ :=
      ih (h_sound.step h_step (by omega)) h_room h_u h_in h_later
    refine ⟨t', h_find', h_inside', ?_⟩
    -- What is gained in the course is what is gained in the step and after it.
    have h_sum : gained id (⟨c, d, c₁⟩ :: scenes) = d.gain id + gained id scenes := rfl
    omega

/-- A detour begins at the place of the last handler, or at one below it. -/
theorem Step.slack_of_divert (h : Step setting c (.divert id) c') :
    ∃ t, c'.machine.tasks.find? id = some t ∧ t.inHandler ∧ 1 ≤ t.slack := by
  obtain ⟨t, handler, -, -, h_last, h_begun, -⟩ := h.detour
  refine ⟨_, h_begun, rfl, ?_⟩
  have h_some : 0 < t.handlers.length := List.length_pos_of_mem (List.mem_of_getLast? h_last)
  have h_place : (UInt32.ofNat (t.handlers.length - 1)).toNat ≤ t.handlers.length - 1 := by
    rw [UInt32.toNat_ofNat']
    exact Nat.mod_le ..
  unfold Task.slack
  dsimp only
  omega

/-! ### What a task walks on to -/

/-- **Older handlers are walked on to as long as there is slack.** A task in a handler that asks for
the next one goes on with the newest that is left below its place, or returns if there is none, and
nothing is told, if and only if its place is not above the number of handlers. Otherwise it returns
with a fault, and whatever handlers are left are passed over.

Let a program be loaded, by a host with natives that run no ticks, and let a task be diverted to its
most recent handler and stay in handlers from then on. Then the place stays below the number of
handlers by one and by what was registered or walked on since, less what was unregistered. So if it
has unregistered at most one more than that, it goes on as it should. -/
theorem Machine.next_handler (h_setting : setting.Immediate) (m₀ : Machine) (image : Image) :
    (∀ (carryOut : Routine Unit → Machine → Option Machine) {m : Machine} {task : UInt32} {t : Task}
        {i : Instruction}, i.opcode = .nextExcept → m.tasks.find? task = some t → t.inHandler →
      ∃ m', m.advance setting carryOut task i = some m' ∧
        (m.WalksOn task t m' ↔ t.handlerIndex.toNat ≤ t.handlers.length) ∧
        (t.handlers.length < t.handlerIndex.toNat →
          m'.tasks.find? task = some { t with handlerIndex := t.handlerIndex - 1 }.returned ∧
          m'.log = m.log.push (.fault ⟨.invalidOperand, "ITEREXCEPT", task⟩))) ∧
    TakesCourses setting m₀ image ∧
    ∀ {past handled later : List Scene} {c c₁ c₂ : Config} {scene : Scene} {task : UInt32}
        {i : Instruction},
      Course setting ⟨m₀.beginning image, .idle⟩ past c → Step setting c (.divert task) c₁ →
      Course setting c₁ (handled ++ scene :: later) c₂ →
      c₂.machine.started - m₀.started < UInt32.size →
      (∀ s ∈ handled, ∃ u, s.after.machine.tasks.find? task = some u ∧ u.inHandler) →
      scene.deed = .execute task i → i.opcode = .nextExcept →
      ∃ t, scene.before.machine.tasks.find? task = some t ∧ t.inHandler ∧
        t.handlerIndex.toNat + 1 + gained task handled ≤ t.handlers.length ∧
        (scene.before.machine.WalksOn task t scene.after.machine ↔
          t.handlerIndex.toNat ≤ t.handlers.length) ∧
        (-1 ≤ gained task handled → scene.before.machine.WalksOn task t scene.after.machine) := by
  refine ⟨fun carryOut => advance_nextExcept_spec setting carryOut,
    takesCourses h_setting m₀ image, ?_⟩
  intro past handled later c c₁ c₂ scene task i h_past h_step h_future h_room h_stays h_deed h_opcode
  have h_course := h_past.append (.cons h_step h_future)
  obtain ⟨-, h_sound₁⟩ := h_course.sound_at (Config.sound_beginning m₀ image) h_room
  obtain ⟨h_handled, h_scene, h_later⟩ := h_future.at_scene
  have h_le := h_scene.started_le
  have h_le' := h_later.started_le
  -- the slack that the detour begins with, and what becomes of it until then
  obtain ⟨t₁, h_t₁, h_in, h_one⟩ := h_step.slack_of_divert
  obtain ⟨t, h_find, h_inside, h_slack⟩ :=
    h_handled.slack h_sound₁ (by omega) h_t₁ h_in h_stays
  unfold Task.slack at h_slack h_one
  -- Whether the task walks on is decided by the step alone; the course tells how much slack there
  -- is.
  have h_iff : scene.before.machine.WalksOn task t scene.after.machine ↔
      t.handlerIndex.toNat ≤ t.handlers.length := by
    obtain ⟨before, deed, after⟩ := scene
    obtain rfl : deed = .execute task i := h_deed
    cases h_scene with
    | execute h_f _ _ h_advance =>
      obtain ⟨m', h_eq, h_iff, -⟩ :=
        advance_nextExcept_spec setting noBody h_opcode h_find h_inside
      cases h_advance.symm.trans h_eq
      exact h_iff
    | enter _ _ _ h_native => exact nomatch h_opcode.symm.trans h_native
  exact ⟨t, h_find, h_inside, by omega, h_iff, fun h_gained => h_iff.2 (by omega)⟩

/-! ### Handlers that unregister handlers -/

def dropInstruction : Instruction := ⟨.endExcept, 0, .untyped, 0, 0⟩

def nextInstruction : Instruction := ⟨.nextExcept, 0, .untyped, 0, 0⟩

/-- A script that registers four handlers and then waits in a loop. The last one unregisters itself
and asks for the next, which unregisters two before it does the same. -/
def droppingImage : Image :=
  { program := {
      code := [⟨.except, 0, .untyped, 5, 0⟩, ⟨.except, 0, .untyped, 5, 0⟩,
        ⟨.except, 0, .untyped, 7, 0⟩, ⟨.except, 0, .untyped, 10, 0⟩,
        ⟨.jump, Mode.backward, .untyped, 4, 0⟩,
        ⟨.push, 0, .int, 11, 0⟩, ⟨.returnExcept, 0, .untyped, 0, 0⟩,
        dropInstruction, dropInstruction, nextInstruction, dropInstruction, nextInstruction]
      autostart := [1]
      scripts := [⟨"M", "", .script, 0, [], 0, 0, 1⟩] } }

/-- The machine after a tick: the task is in its loop. -/
def loopingMachine : Machine :=
  (Machine.tick plainSetting 6 .all (Machine.load {} droppingImage)).getD {}

/-- The task when it has been diverted to its last handler. -/
def droppingTask : Task :=
  { Task.start 1 ⟨"M", "", .script, 0, [], 0, 0, 1⟩ with
    address := 10, savedAddress := 4, handlers := [5, 5, 7, 10], handlerIndex := 3, ticks := 1,
    inHandler := true }

/-- The task has been diverted, and has executed some instructions. -/
def droppingConfig (executed : List Instruction) : Config :=
  ⟨executed.foldl (fun m i => (m.advance plainSetting Machine.noBody 1 i).getD {})
    ((loopingMachine.divert 1 10).begin 1), .turn ⟨.handlers, .all, 1, true⟩⟩

theorem exists_past_dropping : ∃ past c,
    Course plainSetting ⟨Machine.beginning {} droppingImage, .idle⟩ past c ∧
    Step plainSetting c (.divert 1) (droppingConfig []) := by
  have h_run : Machine.perform plainSetting (.request (.tick .all))
      (Machine.load {} droppingImage) = some ((), loopingMachine) := by decide +kernel
  obtain ⟨past, h_past⟩ := (Machine.reaches_perform (r := .request (.tick .all))
    plainSetting_immediate ⟨trivial, fun _ => trivial⟩ h_run).trans (.single (.tick _ .all))
  have h_next : loopingMachine.tasks.after? none = some { droppingTask with
      address := 4, savedAddress := 0, handlerIndex := 0, inHandler := false,
      yielded := true } := by decide +kernel
  exact ⟨past, _, h_past, .divert h_next rfl⟩

theorem find?_dropped : (droppingConfig [dropInstruction]).machine.tasks.find? 1 =
    some { droppingTask with address := 11, handlers := [5, 5, 7] } := by decide +kernel

theorem step_dropped : Step plainSetting (droppingConfig []) (.execute 1 dropInstruction)
    (droppingConfig [dropInstruction]) := by
  have h_find : (droppingConfig []).machine.tasks.find? 1 = some droppingTask := by decide +kernel
  exact .execute h_find (by decide +kernel) (by decide +kernel) (by decide +kernel)

theorem step_walked : Step plainSetting (droppingConfig [dropInstruction])
    (.execute 1 nextInstruction) (droppingConfig [dropInstruction, nextInstruction]) :=
  .execute find?_dropped (by decide +kernel) (by decide +kernel) (by decide +kernel)

/-- The last handler goes on with the one before it, since it has unregistered no more than
itself. -/
theorem next_handler_walks : ∃ t,
    (droppingConfig [dropInstruction]).machine.tasks.find? 1 = some t ∧
    t.handlerIndex = 3 ∧ t.handlers = [5, 5, 7] ∧
    (droppingConfig [dropInstruction, nextInstruction]).machine.tasks.find? 1 =
      some { t with handlerIndex := 2, address := 7 } := by
  obtain ⟨past, c, h_past, h_divert⟩ := exists_past_dropping
  obtain ⟨-, -, h_next⟩ := Machine.next_handler plainSetting_immediate {} droppingImage
  have h_stays : ∀ s ∈ [Scene.mk (droppingConfig []) (.execute 1 dropInstruction)
      (droppingConfig [dropInstruction])],
      ∃ u, s.after.machine.tasks.find? 1 = some u ∧ u.inHandler :=
    List.forall_mem_singleton.2 ⟨_, find?_dropped, rfl⟩
  have h_room : (droppingConfig [dropInstruction, nextInstruction]).machine.started - 0 <
      UInt32.size := by decide +kernel
  obtain ⟨t, h_t, -, -, -, h_law⟩ := h_next h_past h_divert
    (.cons step_dropped (.cons step_walked (.nil _))) h_room h_stays rfl rfl
  cases find?_dropped.symm.trans h_t
  exact ⟨_, h_t, rfl, rfl, (h_law (by decide)).task⟩

/-- The handler before it has unregistered two. It returns with a fault then, although the first one
is still left. -/
theorem next_handler_lost : ∃ c m' t,
    Config.Reaches plainSetting ⟨Machine.beginning {} droppingImage, .idle⟩ c ∧
    Step plainSetting c (.execute 1 nextInstruction) ⟨m', c.stage⟩ ∧
    c.machine.tasks.find? 1 = some t ∧ t.inHandler ∧ t.handlerIndex = 2 ∧ t.handlers = [5] ∧
    t.walked = { t with handlerIndex := 0, address := 5 } ∧
    m'.tasks.find? 1 = some { t with handlerIndex := 1, address := 4, inHandler := false } ∧
    m'.log = c.machine.log.push (.fault ⟨.invalidOperand, "ITEREXCEPT", 1⟩) ∧
    ¬ c.machine.WalksOn 1 t m' := by
  let walked := [dropInstruction, nextInstruction]
  let lost := walked ++ [dropInstruction, dropInstruction]
  obtain ⟨past, c, h_past, h_divert⟩ := exists_past_dropping
  have h_second : (droppingConfig walked).machine.tasks.find? 1 =
      some { droppingTask with address := 7, handlers := [5, 5, 7], handlerIndex := 2 } := by
    decide +kernel
  have h_third : (droppingConfig (walked ++ [dropInstruction])).machine.tasks.find? 1 =
      some { droppingTask with address := 8, handlers := [5, 5], handlerIndex := 2 } := by
    decide +kernel
  have h_find : (droppingConfig lost).machine.tasks.find? 1 =
      some { droppingTask with address := 9, handlers := [5], handlerIndex := 2 } := by
    decide +kernel
  have h_drop : Step plainSetting (droppingConfig walked) (.execute 1 dropInstruction)
      (droppingConfig (walked ++ [dropInstruction])) :=
    .execute h_second (by decide +kernel) (by decide +kernel) (by decide +kernel)
  have h_drop' : Step plainSetting (droppingConfig (walked ++ [dropInstruction]))
      (.execute 1 dropInstruction) (droppingConfig lost) :=
    .execute h_third (by decide +kernel) (by decide +kernel) (by decide +kernel)
  have h_lost : Step plainSetting (droppingConfig lost) (.execute 1 nextInstruction)
      (droppingConfig (lost ++ [nextInstruction])) :=
    .execute h_find (by decide +kernel) (by decide +kernel) (by decide +kernel)
  have h_after : (droppingConfig (lost ++ [nextInstruction])).machine.tasks.find? 1 =
      some { droppingTask with
        address := 4, handlers := [5], handlerIndex := 1, inHandler := false } := by
    decide +kernel
  have h_reaches : Config.Reaches plainSetting ⟨Machine.beginning {} droppingImage, .idle⟩
      (droppingConfig lost) :=
    ⟨_, h_past.append (.cons h_divert (.cons step_dropped (.cons step_walked
      (.cons h_drop (.cons h_drop' (.nil _))))))⟩
  refine ⟨_, _, _, h_reaches, h_lost, h_find, rfl, rfl, rfl, rfl, h_after, by decide +kernel,
    fun h => ?_⟩
  cases h_after.symm.trans h.task

end ScriptMachine
