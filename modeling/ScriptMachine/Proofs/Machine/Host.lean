import ScriptMachine.Proofs.Machine.Fate

/-!
# What belongs to the host

The main stack is the host's, and so is the count of the ticks. Scripts get at neither. Values go
over the stack in focus, and in the turn of a task that is its own stack, even when the task has
been stopped in the middle of its turn: then its stack is gone, what is pushed is lost, and a pop
yields zero. The main stack is not the next best choice (`Machine.currentStack?`).

So a turn, with the bodies of natives that are carried out in it, leaves alone what belongs to the
host (`SparesHost`), and leaves the focus where it was. This is said of all that a turn is made of,
as long as a task is in focus, and then of turns and passes, whatever is in focus around them.

That instructions find the focus on their own task is a fact about the middle of a tick, so it is
said of passages. A tick takes one passage and no other (`Passage.prefix_of_idle`), and all along it
the focus is on the task whose turn it is (`Config.Attentive`).
-/

namespace ScriptMachine

variable {setting : Setting}

namespace Machine

/-- The main stack, the count of the ticks and the focus are as they were. -/
structure SparesHost (m m' : Machine) : Prop where
  stack : m'.stack = m.stack
  ticks : m'.ticks = m.ticks
  focus : m'.focus = m.focus
  running : m'.running = m.running

variable {m m' : Machine} {task : UInt32}

theorem SparesHost.refl (m : Machine) : SparesHost m m := ⟨rfl, rfl, rfl, rfl⟩

theorem SparesHost.trans {m'' : Machine} (h : SparesHost m m') (h' : SparesHost m' m'') :
    SparesHost m m'' where
  stack := h'.stack.trans h.stack
  ticks := h'.ticks.trans h.ticks
  focus := h'.focus.trans h.focus
  running := h'.running.trans h.running

/-! ### In the turn of a task -/

theorem Exchange.sparesHost (h : Exchange m m') (h_focus : m.focus = .task task) :
    SparesHost m m' := by
  cases h with
  | tell => exact ⟨rfl, rfl, rfl, rfl⟩
  | @restack s t _ _ =>
    -- the stack in focus is that of a task
    have h_stack : m.setStack t = m.updateTask task fun u => { u with stack := t } := by
      unfold setStack
      rw [h_focus]
    rw [h_stack]
    exact ⟨rfl, rfl, rfl, rfl⟩

theorem Exchanges.sparesHost (h : Exchanges m m') (h_focus : m.focus = .task task) :
    SparesHost m m' := by
  induction h with
  | refl => exact .refl m
  | tail _ h_exchange ih => exact ih.trans (h_exchange.sparesHost (ih.focus.trans h_focus))

theorem Act.sparesHost {own : UInt32} (h : Act own m m') (h_focus : m.focus = .task task) :
    SparesHost m m' := by
  cases h with
  | exchange h => exact h.sparesHost h_focus
  | store id v =>
    obtain ⟨globals, change, h_set, -⟩ := setVariable_spec m own id v
    unfold writeVariable
    split
    · exact ⟨rfl, rfl, rfl, rfl⟩
    · rw [foldl_emit, h_set]
      exact ⟨rfl, rfl, rfl, rfl⟩
  | steer | mark => exact ⟨rfl, rfl, rfl, rfl⟩

theorem Acts.sparesHost {own : UInt32} (h : Acts own m m') (h_focus : m.focus = .task task) :
    SparesHost m m' := by
  induction h with
  | refl => exact .refl m
  | tail _ h_act ih => exact ih.trans (h_act.sparesHost (ih.focus.trans h_focus))

/-- The parameters come from the stack in focus. -/
theorem sparesHost_spawn (h_focus : m.focus = .task task) (script : Script) :
    SparesHost m (m.spawn script).2 := by
  obtain ⟨m₁, s, h_exchanges, -, h_spawn⟩ := spawn_spec m script
  have h_taken : m.takeId.focus = .task task := h_focus
  -- the parameters are taken with the focus unchanged
  obtain ⟨h_stack, h_ticks, h_same, h_running⟩ := h_exchanges.sparesHost h_taken
  rw [h_spawn]
  exact ⟨h_stack, h_ticks, h_same, h_running⟩

theorem sparesHost_start (h_focus : m.focus = .task task) (script : UInt32) :
    SparesHost m (m.start script).2 := by
  unfold start
  split
  · exact sparesHost_spawn h_focus _
  · exact ⟨rfl, rfl, rfl, rfl⟩

/-- Tasks have no say in the focus, so it stays on a task that is stopped. -/
theorem sparesHost_stop (m : Machine) (id : UInt32) : SparesHost m (m.stop id) := by
  unfold stop remove
  split
  · split
    · exact .refl m
    · rw [foldl_emit]
      exact ⟨rfl, rfl, rfl, rfl⟩
  · exact ⟨rfl, rfl, rfl, rfl⟩

/-- What a native asks for in the turn of a task. -/
theorem sparesHost_answer {q : Request} {a : q.Answer} (h_focus : m.focus = .task task)
    (h_immediate : q.Immediate) (h : m.answer noTick q = some (a, m')) : SparesHost m m' := by
  -- the focus is handed on from one part of the answer to the next
  refine answer_lift (R := fun m m' => m.focus = .task task → SparesHost m m')
    (fun m _ => .refl m) (fun h h' h_focus => ?_) (fun h h_focus => h.sparesHost h_focus)
    (fun m script h_focus => sparesHost_spawn h_focus script) (fun m id _ => sparesHost_stop m id)
    (fun m memory _ => ⟨rfl, rfl, rfl, rfl⟩) h_immediate h h_focus
  have h_first := h h_focus
  exact h_first.trans (h' (h_first.focus.trans h_focus))

theorem sparesHost_run {α : Type} {tick : ScriptKind → Machine → Option Machine} {r : Routine α}
    {a : α} (h_focus : m.focus = .task task) (h_only : r.Only Request.Immediate)
    (h : r.run tick m = some (a, m')) : SparesHost m m' := by
  -- on the routine; each answer leaves the task in focus for the next request
  induction r generalizing m with
  | done b =>
    cases h
    exact .refl _
  | ask q next ih =>
    obtain ⟨h_immediate, h_next⟩ := h_only
    rw [Routine.run_ask] at h
    obtain ⟨⟨answer, m₁⟩, h_answer, h⟩ := Option.bind_eq_some_iff.1 h
    rw [answer_immediate h_immediate] at h_answer
    have h_first := sparesHost_answer h_focus h_immediate h_answer
    exact h_first.trans (ih answer (h_first.focus.trans h_focus) (h_next answer) h)

theorem sparesHost_obey (h_focus : m.focus = .task task) (setting : Setting) (i : Instruction) :
    SparesHost m (obey setting task i m).2 := by
  -- the end of a script, a call, and all others, which act on the task alone
  by_cases h_finish : i.opcode = .finish
  · rw [obey_finish setting h_finish]
    exact ⟨rfl, rfl, rfl, rfl⟩
  by_cases h_call : i.opcode = .callScript
  · rw [obey_callScript setting h_call]
    have h_start := sparesHost_start h_focus i.operand
    unfold callScript
    dsimp only
    split
    · exact h_start
    · exact h_start.trans ⟨rfl, rfl, rfl, rfl⟩
  · exact (acts_obey m task setting i h_finish h_call).sparesHost h_focus

/-- An instruction that does not carry out the body of a native. -/
theorem sparesHost_advance_noBody {i : Instruction} (h_focus : m.focus = .task task)
    (h : m.advance setting noBody task i = some m') : SparesHost m m' := by
  unfold advance at h
  obtain ⟨⟨flow, m₁⟩, h_execute, h⟩ := Option.bind_eq_some_iff.1 h
  have h_executed : SparesHost m m₁ := by
    have h_count : SparesHost m { m with executed := m.executed + 1 } := ⟨rfl, rfl, rfl, rfl⟩
    have h_counted := h_count.focus.trans h_focus
    refine h_count.trans ?_
    rcases execute_cases h_execute with ⟨-, -, h_acts⟩ | ⟨-, h_obey⟩
    · exact h_acts.sparesHost h_counted
    · have h_obeyed := sparesHost_obey h_counted setting i
      rw [← h_obey] at h_obeyed
      exact h_obeyed
  cases flow with
  | next =>
    cases h
    exact h_executed.trans ⟨rfl, rfl, rfl, rfl⟩
  | jumped | stay =>
    cases h
    exact h_executed

/-! ### Turns and passes -/

/-- Bodies that are carried out in the turn of a task spare the host. -/
def Considerate (carryOut : Routine Unit → Machine → Option Machine) : Prop :=
  ∀ body, body.Only Request.Immediate → ∀ m m' task, m.focus = .task task →
    carryOut body m = some m' → SparesHost m m'

theorem considerate_run (tick : ScriptKind → Machine → Option Machine) :
    Considerate fun body m => (body.run tick m).map (·.2) := by
  intro body h_body m m' task h_focus h
  obtain ⟨⟨_, m₁⟩, h_run, rfl⟩ := Option.map_eq_some_iff.1 h
  exact sparesHost_run h_focus h_body h_run

section

variable (h_setting : setting.Immediate) {carryOut : Routine Unit → Machine → Option Machine}
  (h_bodies : Considerate carryOut)

include h_setting h_bodies

theorem sparesHost_advance {i : Instruction} (h_focus : m.focus = .task task)
    (h : m.advance setting carryOut task i = some m') : SparesHost m m' := by
  -- with a body there are the entry, the body itself and the way out
  rcases advance_bodies h with h_plain |
    ⟨native, body, m₁, -, h_native, h_body, h_carried, rfl⟩
  · exact sparesHost_advance_noBody h_focus h_plain
  · have h_immediate := h_setting native (List.mem_of_getElem? h_native) body h_body
    have h_enter : SparesHost m
        ({ m with executed := m.executed + 1 }.emit (.nativeEntered i.operand)) :=
      ⟨rfl, rfl, rfl, rfl⟩
    have h_carry := h_bodies body h_immediate _ m₁ task (h_enter.focus.trans h_focus) h_carried
    exact (h_enter.trans h_carry).trans ⟨rfl, rfl, rfl, rfl⟩

theorem sparesHost_step {begunInHandler : Bool} {turn : Turn} (h_focus : m.focus = .task task)
    (h : m.step setting carryOut task begunInHandler = some turn) :
    SparesHost m turn.machine := by
  unfold step at h
  split at h
  · cases h
    exact .refl m
  · split at h
    · cases h
      exact .refl m
    · split at h
      · obtain ⟨m₁, h_advance, rfl⟩ := Option.map_eq_some_iff.1 h
        exact sparesHost_advance h_setting h_bodies h_focus h_advance
      · cases h
        exact ⟨rfl, rfl, rfl, rfl⟩

theorem sparesHost_steps {begunInHandler : Bool} {budget : Nat} (h_focus : m.focus = .task task)
    (h : m.steps setting carryOut task begunInHandler budget = some m') : SparesHost m m' := by
  -- the focus has to be handed on from step to step
  refine steps_lift (R := fun m m' => m.focus = .task task → SparesHost m m')
    (fun h h' h_focus => ?_) (fun h h_focus => ?_) h h_focus
  · have h_first := h h_focus
    exact h_first.trans (h' (h_first.focus.trans h_focus))
  · exact sparesHost_step h_setting h_bodies h_focus h

/-- In a turn the focus is on the task, and afterwards it is where it was. -/
theorem sparesHost_slice {budget : Nat} (h : m.slice setting carryOut budget task = some m') :
    SparesHost m m' := by
  unfold slice at h
  split at h
  · cases h
    exact .refl m
  · obtain ⟨m₁, h_steps, h⟩ := Option.bind_eq_some_iff.1 h
    cases h
    have h_turn := sparesHost_steps h_setting h_bodies rfl h_steps
    exact ⟨h_turn.stack, h_turn.ticks, rfl, rfl⟩

theorem sparesHost_pass {p : Pass} {budget : Nat} {mask : ScriptKind} {cursor : Option UInt32}
    (h : m.pass (p.turn setting carryOut budget mask) cursor = some m') : SparesHost m m' := by
  refine pass_lift .refl .trans (fun {t m m'} _ h_turn => ?_) h
  rw [Pass.turn_eq] at h_turn
  -- a turn is one slice, after a detour or without one
  cases h_service : p.service mask t with
  | skip =>
    rw [h_service] at h_turn
    cases h_turn
    exact .refl m
  | serve =>
    rw [h_service] at h_turn
    exact sparesHost_slice h_setting h_bodies h_turn
  | divert address =>
    rw [h_service] at h_turn
    have h_divert : SparesHost m (m.divert t.id address) := ⟨rfl, rfl, rfl, rfl⟩
    exact h_divert.trans (sparesHost_slice h_setting h_bodies h_turn)

end

/-- **Ticks.** The one thing of the host's that a tick changes is the count of the ticks. -/
theorem host_tick (h_setting : setting.Immediate) {bound : Nat} {mask : ScriptKind}
    (h : tick setting bound mask m = some m') :
    m'.stack = m.stack ∧ m'.ticks = m.ticks + 1 ∧ m'.focus = m.focus ∧
      m'.running = m.running := by
  cases bound with
  | zero => contradiction
  | succ bound =>
    have h_bodies := considerate_run (tick setting bound)
    unfold tick tickWithin at h
    obtain ⟨m₁, h_handlers, h⟩ := Option.bind_eq_some_iff.1 h
    obtain ⟨m₂, h_normal, h⟩ := Option.bind_eq_some_iff.1 h
    cases h
    have h_first := sparesHost_pass (p := .handlers) h_setting h_bodies h_handlers
    have h_second := sparesHost_pass (p := .normal) h_setting h_bodies h_normal
    -- both passes spare the host, and the end of the tick counts it
    obtain ⟨h_stack, h_ticks, h_focus, h_running⟩ := h_first.trans h_second
    rw [settle_eq, stopWhere_eq]
    exact ⟨h_stack, congrArg (· + 1) h_ticks, h_focus, h_running⟩

/-- A task that is gone has no stack, and nothing takes its place. -/
theorem lost_of_gone (h_focus : m.focus = .task task) (h_gone : m.tasks.find? task = none) :
    (∀ v, m.push v = m.fault .taskIdNotFound "" task) ∧
      m.pop = (.zero, m.fault .taskIdNotFound "" task) := by
  have h_stack : m.currentStack? = none := by
    unfold State.currentStack?
    rw [h_focus]
    dsimp only
    rw [h_gone]
    rfl
  have h_lost : m.lostStack = m.fault .taskIdNotFound "" task := by
    unfold lostStack
    rw [h_focus]
  unfold push pop
  rw [h_stack, h_lost]
  exact ⟨fun _ => rfl, rfl⟩

end Machine

/-! ### In the middle of a tick -/

/-- The focus is on the task whose turn it is, and that task is the running one. -/
structure Config.Attentive (c : Config) : Prop where
  focused : c.Focused
  running : c.machine.running = c.stage.task?

variable {c c' : Config} {d : Deed} {scenes : List Scene}

theorem Machine.SparesHost.attentive (h : c.machine.SparesHost c'.machine) (h_c : c.Attentive)
    (h_stage : c'.stage.task? = c.stage.task?) : c'.Attentive where
  focused := ((congrArg Focus.task? h.focus).trans h_c.focused).trans h_stage.symm
  running := (h.running.trans h_c.running).trans h_stage.symm

/-- Within a tick a step keeps the focus on whose turn it is, and the main stack as it is. -/
theorem Step.attentive (h : Step setting c d c') (h_stage : c.stage.Inside)
    (h_c : c.Attentive) : c'.Attentive ∧ c'.machine.stack = c.machine.stack := by
  -- only three steps move the focus, and they move it to where the turn is or away from it
  cases h with
  | ask | tick => exact h_stage.elim
  | skip | nextPass | enter | leave | overrun => exact ⟨⟨h_c.focused, h_c.running⟩, rfl⟩
  | serve | divert | close => exact ⟨⟨rfl, rfl⟩, rfl⟩
  | execute _ _ _ h_advance =>
    have h_spares :=
      Machine.sparesHost_advance_noBody (Focus.eq_of_task? h_c.focused) h_advance
    exact ⟨h_spares.attentive h_c rfl, h_spares.stack⟩
  | request h_immediate h_answer =>
    have h_spares :=
      Machine.sparesHost_answer (Focus.eq_of_task? h_c.focused) h_immediate h_answer
    exact ⟨h_spares.attentive h_c rfl, h_spares.stack⟩
  | settle =>
    rw [Machine.settle_eq, Machine.stopWhere_eq]
    exact ⟨⟨h_c.focused, h_c.running⟩, rfl⟩

theorem Passage.attentive (h : Passage setting c scenes c') (h_c : c.Attentive) :
    c'.Attentive ∧ c'.machine.stack = c.machine.stack := by
  obtain ⟨h_course, h_inside⟩ := h
  induction h_course with
  | nil => exact ⟨h_c, rfl⟩
  | cons h_step _ ih =>
    obtain ⟨h_stage, h_later⟩ := List.forall_mem_cons.1 h_inside
    obtain ⟨h_next, h_stack⟩ := h_step.attentive h_stage h_c
    obtain ⟨h_last, h_stacks⟩ := ih h_next h_later
    exact ⟨h_last, h_stacks.trans h_stack⟩

/-! ### Ticks and the host -/

/-- A turn is begun for a task that is there. -/
theorem Step.find?_of_begun (h : Step setting c d c') {task : UInt32}
    (h_begun : d = .serve task ∨ d = .divert task) :
    ∃ t, c.machine.tasks.find? task = some t := by
  rcases h_begun with rfl | rfl
  · cases h with
    | serve h_next => exact ⟨_, TaskTable.find?_of_after? h_next⟩
  · cases h with
    | divert h_next => exact ⟨_, TaskTable.find?_of_after? h_next⟩

/-- It is the instruction at the address of a task that is there. -/
theorem Step.find?_of_execute {task : UInt32} {i : Instruction}
    (h : Step setting c (.execute task i) c') :
    ∃ t, c.machine.tasks.find? task = some t ∧
      c.machine.program.code[t.address.toNat]? = some i := by
  cases h with
  | execute h_find _ h_code | enter h_find _ h_code => exact ⟨_, h_find, h_code⟩

/-- A scene of a tick that has begun with `m`, as the host wants it to be. -/
structure Scene.SparesHost (m : Machine) (s : Scene) : Prop where
  stack : s.after.machine.stack = m.stack
  /-- Turns are begun for tasks that are there. -/
  begun {task : UInt32} (h : s.deed = .serve task ∨ s.deed = .divert task) :
    ∃ t, s.before.machine.tasks.find? task = some t
  /-- In the turn of a task, and in the bodies of the natives that it calls, the task is the running
  one and its stack is in focus. -/
  turn {task : UInt32} (h : s.before.stage.task? = some task) :
    s.before.machine.focus = .task task ∧ s.before.machine.running = some task ∧
      s.before.machine.currentStack? = (s.before.machine.tasks.find? task).map (·.stack)
  /-- Once the task is gone, nothing gets anywhere. -/
  gone {task : UInt32} (h : s.before.stage.task? = some task)
    (h_gone : s.before.machine.tasks.find? task = none) :
    (∀ v, s.before.machine.push v = s.before.machine.fault .taskIdNotFound "" task) ∧
      s.before.machine.pop = (.zero, s.before.machine.fault .taskIdNotFound "" task)
  /-- Instructions are executed in the turn of their task, which is there. -/
  execute {task : UInt32} {i : Instruction} (h : s.deed = .execute task i) :
    s.before.stage.task? = some task ∧ ∃ t, s.before.machine.tasks.find? task = some t ∧
      s.before.machine.program.code[t.address.toNat]? = some i ∧
      s.before.machine.currentStack? = some t.stack

theorem Step.sparesHost {m : Machine} {s : Scene} (h : Step setting s.before s.deed s.after)
    (h_before : s.before.Attentive) (h_stack : s.after.machine.stack = m.stack) :
    s.SparesHost m := by
  -- the focus tells whose turn it is, and with that whose stack is the current one
  have h_turn {task : UInt32} (h_task : s.before.stage.task? = some task) :
      s.before.machine.focus = .task task :=
    Focus.eq_of_task? (h_before.focused.trans h_task)
  have h_current {task : UInt32} (h_task : s.before.stage.task? = some task) :
      s.before.machine.currentStack? = (s.before.machine.tasks.find? task).map (·.stack) := by
    unfold State.currentStack?
    rw [h_turn h_task]
  refine ⟨h_stack, h.find?_of_begun, fun h_task => ?_, fun h_task h_gone => ?_, fun h_deed => ?_⟩
  · exact ⟨h_turn h_task, h_before.running.trans h_task, h_current h_task⟩
  · exact Machine.lost_of_gone (h_turn h_task) h_gone
  · rw [h_deed] at h
    have h_task := h.task?_of_execute
    obtain ⟨t, h_find, h_code⟩ := h.find?_of_execute
    refine ⟨h_task, t, h_find, h_code, ?_⟩
    rw [h_current h_task, h_find]
    rfl

/-- **Scripts leave the main stack alone.** Natives may stop the task that calls them, but run no
ticks. A tick takes one passage; all along it, and along any part of it that was taken already, each
instruction is executed with the stack of its own task in focus and with this task as the running
one, and the main stack stays as it was before the tick. After the tick the focus is on the main
stack again, and no task is running. -/
theorem Machine.tick_spares_host (h_setting : setting.Immediate) (mask : ScriptKind) {m : Machine}
    (h_resting : m.Resting) :
    (∀ {scenes c}, Passage setting ⟨m, .pass .handlers mask none⟩ scenes c →
      ∀ s ∈ scenes, s.SparesHost m) ∧
    ∀ bound m', tick setting bound mask m = some m' →
      (∃ scenes, Passage setting ⟨m, .pass .handlers mask none⟩ scenes ⟨m', .idle⟩ ∧
        ∀ {scenes₂ c}, Passage setting ⟨m, .pass .handlers mask none⟩ scenes₂ c →
          scenes₂ <+: scenes) ∧
      m'.stack = m.stack ∧ m'.focus = .main ∧ m'.running = none := by
  refine ⟨fun {scenes c} h_passage s h_s => ?_, fun bound m' h_tick => ⟨?_, ?_⟩⟩
  · have h_begin : Config.Attentive ⟨m, .pass .handlers mask none⟩ :=
      ⟨congrArg Focus.task? h_resting.1, h_resting.2⟩
    -- the scene is reached by a part of the passage, all of which was attentive
    obtain ⟨past, future, rfl⟩ := List.append_of_mem h_s
    obtain ⟨h_course, h_inside⟩ := h_passage
    obtain ⟨h_past, h_step, -⟩ := h_course.at_scene
    obtain ⟨h_past_inside, h_here⟩ := List.forall_mem_append.1 h_inside
    obtain ⟨h_before, h_stack⟩ := Passage.attentive ⟨h_past, h_past_inside⟩ h_begin
    obtain ⟨-, h_kept⟩ := h_step.attentive (h_here s List.mem_cons_self) h_before
    exact h_step.sparesHost h_before (h_kept.trans h_stack)
  · exact exists_passage h_setting h_resting h_tick
  · -- what the tick as a whole does to the host's part
    obtain ⟨h_stack, -, h_focus, h_running⟩ := host_tick h_setting h_tick
    exact ⟨h_stack, h_focus.trans h_resting.1, h_running.trans h_resting.2⟩

/-- A host has put a number on the main stack, and the script is about to have itself stopped. -/
def hostingMachine : Machine := (Machine.load {} holdingImage).push (.ofInt 5)

/-- A tick later. -/
def hostedMachine : Machine := (Machine.tick haltingSetting 5 .all hostingMachine).getD {}

theorem haltingSetting_immediate : haltingSetting.Immediate := by
  intro native h_native body h_body
  obtain rfl := List.mem_singleton.1 h_native
  obtain rfl := Option.some.inj h_body
  exact ⟨trivial, fun _ => ⟨trivial, fun _ => trivial⟩⟩

/-- The number is still there, though the task was stopped in the middle of its turn. -/
theorem tick_spares_host_hosting :
    hostingMachine.Resting ∧
    Machine.tick haltingSetting 5 .all hostingMachine = some hostedMachine ∧
    (∃ scenes, Passage haltingSetting ⟨hostingMachine, .pass .handlers .all none⟩ scenes
      ⟨hostedMachine, .idle⟩ ∧ ∀ s ∈ scenes, s.SparesHost hostingMachine) ∧
    hostedMachine.stack.values = [.ofInt 5] ∧ hostedMachine.focus = .main ∧
    hostedMachine.log.toList = [.objectHeld 7, .nativeEntered 0, .objectReleased 7, .taskStopped 1,
      .nativeLeft 0] := by
  have h_resting : hostingMachine.Resting := by
    unfold Machine.Resting
    decide +kernel
  have h_tick : Machine.tick haltingSetting 5 .all hostingMachine = some hostedMachine := by
    decide +kernel
  obtain ⟨h_scenes, h_ticks⟩ := Machine.tick_spares_host haltingSetting_immediate .all h_resting
  obtain ⟨⟨scenes, h_passage, -⟩, h_stack, h_focus, -⟩ := h_ticks 5 _ h_tick
  have h_values : hostingMachine.stack.values = [.ofInt 5] := by decide +kernel
  refine ⟨h_resting, h_tick, ⟨scenes, h_passage, h_scenes h_passage⟩, ?_, h_focus, ?_⟩
  · rw [h_stack, h_values]
  · decide +kernel

end ScriptMachine
