import ScriptMachine.Proofs.Machine.Move

/-!
# Ordinary operations run

Every ordinary operation takes a machine along a run (`Runs`), from a single push to a routine that
asks for ticks and is interrupted by natives which ask for ticks themselves. There is one fact for
each function, in the order of the modules `Machine`, `Machine/Tasks`, `Machine/Execute`,
`Machine/Tick` and `Machine/Run`, and each is put together from those before it. At the end stand

* `Machine.runs_perform` : a routine of ordinary requests runs, if the natives are ordinary;
* `Machine.runs_load` : loading a program runs from the state in which nothing was started.

Carrying out the body of a native is a parameter up to the tick (`Carries`). It is discharged there
by induction on the bound on nested ticks.
-/

namespace ScriptMachine

variable {m m' : Machine}

namespace Machine

/-! ### Values and variables -/

theorem runs_push (m : Machine) (v : Value) : Runs m (m.push v) := (exchange_push m v).runs

theorem runs_pop (m : Machine) : Runs m m.pop.2 := (exchange_pop m).runs

theorem runs_fault (m : Machine) (code : FaultCode) (text : String) (number : UInt32) :
    Runs m (m.fault code text number) := (Exchange.fault m code text number).runs

/-- Only what instructions and the scheduler go by is changed in the task. -/
theorem runs_steer (m : Machine) (task : UInt32) (change : Task → Task)
    (h : ∀ t, (change t).withoutControl = t.withoutControl) : Runs m (m.updateTask task change) :=
  (Move.steer task change h).runs

/-! ### Tasks -/

theorem runs_start (m : Machine) (script : UInt32) : Runs m (m.start script).2 := by
  unfold start
  split
  · rename_i s h_script
    exact (Move.spawn s (mem_of_ofOrdinal? h_script)).runs
  · exact runs_fault ..

theorem runs_startNamed (m : Machine) (name : String) (mask : ScriptKind) :
    Runs m (m.startNamed name mask).2 := by
  unfold startNamed
  split
  · exact runs_fault ..
  · rename_i s h_script
    split
    · exact (Move.spawn s (List.mem_of_find?_eq_some h_script)).runs
    · exact runs_fault ..

theorem runs_stop (m : Machine) (id : UInt32) : Runs m (m.stop id) := by
  unfold stop
  split
  · exact (Move.remove id).runs
  · exact runs_fault ..

theorem runs_stopWhere (m : Machine) (selected : Task → Bool) : Runs m (m.stopWhere selected) :=
  Runs.foldl runs_stop _ m

/-! ### Instructions -/

section

variable (m : Machine) (task : UInt32)

theorem gestures_push (v : Value) : Gestures task m (m.push v) :=
  (Gesture.exchange (exchange_push m v)).gestures

theorem gestures_pop : Gestures task m m.pop.2 := (Gesture.exchange (exchange_pop m)).gestures

theorem gestures_fault (code : FaultCode) (text : String) (number : UInt32) :
    Gestures task m (m.fault code text number) :=
  (Gesture.exchange (.fault m code text number)).gestures

theorem gestures_steer (change : Task → Task)
    (h : ∀ t, (change t).withoutControl = t.withoutControl) :
    Gestures task m (m.updateTask task change) :=
  (Gesture.steer change h).gestures

theorem exchanges_readVariable (id : UInt32) : Exchanges m (m.readVariable task id).2 := by
  unfold readVariable
  split
  · exact .refl
  · exact .single (.fault ..)

theorem acts_writeVariable (id : UInt32) (v : Value) : Acts task m (m.writeVariable task id v) :=
  (Act.store id v).acts

theorem exchanges_pushOperand (i : Instruction) : Exchanges m (m.pushOperand task i) := by
  unfold pushOperand
  split
  · exact .single (exchange_push ..)
  · split
    · exact (exchanges_readVariable m task i.operand).tail (exchange_push ..)
    · exact .single (.fault ..)

theorem exchanges_popOperand {i : Instruction} (h : i.mode ≠ Mode.reference) :
    Exchanges m (m.popOperand task i) := by
  unfold popOperand
  dsimp only
  rw [if_neg h]
  split
  · exact .single (exchange_pop m)
  · exact .single (.fault ..)

theorem popOperand_of_reference {i : Instruction} (h : i.mode = Mode.reference) :
    m.popOperand task i =
      m.pop.2.writeVariable task i.operand (m.pop.1.retag (slotTag i.tag)) := by
  unfold popOperand
  rw [if_neg (by rw [h]; decide), if_pos h]

theorem acts_popOperand (i : Instruction) : Acts task m (m.popOperand task i) := by
  by_cases h : i.mode = Mode.reference
  · rw [popOperand_of_reference m task h]
    exact (gestures_pop m task).acts.trans (acts_writeVariable ..)
  · exact (exchanges_popOperand m task h).gestures.acts

/-- A stack that was made from the one in focus takes its place. -/
theorem exchange_rearrange {f : Stack → Option Stack} (h : ∀ {s t}, f s = some t → s.Step t)
    (name : String) (number : UInt32) :
    Exchange m (m.rearrange (m.currentStack?.bind f) name number) := by
  unfold rearrange
  cases h_focus : m.currentStack? with
  | none => exact .fault ..
  | some s =>
    cases h_made : f s with
    | none => simpa only [Option.bind_some, h_made] using .fault ..
    | some t => simpa only [Option.bind_some, h_made] using .restack h_focus (h h_made)

theorem exchange_exchange (i : Instruction) : Exchange m (m.exchange i) := by
  unfold exchange
  dsimp only
  split
  · exact exchange_rearrange m .swap ..
  · -- a copy from below is pushed, if there is a value at that depth
    split
    · split
      · exact exchange_push ..
      · exact .fault ..
    · refine exchange_rearrange m (fun h => ?_) ..
      obtain ⟨v, -, h_poke⟩ := Option.bind_eq_some_iff.1 h
      exact .poke h_poke

theorem exchange_cast {i : Instruction} (h : i.mode ≠ Mode.zero) :
    Exchange m (m.cast task i) := by
  unfold cast
  rw [if_neg h]
  refine exchange_rearrange m (fun h => ?_) ..
  obtain ⟨v, -, h_poke⟩ := Option.bind_eq_some_iff.1 h
  exact .poke h_poke

theorem cast_of_zero {i : Instruction} (h : i.mode = Mode.zero) :
    m.cast task i = m.writeVariable task i.operand .blank := by
  unfold cast
  rw [if_pos h]

theorem acts_cast (i : Instruction) : Acts task m (m.cast task i) := by
  by_cases h : i.mode = Mode.zero
  · rw [cast_of_zero m task h]
    exact acts_writeVariable ..
  · exact (Act.exchange (exchange_cast m task h)).acts

theorem exchanges_operate (op : Operator) (i : Instruction) : Exchanges m (m.operate op i) := by
  have h_pop : Exchanges m (popMany (op.arity i.tag) m).2 := exchanges_popMany _ m
  have h_push := h_pop.trans (exchanges_pushAll _
    (op.eval i.tag ((popMany (op.arity i.tag) m).1.getD · .zero)).results)
  unfold operate
  dsimp only
  split
  · exact h_push
  · -- the results are there all the same
    exact h_push.tail (.fault ..)

theorem gestures_jump (i : Instruction) : Gestures task m (m.jump task i) :=
  gestures_steer m task _ fun _ => rfl

theorem gestures_jumpIfZero (i : Instruction) : Gestures task m (m.jumpIfZero task i).2 := by
  unfold jumpIfZero
  cases h_condition : m.pop.1.truth with
  | true =>
    simp only [h_condition, if_true]
    exact (gestures_pop m task).trans (gestures_steer _ task _ fun _ => rfl)
  | false =>
    simp only [h_condition, Bool.false_eq_true, if_false]
    exact (gestures_pop m task).trans (gestures_jump ..)

/-- For any truth value, lest the comparison of two numbers be computed in a proof. -/
theorem gestures_setSleeping (b : Bool) :
    Gestures task m (m.updateTask task fun t => { t with sleeping := b }) :=
  gestures_steer m task _ fun _ => rfl

theorem gestures_sleep (setting : Setting) : Gestures task m (sleep setting m task) := by
  have h_pop := gestures_pop m task
  unfold sleep
  generalize m.pop = popped at h_pop ⊢
  obtain ⟨duration, m₁⟩ := popped
  dsimp only at h_pop ⊢
  split
  · exact h_pop
  · exact (h_pop.trans (gestures_setSleeping ..)).trans (gestures_push ..)

theorem gestures_endExcept (i : Instruction) : Gestures task m (m.endExcept task i) := by
  unfold endExcept
  split
  · exact gestures_steer m task _ fun _ => rfl
  · split
    · exact gestures_fault ..
    · exact gestures_steer m task _ fun _ => rfl

theorem gestures_returnExcept : Gestures task m (m.returnExcept task).2 := by
  unfold returnExcept
  split
  · exact gestures_steer m task _ fun _ => rfl
  · exact gestures_fault ..

theorem gestures_nextExcept : Gestures task m (m.nextExcept task).2 := by
  unfold nextExcept
  split
  · exact .refl
  · split
    · exact gestures_returnExcept ..
    · -- the place is lowered first, whether or not a handler is still there
      rename_i t _ _
      have h_lower := gestures_steer m task
        (fun t' => { t' with handlerIndex := t.handlerIndex - 1 }) fun _ => rfl
      dsimp only
      split
      · exact h_lower.trans (gestures_steer _ task _ fun _ => rfl)
      · exact h_lower.trans ((gestures_fault ..).trans (gestures_returnExcept ..))

theorem exchanges_callUnbound (function : UInt32) (native : Native) :
    Exchanges m (m.callUnbound function native) := by
  unfold callUnbound
  have h_pop := exchanges_popMany native.inputs.toNat (m.fault .nativeNotFound native.name function)
  exact .head (.fault ..) (h_pop.trans (exchanges_pushAll _ _))

/-- Most instructions leave all variables alone. -/
theorem gestures_obey (setting : Setting) {i : Instruction} (h_finish : i.opcode ≠ .finish)
    (h_call : i.opcode ≠ .callScript) (h_pop : i.opcode ≠ .pop) (h_cast : i.opcode ≠ .cast) :
    Gestures task m (obey setting task i m).2 := by
  unfold obey
  cases h_opcode : i.opcode with
  | finish => exact absurd h_opcode h_finish
  | callScript => exact absurd h_opcode h_call
  | pop => exact absurd h_opcode h_pop
  | cast => exact absurd h_opcode h_cast
  | jumpIfZero => exact gestures_jumpIfZero ..
  | push => exact (exchanges_pushOperand ..).gestures
  | jump => exact gestures_jump ..
  | sleep => exact gestures_sleep ..
  | except | breakExcept => exact gestures_steer m task _ fun _ => rfl
  | endExcept => exact gestures_endExcept ..
  | returnExcept => exact gestures_returnExcept ..
  | nextExcept => exact gestures_nextExcept ..
  | swap => exact (Gesture.exchange (exchange_exchange m i)).gestures
  | line => exact (Gesture.mark i.operand m.executed m.memory).gestures
  | _ =>
    -- an operator, or nothing that an instruction does
    dsimp only
    split
    · exact (exchanges_operate ..).gestures
    · exact .refl

theorem obey_pop (setting : Setting) {i : Instruction} (h : i.opcode = .pop) :
    obey setting task i m = (.next, m.popOperand task i) := by
  unfold obey
  rw [h]

theorem obey_cast (setting : Setting) {i : Instruction} (h : i.opcode = .cast) :
    obey setting task i m = (.next, m.cast task i) := by
  unfold obey
  rw [h]

/-- **Instructions.** All but two of them do nothing but act. -/
theorem acts_obey (setting : Setting) (i : Instruction) (h_finish : i.opcode ≠ .finish)
    (h_call : i.opcode ≠ .callScript) : Acts task m (obey setting task i m).2 := by
  by_cases h_pop : i.opcode = .pop
  · rw [obey_pop m task setting h_pop]
    exact acts_popOperand ..
  · by_cases h_cast : i.opcode = .cast
    · rw [obey_cast m task setting h_cast]
      exact acts_cast ..
    · exact (gestures_obey m task setting h_finish h_call h_pop h_cast).acts

end

theorem obey_finish (setting : Setting) {task : UInt32} {i : Instruction}
    (h : i.opcode = .finish) : obey setting task i m =
      (.stay, m.updateTask task fun t => { t with stopped := true }) := by
  unfold obey
  rw [h]

theorem obey_callScript (setting : Setting) {task : UInt32} {i : Instruction}
    (h : i.opcode = .callScript) : obey setting task i m = m.callScript task i := by
  unfold obey
  rw [h]

theorem runs_callScript (m : Machine) {task : UInt32} (h_live : m.tasks.contains task)
    (i : Instruction) : Runs m (m.callScript task i).2 := by
  unfold callScript
  dsimp only
  split
  · exact runs_start ..
  · rename_i h_waits
    -- the caller waits only for a task that was started
    unfold start at h_waits ⊢
    split
    · rename_i s h_script
      exact (Move.call task s h_live (mem_of_ofOrdinal? h_script)).runs
    · rename_i h_script
      simp [h_script] at h_waits

/-- The task whose turn it is has to be there, since it may come to wait. -/
theorem runs_obey (setting : Setting) {task : UInt32} (i : Instruction)
    (h_live : m.tasks.contains task) : Runs m (obey setting task i m).2 := by
  by_cases h_finish : i.opcode = .finish
  · rw [obey_finish setting h_finish]
    exact (Move.halt task).runs
  · by_cases h_call : i.opcode = .callScript
    · rw [obey_callScript setting h_call]
      exact runs_callScript m h_live i
    · -- all others act on the task
      exact (acts_obey m task setting i h_finish h_call).runs

/-! ### Turns -/

/-- A body of ordinary requests runs when it is carried out. -/
def Carries (carryOut : Routine Unit → Machine → Option Machine) : Prop :=
  ∀ body, body.Only Request.Ordinary → ∀ m m', carryOut body m = some m' → Runs m m'

/-- The machine that a turn has come to. -/
def Turn.machine : Turn → Machine
  | ended m | going m => m

section

variable {setting : Setting} {carryOut : Routine Unit → Machine → Option Machine}

theorem runs_execute (h_setting : setting.Ordinary) (h_carry : Carries carryOut) {task : UInt32}
    {i : Instruction} {flow : Flow} (h_live : m.tasks.contains task)
    (h : execute setting carryOut task i m = some (flow, m')) : Runs m m' := by
  unfold execute at h
  split at h
  · have h_obey := runs_obey setting i h_live
    rw [Option.some.inj h] at h_obey
    exact h_obey
  · dsimp only at h
    split at h
    · cases h
      exact runs_fault ..
    · rename_i native h_native
      split at h
      · cases h
        exact (exchanges_callUnbound m ..).runs
      · rename_i body h_body
        obtain ⟨m₁, h_carried, h⟩ := Option.bind_eq_some_iff.1 h
        cases h
        -- the body is one that the setting vouches for
        have h_ordinary : body.Only Request.Ordinary :=
          h_setting native (List.mem_of_getElem? h_native) body h_body
        have h_enter : Runs m (m.emit (.nativeEntered i.operand)) :=
          (Exchange.tell (.nativeEntered _) trivial).runs
        have h_leave : Runs m₁ (m₁.emit (.nativeLeft i.operand)) :=
          (Exchange.tell (.nativeLeft _) trivial).runs
        exact (h_enter.trans (h_carry body h_ordinary _ _ h_carried)).trans h_leave

theorem runs_advance (h_setting : setting.Ordinary) (h_carry : Carries carryOut) {task : UInt32}
    {i : Instruction} (h_live : m.tasks.contains task)
    (h : m.advance setting carryOut task i = some m') : Runs m m' := by
  unfold advance at h
  obtain ⟨⟨flow, m₁⟩, h_execute, h⟩ := Option.bind_eq_some_iff.1 h
  have h_count : Runs m { m with executed := m.executed + 1 } :=
    (Move.mark m.ticks m.line (m.executed + 1) m.memory).runs
  have h_run := h_count.trans (runs_execute h_setting h_carry h_live h_execute)
  cases flow with
  | next =>
    cases h
    exact h_run.trans (runs_steer m₁ task _ fun _ => rfl)
  | jumped | stay =>
    cases h
    exact h_run

theorem runs_step (h_setting : setting.Ordinary) (h_carry : Carries carryOut) {task : UInt32}
    {begunInHandler : Bool} {turn : Turn}
    (h : m.step setting carryOut task begunInHandler = some turn) : Runs m turn.machine := by
  unfold step at h
  split at h
  · cases h
    exact .refl m
  · rename_i t h_find
    split at h
    · cases h
      exact .refl m
    · split at h
      · obtain ⟨m₁, h_advance, rfl⟩ := Option.map_eq_some_iff.1 h
        have h_live : m.tasks.contains task := by rw [TaskTable.contains, h_find]; rfl
        exact runs_advance h_setting h_carry h_live h_advance
      · cases h
        exact (runs_fault ..).trans (Move.halt task).runs

/-- **How facts about turns are proven.** What holds of one step, and of steps one after the other,
holds of a turn. -/
theorem steps_lift {R : Machine → Machine → Prop}
    (h_trans : ∀ {m m' m''}, R m m' → R m' m'' → R m m'') {task : UInt32} {begunInHandler : Bool}
    (h_step : ∀ {m turn}, m.step setting carryOut task begunInHandler = some turn →
      R m turn.machine) {budget : Nat}
    (h : m.steps setting carryOut task begunInHandler budget = some m') : R m m' := by
  induction budget generalizing m with
  | zero => contradiction
  | succ budget ih =>
    -- one step comes to no end, ends the turn, or leaves the rest of the budget to the next one
    unfold steps at h
    split at h
    · contradiction
    · rename_i m₁ h_ended
      cases h
      exact h_step h_ended
    · rename_i m₁ h_going
      exact h_trans (h_step h_going) (ih h)

theorem runs_steps (h_setting : setting.Ordinary) (h_carry : Carries carryOut) {task : UInt32}
    {begunInHandler : Bool} {budget : Nat}
    (h : m.steps setting carryOut task begunInHandler budget = some m') : Runs m m' :=
  steps_lift Runs.trans (runs_step h_setting h_carry) h

theorem runs_slice (h_setting : setting.Ordinary) (h_carry : Carries carryOut) {budget : Nat}
    {task : UInt32} (h : m.slice setting carryOut budget task = some m') : Runs m m' := by
  unfold slice at h
  split at h
  · cases h
    exact .refl m
  · obtain ⟨m₁, h_steps, h⟩ := Option.bind_eq_some_iff.1 h
    cases h
    refine Runs.turn task (.refl m) (Runs.trans ?_ (runs_steps h_setting h_carry h_steps))
    -- the turn begins by forgetting that the last one was yielded
    exact runs_steer _ task _ fun _ => rfl

theorem runs_handlerTurn (h_setting : setting.Ordinary) (h_carry : Carries carryOut)
    {budget : Nat} {mask : ScriptKind} {t : Task}
    (h : m.handlerTurn setting carryOut budget mask t = some m') : Runs m m' := by
  unfold handlerTurn at h
  split at h
  · cases h
    exact .refl m
  · split at h
    · exact runs_slice h_setting h_carry h
    · split at h
      · cases h
        exact .refl m
      · split at h
        · cases h
          exact .refl m
        · -- normal flow is left for the handler that was registered last
          refine Runs.trans ?_ (runs_slice h_setting h_carry h)
          exact runs_steer m t.id _ fun _ => rfl

theorem runs_normalTurn (h_setting : setting.Ordinary) (h_carry : Carries carryOut)
    {budget : Nat} {mask : ScriptKind} {t : Task}
    (h : m.normalTurn setting carryOut budget mask t = some m') : Runs m m' := by
  unfold normalTurn at h
  split at h
  · exact runs_slice h_setting h_carry h
  · cases h
    exact .refl m

/-! ### Ticks -/

/-- **How facts about passes are proven.** What holds of every turn of a task that is there, and of
turns one after the other, holds of a pass. -/
theorem pass_lift {R : Machine → Machine → Prop} (h_refl : ∀ m, R m m)
    (h_trans : ∀ {m m' m''}, R m m' → R m' m'' → R m m'')
    {serve : Task → Machine → Option Machine}
    (h_serve : ∀ {t m m'}, m.tasks.find? t.id = some t → serve t m = some m' → R m m')
    {cursor : Option UInt32} (h : m.pass serve cursor = some m') : R m m' := by
  -- along the tasks that are served, since serving one may add some and remove others
  induction cursor, m using pass.induct serve with
  | case1 cursor m h_after =>
    rw [pass, h_after] at h
    cases h
    exact h_refl _
  | case2 cursor m t h_after h_none =>
    rw [pass, h_after] at h
    simp only [h_none] at h
    contradiction
  | case3 cursor m t h_after m₁ h_some ih =>
    rw [pass, h_after] at h
    simp only [h_some] at h
    exact h_trans (h_serve (TaskTable.find?_of_after? h_after) h_some) (ih h)

theorem runs_pass {serve : Task → Machine → Option Machine}
    (h_serve : ∀ {t m m'}, serve t m = some m' → Runs m m') {cursor : Option UInt32}
    (h : m.pass serve cursor = some m') : Runs m m' :=
  pass_lift Runs.refl Runs.trans (fun _ h_served => h_serve h_served) h

theorem runs_settle (m : Machine) (mask : ScriptKind) : Runs m (m.settle mask) := by
  -- those that were marked are removed before anybody is let go, and the tick is counted last
  have h_release := (runs_stopWhere m (·.stopped)).trans (Move.release mask).runs
  exact h_release.move (.mark (((m.stopWhere (·.stopped)).release mask).ticks + 1) _ _ _)

theorem runs_tickWithin (h_setting : setting.Ordinary) (h_carry : Carries carryOut) {budget : Nat}
    {mask : ScriptKind} (h : tickWithin setting carryOut budget mask m = some m') :
    Runs m m' := by
  unfold tickWithin at h
  obtain ⟨m₁, h_handlers, h⟩ := Option.bind_eq_some_iff.1 h
  obtain ⟨m₂, h_normal, h⟩ := Option.bind_eq_some_iff.1 h
  cases h
  have h₁ := runs_pass (runs_handlerTurn h_setting h_carry) h_handlers
  have h₂ := runs_pass (runs_normalTurn h_setting h_carry) h_normal
  exact (h₁.trans h₂).trans (runs_settle m₂ mask)

end

/-! ### Routines -/

/-- What ticks have to do so that ordinary requests run. -/
def Ticks (tick : ScriptKind → Machine → Option Machine) : Prop :=
  ∀ mask m m', tick mask m = some m' → Runs m m'

theorem runs_answer {tick : ScriptKind → Machine → Option Machine} (h_tick : Ticks tick)
    {q : Request} (h_ordinary : q.Ordinary) {a : q.Answer} (h : m.answer tick q = some (a, m')) :
    Runs m m' := by
  cases q with
  -- these begin a new run
  | load | restore | reboot => exact h_ordinary.elim
  | observe | memory =>
    cases h
    exact .refl m
  | push v =>
    cases h
    exact runs_push m v
  | pop =>
    have h_pop := runs_pop m
    rw [Option.some.inj h] at h_pop
    exact h_pop
  | tick mask =>
    obtain ⟨m₁, h_ticked, h⟩ := Option.map_eq_some_iff.1 h
    cases h
    exact h_tick mask m _ h_ticked
  | start script =>
    have h_start := runs_start m script
    rw [Option.some.inj h] at h_start
    exact h_start
  | startNamed name mask =>
    have h_start := runs_startNamed m name mask
    rw [Option.some.inj h] at h_start
    exact h_start
  | stop task =>
    cases h
    exact runs_stop m task
  | stopAll | stopKind mask | stopNamed selected =>
    cases h
    exact runs_stopWhere m _
  | keep memory =>
    cases h
    exact (Move.mark m.ticks m.line m.executed memory).runs
  | note text =>
    cases h
    exact (Exchange.tell (.note text) trivial).runs

end Machine

theorem Routine.runs {α : Type} {tick : ScriptKind → Machine → Option Machine}
    (h_tick : Machine.Ticks tick) {r : Routine α} (h_ordinary : r.Only Request.Ordinary) {a : α}
    (h : r.run tick m = some (a, m')) : m.Runs m' := by
  induction r generalizing m with
  | done b =>
    cases h
    exact .refl _
  | ask q next ih =>
    obtain ⟨h_request, h_next⟩ := h_ordinary
    unfold Routine.run at h
    split at h
    · contradiction
    · rename_i answer m₁ h_answer
      exact (Machine.runs_answer h_tick h_request h_answer).trans (ih answer (h_next answer) h)

namespace Machine

/-- A body that is carried out with ticks of its own runs. -/
theorem carries_run {tick : ScriptKind → Machine → Option Machine} (h_tick : Ticks tick) :
    Carries fun body m => (body.run tick m).map (·.2) := by
  intro body h_body m m' h_carried
  obtain ⟨⟨_, m₁⟩, h_run, rfl⟩ := Option.map_eq_some_iff.1 h_carried
  exact body.runs h_tick h_body h_run

/-- A tick runs, however deep the ticks are nested that natives ask for. -/
theorem runs_tick {setting : Setting} (h_setting : setting.Ordinary) (bound : Nat) :
    Ticks (tick setting bound) := by
  induction bound with
  | zero =>
    intro mask m m' h
    contradiction
  | succ bound ih =>
    intro mask m m' h
    -- a body that asks for ticks gets those of the lower bound
    exact runs_tickWithin h_setting (carries_run ih) h

/-- **Ordinary routines run.** -/
theorem runs_perform {α : Type} {setting : Setting} (h_setting : setting.Ordinary)
    {r : Routine α} (h_ordinary : r.Only Request.Ordinary) {a : α}
    (h : perform setting r m = some (a, m')) : Runs m m' :=
  r.runs (runs_tick h_setting lifetime) h_ordinary h

/-- **Loading runs.** From the beginning on, loading is ordinary. -/
theorem runs_load (m : Machine) (i : Image) : Runs (m.beginning i) (m.load i) :=
  Runs.foldl runs_start _ _

end Machine

end ScriptMachine
