import ScriptMachine.Proofs.Machine.Course
import ScriptMachine.Proofs.Machine.References

/-!
# What becomes of tasks

A step does one of seven things to the tasks of a machine (`Outcome`), and `Step.outcome` says so
once for all steps, whatever is asked or executed in them. From there the look turns to a single
task: `Step.fate` tells what becomes of one that is live, and `Step.arrival` where one comes from
that was not. Both need the next id to be free, which it is as long as ids do not wrap around
(`Counted`).
-/

namespace ScriptMachine

/-! ### Who is meant -/

/-- Which tasks a request asks to stop. -/
def Request.selects : Request → Task → Bool
  | .stop task, t => t.id == task
  | .stopAll, _ => true
  | .stopKind mask, t => t.kind.overlaps mask
  | .stopNamed selected, t => selected t.name t.file
  | _, _ => false

namespace Deed

/-- A stop that selects the task is asked for. -/
def Selects (d : Deed) (t : Task) : Prop :=
  match d with
  | .ask _ q _ => q.selects t
  | _ => False

/-- The task has come to its end, or has run out of the code. -/
def Halts (d : Deed) (task : UInt32) : Prop :=
  match d with
  | .execute actor i => actor = task ∧ i.opcode = .finish
  | .overrun actor => actor = task
  | _ => False

/-- Whose doing it is. What a native asks for is done by the task that called it. -/
def actor? : Deed → Option UInt32
  | .ask caller _ _ => caller
  | .serve task | .divert task | .execute task _ | .leave task _ | .overrun task | .close task =>
    some task
  | .tick _ | .skip _ | .nextPass | .settle _ => none

theorem actor?_of_halts {d : Deed} {id : UInt32} (h : d.Halts id) : d.actor? = some id := by
  cases d with
  | execute task i => exact congrArg some h.1
  | overrun task => exact congrArg some h
  | _ => exact h.elim

end Deed

/-! ### The focus -/

/-- The stack in focus is that of the task whose turn it is. -/
def Config.Focused (c : Config) : Prop := c.machine.focus.task? = c.stage.task?

variable {setting : Setting} {c c' : Config} {d : Deed} {scenes : List Scene}

theorem Machine.runs_advance_noBody {m m' : Machine} {task : UInt32} {i : Instruction}
    (h_live : m.tasks.contains task) (h : m.advance setting noBody task i = some m') :
    m.Runs m' := by
  unfold advance at h
  obtain ⟨⟨flow, m₁⟩, h_execute, h⟩ := Option.bind_eq_some_iff.1 h
  -- the instruction is counted first, then carried out, and then the address moves on
  have h_count : Runs m { m with executed := m.executed + 1 } :=
    (Move.mark m.ticks m.line (m.executed + 1) m.memory).runs
  have h_run : Runs m m₁ := by
    rcases execute_cases h_execute with ⟨-, -, h_acts⟩ | ⟨-, h_obey⟩
    · exact h_count.trans h_acts.runs
    · have h_obeyed := runs_obey (m := { m with executed := m.executed + 1 }) setting i h_live
      rw [← h_obey] at h_obeyed
      exact h_count.trans h_obeyed
  cases flow with
  | next =>
    cases h
    exact h_run.trans (runs_steer m₁ task _ fun _ => rfl)
  | jumped | stay =>
    cases h
    exact h_run

theorem Step.focused (h : Step setting c d c') (h_focus : c.Focused) : c'.Focused := by
  have h_runs {m m' : Machine} (h_run : m.Runs m') : m'.focus.task? = m.focus.task? :=
    congrArg Focus.task? h_run.focus_eq.1
  -- a turn sets the focus when it begins and when it is over; in between runs do not move it
  cases h with
  | ask h_immediate h_answer | request h_immediate h_answer =>
    exact (h_runs (Machine.runs_answer_immediate h_immediate h_answer)).trans h_focus
  | tick | skip | nextPass | enter | leave | overrun => exact h_focus
  | serve | divert | close => rfl
  | execute h_find _ _ h_advance =>
    have h_live := TaskTable.contains_eq_true_iff.2 ⟨_, h_find⟩
    exact (h_runs (Machine.runs_advance_noBody h_live h_advance)).trans h_focus
  | settle h_none => exact (h_runs (Machine.runs_settle _ _)).trans h_focus

theorem Course.focused (h : Course setting c scenes c') (h_focus : c.Focused) : c'.Focused := by
  induction h with
  | nil => exact h_focus
  | cons h_step _ ih => exact ih (h_step.focused h_focus)

/-- The turn that a machine is in. -/
def Stage.stint? : Stage → Option Stint
  | .idle | .pass .. => none
  | .turn s | .native s _ _ => some s

/-- In a turn, what has just been done was done by the task whose turn it is. -/
theorem Step.actor?_of_stint {s : Stint} (h : Step setting c d c')
    (h_stint : c'.stage.stint? = some s) : d.actor? = some s.task := by
  cases h with
  | ask | tick | skip | close | nextPass | settle => contradiction
  | serve | divert | execute | enter | request | leave | overrun =>
    obtain rfl := Option.some.inj h_stint
    rfl

/-- A task executes instructions in its own turn. -/
theorem Step.task?_of_execute {task : UInt32} {i : Instruction}
    (h : Step setting c (.execute task i) c') : c.stage.task? = some task := by
  cases h <;> rfl

/-! ### Outcomes -/

namespace Machine

/-- What a step does to the tasks. -/
inductive Outcome (m : Machine) : Deed → Machine → Prop
  | quiet {d : Deed} {m' : Machine} (h : Confined d.actor? m m') : Outcome m d m'
  | began {d : Deed} {m' : Machine} {script : Script} (h : Began d.actor? script m m') :
      Outcome m d m'
  /-- The caller waits for the task that it has started. -/
  | called {task : UInt32} {i : Instruction} {m' : Machine} {script : Script}
      (h_own : task ≠ m.highestTask + 1) (h_call : i.opcode = .callScript)
      (h_mode : i.mode ≠ Mode.async) (h : Began (some task) script m m')
      (h_caller : ∀ t, m.tasks.find? task = some t →
        ∃ s, m'.tasks.find? task = some { t with stack := s }) :
      Outcome m (.execute task i)
        (m'.updateTask task fun t => { t with waitingFor := m.highestTask + 1 })
  | finished {task : UInt32} {i : Instruction} {m' : Machine} (h_finish : i.opcode = .finish)
      (h : Confined (some task) m m') :
      Outcome m (.execute task i) (m'.updateTask task fun t => { t with stopped := true })
  | overran {task : UInt32} {m' : Machine} (h : Confined (some task) m m') :
      Outcome m (.overrun task) (m'.updateTask task fun t => { t with stopped := true })
  | stopped (caller : Option UInt32) (q : Request) (a : q.Answer) :
      Outcome m (.ask caller q a) (m.stopWhere q.selects)
  | settled (mask : ScriptKind) : Outcome m (.settle mask) (m.settle mask)

/-- An answer that is given at once is of no consequence to tasks, or it starts or stops some. -/
theorem answer_cases {m m' : Machine} {q : Request} {a : q.Answer} (h_immediate : q.Immediate)
    (h : m.answer noTick q = some (a, m')) :
    Confined m.focus.task? m m' ∨ (∃ script, Began m.focus.task? script m m') ∨
      m' = m.stopWhere q.selects := by
  -- by what is asked for: exchanges are confined, starts begin a task, stops remove some
  cases q with
  | tick | load | restore | reboot => exact h_immediate.elim
  | observe | memory =>
    cases h
    exact .inl (.refl m)
  | push v =>
    cases h
    exact .inl (exchange_push m v).confined
  | pop =>
    have h_pop := (exchange_pop m).confined
    rw [Option.some.inj h] at h_pop
    exact .inl h_pop
  | start script =>
    have h_start := (starting_start m.focus.task? m script).extent
    rw [Option.some.inj h] at h_start
    exact h_start.elim (fun ⟨s, _, h_began⟩ => .inr (.inl ⟨s, h_began⟩)) .inl
  | startNamed name mask =>
    have h_start := (starting_startNamed m.focus.task? m name mask).extent
    rw [Option.some.inj h] at h_start
    exact h_start.elim (fun ⟨s, _, h_began⟩ => .inr (.inl ⟨s, h_began⟩)) .inl
  | stop task =>
    cases h
    rcases stop_cases m.focus.task? m task with h_stop | h_confined
    · exact .inr (.inr h_stop)
    · exact .inl h_confined
  | stopAll | stopKind mask | stopNamed selected =>
    cases h
    exact .inr (.inr rfl)
  | keep memory =>
    cases h
    exact .inl (.of_eq rfl rfl rfl rfl rfl)
  | note text =>
    cases h
    exact .inl (.emit m trivial)

end Machine

theorem Machine.confined_begin (m : Machine) (task : UInt32) :
    Confined (some task) m (m.begin task) := by
  have h_focus : Confined (some task) m { m with focus := .task task, running := some task } :=
    .of_eq rfl rfl rfl rfl rfl
  exact h_focus.trans (.updateTask _ task fun _ => rfl)

theorem Machine.confined_divert (m : Machine) (task address : UInt32) :
    Confined (some task) m (m.divert task address) := .updateTask m task fun _ => rfl

/-- **What a step does to the tasks.** Nobody has the next id yet. -/
theorem Step.outcome (h : Step setting c d c') (h_focus : c.Focused)
    (h_fresh : c.machine.tasks.find? (c.machine.highestTask + 1) = none) :
    c.machine.Outcome d c'.machine := by
  cases h with
  | ask h_immediate h_answer | request h_immediate h_answer =>
    have h_cases := Machine.answer_cases h_immediate h_answer
    -- a native is answered with the stack of the task that called it in focus
    rw [show Focus.task? _ = _ from h_focus] at h_cases
    rcases h_cases with h_confined | ⟨script, h_began⟩ | rfl
    · exact .quiet h_confined
    · exact .began h_began
    · exact .stopped _ _ _
  | tick | skip | nextPass => exact .quiet (.refl _)
  | serve => exact .quiet (Machine.confined_begin _ _)
  | divert => exact .quiet ((Machine.confined_divert _ _ _).trans (Machine.confined_begin _ _))
  | @execute m _ s _ i h_find _ _ h_advance =>
    -- a task that is there is not the one that a call would start
    have h_own : s.task ≠ m.highestTask + 1 := by
      intro h_same
      rw [← h_same] at h_fresh
      exact nomatch h_find.symm.trans h_fresh
    cases Machine.advance_cases h_advance (Focus.eq_of_task? h_focus) h_own with
    | acted _ _ h_confined => exact .quiet h_confined
    | began _ _ h_began => exact .began h_began
    | called h_call h_mode h_began h_caller => exact .called h_own h_call h_mode h_began h_caller
    | finished h_finish h_confined => exact .finished h_finish h_confined
  | @enter m s _ i =>
    have h_count : Machine.Confined (some s.task) m { m with executed := m.executed + 1 } :=
      .of_eq rfl rfl rfl rfl rfl
    exact .quiet (h_count.trans (.emit _ (e := .nativeEntered i.operand) trivial))
  | leave m s function =>
    have h_tell : Machine.Confined (some s.task) m (m.emit (.nativeLeft function)) :=
      .emit m trivial
    exact .quiet (h_tell.trans (.updateTask _ s.task fun _ => rfl))
  | overrun => exact .overran (.emit _ trivial)
  | close => exact .quiet (.of_eq rfl rfl rfl rfl rfl)
  | settle => exact .settled _

/-! ### The fate of a task -/

namespace Machine

/-- What becomes of a live task in a step. -/
inductive Fate (m m' : Machine) (d : Deed) (t : Task) : Option Task → Prop
  /-- It lives on, and unless it does something itself nothing about it changes. -/
  | kept {t' : Task} (h_standing : t'.standing = t.standing)
      (h_other : d.actor? ≠ some t.id → t' = t) : Fate m m' d t (some t')
  /-- It comes to wait for a task that it has started. -/
  | waits {i : Instruction} {s : Stack} (h_deed : d = .execute t.id i)
      (h_call : i.opcode = .callScript) (h_mode : i.mode ≠ Mode.async)
      (h_highest : m'.highestTask = m.highestTask + 1) (h_started : m'.started = m.started + 1) :
      Fate m m' d t (some { t with stack := s, waitingFor := m.highestTask + 1 })
  /-- It ends, and will be gone when the tick is over. -/
  | halts {t' : Task} (h_deed : d.Halts t.id)
      (h_standing : t'.standing = { t with stopped := true }.standing) : Fate m m' d t (some t')
  | stopped (h_selects : d.Selects t) : Fate m m' d t none
  | reaped {mask : ScriptKind} (h_deed : d = .settle mask) (h_stopped : t.stopped) :
      Fate m m' d t none
  | settled {mask : ScriptKind} (h_deed : d = .settle mask) (h_runs : t.stopped = false) :
      Fate m m' d t (some (m'.tasks.letGo mask t))

theorem exists_of_standing? {table table' : TaskTable} {id : UInt32} {t : Task}
    (h : table'.standing? id = table.standing? id) (h_find : table.find? id = some t) :
    ∃ t', table'.find? id = some t' ∧ t'.standing = t.standing := by
  unfold TaskTable.standing? at h
  rw [h_find, Option.map_some] at h
  exact Option.map_eq_some_iff.1 h

variable {m m' : Machine}

/-- What is not the task's own doing leaves it as it is. -/
theorem fate_of_standing {m₁ : Machine} {d : Deed} {t : Task}
    (h_find : m.tasks.find? t.id = some t)
    (h_standing : m₁.tasks.standing? t.id = m.tasks.standing? t.id)
    (h_others : d.actor? ≠ some t.id → m₁.tasks.find? t.id = m.tasks.find? t.id) :
    Fate m m' d t (m₁.tasks.find? t.id) := by
  obtain ⟨t', h_find', h_same⟩ := exists_of_standing? h_standing h_find
  rw [h_find'] at h_others ⊢
  refine .kept h_same fun h_actor => ?_
  have h_eq := (h_others h_actor).trans h_find
  exact Option.some.inj h_eq

/-- The mark that a task has ended concerns no other one. -/
theorem Confined.fate_halt {m₁ : Machine} {d : Deed} {t : Task} {task : UInt32}
    (h : Confined (some task) m m₁) (h_find : m.tasks.find? t.id = some t)
    (h_own : d.actor? = some task) (h_halts : task = t.id → d.Halts t.id) : Fate m m' d t
      ((m₁.updateTask task fun t => { t with stopped := true }).tasks.find? t.id) := by
  unfold Machine.updateTask
  -- the mark is made on one task, which is this one or not
  by_cases h_id : t.id = task
  · obtain ⟨t', h_find', h_same⟩ := exists_of_standing? (h.standing t.id) h_find
    rw [← h_id, TaskTable.find?_update_self, h_find']
    refine .halts (h_halts h_id.symm) ?_
    have h_marked := congrArg (fun u : Task => { u with stopped := true }) h_same
    exact h_marked
  · rw [TaskTable.find?_update_of_ne _ h_id]
    exact fate_of_standing h_find (h.standing t.id) (h_own ▸ h.others)

/-- **The fate of a task.** -/
theorem Outcome.fate (h : m.Outcome d m') (h_fresh : m.tasks.find? (m.highestTask + 1) = none)
    {id : UInt32} {t : Task} (h_find : m.tasks.find? id = some t) :
    Fate m m' d t (m'.tasks.find? id) := by
  obtain rfl := TaskTable.id_of_find? h_find
  -- a live task has an id that was given away, and not the next one
  have h_old : t.id ≠ m.highestTask + 1 := by
    intro h_same
    rw [← h_same, h_find] at h_fresh
    contradiction
  -- one case for each way in which a step can touch the table
  cases h with
  | quiet h_confined => exact fate_of_standing h_find (h_confined.standing t.id) h_confined.others
  | began h_began => exact fate_of_standing h_find (h_began.standing h_old) (h_began.others h_old)
  | @called task i m₁ script _ h_call h_mode h_began h_caller =>
    unfold updateTask
    by_cases h_id : t.id = task
    · obtain ⟨s, h_find'⟩ := h_caller t (h_id ▸ h_find)
      rw [h_id, TaskTable.find?_update_self, h_find']
      exact .waits (h_id ▸ rfl) h_call h_mode h_began.highestTask h_began.started
    · rw [TaskTable.find?_update_of_ne _ h_id]
      exact fate_of_standing h_find (h_began.standing h_old) (h_began.others h_old)
  | finished h_finish h_confined =>
    exact h_confined.fate_halt h_find rfl fun h_id => ⟨h_id, h_finish⟩
  | overran h_confined => exact h_confined.fate_halt h_find rfl fun h_id => h_id
  | stopped caller q a =>
    rw [find?_stopWhere, h_find]
    cases h_selects : q.selects t with
    | true =>
      rw [Option.filter_some, h_selects]
      exact .stopped h_selects
    | false =>
      rw [Option.filter_some, h_selects]
      exact .kept rfl fun _ => rfl
  | settled mask =>
    -- who has ended is removed, and whoever is left is looked at
    rw [find?_settle, h_find]
    cases h_stopped : t.stopped with
    | true =>
      rw [Option.filter_some, h_stopped]
      exact .reaped rfl h_stopped
    | false =>
      rw [Option.filter_some, h_stopped]
      exact .settled rfl h_stopped

/-! ### New tasks -/

/-- Who comes to be live in a step: nobody, or one task under the next id. -/
inductive Arrival (m m' : Machine) : Prop
  | nobody (h_highest : m'.highestTask = m.highestTask) (h_started : m'.started = m.started)
      (h_absent : ∀ id, m.tasks.find? id = none → m'.tasks.find? id = none) : Arrival m m'
  | somebody {script : Script} {s : Stack} (h_highest : m'.highestTask = m.highestTask + 1)
      (h_started : m'.started = m.started + 1)
      (h_new : m'.tasks.find? (m.highestTask + 1) =
        some { Task.start (m.highestTask + 1) script with stack := s })
      (h_absent : ∀ id ≠ m.highestTask + 1, m.tasks.find? id = none → m'.tasks.find? id = none) :
      Arrival m m'

/-- Who was not live before is the one who came. -/
theorem Arrival.eq_start (h : Arrival m m') {id : UInt32} {t : Task}
    (h_before : m.tasks.find? id = none) (h_after : m'.tasks.find? id = some t) :
    id = m.highestTask + 1 ∧ m'.highestTask = m.highestTask + 1 ∧
      ∃ script s, t = { Task.start id script with stack := s } := by
  -- the id was free and is not any more, so it is the one that somebody got
  cases h with
  | nobody _ _ h_absent =>
    rw [h_absent id h_before] at h_after
    contradiction
  | @somebody script s h_highest _ h_new h_absent =>
    have h_id : id = m.highestTask + 1 := by
      by_contra h_ne
      rw [h_absent id h_ne h_before] at h_after
      contradiction
    rw [h_id, h_new] at h_after
    exact ⟨h_id, h_highest, script, s, h_id ▸ (Option.some.inj h_after).symm⟩

theorem find?_eq_none_of_standing? {table table' : TaskTable} {id : UInt32}
    (h : table'.standing? id = table.standing? id) (h_none : table.find? id = none) :
    table'.find? id = none := by
  rw [← TaskTable.standing?_eq_none_iff, h, TaskTable.standing?_eq_none_iff]
  exact h_none

theorem Confined.arrival {own : Option UInt32} (h : Confined own m m') : Arrival m m' :=
  .nobody h.highestTask h.started fun id => find?_eq_none_of_standing? (h.standing id)

theorem Began.arrival {own : Option UInt32} {script : Script} (h : Began own script m m') :
    Arrival m m' := by
  obtain ⟨s, h_new⟩ := h.new
  exact .somebody h.highestTask h.started h_new fun id h_id =>
    find?_eq_none_of_standing? (h.standing h_id)

theorem find?_updateTask_eq_none {id : UInt32} (h : m.tasks.find? id = none) (task : UInt32)
    (change : Task → Task) : (m.updateTask task change).tasks.find? id = none := by
  unfold Machine.updateTask
  rw [TaskTable.find?_update, h]
  rfl

theorem Arrival.updateTask (h : Arrival m m') {task : UInt32} (h_task : task ≠ m.highestTask + 1)
    (change : Task → Task) : Arrival m (m'.updateTask task change) := by
  cases h with
  | nobody h_highest h_started h_absent =>
    exact .nobody h_highest h_started fun id h_none =>
      find?_updateTask_eq_none (h_absent id h_none) task change
  | somebody h_highest h_started h_new h_absent =>
    have h_kept := TaskTable.find?_update_of_ne m'.tasks h_task.symm change
    exact .somebody h_highest h_started (h_kept.trans h_new) fun id h_id h_none =>
      find?_updateTask_eq_none (h_absent id h_id h_none) task change

/-- The mark that a task has ended lets nobody come or go. -/
theorem Confined.arrival_halt {task : UInt32} (h : Confined (some task) m m') :
    Arrival m (m'.updateTask task fun t => { t with stopped := true }) :=
  .nobody h.highestTask h.started fun id h_none =>
    find?_updateTask_eq_none (find?_eq_none_of_standing? (h.standing id) h_none) _ _

/-- **Who comes.** -/
theorem Outcome.arrival (h : m.Outcome d m') : Arrival m m' := by
  cases h with
  | quiet h_confined => exact h_confined.arrival
  | began h_began => exact h_began.arrival
  | called h_own _ _ h_began _ => exact h_began.arrival.updateTask h_own _
  | finished _ h_confined | overran h_confined => exact h_confined.arrival_halt
  | stopped =>
    rw [stopWhere_eq]
    refine .nobody rfl rfl fun id h_none => ?_
    dsimp only
    rw [TaskTable.find?_filter, h_none]
    rfl
  | settled mask =>
    have h_same := settle_eq m mask
    rw [stopWhere_eq] at h_same
    refine .nobody ?_ ?_ fun id h_none => ?_
    · rw [h_same]
    · rw [h_same]
    · rw [find?_settle, h_none]
      rfl

end Machine

/-! ### Ids are given to one task each -/

namespace Machine

/-- As many tasks were started since the first one as ids were given away, and who is live has got
one of them. -/
structure Counted (first : Nat) (m : Machine) : Prop where
  started : m.started = first + m.highestTask.toNat
  given {id : UInt32} {t : Task} (h : m.tasks.find? id = some t) : 0 < id ∧ id ≤ m.highestTask

variable {m m' : Machine} {first : Nat}

theorem toNat_next {id : UInt32} (h : id.toNat + 1 < UInt32.size) :
    (id + 1).toNat = id.toNat + 1 := by
  rw [UInt32.toNat_add]
  exact Nat.mod_eq_of_lt h

/-- Beyond the last id comes 0. -/
theorem lt_next {id : UInt32} (h : id + 1 ≠ 0) : id < id + 1 := by
  have h_size : id.toNat < UInt32.size := id.toNat_lt_size
  -- the last word has no successor: the next one is 0, which is excluded
  by_cases h_last : id.toNat + 1 < UInt32.size
  · rw [UInt32.lt_iff_toNat_lt, toNat_next h_last]
    exact Nat.lt_succ_self _
  · have h_sum : id.toNat + (1 : UInt32).toNat = UInt32.size := by
      change id.toNat + 1 = UInt32.size
      omega
    refine absurd (UInt32.toNat_inj.1 ?_) h
    rw [UInt32.toNat_add, h_sum]
    rfl

/-- Where all ids were given away, the next one is free, unless it wraps around. -/
theorem fresh_of_idsGiven (h : m.IdsGiven) (h_room : m.highestTask.toNat + 1 < UInt32.size) :
    m.tasks.find? (m.highestTask + 1) = none := by
  refine TaskTable.find?_eq_none_iff.2 fun t h_t h_id => ?_
  have h_le := UInt32.le_iff_toNat_le.1 (h t h_t)
  rw [h_id, toNat_next h_room] at h_le
  exact Nat.not_succ_le_self _ h_le

namespace Counted

/-- The next id is not one that was given away, nor is it 0 unless all were. -/
theorem fresh (h : m.Counted first) : m.tasks.find? (m.highestTask + 1) = none := by
  -- a task under the next id would have one that was given away
  cases h_find : m.tasks.find? (m.highestTask + 1) with
  | none => rfl
  | some t =>
    obtain ⟨h_pos, h_le⟩ := h.given h_find
    exact absurd h_le (UInt32.not_le.2 (lt_next (UInt32.ne_of_lt h_pos).symm))

theorem ne_next (h : m.Counted first) {id : UInt32} {t : Task}
    (h_find : m.tasks.find? id = some t) : id ≠ m.highestTask + 1 := by
  intro h_same
  rw [h_same, h.fresh] at h_find
  contradiction

/-- Ids do not wrap around before there is no room. -/
theorem next (h : m.Counted first) (h_started : m'.started = m.started + 1)
    (h_room : m'.started - first < UInt32.size) :
    (m.highestTask + 1).toNat = m.highestTask.toNat + 1 := by
  have h_count := h.started
  exact toNat_next (by omega)

end Counted

/-- Who comes keeps the count. -/
theorem Arrival.counted (h : Arrival m m') (h_counted : m.Counted first)
    (h_room : m'.started - first < UInt32.size) : m'.Counted first := by
  have h_count := h_counted.started
  -- the count goes up with the highest id, as long as that does not wrap around
  cases h with
  | nobody h_highest h_started h_absent =>
    refine ⟨by rw [h_highest, h_started, h_count], fun {id t} h_find => ?_⟩
    cases h_before : m.tasks.find? id with
    | none =>
      rw [h_absent id h_before] at h_find
      contradiction
    | some u =>
      rw [h_highest]
      exact h_counted.given h_before
  | somebody h_highest h_started h_new h_absent =>
    have h_next := h_counted.next h_started h_room
    refine ⟨by rw [h_highest, h_started, h_next]; omega, fun {id t} h_find => ?_⟩
    rw [h_highest, UInt32.lt_iff_toNat_lt, UInt32.le_iff_toNat_le, h_next]
    by_cases h_id : id = m.highestTask + 1
    · rw [h_id, h_next]
      exact ⟨Nat.succ_pos _, Nat.le_refl _⟩
    · cases h_before : m.tasks.find? id with
      | none =>
        rw [h_absent id h_id h_before] at h_find
        contradiction
      | some u =>
        obtain ⟨h_pos, h_le⟩ := h_counted.given h_before
        exact ⟨UInt32.lt_iff_toNat_lt.1 h_pos, Nat.le_succ_of_le (UInt32.le_iff_toNat_le.1 h_le)⟩

end Machine

/-! ### Sound configurations -/

/-- The stack in focus is that of the task whose turn it is, and ids were given to one task each. -/
structure Config.Sound (first : Nat) (c : Config) : Prop where
  focused : c.Focused
  counted : c.machine.Counted first

variable {first : Nat}

theorem Config.sound_beginning (m : Machine) (i : Image) :
    Config.Sound m.started ⟨m.beginning i, .idle⟩ where
  focused := rfl
  counted := ⟨rfl, fun h => nomatch h⟩

/-- Ids are given away one after the other, and what objects are held is told. -/
theorem Step.accounts (h : Step setting c d c') : c.machine.Accounts c'.machine := by
  -- the focus and the count of instructions are not part of the accounts
  have h_aside {m : Machine} (focus : Focus) (running : Option UInt32) (executed : UInt32) :
      m.Quiet { m with focus, running, executed } := ⟨⟨[], by simp⟩, rfl, rfl, rfl, rfl⟩
  -- a step is a run of the machine, or it moves the focus and an address
  cases h with
  | ask h_immediate h_answer | request h_immediate h_answer =>
    exact (Machine.runs_answer_immediate h_immediate h_answer).accounts
  | tick | skip | nextPass => exact .refl _
  | serve => exact .quiet ((h_aside _ _ _).trans (.updateTask _ _ fun _ => rfl))
  | @divert m _ _ _ t address =>
    have h_diverted : m.Quiet (m.divert t.id address) := .updateTask m t.id fun _ => rfl
    exact .quiet (h_diverted.trans ((h_aside _ _ _).trans (.updateTask _ _ fun _ => rfl)))
  | execute h_find _ _ h_advance =>
    have h_live := TaskTable.contains_eq_true_iff.2 ⟨_, h_find⟩
    exact (Machine.runs_advance_noBody h_live h_advance).accounts
  | enter => exact .quiet ((h_aside _ _ _).trans (.emit _ trivial))
  | leave m s function =>
    have h_tell : m.Quiet (m.emit (.nativeLeft function)) := .emit m trivial
    exact .quiet (h_tell.trans (.updateTask _ _ fun _ => rfl))
  | @overrun m _ t =>
    have h_tell : m.Quiet (m.fault .invalidOperand t.name t.address) := .emit m trivial
    exact .quiet (h_tell.trans (.updateTask _ _ fun _ => rfl))
  | close => exact .quiet (h_aside _ _ _)
  | settle => exact (Machine.runs_settle _ _).accounts

theorem Course.accounts (h : Course setting c scenes c') : c.machine.Accounts c'.machine := by
  induction h with
  | nil => exact .refl _
  | cons h_step _ ih => exact h_step.accounts.trans ih

theorem Step.started_le (h : Step setting c d c') : c.machine.started ≤ c'.machine.started :=
  h.accounts.started_le

theorem Course.started_le (h : Course setting c scenes c') :
    c.machine.started ≤ c'.machine.started :=
  h.accounts.started_le

namespace Config.Sound

theorem step (h : c.Sound first) (h_step : Step setting c d c')
    (h_room : c'.machine.started - first < UInt32.size) : c'.Sound first where
  focused := h_step.focused h.focused
  counted := (h_step.outcome h.focused h.counted.fresh).arrival.counted h.counted h_room

theorem fate (h : c.Sound first) (h_step : Step setting c d c') {id : UInt32} {t : Task}
    (h_find : c.machine.tasks.find? id = some t) :
    Machine.Fate c.machine c'.machine d t (c'.machine.tasks.find? id) :=
  (h_step.outcome h.focused h.counted.fresh).fate h.counted.fresh h_find

theorem arrival (h : c.Sound first) (h_step : Step setting c d c') :
    Machine.Arrival c.machine c'.machine :=
  (h_step.outcome h.focused h.counted.fresh).arrival

theorem advanced {m m' : Machine} {s : Stint} {i : Instruction} {t : Task}
    (h : Config.Sound first ⟨m, .turn s⟩) (h_find : m.tasks.find? s.task = some t)
    (h_advance : m.advance setting Machine.noBody s.task i = some m') :
    m.Advanced s.task i m' :=
  Machine.advance_cases h_advance (Focus.eq_of_task? h.focused) (h.counted.ne_next h_find)

end Config.Sound

/-- **Invariants of courses.** What every step preserves between sound configurations holds from
the beginning of a course to its end, if ids do not run out. -/
theorem Course.invariant {P : Config → Prop}
    (h_preserved : ∀ {c d c'}, Step setting c d c' → c.Sound first →
      c'.machine.started - first < UInt32.size → P c → P c')
    (h : Course setting c scenes c') (h_sound : c.Sound first)
    (h_room : c'.machine.started - first < UInt32.size) (h_c : P c) : c'.Sound first ∧ P c' := by
  -- along the course; what was started up to here is less than what is started in all of it
  induction h with
  | nil => exact ⟨h_sound, h_c⟩
  | cons h_step h_rest ih =>
    have h_le := h_rest.started_le
    have h_room₁ : _ - first < UInt32.size :=
      Nat.lt_of_le_of_lt (Nat.sub_le_sub_right h_le _) h_room
    exact ih (h_sound.step h_step h_room₁) h_room (h_preserved h_step h_sound h_room₁ h_c)

/-- The same in the middle of a course. -/
theorem Course.invariant_at {P : Config → Prop}
    (h_preserved : ∀ {c d c'}, Step setting c d c' → c.Sound first →
      c'.machine.started - first < UInt32.size → P c → P c')
    {past future : List Scene} {scene : Scene}
    (h : Course setting c (past ++ scene :: future) c') (h_sound : c.Sound first)
    (h_room : c'.machine.started - first < UInt32.size) (h_c : P c) :
    scene.before.Sound first ∧ P scene.before ∧ scene.after.Sound first ∧ P scene.after := by
  obtain ⟨h_past, h_step, h_future⟩ := h.at_scene
  have h_le := h_step.started_le
  have h_le' := h_future.started_le
  have h_room_after : scene.after.machine.started - first < UInt32.size := by omega
  obtain ⟨h_before, h_p⟩ := h_past.invariant h_preserved h_sound (by omega) h_c
  exact ⟨h_before, h_p, h_before.step h_step h_room_after,
    h_preserved h_step h_before h_room_after h_p⟩

/-- **As long as it lasts.** What is so in the beginning, and is kept by every step unless something
else happens, is kept in a first part of the course; and if there is more of it, that happens
next. -/
theorem Course.lasts {P : Config → Prop} {Q R : Scene → Prop}
    (h_kept : ∀ {c d c'}, Step setting c d c' → c.Sound first →
      c'.machine.started - first < UInt32.size → P c → (P c' ∧ Q ⟨c, d, c'⟩) ∨ R ⟨c, d, c'⟩)
    (h : Course setting c scenes c') (h_sound : c.Sound first)
    (h_room : c'.machine.started - first < UInt32.size) (h_c : P c) :
    ∃ kept rest, scenes = kept ++ rest ∧ (∀ s ∈ kept, P s.after ∧ Q s) ∧
      (rest = [] ∨ ∃ scene later, rest = scene :: later ∧ R scene) := by
  -- along the course, until the first step that does not keep it
  induction h with
  | nil => exact ⟨[], [], rfl, List.forall_mem_nil _, .inl rfl⟩
  | @cons c c₁ c' d scenes h_step h_rest ih =>
    have h_le := h_rest.started_le
    have h_room₁ : c₁.machine.started - first < UInt32.size := by omega
    rcases h_kept h_step h_sound h_room₁ h_c with h_still | h_end
    · obtain ⟨kept, rest, rfl, h_scenes, h_rest⟩ :=
        ih (h_sound.step h_step h_room₁) h_room h_still.1
      exact ⟨_ :: kept, rest, rfl, List.forall_mem_cons.2 ⟨h_still, h_scenes⟩, h_rest⟩
    · exact ⟨[], _, rfl, List.forall_mem_nil _, .inr ⟨_, scenes, rfl, h_end⟩⟩

theorem Course.sound (h : Course setting c scenes c') (h_sound : c.Sound first)
    (h_room : c'.machine.started - first < UInt32.size) : c'.Sound first :=
  (h.invariant (P := fun _ => True) (fun _ _ _ _ => trivial) h_sound h_room trivial).1

theorem Course.sound_at {past future : List Scene} {scene : Scene}
    (h : Course setting c (past ++ scene :: future) c') (h_sound : c.Sound first)
    (h_room : c'.machine.started - first < UInt32.size) :
    scene.before.Sound first ∧ scene.after.Sound first := by
  obtain ⟨h_before, -, h_after, -⟩ := h.invariant_at (P := fun _ => True)
    (fun _ _ _ _ => trivial) h_sound h_room trivial
  exact ⟨h_before, h_after⟩

end ScriptMachine
