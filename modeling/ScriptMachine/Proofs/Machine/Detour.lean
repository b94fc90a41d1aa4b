import ScriptMachine.Proofs.Machine.Calls
import ScriptMachine.Proofs.Machine.Passes

/-!
# Detours through exception handlers

A task that is diverted to a handler comes back to where it was (`Machine.handler_returns`). The
handler may take many ticks, and whatever is done in between, by the task itself or by others, two
things about the task stay as they are: that it is in a handler, and where normal flow was left
(`Task.detour`). As long as they do, everything that the task does is done in the pass for handlers
(`Config.Detour`).

A step leaves both alone, or takes the task out of the table, or is one of the three instructions
that end the detour (`Config.Detour.step`). The turn is over then, and it was one of the first pass;
so the second pass has still to come to the task, and all that can happen to it on the way is that
it is stopped (`Config.Due`).
-/

namespace ScriptMachine

variable {setting : Setting} {c c' : Config} {d : Deed} {scenes : List Scene} {first : Nat}
  {id a : UInt32} {t t' : Task} {mask : ScriptKind}

/-! ### What a detour is known by -/

/-- Whether a task is in a handler, and where normal flow was left for it. -/
def Task.detour (t : Task) : Bool × UInt32 := (t.inHandler, t.savedAddress)

/-- The instruction may take its task out of a handler. -/
def Opcode.LeavesHandler (op : Opcode) : Prop :=
  op = .returnExcept ∨ op = .nextExcept ∨ op = .breakExcept

theorem Task.after_detour {i : Instruction} (h : ¬ i.opcode.LeavesHandler) (holds : Bool)
    (callee : UInt32) (t : Task) : (t.after i holds callee).detour = t.detour := by
  unfold after
  -- the others change the address, a wait, a mark or the list of handlers
  cases h_opcode : i.opcode with
  | returnExcept => exact absurd (.inl h_opcode) h
  | nextExcept => exact absurd (.inr (.inl h_opcode)) h
  | breakExcept => exact absurd (.inr (.inr h_opcode)) h
  | callScript =>
    obtain ⟨address, waitingFor, h_spec⟩ := afterCall_spec i callee t
    dsimp only
    rw [h_spec]
    rfl
  | jumpIfZero | endExcept =>
    dsimp only
    split <;> rfl
  | _ => rfl

namespace Machine

variable {m m' : Machine} {task : UInt32} {i : Instruction}

/-- **What an instruction makes of its task,** in a turn without the bodies of natives. -/
theorem bearing_of_advance (h : m.advance setting noBody task i = some m')
    (h_find : m.tasks.find? task = some t) (h_own : task ≠ m.highestTask + 1) :
    ∃ t', m'.tasks.find? task = some t' ∧
      t'.bearing = (t.after i m.pop.1.truth (m.callee i)).bearing := by
  have h_body (h_opcode : i.opcode = .callNative) :
      ∀ native ∈ setting.natives[i.operand.toNat]?, native.body = none := by
    intro native h_native
    by_contra h_some
    obtain ⟨body, h_body⟩ := Option.ne_none_iff_exists'.1 h_some
    -- a body would have to be carried out
    exact nomatch h.symm.trans (advance_noBody_eq_none h_opcode h_native h_body)
  obtain ⟨m₁, t', h_advance, -, h_find', h_bearing⟩ :=
    advance_after noBody h_body h_find fun _ _ => h_own
  cases h.symm.trans h_advance
  exact ⟨t', h_find', h_bearing⟩

/-- **Most instructions do not end a detour,** nor do they begin one. -/
theorem advance_detour (h : m.advance setting noBody task i = some m')
    (h_find : m.tasks.find? task = some t) (h_own : task ≠ m.highestTask + 1)
    (h_leaves : ¬ i.opcode.LeavesHandler) :
    ∃ t', m'.tasks.find? task = some t' ∧ t'.detour = t.detour := by
  obtain ⟨t', h_find', h_bearing⟩ := bearing_of_advance h h_find h_own
  have h_same := congrArg Task.detour h_bearing
  exact ⟨t', h_find', h_same.trans (Task.after_detour h_leaves _ _ t)⟩

/-- What a native asks for concerns no task that is left but for its stack. -/
theorem answer_bearing {q : Request} {a : q.Answer} (h_immediate : q.Immediate)
    (h : m.answer noTick q = some (a, m')) (h_find : m.tasks.find? task = some t)
    (h_own : task ≠ m.highestTask + 1) (h_find' : m'.tasks.find? task = some t') :
    t'.bearing = t.bearing := by
  have h_kept (h_same : m'.tasks.find? task = m.tasks.find? task) : t'.bearing = t.bearing := by
    rw [h_same, h_find] at h_find'
    rw [Option.some.inj h_find']
  have h_steady (h : Steady Task.bearing m m') : t'.bearing = t.bearing := by
    obtain ⟨u, h_u, h_same⟩ := h.exists_find? h_find
    cases h_find'.symm.trans h_u
    exact h_same
  -- a start takes parameters from the stack of the task, if it is in focus
  have h_spawn (script : Script) (h : m' = (m.spawn script).2) : t'.bearing = t.bearing := by
    obtain ⟨s, h_after, -⟩ := find?_spawn_of_ne m script h_find h_own
    rw [← h] at h_after
    cases h_find'.symm.trans h_after
    rfl
  have h_stop (selected : Task → Bool) (h : m' = m.stopWhere selected) :
      t'.bearing = t.bearing := by
    rw [h, find?_stopWhere, h_find] at h_find'
    rw [(Option.filter_eq_some_iff.1 h_find').1 |> Option.some.inj]
  -- what is asked for leaves the task as it is, changes stacks, starts somebody or stops some
  cases q with
  | tick | load | restore | reboot => exact h_immediate.elim
  | observe | memory | keep memory | note text =>
    cases h
    exact h_kept rfl
  | push v =>
    cases h
    exact h_steady (exchange_push m v).steady
  | pop =>
    have h_pop := (exchange_pop m).steady
    rw [Option.some.inj h] at h_pop
    exact h_steady h_pop
  | start script =>
    have h_start := starting_start none m script
    rw [Option.some.inj h] at h_start
    rcases h_start with ⟨script, -, h_eq⟩ | ⟨-, h_confined⟩
    · exact h_spawn script (congrArg Prod.snd h_eq)
    · exact h_kept (h_confined.others (Option.some_ne_none task).symm)
  | startNamed name mask =>
    have h_start := starting_startNamed none m name mask
    rw [Option.some.inj h] at h_start
    rcases h_start with ⟨script, -, h_eq⟩ | ⟨-, h_confined⟩
    · exact h_spawn script (congrArg Prod.snd h_eq)
    · exact h_kept (h_confined.others (Option.some_ne_none task).symm)
  | stop id =>
    cases h
    rcases stop_cases none m id with h_eq | h_confined
    · exact h_stop _ h_eq
    · exact h_kept (h_confined.others (Option.some_ne_none task).symm)
  | stopAll | stopKind mask | stopNamed selected =>
    cases h
    exact h_stop _ rfl

end Machine

/-! ### A task on a detour -/

/-- A task is in a handler, and normal flow was left for it at an address. Turns of the task are
those of the pass for handlers. -/
structure Config.Detour (c : Config) (id a : UInt32) : Prop where
  live : ∃ t, c.machine.tasks.find? id = some t ∧ t.detour = (true, a)
  stint {s : Stint} (h : c.stage.stint? = some s) (h_task : s.task = id) :
    s.pass = .handlers ∧ s.begunInHandler = true ∧
      ∀ t, c.machine.tasks.find? id = some t → t.kind.overlaps s.mask

/-- The pass that a machine is in. -/
def Stage.pass? : Stage → Option Pass
  | .idle => none
  | .pass p _ _ => some p
  | .turn s | .native s _ _ => some s.pass

/-- In this scene a task leaves its handler: it returns to an address and keeps its handlers, or it
drops all of them and goes on where it is. -/
def Scene.Returns (scene : Scene) (id a : UInt32) (t' : Task) : Prop :=
  ∃ i t, scene.deed = .execute id i ∧ scene.before.machine.tasks.find? id = some t ∧
    ((i.opcode = .returnExcept ∨ i.opcode = .nextExcept ∧
        (t.handlerIndex = 0 ∨ t.handlers[(t.handlerIndex - 1).toNat]? = none)) ∧
      t'.address = a ∧ t'.handlers = t.handlers ∨
    i.opcode = .breakExcept ∧ t'.address = t.address + 1 ∧ t'.handlers = [])

theorem TaskTable.detour_letGo (left : TaskTable) (mask : ScriptKind) (t : Task) :
    (left.letGo mask t).detour = t.detour := by
  unfold letGo
  split
  · split <;> rfl
  · rfl

/-- What others do leaves a detour alone. -/
theorem Config.Sound.detour_eq (h : c.Sound first) (h_step : Step setting c d c')
    (h_find : c.machine.tasks.find? id = some t) (h_find' : c'.machine.tasks.find? id = some t')
    (h_actor : d.actor? ≠ some id) : t'.detour = t.detour := by
  obtain rfl := TaskTable.id_of_find? h_find
  have h_fate := h.fate h_step h_find
  rw [h_find'] at h_fate
  -- what is not its own doing keeps it or releases it, and neither concerns handlers
  cases h_fate with
  | kept _ h_other => rw [h_other h_actor]
  | waits h_deed => exact absurd (h_deed ▸ rfl) h_actor
  | halts h_deed _ => exact absurd (Deed.actor?_of_halts h_deed) h_actor
  | settled => exact TaskTable.detour_letGo ..

/-! ### On the way to the next turn -/

/-- A turn of the first pass after that of a task, or one of the second pass before it. -/
def Stint.Between (s : Stint) (id : UInt32) : Prop :=
  match s.pass with
  | .handlers => id < s.task
  | .normal => s.task < id

theorem Stint.Between.ne {s : Stint} (h : s.Between id) : s.task ≠ id := by
  unfold Between at h
  intro h_same
  rw [h_same] at h
  cases h_pass : s.pass with
  | handlers | normal =>
    rw [h_pass] at h
    exact UInt32.lt_irrefl id h

/-- The first pass has been with a task, and the second one has still to come to it. -/
inductive Stage.Nearing (id : UInt32) (mask : ScriptKind) : Stage → Prop
  | own : Nearing id mask (.turn ⟨.handlers, mask, id, true⟩)
  | handlers {cursor : UInt32} (h : id ≤ cursor) :
      Nearing id mask (.pass .handlers mask (some cursor))
  | normal {cursor : Option UInt32} (h : ∀ other ∈ cursor, other < id) :
      Nearing id mask (.pass .normal mask cursor)
  | turn {s : Stint} (h_mask : s.mask = mask) (h : s.Between id) : Nearing id mask (.turn s)
  | native {s : Stint} {function : UInt32} {rest : Routine Unit} (h_mask : s.mask = mask)
      (h : s.Between id) : Nearing id mask (.native s function rest)

/-- A task is to be served by the second pass, as it is now. -/
structure Config.Due (c : Config) (t : Task) (mask : ScriptKind) : Prop where
  live : c.machine.tasks.find? t.id = some t
  ready : Pass.normal.service mask t = .serve
  stage : c.stage.Nearing t.id mask

/-- A turn of normal flow begins with the task as it is. -/
structure Scene.Resumes (scene : Scene) (t : Task) (mask : ScriptKind) : Prop where
  deed : scene.deed = .serve t.id
  live : scene.before.machine.tasks.find? t.id = some t
  stage : ∃ cursor, scene.before.stage = .pass .normal mask cursor

namespace Config.Due

/-- The second pass comes to the task before it comes to those after it. -/
theorem lt_of_after? (h : c.Due t mask) {cursor : Option UInt32} {u : Task}
    (h_above : ∀ other ∈ cursor, other < t.id) (h_next : c.machine.tasks.after? cursor = some u)
    (h_ne : u ≠ t) : u.id < t.id := by
  by_contra h_not
  exact h_ne (TaskTable.eq_of_after? h_next h_above (UInt32.not_lt.1 h_not) h.live).symm

theorem outside (h : c.Due t mask) : t.inHandler = false := by
  have h_served : Pass.normal.service mask t ≠ .skip := by
    rw [h.ready]
    nofun
  exact (Pass.normal_service_ne_skip_iff.1 h_served).2.1

/-- What the task does itself is to close its turn, until it has the next one. -/
theorem own_step (h : c.Due t mask) (h_step : Step setting c d c')
    (h_actor : d.actor? = some t.id) : c'.Due t mask ∧ (∀ mask', d ≠ .settle mask') ∧
      d ≠ .serve t.id ∨ Scene.Resumes ⟨c, d, c'⟩ t mask := by
  have h_outside := h.outside
  obtain ⟨h_live, h_ready, h_stage⟩ := h
  cases h_step with
  | ask | tick | skip | nextPass | settle => contradiction
  | @serve m p _ cursor u h_next h_service | @divert m p _ cursor u _ h_next h_service =>
    -- a turn of the task begins: in the second pass that is the one that is due
    have h_id : u.id = t.id := Option.some.inj h_actor
    have h_find := TaskTable.find?_of_after? h_next
    rw [h_id, h_live] at h_find
    obtain rfl := Option.some.inj h_find
    cases h_stage with
    | handlers h_past =>
      -- the first pass does not come back
      have h_above := (TaskTable.after?_eq_some h_next).1 _ rfl
      exact absurd h_past (UInt32.not_le.2 h_above)
    | normal _ =>
      first
      | exact .inr ⟨rfl, h_live, cursor, rfl⟩
      | exact nomatch h_ready.symm.trans h_service
  | execute h_find h_goes | enter h_find h_goes | overrun h_find h_goes =>
    have h_id := Option.some.inj h_actor
    rw [h_id, h_live] at h_find
    obtain rfl := Option.some.inj h_find
    cases h_stage with
    | own =>
      -- the turn is over since it began in a handler
      obtain ⟨-, -, -, h_inside⟩ := Machine.turnEnds_eq_false_iff.1 h_goes
      rw [h_outside] at h_inside
      contradiction
    | turn _ h_between => exact absurd h_id h_between.ne
  | request | leave =>
    cases h_stage with
    | native _ h_between => exact absurd (Option.some.inj h_actor) h_between.ne
  | close =>
    cases h_stage with
    | own => exact .inl ⟨⟨h_live, h_ready, .handlers (UInt32.le_refl _)⟩, nofun, nofun⟩
    | turn _ h_between => exact absurd (Option.some.inj h_actor) h_between.ne

/-- What others do brings the second pass nearer. -/
theorem nearing_step (h : c.Due t mask) (h_step : Step setting c d c')
    (h_actor : d.actor? ≠ some t.id) : c'.stage.Nearing t.id mask ∧ ∀ mask', d ≠ .settle mask' := by
  have h_stage := h.stage
  cases h_step with
  | ask | tick => contradiction
  | @skip m p _ cursor u h_next h_service =>
    -- the task itself is not skipped in the second pass, so that has not come to it yet
    refine ⟨?_, nofun⟩
    cases h_stage with
    | handlers h_past =>
      have h_above := (TaskTable.after?_eq_some h_next).1 _ rfl
      exact .handlers (UInt32.le_trans h_past (UInt32.le_of_lt h_above))
    | normal h_above =>
      have h_ne : u ≠ t := by
        rintro rfl
        exact nomatch h.ready.symm.trans h_service
      refine .normal fun other h_other => ?_
      obtain rfl := Option.some.inj h_other
      exact h.lt_of_after? h_above h_next h_ne
  | @serve m p _ cursor u h_next _ | @divert m p _ cursor u _ h_next _ =>
    -- the turn of another one: after the task in the first pass, before it in the second
    refine ⟨.turn ?_ ?_, nofun⟩
    · cases h_stage <;> rfl
    · cases h_stage with
      | handlers h_past =>
        have h_above := (TaskTable.after?_eq_some h_next).1 _ rfl
        have h_later : t.id < u.id := UInt32.lt_of_le_of_lt h_past h_above
        exact h_later
      | normal h_above =>
        have h_ne : u ≠ t := by
          rintro rfl
          exact h_actor rfl
        have h_earlier : u.id < t.id := h.lt_of_after? h_above h_next h_ne
        exact h_earlier
  | execute | overrun =>
    refine ⟨?_, nofun⟩
    cases h_stage with
    | own => contradiction
    | turn h_mask h_between => exact .turn h_mask h_between
  | enter =>
    refine ⟨?_, nofun⟩
    cases h_stage with
    | own => contradiction
    | turn h_mask h_between => exact .native h_mask h_between
  | request =>
    refine ⟨?_, nofun⟩
    cases h_stage with
    | native h_mask h_between => exact .native h_mask h_between
  | leave =>
    refine ⟨?_, nofun⟩
    cases h_stage with
    | native h_mask h_between => exact .turn h_mask h_between
  | @close m s =>
    -- such a turn is over, and the pass goes on from where it was
    refine ⟨?_, nofun⟩
    cases h_stage with
    | own => contradiction
    | turn h_mask h_between =>
      unfold Stint.Between at h_between
      rw [h_mask]
      cases h_pass : s.pass with
      | handlers =>
        rw [h_pass] at h_between
        exact .handlers (UInt32.le_of_lt h_between)
      | normal =>
        rw [h_pass] at h_between
        refine .normal fun other h_other => ?_
        obtain rfl := Option.some.inj h_other
        exact h_between
  | nextPass =>
    -- the second pass begins with the lowest id, so the task is still ahead
    cases h_stage with
    | handlers => exact ⟨.normal nofun, nofun⟩
  | settle h_none =>
    cases h_stage with
    | normal h_above =>
      -- the second pass is not over as long as it has still to come to the task
      exact absurd h_above
        (TaskTable.not_above_of_after?_eq_none h_none (TaskTable.mem_of_find? h.live))

/-- **A turn that is due comes,** unless the task is stopped before. -/
theorem step (h : c.Due t mask) (h_sound : c.Sound first) (h_step : Step setting c d c') :
    (c'.Due t mask ∧ (∀ mask', d ≠ .settle mask') ∧ d ≠ .serve t.id) ∨
      (d.Selects t ∧ c'.machine.tasks.find? t.id = none ∨ Scene.Resumes ⟨c, d, c'⟩ t mask) := by
  -- a step is the task's own or somebody else's, who may stop it
  by_cases h_actor : d.actor? = some t.id
  · exact (h.own_step h_step h_actor).imp_right .inr
  · obtain ⟨h_stage, h_settle⟩ := h.nearing_step h_step h_actor
    rcases h_sound.bystander h_step h.live h_actor h_settle with h_live | h_stopped
    · refine .inl ⟨⟨h_live, h.ready, h_stage⟩, h_settle, ?_⟩
      rintro rfl
      exact h_actor rfl
    · exact .inr (.inl h_stopped)

end Config.Due

/-! ### The steps of a detour -/

theorem Stage.pass?_of_stint {stage : Stage} {s : Stint} (h : stage.stint? = some s) :
    stage.pass? = some s.pass := by
  cases stage with
  | idle | pass => contradiction
  | turn | native =>
    obtain rfl := Option.some.inj h
    rfl

theorem Task.of_detour_eq (h : t.detour = (true, a)) : t.inHandler = true ∧ t.savedAddress = a :=
  Prod.mk.inj h

/-- A task in a handler is served by the first pass or not at all, and it is not diverted. -/
theorem Pass.serve_of_inHandler {p : Pass} (h_inside : t.inHandler = true)
    (h_service : p.service mask t ≠ .skip) :
    p = .handlers ∧ t.kind.overlaps mask ∧ p.service mask t = .serve := by
  unfold Pass.service at h_service ⊢
  cases p with
  | handlers =>
    cases h_mask : t.kind.overlaps mask <;> simp_all
  | normal => simp [h_inside] at h_service

/-- The detour goes on with another handler, or it is over. -/
theorem Task.afterNext_cases (t : Task) : t.afterNext.detour = t.detour ∨
    (t.handlerIndex = 0 ∨ t.handlers[(t.handlerIndex - 1).toNat]? = none) ∧
      ∃ handlerIndex, t.afterNext = { t with handlerIndex }.returned := by
  -- there is a handler before the one that runs, and it is still registered, or it returns
  by_cases h_first : t.handlerIndex = 0
  · exact .inr ⟨.inl h_first, t.handlerIndex, afterNext_of_first h_first⟩
  · cases h_next : t.handlers[(t.handlerIndex - 1).toNat]? with
    | some address =>
      rw [afterNext_of_some h_first h_next]
      exact .inl rfl
    | none => exact .inr ⟨.inr rfl, t.handlerIndex - 1, afterNext_of_none h_first h_next⟩

namespace Config.Detour

variable {m m' : Machine} {s : Stint} {i : Instruction}

/-- Who leaves its handler in a turn is due for another one. -/
theorem due (h : Config.Detour ⟨m, .turn s⟩ id a) (h_task : s.task = id)
    (h_find : m.tasks.find? id = some t) (h_goes : Machine.turnEnds s.begunInHandler t = false)
    (h_find' : m'.tasks.find? id = some t') (h_kind : t'.kind = t.kind)
    (h_waits : t'.waitingFor = t.waitingFor) (h_outside : t'.inHandler = false) :
    s = ⟨.handlers, s.mask, id, true⟩ ∧ Config.Due ⟨m', .turn s⟩ t' s.mask := by
  obtain ⟨h_pass, h_begun, h_mask⟩ := h.stint rfl h_task
  obtain ⟨-, -, h_runs, -⟩ := Machine.turnEnds_eq_false_iff.1 h_goes
  obtain ⟨pass, mask, task, begunInHandler⟩ := s
  obtain rfl : pass = .handlers := h_pass
  obtain rfl : begunInHandler = true := h_begun
  obtain rfl : task = id := h_task
  obtain rfl := TaskTable.id_of_find? h_find'
  refine ⟨rfl, h_find', ?_, .own⟩
  -- the turn was given for this mask, and it went on, so the task does not wait
  have h_overlaps : t'.kind.overlaps mask := h_kind ▸ h_mask t h_find
  have h_goes_on : t'.isWaiting = false := bne_eq_false_iff_eq.2 (h_waits.trans h_runs)
  unfold Pass.service
  simp only [h_overlaps, h_outside, h_goes_on]
  rfl

/-- **How a detour ends.** -/
theorem leave (h : Config.Detour ⟨m, .turn s⟩ id a) (h_task : s.task = id)
    (h_find : m.tasks.find? id = some t) (h_goes : Machine.turnEnds s.begunInHandler t = false)
    (h_advance : m.advance setting Machine.noBody id i = some m')
    (h_leaves : i.opcode.LeavesHandler) (h_find' : m'.tasks.find? id = some t') :
    t'.detour = (true, a) ∨
      Scene.Returns ⟨⟨m, .turn s⟩, .execute id i, ⟨m', .turn s⟩⟩ id a t' ∧
        s = ⟨.handlers, s.mask, id, true⟩ ∧ Config.Due ⟨m', .turn s⟩ t' s.mask := by
  obtain ⟨u, h_u, h_detour⟩ := h.live
  cases h_find.symm.trans h_u
  obtain ⟨h_inside, h_saved⟩ := Task.of_detour_eq h_detour
  -- one case for each of the instructions that may leave a handler
  rcases h_leaves with h_opcode | h_opcode | h_opcode
  · obtain ⟨m₁, h_eq, -, h_after⟩ :=
      Machine.advance_returnExcept setting Machine.noBody h_opcode h_find h_inside
    cases h_advance.symm.trans h_eq
    cases h_find'.symm.trans h_after
    exact .inr ⟨⟨i, t, rfl, h_find, .inl ⟨.inl h_opcode, h_saved, rfl⟩⟩,
      h.due h_task h_find h_goes h_find' rfl rfl rfl⟩
  · obtain ⟨m₁, h_eq, -, h_after⟩ :=
      Machine.advance_nextExcept setting Machine.noBody h_opcode h_find h_inside
    cases h_advance.symm.trans h_eq
    cases h_find'.symm.trans h_after
    rcases t.afterNext_cases with h_same | ⟨h_none, handlerIndex, h_returned⟩
    · exact .inl (h_same.trans h_detour)
    · -- there is no other handler, so this comes to the same as returning
      rw [h_returned] at h_find' ⊢
      exact .inr ⟨⟨i, t, rfl, h_find, .inl ⟨.inr ⟨h_opcode, h_none⟩, h_saved, rfl⟩⟩,
        h.due h_task h_find h_goes h_find' rfl rfl rfl⟩
  · obtain ⟨m₁, h_eq, -, h_after⟩ :=
      Machine.advance_breakExcept setting Machine.noBody h_opcode h_find
    cases h_advance.symm.trans h_eq
    cases h_find'.symm.trans h_after
    exact .inr ⟨⟨i, t, rfl, h_find, .inr ⟨h_opcode, rfl, rfl⟩⟩,
      h.due h_task h_find h_goes h_find' rfl rfl rfl⟩

/-- What the task does itself is done in the first pass, and leaves the detour alone or ends it. -/
theorem own_step (h : c.Detour id a) (h_sound : c.Sound first) (h_step : Step setting c d c')
    (h_actor : d.actor? = some id) (h_find' : c'.machine.tasks.find? id = some t') :
    (c'.Detour id a ∧ d ≠ .divert id ∧ c.stage.pass? = some .handlers) ∨
      Scene.Returns ⟨c, d, c'⟩ id a t' ∧
        ∃ mask, c.stage = .turn ⟨.handlers, mask, id, true⟩ ∧ c'.Due t' mask := by
  obtain ⟨t, h_find, h_detour⟩ := h.live
  obtain ⟨h_inside, -⟩ := Task.of_detour_eq h_detour
  have h_kind := h_sound.kind_eq h_step h_find h_find'
  -- the turn goes on, and with it the detour
  have h_stays {s : Stint} (h_in : c.stage.stint? = some s) (h_task : s.task = id)
      (h_out : ∀ s', c'.stage.stint? = some s' → s' = s) (h_same : t'.detour = (true, a)) :
      c'.Detour id a ∧ c.stage.pass? = some .handlers := by
    obtain ⟨h_pass, h_begun, h_mask⟩ := h.stint h_in h_task
    refine ⟨⟨⟨t', h_find', h_same⟩, fun h_s' _ => ?_⟩, ?_⟩
    · rw [h_out _ h_s']
      refine ⟨h_pass, h_begun, fun u h_u => ?_⟩
      cases h_find'.symm.trans h_u
      exact h_kind ▸ h_mask t h_find
    · rw [Stage.pass?_of_stint h_in, h_pass]
  have h_same {s : Stint} (s' : Stint) (h : some s = some s') : s' = s := (Option.some.inj h).symm
  cases h_step with
  | ask | tick | skip | nextPass | settle => contradiction
  | @serve m p mask cursor u h_next h_service =>
    -- a handler that takes many ticks goes on in the first pass of each
    obtain rfl := Option.some.inj h_actor
    cases h_find.symm.trans (TaskTable.find?_of_after? h_next)
    obtain ⟨rfl, h_mask, -⟩ := Pass.serve_of_inHandler h_inside (by rw [h_service]; nofun)
    have h_begun : (m.begin t.id).tasks.find? t.id = some { t with yielded := false } :=
      Machine.find?_updateTask_self h_find _
    cases h_find'.symm.trans h_begun
    refine .inl ⟨⟨⟨_, h_begun, h_detour⟩, fun h_s _ => ?_⟩, nofun, rfl⟩
    obtain rfl := Option.some.inj h_s
    refine ⟨rfl, h_inside, fun v h_v => ?_⟩
    cases h_begun.symm.trans h_v
    exact h_mask
  | @divert m p mask cursor u _ h_next h_service =>
    obtain rfl := Option.some.inj h_actor
    cases h_find.symm.trans (TaskTable.find?_of_after? h_next)
    obtain ⟨-, -, h_serve⟩ := Pass.serve_of_inHandler h_inside (by rw [h_service]; nofun)
    exact nomatch h_serve.symm.trans h_service
  | @execute m m' s u i h_f h_goes _ h_advance =>
    obtain rfl := Option.some.inj h_actor
    cases h_find.symm.trans h_f
    by_cases h_leaves : i.opcode.LeavesHandler
    · rcases h.leave rfl h_find h_goes h_advance h_leaves h_find' with
        h_detour' | ⟨h_returns, h_s, h_due⟩
      · obtain ⟨h_still, h_pass⟩ := h_stays rfl rfl h_same h_detour'
        exact .inl ⟨h_still, nofun, h_pass⟩
      · exact .inr ⟨h_returns, s.mask, congrArg Stage.turn h_s, h_due⟩
    · obtain ⟨u, h_u, h_kept⟩ := Machine.advance_detour h_advance h_find
        (h_sound.counted.ne_next h_find) h_leaves
      cases h_find'.symm.trans h_u
      obtain ⟨h_still, h_pass⟩ := h_stays rfl rfl h_same (h_kept.trans h_detour)
      exact .inl ⟨h_still, nofun, h_pass⟩
  | enter =>
    cases h_find'.symm.trans h_find
    obtain ⟨h_still, h_pass⟩ := h_stays rfl (Option.some.inj h_actor) h_same h_detour
    exact .inl ⟨h_still, nofun, h_pass⟩
  | request h_immediate h_answer =>
    have h_bearing := Machine.answer_bearing h_immediate h_answer h_find
      (h_sound.counted.ne_next h_find) h_find'
    have h_kept := congrArg Task.detour h_bearing
    obtain ⟨h_still, h_pass⟩ := h_stays rfl (Option.some.inj h_actor) h_same
      (h_kept.trans h_detour)
    exact .inl ⟨h_still, nofun, h_pass⟩
  | leave m s function =>
    obtain rfl := Option.some.inj h_actor
    have h_after : ((m.emit (.nativeLeft function)).updateTask s.task fun t =>
        { t with address := t.address + 1 }).tasks.find? s.task =
          some { t with address := t.address + 1 } := Machine.find?_updateTask_self h_find _
    cases h_find'.symm.trans h_after
    obtain ⟨h_still, h_pass⟩ := h_stays rfl rfl h_same h_detour
    exact .inl ⟨h_still, nofun, h_pass⟩
  | @overrun m s u =>
    obtain rfl := Option.some.inj h_actor
    have h_after : ((m.fault .invalidOperand u.name u.address).updateTask s.task fun t =>
        { t with stopped := true }).tasks.find? s.task = some { t with stopped := true } :=
      Machine.find?_updateTask_self h_find _
    cases h_find'.symm.trans h_after
    obtain ⟨h_still, h_pass⟩ := h_stays rfl rfl h_same h_detour
    exact .inl ⟨h_still, nofun, h_pass⟩
  | close =>
    cases h_find'.symm.trans h_find
    obtain ⟨h_still, h_pass⟩ := h_stays rfl (Option.some.inj h_actor) nofun h_detour
    exact .inl ⟨h_still, nofun, h_pass⟩

/-- **A step of a detour.** It goes on, or the task is gone, or it has left its handler and is due
for a turn of normal flow. -/
theorem step (h : c.Detour id a) (h_sound : c.Sound first) (h_step : Step setting c d c') :
    (c'.Detour id a ∧ d ≠ .divert id ∧ (d.actor? = some id → c.stage.pass? = some .handlers)) ∨
      ((∃ t, t.id = id ∧ Scene.Parts ⟨c, d, c'⟩ t) ∨
        ∃ t' mask, t'.id = id ∧ Scene.Returns ⟨c, d, c'⟩ id a t' ∧
          c.stage = .turn ⟨.handlers, mask, id, true⟩ ∧ c'.Due t' mask) := by
  obtain ⟨t, h_find, h_detour⟩ := h.live
  cases h_find' : c'.machine.tasks.find? id with
  | none =>
    obtain rfl := TaskTable.id_of_find? h_find
    exact .inr (.inl ⟨t, rfl, h_sound.parts h_step h_find h_find'⟩)
  | some t' =>
    by_cases h_actor : d.actor? = some id
    · rcases h.own_step h_sound h_step h_actor h_find' with ⟨h_still, h_divert, h_pass⟩ |
        ⟨h_returns, mask, h_stage, h_due⟩
      · exact .inl ⟨h_still, h_divert, fun _ => h_pass⟩
      · exact .inr (.inr ⟨t', mask, TaskTable.id_of_find? h_find', h_returns, h_stage, h_due⟩)
    · -- what others do is no concern of the detour, and a turn of the task is not theirs
      have h_kept := h_sound.detour_eq h_step h_find h_find' h_actor
      refine .inl ⟨⟨⟨t', h_find', h_kept.trans h_detour⟩, fun h_s h_task => ?_⟩, ?_,
        fun h_own => absurd h_own h_actor⟩
      · exact absurd (h_task ▸ h_step.actor?_of_stint h_s) h_actor
      · rintro rfl
        exact h_actor rfl

end Config.Detour

theorem Machine.find?_begin_divert {m : Machine} (h_find : m.tasks.find? id = some t)
    (handler : UInt32) : ((m.divert id handler).begin id).tasks.find? id = some { t with
      savedAddress := t.address, address := handler, inHandler := true, yielded := false,
      handlerIndex := UInt32.ofNat (t.handlers.length - 1) } := by
  have h_diverted : (m.divert id handler).tasks.find? id = some { t with
      savedAddress := t.address, address := handler, inHandler := true,
      handlerIndex := UInt32.ofNat (t.handlers.length - 1) } := find?_updateTask_self h_find _
  exact find?_updateTask_self h_diverted _

/-- **How a detour begins.** -/
theorem Step.detour (h : Step setting c (.divert id) c') : ∃ t handler,
    c.machine.tasks.find? id = some t ∧ t.inHandler = false ∧
      t.handlers.getLast? = some handler ∧
      c'.machine.tasks.find? id = some { t with
        savedAddress := t.address, address := handler, inHandler := true, yielded := false,
        handlerIndex := UInt32.ofNat (t.handlers.length - 1) } ∧
      c'.Detour id t.address := by
  cases h with
  | @divert m p mask cursor t handler h_next h_service =>
    obtain ⟨rfl, h_mask, h_outside, -, h_last⟩ := Pass.service_eq_divert_iff.1 h_service
    have h_find := TaskTable.find?_of_after? h_next
    have h_begun := Machine.find?_begin_divert h_find handler
    refine ⟨t, handler, h_find, h_outside, h_last, h_begun, ⟨_, h_begun, rfl⟩, fun h_s _ => ?_⟩
    obtain rfl := Option.some.inj h_s
    refine ⟨rfl, rfl, fun u h_u => ?_⟩
    cases h_begun.symm.trans h_u
    exact h_mask

/-! ### From the beginning of a detour to the next turn -/

theorem Course.detour (h : Course setting c scenes c') (h_detour : c.Detour id a)
    (h_sound : c.Sound first) (h_room : c'.machine.started - first < UInt32.size) :
    ∃ handled rest, scenes = handled ++ rest ∧
      (∀ s ∈ handled, s.after.Detour id a ∧ s.deed ≠ .divert id ∧
        (s.deed.actor? = some id → s.before.stage.pass? = some .handlers)) ∧
      (rest = [] ∨ ∃ scene later, rest = scene :: later ∧
        ((∃ t, t.id = id ∧ scene.Parts t) ∨
          ∃ t' mask, t'.id = id ∧ scene.Returns id a t' ∧
            scene.before.stage = .turn ⟨.handlers, mask, id, true⟩ ∧ scene.after.Due t' mask)) :=
  h.lasts (P := (·.Detour id a)) (fun h_step h_sound _ h => h.step h_sound h_step) h_sound h_room
    h_detour

theorem Course.due (h : Course setting c scenes c') (h_due : c.Due t mask)
    (h_sound : c.Sound first) (h_room : c'.machine.started - first < UInt32.size) :
    ∃ between after, scenes = between ++ after ∧
      (∀ s ∈ between, s.after.machine.tasks.find? t.id = some t ∧
        (∀ mask', s.deed ≠ .settle mask') ∧ s.deed ≠ .serve t.id) ∧
      (after = [] ∨ ∃ s rest, after = s :: rest ∧
        (s.deed.Selects t ∧ s.after.machine.tasks.find? t.id = none ∨ s.Resumes t mask)) := by
  obtain ⟨between, after, h_scenes, h_between, h_end⟩ : ∃ between after,
      scenes = between ++ after ∧
      (∀ s ∈ between, s.after.Due t mask ∧
        (∀ mask', s.deed ≠ .settle mask') ∧ s.deed ≠ .serve t.id) ∧
      (after = [] ∨ ∃ s rest, after = s :: rest ∧
        (s.deed.Selects t ∧ s.after.machine.tasks.find? t.id = none ∨ s.Resumes t mask)) :=
    h.lasts (P := (·.Due t mask)) (fun h_step h_sound _ h => h.step h_sound h_step) h_sound h_room
      h_due
  exact ⟨between, after, h_scenes, fun s h_s => (h_between s h_s).imp_left Config.Due.live, h_end⟩

/-- **A handler returns to where its task was interrupted.** Let a program be loaded, by a host with
natives that run no ticks, and let a task be diverted to its most recent handler. Whatever is done
then, there is a first part of it in which the task is in a handler and the address where normal
flow was left stays what it is; the task is not diverted once more, and it does nothing outside of
the pass for handlers. If there is more, the task is gone next, for it was stopped or had ended; or
it leaves its handler, by an instruction that returns to that address and keeps the handlers, or
by one that drops them and goes on. It is in the first pass of a tick then, and that tick is not
over until a turn of normal flow has begun with the task as it left its handler, or the task is
stopped before. -/
theorem Machine.handler_returns (h_setting : setting.Immediate) (m₀ : Machine) (i : Image) :
    TakesCourses setting m₀ i ∧
    ∀ {past future : List Scene} {c c₁ c₂ : Config} {task : UInt32},
      Course setting ⟨m₀.beginning i, .idle⟩ past c → Step setting c (.divert task) c₁ →
      Course setting c₁ future c₂ → c₂.machine.started - m₀.started < UInt32.size →
      ∃ t handler, c.machine.tasks.find? task = some t ∧ t.inHandler = false ∧
        t.handlers.getLast? = some handler ∧
        c₁.machine.tasks.find? task = some { t with
          savedAddress := t.address, address := handler, inHandler := true, yielded := false,
          handlerIndex := UInt32.ofNat (t.handlers.length - 1) } ∧
        ∃ handled rest, future = handled ++ rest ∧
          (∀ scene ∈ handled,
            (∃ u, scene.after.machine.tasks.find? task = some u ∧ u.inHandler = true ∧
              u.savedAddress = t.address) ∧
            scene.deed ≠ .divert task ∧
            (scene.deed.actor? = some task → scene.before.stage.pass? = some .handlers)) ∧
          (rest = [] ∨ ∃ scene later, rest = scene :: later ∧
            ((∃ u, u.id = task ∧ scene.Parts u) ∨
              ∃ t' mask, scene.Returns task t.address t' ∧
                scene.before.stage = .turn ⟨.handlers, mask, task, true⟩ ∧
                scene.after.machine.tasks.find? task = some t' ∧ t'.inHandler = false ∧
                ∃ between after, later = between ++ after ∧
                  (∀ s ∈ between, s.after.machine.tasks.find? task = some t' ∧
                    (∀ mask', s.deed ≠ .settle mask') ∧ s.deed ≠ .serve task) ∧
                  (after = [] ∨ ∃ s rest', after = s :: rest' ∧
                    (s.deed.Selects t' ∧ s.after.machine.tasks.find? task = none ∨
                      s.Resumes t' mask)))) := by
  refine ⟨takesCourses h_setting m₀ i, ?_⟩
  intro past future c c₁ c₂ task h_past h_step h_future h_room
  have h_course := h_past.append (.cons h_step h_future)
  obtain ⟨-, h_sound₁⟩ := h_course.sound_at (Config.sound_beginning m₀ i) h_room
  -- the course is sound, so the detour that the step begins can be followed
  obtain ⟨t, handler, h_find, h_outside, h_last, h_diverted, h_detour⟩ := h_step.detour
  obtain ⟨handled, rest, h_scenes, h_handled, h_end⟩ := h_future.detour h_detour h_sound₁ h_room
  refine ⟨t, handler, h_find, h_outside, h_last, h_diverted, handled, rest, h_scenes,
    fun scene h_scene => ?_, h_end.imp_right ?_⟩
  · obtain ⟨⟨⟨u, h_u, h_same⟩, -⟩, h_done⟩ := h_handled scene h_scene
    obtain ⟨h_inside, h_saved⟩ := Task.of_detour_eq h_same
    exact ⟨⟨u, h_u, h_inside, h_saved⟩, h_done⟩
  · rintro ⟨scene, later, rfl, h_gone | ⟨t', mask, rfl, h_returns, h_stage, h_due⟩⟩
    · exact ⟨scene, later, rfl, .inl h_gone⟩
    · -- what comes after the scene is a course that begins with the task due
      subst h_scenes
      obtain ⟨-, -, h_later⟩ := h_future.at_scene
      obtain ⟨-, h_sound₂⟩ := h_future.sound_at h_sound₁ h_room
      exact ⟨scene, later, rfl, .inr ⟨t', mask, h_returns, h_stage, h_due.live, h_due.outside,
        h_later.due h_due h_sound₂ h_room⟩⟩

/-! ### A handler, step by step -/

/-- A script that registers a handler and then waits in a loop. The handler returns at once. -/
def interruptedImage : Image :=
  { program := {
      code := [⟨.except, 0, .untyped, 3, 0⟩, ⟨.jump, Mode.backward, .untyped, 1, 0⟩,
        ⟨.finish, 0, .untyped, 0, 0⟩, ⟨.returnExcept, 0, .untyped, 0, 0⟩]
      autostart := [1]
      scripts := [⟨"M", "", .script, 0, [], 0, 0, 1⟩] } }

def interruptedTask : Task :=
  { Task.start 1 ⟨"M", "", .script, 0, [], 0, 0, 1⟩ with
    address := 1, handlers := [3], ticks := 1, yielded := true }

/-- The machine after a tick: the task is in its loop. -/
def interruptedMachine : Machine :=
  (Machine.tick plainSetting 4 .all (Machine.load {} interruptedImage)).getD {}

/-- The task is about to return from its handler. -/
def divertedMachine : Machine := (interruptedMachine.divert 1 3).begin 1

/-- The task has returned. -/
def resumedMachine : Machine :=
  (divertedMachine.advance plainSetting Machine.noBody 1 ⟨.returnExcept, 0, .untyped, 0, 0⟩).getD {}

theorem reaches_interrupted : Config.Reaches plainSetting
    ⟨Machine.beginning {} interruptedImage, .idle⟩
    ⟨interruptedMachine, .pass .handlers .all none⟩ := by
  have h_run : Machine.perform plainSetting (.request (.tick .all))
      (Machine.load {} interruptedImage) = some ((), interruptedMachine) := by decide +kernel
  have h_first := Machine.reaches_perform (r := .request (.tick .all)) plainSetting_immediate
    ⟨trivial, fun _ => trivial⟩ h_run
  exact h_first.trans (.single (.tick _ .all))

theorem step_diverted : Step plainSetting ⟨interruptedMachine, .pass .handlers .all none⟩
    (.divert 1) ⟨divertedMachine, .turn ⟨.handlers, .all, 1, true⟩⟩ := by
  have h_next : interruptedMachine.tasks.after? none = some interruptedTask := by decide +kernel
  exact .divert h_next rfl

/-- Normal flow goes on. -/
def resumedScene : Scene :=
  ⟨⟨resumedMachine.rest, .pass .normal .all none⟩, .serve 1,
    ⟨resumedMachine.rest.begin 1, .turn ⟨.normal, .all, 1, false⟩⟩⟩

/-- The handler returns, its turn is over, and so is the pass; then normal flow goes on. -/
def resumedScenes : List Scene :=
  [⟨⟨divertedMachine, .turn ⟨.handlers, .all, 1, true⟩⟩,
      .execute 1 ⟨.returnExcept, 0, .untyped, 0, 0⟩,
      ⟨resumedMachine, .turn ⟨.handlers, .all, 1, true⟩⟩⟩,
    ⟨⟨resumedMachine, .turn ⟨.handlers, .all, 1, true⟩⟩, .close 1,
      ⟨resumedMachine.rest, .pass .handlers .all (some 1)⟩⟩,
    ⟨⟨resumedMachine.rest, .pass .handlers .all (some 1)⟩, .nextPass,
      ⟨resumedMachine.rest, .pass .normal .all none⟩⟩,
    resumedScene]

theorem course_resumed : Course plainSetting
    ⟨divertedMachine, .turn ⟨.handlers, .all, 1, true⟩⟩ resumedScenes
    ⟨resumedMachine.rest.begin 1, .turn ⟨.normal, .all, 1, false⟩⟩ := by
  have h_diverted : divertedMachine.tasks.find? 1 = some { interruptedTask with
      address := 3, savedAddress := 1, inHandler := true, yielded := false } := by decide +kernel
  have h_resumed : resumedMachine.tasks.find? 1 = some { interruptedTask with
      savedAddress := 1, yielded := false } := by decide +kernel
  have h_next : resumedMachine.rest.tasks.after? none = some { interruptedTask with
      savedAddress := 1, yielded := false } := by decide +kernel
  refine .cons (.execute h_diverted (by decide +kernel) (by decide +kernel) (by decide +kernel))
    (.cons (.close fun t h_t => ?_) (.cons (.nextPass (by decide +kernel))
      (.cons (.serve h_next (by decide +kernel)) (.nil _))))
  cases h_resumed.symm.trans h_t
  rfl

/-- The task was interrupted at 1, and after its handler normal flow goes on at 1, with the handler
still registered. -/
theorem handler_returns_interrupted :
    ∃ past future c c₁ c₂,
      Course plainSetting ⟨Machine.beginning {} interruptedImage, .idle⟩ past c ∧
      Step plainSetting c (.divert 1) c₁ ∧ Course plainSetting c₁ future c₂ ∧
      (∃ t, c.machine.tasks.find? 1 = some t ∧ t.address = 1 ∧ t.handlers = [3]) ∧
      ∃ s ∈ future, ∃ t', s.Resumes t' .all ∧ t'.id = 1 ∧ t'.address = 1 ∧ t'.handlers = [3] := by
  obtain ⟨-, h_returns⟩ := Machine.handler_returns plainSetting_immediate {} interruptedImage
  obtain ⟨past, h_past⟩ := reaches_interrupted
  have h_find : interruptedMachine.tasks.find? 1 = some interruptedTask := by decide +kernel
  refine ⟨past, resumedScenes, _, _, _, h_past, step_diverted, course_resumed,
    ⟨_, h_find, rfl, rfl⟩, ?_⟩
  obtain ⟨t, handler, h_t, -, -, -, handled, rest, h_scenes, h_handled, h_end⟩ :=
    h_returns h_past step_diverted course_resumed (by decide +kernel)
  have h_last : resumedScene ∈ handled ++ rest := h_scenes ▸ by simp [resumedScenes]
  have h_lives : ∀ s ∈ handled ++ rest, s.after.machine.tasks.find? 1 ≠ none := by
    rw [← h_scenes]
    refine List.forall_mem_cons.2 ⟨by decide +kernel, List.forall_mem_cons.2 ⟨by decide +kernel,
      List.forall_mem_cons.2 ⟨by decide +kernel, List.forall_mem_singleton.2 (by decide +kernel)⟩⟩⟩
  have h_serves : ∀ s ∈ handled ++ rest, s.deed = .serve 1 → s = resumedScene := by
    rw [← h_scenes]
    simp [resumedScenes, resumedScene]
  rcases List.mem_append.1 h_last with h_mem | h_mem
  · -- in the handler nothing is done in the second pass
    obtain ⟨-, -, h_pass⟩ := h_handled _ h_mem
    exact nomatch h_pass rfl
  rcases h_end with rfl | ⟨scene, later, rfl, ⟨u, h_u, h_parts⟩ |
    ⟨t', mask, -, h_stage, h_t', -, h⟩⟩
  · exact absurd h_mem List.not_mem_nil
  · exact absurd (h_u ▸ h_parts.gone) (h_lives scene (by simp))
  obtain ⟨between, after, rfl, h_between, h_after⟩ := h
  have h_mem' : resumedScene ∈ between ++ after := by
    refine (List.mem_cons.1 h_mem).resolve_left ?_
    rintro rfl
    exact nomatch h_stage
  rcases List.mem_append.1 h_mem' with h_mem' | h_mem'
  · exact absurd rfl (h_between _ h_mem').2.2
  rcases h_after with rfl | ⟨s, rest', rfl, ⟨-, h_gone⟩ | h_resumes⟩
  · exact absurd h_mem' List.not_mem_nil
  · exact absurd h_gone (h_lives s (by simp))
  · have h_id := TaskTable.id_of_find? h_t'
    obtain rfl := h_serves s (by simp) (h_id ▸ h_resumes.deed)
    have h_resumed : resumedMachine.tasks.find? 1 = some { interruptedTask with
      savedAddress := 1, yielded := false } := by decide +kernel
    cases h_resumed.symm.trans (h_id ▸ h_resumes.live)
    obtain ⟨cursor, h_pass⟩ := h_resumes.stage
    cases h_pass
    exact ⟨resumedScene, by simp [resumedScenes], _, h_resumes, rfl, rfl, rfl⟩

end ScriptMachine
