import ScriptMachine.Proofs.Machine.Extent

/-!
# Courses

`Runs` says what may come of a machine, and forgets who did what. Facts about the order in which
things happen need a closer look: here a run is a succession of steps (`Step`), each of which tells
what was done (`Deed`).

Natives that run no ticks make that possible. Then a machine is between two operations, or in a
pass, or in the turn of a task, or in the body of a native that is called in the turn (`Stage`), and
no further in. A step is made of what the machine itself does: requests are answered by
`Machine.answer`, instructions are executed by `Machine.advance`, and a pass looks up the next task
in the table as it is. So nothing has to be believed of steps: a tick takes a course of its own
(`Machine.leads_tickWithin`), and routines that are carried out by `Machine.perform` after a program
was loaded have taken a course from its beginning (`Machine.reaches_perform`). Nor do courses go
where machines do not: within an operation there is but one step to take (`Step.unique`), so what is
said of all courses is said of what the machine does (`Machine.TakesCourses`).
-/

namespace ScriptMachine

/-! ### Immediate requests -/

/-- A request that leaves the program in its place and is answered without a tick. -/
def Request.Immediate : Request → Prop
  | .tick _ | .load _ | .restore _ | .reboot => False
  | _ => True

/-- No native that could be called runs a tick or replaces the program. -/
def Setting.Immediate (setting : Setting) : Prop :=
  ∀ native ∈ setting.natives, ∀ body ∈ native.body, body.Only Request.Immediate

theorem Request.Immediate.ordinary {q : Request} (h : q.Immediate) : q.Ordinary := by
  cases q <;> trivial

theorem Routine.Only.mono {α : Type} {allowed allowed' : Request → Prop}
    (h : ∀ q, allowed q → allowed' q) {r : Routine α} (h_only : r.Only allowed) :
    r.Only allowed' := by
  induction r with
  | done => trivial
  | ask q next ih => exact ⟨h q h_only.1, fun a => ih a (h_only.2 a)⟩

theorem Setting.Immediate.ordinary {setting : Setting} (h : setting.Immediate) :
    setting.Ordinary :=
  fun native h_native body h_body =>
    (h native h_native body h_body).mono fun _ => Request.Immediate.ordinary

/-- There are no natives. -/
def plainSetting : Setting := { tickLength := Setting.defaultTickLength }

theorem plainSetting_immediate : plainSetting.Immediate := List.forall_mem_nil _

/-- Ticks never come to an end. -/
def noTick (_ : ScriptKind) (_ : Machine) : Option Machine := none

/-- It does not matter how ticks are run. -/
theorem Machine.answer_immediate {q : Request} (h : q.Immediate)
    (tick : ScriptKind → Machine → Option Machine) (m : Machine) :
    m.answer tick q = m.answer noTick q := by
  cases q <;> first | rfl | exact h.elim

/-- **How facts about answers are proven.** Requests that are answered without a tick come down to
exchanges, starts and stops, but for what the host keeps for itself. -/
theorem Machine.answer_lift {R : Machine → Machine → Prop} (h_refl : ∀ m, R m m)
    (h_trans : ∀ {m m' m''}, R m m' → R m' m'' → R m m'')
    (h_exchange : ∀ {m m'}, Exchange m m' → R m m')
    (h_spawn : ∀ m script, R m (m.spawn script).2) (h_stop : ∀ m id, R m (m.stop id))
    (h_keep : ∀ (m : Machine) memory, R m { m with memory }) {m m' : Machine} {q : Request}
    {a : q.Answer} (h_immediate : q.Immediate) (h : m.answer noTick q = some (a, m')) :
    R m m' := by
  have h_stops (ids : List UInt32) (m : Machine) : R m (ids.foldl stop m) := by
    induction ids generalizing m with
    | nil => exact h_refl m
    | cons id rest ih => exact h_trans (h_stop m id) (ih (m.stop id))
  -- by what is asked for; the bulk stops stop their tasks one by one
  cases q with
  | tick | load | restore | reboot => exact h_immediate.elim
  | observe | memory =>
    cases h
    exact h_refl m
  | push v =>
    cases h
    exact h_exchange (exchange_push m v)
  | pop =>
    have h_pop := h_exchange (exchange_pop m)
    rw [Option.some.inj h] at h_pop
    exact h_pop
  | start script =>
    have h_start : R m (m.start script).2 := by
      unfold start
      split
      · exact h_spawn m _
      · exact h_exchange (.fault ..)
    rw [Option.some.inj h] at h_start
    exact h_start
  | startNamed name mask =>
    have h_start : R m (m.startNamed name mask).2 := by
      unfold startNamed
      split
      · exact h_exchange (.fault ..)
      · split
        · exact h_spawn m _
        · exact h_exchange (.fault ..)
    rw [Option.some.inj h] at h_start
    exact h_start
  | stop task =>
    cases h
    exact h_stop m task
  | stopAll | stopKind mask | stopNamed selected =>
    cases h
    exact h_stops _ m
  | keep memory =>
    cases h
    exact h_keep m memory
  | note text =>
    cases h
    exact h_exchange (.tell (.note text) trivial)

theorem Routine.run_ask {α : Type} (tick : ScriptKind → Machine → Option Machine) (q : Request)
    (next : q.Answer → Routine α) (m : Machine) : (Routine.ask q next).run tick m =
      (m.answer tick q).bind fun r => (next r.1).run tick r.2 := by
  rw [Routine.run]
  cases m.answer tick q <;> rfl

/-! ### Stages -/

/-- The two passes of a tick. -/
inductive Pass where
  | handlers
  | normal
deriving DecidableEq, Repr

/-- What a pass does with a task that it comes to. -/
inductive Service where
  | skip
  | serve
  /-- The turn begins in a handler, and normal flow is left for it. -/
  | divert (address : UInt32)
deriving DecidableEq, Repr

def Pass.service (p : Pass) (mask : ScriptKind) (t : Task) : Service :=
  match p with
  | .handlers =>
    if !t.kind.overlaps mask then .skip
    else if t.inHandler then .serve
    else if t.isWaiting then .skip
    else
      match t.handlers.getLast? with
      | none => .skip
      | some address => .divert address
  | .normal => if t.kind.overlaps mask && !t.inHandler && !t.isWaiting then .serve else .skip

/-- A turn: in which pass a task was served, and whether it was in a handler then. -/
structure Stint where
  pass : Pass
  mask : ScriptKind
  task : UInt32
  begunInHandler : Bool
deriving DecidableEq, Repr

/-- Where a machine stands in what it does. -/
inductive Stage where
  | idle
  /-- In a pass, which has come up to the cursor. -/
  | pass (p : Pass) (mask : ScriptKind) (cursor : Option UInt32)
  | turn (s : Stint)
  /-- In a turn, with the rest of the body of a native before it. -/
  | native (s : Stint) (function : UInt32) (rest : Routine Unit)

/-- Whose turn it is. -/
def Stage.task? : Stage → Option UInt32
  | .idle | .pass .. => none
  | .turn s | .native s _ _ => some s.task

/-- Something has been begun that is not over. -/
def Stage.Inside : Stage → Prop
  | .idle => False
  | _ => True

/-- A machine and where it stands. -/
structure Config where
  machine : Machine
  stage : Stage

/-! ### Steps -/

/-- What is done in a step. -/
inductive Deed where
  /-- The host makes a request, or a native in the turn of a task does. -/
  | ask (caller : Option UInt32) (q : Request) (answer : q.Answer)
  | tick (mask : ScriptKind)
  | skip (task : UInt32)
  | serve (task : UInt32)
  | divert (task : UInt32)
  | execute (task : UInt32) (i : Instruction)
  | leave (task function : UInt32)
  /-- A task has run out of the code. -/
  | overrun (task : UInt32)
  | close (task : UInt32)
  | nextPass
  | settle (mask : ScriptKind)

namespace Machine

/-- Lets a turn begin. -/
def begin (m : Machine) (task : UInt32) : Machine :=
  { m with focus := .task task, running := some task }.updateTask task fun t =>
    { t with yielded := false }

/-- Diverts a task to a handler. -/
def divert (m : Machine) (task address : UInt32) : Machine :=
  m.updateTask task fun t =>
    { t with
      savedAddress := t.address
      handlerIndex := UInt32.ofNat (t.handlers.length - 1)
      address
      inHandler := true }

/-- Puts the focus back where it is between turns. -/
def rest (m : Machine) : Machine := { m with focus := .main, running := none }

end Machine

/-- One step of a machine. -/
inductive Step (setting : Setting) : Config → Deed → Config → Prop
  | ask {m m' : Machine} {q : Request} {a : q.Answer} (h_immediate : q.Immediate)
      (h_answer : m.answer noTick q = some (a, m')) :
      Step setting ⟨m, .idle⟩ (.ask none q a) ⟨m', .idle⟩
  | tick (m : Machine) (mask : ScriptKind) :
      Step setting ⟨m, .idle⟩ (.tick mask) ⟨m, .pass .handlers mask none⟩
  | skip {m : Machine} {p : Pass} {mask : ScriptKind} {cursor : Option UInt32} {t : Task}
      (h_next : m.tasks.after? cursor = some t) (h_service : p.service mask t = .skip) :
      Step setting ⟨m, .pass p mask cursor⟩ (.skip t.id) ⟨m, .pass p mask (some t.id)⟩
  | serve {m : Machine} {p : Pass} {mask : ScriptKind} {cursor : Option UInt32} {t : Task}
      (h_next : m.tasks.after? cursor = some t) (h_service : p.service mask t = .serve) :
      Step setting ⟨m, .pass p mask cursor⟩ (.serve t.id)
        ⟨m.begin t.id, .turn ⟨p, mask, t.id, t.inHandler⟩⟩
  | divert {m : Machine} {p : Pass} {mask : ScriptKind} {cursor : Option UInt32} {t : Task}
      {address : UInt32} (h_next : m.tasks.after? cursor = some t)
      (h_service : p.service mask t = .divert address) :
      Step setting ⟨m, .pass p mask cursor⟩ (.divert t.id)
        ⟨(m.divert t.id address).begin t.id, .turn ⟨p, mask, t.id, true⟩⟩
  | execute {m m' : Machine} {s : Stint} {t : Task} {i : Instruction}
      (h_find : m.tasks.find? s.task = some t)
      (h_goes : Machine.turnEnds s.begunInHandler t = false)
      (h_code : m.program.code[t.address.toNat]? = some i)
      (h_advance : m.advance setting Machine.noBody s.task i = some m') :
      Step setting ⟨m, .turn s⟩ (.execute s.task i) ⟨m', .turn s⟩
  /-- The instruction calls a native with a body. -/
  | enter {m : Machine} {s : Stint} {t : Task} {i : Instruction} {native : Native}
      {body : Routine Unit} (h_find : m.tasks.find? s.task = some t)
      (h_goes : Machine.turnEnds s.begunInHandler t = false)
      (h_code : m.program.code[t.address.toNat]? = some i) (h_opcode : i.opcode = .callNative)
      (h_native : setting.natives[i.operand.toNat]? = some native)
      (h_body : native.body = some body) :
      Step setting ⟨m, .turn s⟩ (.execute s.task i)
        ⟨{ m with executed := m.executed + 1 }.emit (.nativeEntered i.operand),
          .native s i.operand body⟩
  | request {m m' : Machine} {s : Stint} {function : UInt32} {q : Request} {a : q.Answer}
      {next : q.Answer → Routine Unit} (h_immediate : q.Immediate)
      (h_answer : m.answer noTick q = some (a, m')) :
      Step setting ⟨m, .native s function (.ask q next)⟩ (.ask (some s.task) q a)
        ⟨m', .native s function (next a)⟩
  | leave (m : Machine) (s : Stint) (function : UInt32) :
      Step setting ⟨m, .native s function (.done ())⟩ (.leave s.task function)
        ⟨(m.emit (.nativeLeft function)).updateTask s.task fun t =>
          { t with address := t.address + 1 }, .turn s⟩
  | overrun {m : Machine} {s : Stint} {t : Task} (h_find : m.tasks.find? s.task = some t)
      (h_goes : Machine.turnEnds s.begunInHandler t = false)
      (h_code : m.program.code[t.address.toNat]? = none) :
      Step setting ⟨m, .turn s⟩ (.overrun s.task)
        ⟨(m.fault .invalidOperand t.name t.address).updateTask s.task fun t =>
          { t with stopped := true }, .turn s⟩
  | close {m : Machine} {s : Stint}
      (h_over : ∀ t, m.tasks.find? s.task = some t → Machine.turnEnds s.begunInHandler t) :
      Step setting ⟨m, .turn s⟩ (.close s.task) ⟨m.rest, .pass s.pass s.mask (some s.task)⟩
  | nextPass {m : Machine} {mask : ScriptKind} {cursor : Option UInt32}
      (h_none : m.tasks.after? cursor = none) :
      Step setting ⟨m, .pass .handlers mask cursor⟩ .nextPass ⟨m, .pass .normal mask none⟩
  | settle {m : Machine} {mask : ScriptKind} {cursor : Option UInt32}
      (h_none : m.tasks.after? cursor = none) :
      Step setting ⟨m, .pass .normal mask cursor⟩ (.settle mask) ⟨m.settle mask, .idle⟩

/-- A step that was taken. -/
structure Scene where
  before : Config
  deed : Deed
  after : Config

/-- Steps, one after the other. -/
inductive Course (setting : Setting) : Config → List Scene → Config → Prop
  | nil (c : Config) : Course setting c [] c
  | cons {c c₁ c' : Config} {d : Deed} {scenes : List Scene} (h : Step setting c d c₁)
      (h_rest : Course setting c₁ scenes c') : Course setting c (⟨c, d, c₁⟩ :: scenes) c'

/-- There is a course from one to the other. -/
def Config.Reaches (setting : Setting) (c c' : Config) : Prop :=
  ∃ scenes, Course setting c scenes c'

variable {setting : Setting} {c c₁ c' : Config} {d : Deed} {scenes scenes' : List Scene}

namespace Course

theorem append (h : Course setting c scenes c₁) (h' : Course setting c₁ scenes' c') :
    Course setting c (scenes ++ scenes') c' := by
  induction h with
  | nil => exact h'
  | cons h_step _ ih => exact .cons h_step (ih h')

/-- A course can be interrupted anywhere. -/
theorem split (h : Course setting c (scenes ++ scenes') c') :
    ∃ c₁, Course setting c scenes c₁ ∧ Course setting c₁ scenes' c' := by
  induction scenes generalizing c with
  | nil => exact ⟨c, .nil c, h⟩
  | cons scene scenes ih =>
    cases h with
    | cons h_step h_rest =>
      obtain ⟨c₁, h_first, h_second⟩ := ih h_rest
      exact ⟨c₁, .cons h_step h_first, h_second⟩

/-- The course up to a scene, its step, and the course from there. -/
theorem at_scene {scene : Scene} (h : Course setting c (scenes ++ scene :: scenes') c') :
    Course setting c scenes scene.before ∧ Step setting scene.before scene.deed scene.after ∧
      Course setting scene.after scenes' c' := by
  obtain ⟨c₁, h_first, h_second⟩ := h.split
  cases h_second with
  | cons h_step h_rest => exact ⟨h_first, h_step, h_rest⟩

end Course

namespace Config.Reaches

theorem refl (c : Config) : Reaches setting c c := ⟨[], .nil c⟩

theorem head (h : Step setting c d c₁) (h' : Reaches setting c₁ c') : Reaches setting c c' := by
  obtain ⟨scenes, h_course⟩ := h'
  exact ⟨_, .cons h h_course⟩

theorem trans (h : Reaches setting c c₁) (h' : Reaches setting c₁ c') : Reaches setting c c' := by
  obtain ⟨scenes, h_course⟩ := h
  obtain ⟨scenes', h_course'⟩ := h'
  exact ⟨_, h_course.append h_course'⟩

theorem single (h : Step setting c d c') : Reaches setting c c' := head h (refl c')

end Config.Reaches

/-! ### Courses within an operation -/

/-- A course that stays within one operation, as none of its steps begins between two. -/
structure Passage (setting : Setting) (c : Config) (scenes : List Scene) (c' : Config) : Prop where
  course : Course setting c scenes c'
  inside : ∀ s ∈ scenes, s.before.stage.Inside

/-- There is a passage from one to the other. -/
def Config.Leads (setting : Setting) (c c' : Config) : Prop :=
  ∃ scenes, Passage setting c scenes c'

namespace Config.Leads

theorem refl (c : Config) : Leads setting c c := ⟨[], .nil c, List.forall_mem_nil _⟩

theorem head (h_stage : c.stage.Inside) (h : Step setting c d c₁) (h' : Leads setting c₁ c') :
    Leads setting c c' := by
  obtain ⟨scenes, h_course, h_inside⟩ := h'
  exact ⟨_, .cons h h_course, List.forall_mem_cons.2 ⟨h_stage, h_inside⟩⟩

theorem trans (h : Leads setting c c₁) (h' : Leads setting c₁ c') : Leads setting c c' := by
  obtain ⟨scenes, h_course, h_inside⟩ := h
  obtain ⟨scenes', h_course', h_inside'⟩ := h'
  exact ⟨_, h_course.append h_course', List.forall_mem_append.2 ⟨h_inside, h_inside'⟩⟩

theorem single (h_stage : c.stage.Inside) (h : Step setting c d c') : Leads setting c c' :=
  head h_stage h (refl c')

theorem reaches (h : Leads setting c c') : c.Reaches setting c' := by
  obtain ⟨scenes, h_passage⟩ := h
  exact ⟨scenes, h_passage.course⟩

end Config.Leads

/-- An instruction that calls a native with a body cannot do without carrying it out. -/
theorem Machine.advance_noBody_eq_none {m : Machine} {task : UInt32} {i : Instruction}
    {native : Native} {body : Routine Unit} (h_opcode : i.opcode = .callNative)
    (h_native : setting.natives[i.operand.toNat]? = some native)
    (h_body : native.body = some body) : m.advance setting noBody task i = none := by
  unfold advance execute
  rw [if_neg (not_not_intro h_opcode)]
  simp only [h_native, h_body]
  rfl

/-- Within an operation it is never left open what is done next. -/
theorem Step.unique {c₂ : Config} {d₂ : Deed} (h : Step setting c d c₁) (h₂ : Step setting c d₂ c₂)
    (h_stage : c.stage.Inside) : d₂ = d ∧ c₂ = c₁ := by
  -- the stage and the next task leave one kind of step, but for instructions that call natives
  cases h with
  | ask | tick => exact h_stage.elim
  | skip | serve | divert | nextPass | settle | request | leave | overrun | close =>
    cases h₂ <;> simp_all
  | execute h_find _ h_code h_advance =>
    cases h₂ with
    | enter h_find₂ _ h_code₂ h_opcode h_native h_body =>
      cases h_find.symm.trans h_find₂
      cases h_code.symm.trans h_code₂
      exact nomatch (Machine.advance_noBody_eq_none h_opcode h_native h_body).symm.trans h_advance
    | _ => simp_all
  | enter h_find _ h_code h_opcode h_native h_body =>
    cases h₂ with
    | execute h_find₂ _ h_code₂ h_advance =>
      cases h_find.symm.trans h_find₂
      cases h_code.symm.trans h_code₂
      exact nomatch (Machine.advance_noBody_eq_none h_opcode h_native h_body).symm.trans h_advance
    | _ => simp_all

/-- **There is one passage.** A passage that comes to the end of its operation contains all that
begin where it does. -/
theorem Passage.prefix_of_idle {c₂ : Config} {scenes₂ : List Scene}
    (h : Passage setting c scenes c₁) (h_idle : c₁.stage = .idle)
    (h₂ : Passage setting c scenes₂ c₂) : scenes₂ <+: scenes := by
  obtain ⟨h_course, h_inside⟩ := h
  obtain ⟨h_course₂, h_inside₂⟩ := h₂
  induction h_course₂ generalizing scenes with
  | nil => exact List.nil_prefix
  | cons h_step₂ h_rest₂ ih =>
    cases h_course with
    | nil =>
      have h_stage := h_inside₂ _ List.mem_cons_self
      rw [h_idle] at h_stage
      exact h_stage.elim
    | cons h_step h_rest =>
      obtain ⟨h_stage, h_later⟩ := List.forall_mem_cons.1 h_inside
      obtain ⟨-, h_later₂⟩ := List.forall_mem_cons.1 h_inside₂
      obtain ⟨rfl, rfl⟩ := h_step.unique h_step₂ h_stage
      exact List.cons_prefix_cons.2 ⟨rfl, ih h_rest h_later h_later₂⟩

/-! ### Routines take courses -/

namespace Machine

variable {m m' : Machine}

/-- Between two operations the focus is on the main stack, and it is nobody's turn. -/
def Resting (m : Machine) : Prop := m.focus = .main ∧ m.running = none

theorem Resting.rest_eq (h : m.Resting) (m' : Machine) :
    { m' with focus := m.focus, running := m.running } = m'.rest := by
  rw [h.1, h.2]
  rfl

theorem resting_rest (m : Machine) : m.rest.Resting := ⟨rfl, rfl⟩

theorem Runs.resting (h : Runs m m') (h_m : m.Resting) : m'.Resting :=
  ⟨h.focus_eq.1.trans h_m.1, h.focus_eq.2.trans h_m.2⟩

theorem runs_answer_immediate {q : Request} {a : q.Answer} (h : q.Immediate)
    (h_answer : m.answer noTick q = some (a, m')) : Runs m m' := by
  have h_tick : Ticks noTick := fun _ _ _ h => nomatch h
  exact runs_answer h_tick h.ordinary h_answer

/-- A body that is carried out takes a course in the turn of the task that calls it. -/
def Follows (setting : Setting) (carryOut : Routine Unit → Machine → Option Machine) : Prop :=
  ∀ body, body.Only Request.Immediate → ∀ m m', carryOut body m = some m' →
    ∀ s function, Config.Leads setting ⟨m, .native s function body⟩
      ⟨m', .native s function (.done ())⟩

theorem follows_run (setting : Setting) (tick : ScriptKind → Machine → Option Machine) :
    Follows setting fun body m => (body.run tick m).map (·.2) := by
  intro body h_body m m' h s function
  -- on the routine: each request is one step, and its answer decides how the routine goes on
  induction body generalizing m with
  | done a =>
    cases h
    exact .refl _
  | ask q next ih =>
    obtain ⟨h_immediate, h_next⟩ := h_body
    dsimp only at h
    rw [Routine.run_ask, answer_immediate h_immediate] at h
    obtain ⟨_, h_run, rfl⟩ := Option.map_eq_some_iff.1 h
    obtain ⟨⟨a, m₁⟩, h_answer, h_run⟩ := Option.bind_eq_some_iff.1 h_run
    refine .head trivial (.request h_immediate h_answer) (ih a (h_next a) m₁ ?_)
    dsimp only
    rw [h_run]
    rfl

section

variable {carryOut : Routine Unit → Machine → Option Machine} {budget : Nat} {mask : ScriptKind}

/-- An instruction carries out the body of a native, or bodies do not matter to it. -/
theorem advance_bodies {task : UInt32} {i : Instruction}
    (h : m.advance setting carryOut task i = some m') :
    m.advance setting noBody task i = some m' ∨
      ∃ native body m₁, i.opcode = .callNative ∧
        setting.natives[i.operand.toNat]? = some native ∧ native.body = some body ∧
        carryOut body ({ m with executed := m.executed + 1 }.emit (.nativeEntered i.operand)) =
          some m₁ ∧
        m' = (m₁.emit (.nativeLeft i.operand)).updateTask task fun t =>
          { t with address := t.address + 1 } := by
  unfold advance execute at h ⊢
  -- the body is looked at in one place only, where a native is called that is bound and has one
  by_cases h_opcode : i.opcode = .callNative
  · rw [if_neg (not_not_intro h_opcode)] at h ⊢
    cases h_native : setting.natives[i.operand.toNat]? with
    | none =>
      simp only [h_native] at h ⊢
      exact .inl h
    | some native =>
      cases h_body : native.body with
      | none =>
        simp only [h_native, h_body] at h ⊢
        exact .inl h
      | some body =>
        right
        simp only [h_native, h_body] at h
        obtain ⟨⟨flow, m₂⟩, h_execute, h⟩ := Option.bind_eq_some_iff.1 h
        obtain ⟨m₁, h_carried, h_execute⟩ := Option.bind_eq_some_iff.1 h_execute
        cases h_execute
        cases h
        exact ⟨native, body, m₁, h_opcode, rfl, h_body, h_carried, rfl⟩
  · rw [if_pos h_opcode] at h ⊢
    exact .inl h

theorem leads_steps (h_setting : setting.Immediate) (h_follows : Follows setting carryOut)
    (s : Stint) (h : m.steps setting carryOut s.task s.begunInHandler budget = some m') :
    Config.Leads setting ⟨m, .turn s⟩ ⟨m'.rest, .pass s.pass s.mask (some s.task)⟩ := by
  -- on the budget, since each instruction takes one from it
  induction budget generalizing m with
  | zero => contradiction
  | succ budget ih =>
    unfold steps step at h
    cases h_find : m.tasks.find? s.task with
    | none =>
      simp only [h_find] at h
      cases h
      refine .single trivial (.close fun t h_t => ?_)
      rw [h_find] at h_t
      contradiction
    | some t =>
      simp only [h_find] at h
      cases h_ends : turnEnds s.begunInHandler t with
      | true =>
        simp only [h_ends, if_true] at h
        cases h
        refine .single trivial (.close fun u h_u => ?_)
        rw [h_find] at h_u
        cases h_u
        exact h_ends
      | false =>
        simp only [h_ends, Bool.false_eq_true, if_false] at h
        cases h_code : m.program.code[t.address.toNat]? with
        | none =>
          simp only [h_code] at h
          cases h
          refine .head trivial (.overrun h_find h_ends h_code) ?_
          refine .single trivial (.close fun u h_u => ?_)
          -- the task was stopped a moment ago
          change (m.tasks.update s.task _).find? s.task = some u at h_u
          rw [TaskTable.find?_update_self, h_find] at h_u
          cases h_u
          rfl
        | some i =>
          simp only [h_code] at h
          cases h_advance : m.advance setting carryOut s.task i with
          | none =>
            simp only [h_advance, Option.map_none] at h
            contradiction
          | some m₁ =>
            simp only [h_advance, Option.map_some] at h
            rcases advance_bodies h_advance with h_plain |
              ⟨native, body, m₂, h_opcode, h_native, h_body, h_carried, rfl⟩
            · exact .head trivial (.execute h_find h_ends h_code h_plain) (ih h)
            · have h_immediate := h_setting native (List.mem_of_getElem? h_native) body h_body
              have h_native_part := h_follows body h_immediate _ _ h_carried s i.operand
              exact .head trivial (.enter h_find h_ends h_code h_opcode h_native h_body)
                (h_native_part.trans (.head trivial (.leave m₂ s i.operand) (ih h)))

/-- From the beginning of a turn to where the pass goes on. -/
theorem leads_slice (h_setting : setting.Immediate) (h_follows : Follows setting carryOut)
    (h_resting : m.Resting) (p : Pass) {task : UInt32} {t : Task}
    (h_find : m.tasks.find? task = some t)
    (h : m.slice setting carryOut budget task = some m') :
    Config.Leads setting ⟨m.begin task, .turn ⟨p, mask, task, t.inHandler⟩⟩
      ⟨m', .pass p mask (some task)⟩ ∧ m'.Resting := by
  unfold slice at h
  rw [h_find] at h
  obtain ⟨m₁, h_steps, h⟩ := Option.bind_eq_some_iff.1 h
  cases h
  -- the focus goes back to where it was before, which is the main stack
  rw [h_resting.rest_eq]
  exact ⟨leads_steps h_setting h_follows ⟨p, mask, task, t.inHandler⟩ h_steps, resting_rest m₁⟩

end

end Machine

/-- The turn that a task gets in a pass. -/
def Pass.turn (p : Pass) (setting : Setting)
    (carryOut : Routine Unit → Machine → Option Machine) (budget : Nat) (mask : ScriptKind) :
    Task → Machine → Option Machine :=
  match p with
  | .handlers => Machine.handlerTurn setting carryOut budget mask
  | .normal => Machine.normalTurn setting carryOut budget mask

section

variable {carryOut : Routine Unit → Machine → Option Machine} {budget : Nat} {mask : ScriptKind}

/-- A task whose kind is not in the mask is passed by. -/
theorem Pass.service_of_not_overlaps {p : Pass} {t : Task} (h : t.kind.overlaps mask = false) :
    p.service mask t = .skip := by
  unfold Pass.service
  rw [h]
  cases p <;> rfl

/-- A task is diverted if it is in normal flow and does not wait, to the handler that it has
registered last. -/
theorem Pass.service_eq_divert_iff {p : Pass} {t : Task} {handler : UInt32} :
    p.service mask t = .divert handler ↔ p = .handlers ∧ t.kind.overlaps mask ∧
      t.inHandler = false ∧ t.waitingFor = 0 ∧ t.handlers.getLast? = some handler := by
  unfold Pass.service Task.isWaiting
  cases p with
  | normal =>
    dsimp only
    split <;> simp
  | handlers =>
    -- the conditions are tested one after the other
    cases h_last : t.handlers.getLast? <;> grind

/-- A pass does with a task what its service tells. -/
theorem Pass.turn_eq (p : Pass) (t : Task) (m : Machine) :
    p.turn setting carryOut budget mask t m =
      match p.service mask t with
      | .skip => some m
      | .serve => m.slice setting carryOut budget t.id
      | .divert address => (m.divert t.id address).slice setting carryOut budget t.id := by
  cases p with
  | handlers =>
    unfold Pass.turn Pass.service Machine.handlerTurn
    dsimp only
    split
    · rfl
    · split
      · rfl
      · split
        · rfl
        · cases t.handlers.getLast? <;> rfl
  | normal =>
    unfold Pass.turn Pass.service Machine.normalTurn
    dsimp only
    split <;> rfl

namespace Machine

variable {m m' : Machine}

theorem leads_turn (h_setting : setting.Immediate) (h_follows : Follows setting carryOut)
    (h_resting : m.Resting) {p : Pass} {cursor : Option UInt32} {t : Task}
    (h_next : m.tasks.after? cursor = some t)
    (h : p.turn setting carryOut budget mask t m = some m') :
    Config.Leads setting ⟨m, .pass p mask cursor⟩ ⟨m', .pass p mask (some t.id)⟩ ∧
      m'.Resting := by
  have h_find := TaskTable.find?_of_after? h_next
  rw [Pass.turn_eq] at h
  -- by what the pass does with the task; a turn in a handler may begin with a detour
  cases h_service : p.service mask t with
  | skip =>
    rw [h_service] at h
    cases h
    exact ⟨.single trivial (.skip h_next h_service), h_resting⟩
  | serve =>
    rw [h_service] at h
    obtain ⟨h_turn, h_rests⟩ := leads_slice h_setting h_follows h_resting p h_find h
    exact ⟨.head trivial (.serve h_next h_service) h_turn, h_rests⟩
  | divert address =>
    rw [h_service] at h
    -- the turn begins inside the handler to which the task was just diverted
    have h_diverted : ∃ u, (m.divert t.id address).tasks.find? t.id = some u ∧ u.inHandler := by
      unfold divert updateTask
      rw [TaskTable.find?_update_self, h_find]
      exact ⟨_, rfl, rfl⟩
    obtain ⟨u, h_u, h_inside⟩ := h_diverted
    have h_still : (m.divert t.id address).Resting := h_resting
    obtain ⟨h_turn, h_rests⟩ := leads_slice h_setting h_follows h_still p h_u h
    rw [h_inside] at h_turn
    exact ⟨.head trivial (.divert h_next h_service) h_turn, h_rests⟩

theorem leads_pass (h_setting : setting.Immediate) (h_follows : Follows setting carryOut)
    (h_resting : m.Resting) {p : Pass} {cursor : Option UInt32}
    (h : m.pass (p.turn setting carryOut budget mask) cursor = some m') :
    ∃ cursor', Config.Leads setting ⟨m, .pass p mask cursor⟩ ⟨m', .pass p mask cursor'⟩ ∧
      m'.tasks.after? cursor' = none ∧ m'.Resting := by
  -- along the tasks that are served, since serving one may add some and remove others
  induction cursor, m using pass.induct (p.turn setting carryOut budget mask) with
  | case1 cursor m h_after =>
    rw [pass, h_after] at h
    cases h
    exact ⟨cursor, .refl _, h_after, h_resting⟩
  | case2 cursor m t h_after h_none =>
    rw [pass, h_after] at h
    simp only [h_none] at h
    contradiction
  | case3 cursor m t h_after m₁ h_some ih =>
    rw [pass, h_after] at h
    simp only [h_some] at h
    obtain ⟨h_first, h_rests⟩ := leads_turn h_setting h_follows h_resting h_after h_some
    obtain ⟨cursor', h_rest, h_end⟩ := ih h_rests h
    exact ⟨cursor', h_first.trans h_rest, h_end⟩

theorem leads_tickWithin (h_setting : setting.Immediate) (h_follows : Follows setting carryOut)
    (h_resting : m.Resting) (h : tickWithin setting carryOut budget mask m = some m') :
    Config.Leads setting ⟨m, .pass .handlers mask none⟩ ⟨m', .idle⟩ ∧ m'.Resting := by
  unfold tickWithin at h
  obtain ⟨m₁, h_handlers, h⟩ := Option.bind_eq_some_iff.1 h
  obtain ⟨m₂, h_normal, h⟩ := Option.bind_eq_some_iff.1 h
  cases h
  obtain ⟨_, h_first, h_end₁, h_resting₁⟩ :=
    leads_pass (p := .handlers) h_setting h_follows h_resting h_handlers
  obtain ⟨_, h_second, h_end₂, h_resting₂⟩ :=
    leads_pass (p := .normal) h_setting h_follows h_resting₁ h_normal
  -- the two passes, with the step between them, and the step that settles the tick
  refine ⟨h_first.trans (.head trivial (.nextPass h_end₁) ?_),
    (runs_settle m₂ mask).resting h_resting₂⟩
  exact h_second.trans (.single trivial (.settle h_end₂))

end Machine

end

/-- A request of the host is answered in a course that leads from one operation to the next. -/
theorem Machine.reaches_answer {m m' : Machine} (h_setting : setting.Immediate) (bound : Nat)
    (h_resting : m.Resting) {q : Request} (h_ordinary : q.Ordinary) {a : q.Answer}
    (h : m.answer (Machine.tick setting bound) q = some (a, m')) :
    Config.Reaches setting ⟨m, .idle⟩ ⟨m', .idle⟩ ∧ m'.Resting := by
  -- requests are single steps, except for ticks
  by_cases h_immediate : q.Immediate
  · rw [answer_immediate h_immediate] at h
    exact ⟨.single (.ask h_immediate h), (runs_answer_immediate h_immediate h).resting h_resting⟩
  · cases q with
    | load | restore | reboot => exact h_ordinary.elim
    | tick mask =>
      obtain ⟨m₁, h_tick, h⟩ := Option.map_eq_some_iff.1 h
      cases h
      cases bound with
      | zero => contradiction
      | succ bound =>
        obtain ⟨h_leads, h_rests⟩ :=
          leads_tickWithin h_setting (follows_run setting _) h_resting h_tick
        exact ⟨.head (.tick m mask) h_leads.reaches, h_rests⟩
    | _ => exact absurd trivial h_immediate

theorem Routine.reaches {α : Type} {m m' : Machine} (h_setting : setting.Immediate) (bound : Nat)
    (h_resting : m.Resting) {r : Routine α} (h_ordinary : r.Only Request.Ordinary) {a : α}
    (h : r.run (Machine.tick setting bound) m = some (a, m')) :
    Config.Reaches setting ⟨m, .idle⟩ ⟨m', .idle⟩ := by
  -- on the routine, from one operation to the next
  induction r generalizing m with
  | done b =>
    cases h
    exact .refl _
  | ask q next ih =>
    obtain ⟨h_request, h_next⟩ := h_ordinary
    rw [Routine.run_ask] at h
    obtain ⟨⟨answer, m₁⟩, h_answer, h⟩ := Option.bind_eq_some_iff.1 h
    obtain ⟨h_first, h_rests⟩ :=
      Machine.reaches_answer h_setting bound h_resting h_request h_answer
    exact h_first.trans (ih answer h_rests (h_next answer) h)

namespace Machine

theorem resting_beginning (m : Machine) (i : Image) : (m.beginning i).Resting := ⟨rfl, rfl⟩

/-- Loading takes a course from the beginning of the program: its scripts are started one by one. -/
theorem reaches_load (setting : Setting) (m : Machine) (i : Image) :
    Config.Reaches setting ⟨m.beginning i, .idle⟩ ⟨m.load i, .idle⟩ := by
  -- one start after the other, from whatever was started before
  have h_starts (scripts : List UInt32) (m : Machine) : Config.Reaches setting ⟨m, .idle⟩
      ⟨scripts.foldl (fun m script => (m.start script).2) m, .idle⟩ := by
    induction scripts generalizing m with
    | nil => exact .refl _
    | cons script rest ih =>
      have h_start : Step setting ⟨m, .idle⟩ (.ask none (.start script) (m.start script).1)
          ⟨(m.start script).2, .idle⟩ := .ask trivial rfl
      exact .head h_start (ih (m.start script).2)
  exact h_starts i.program.autostart (m.beginning i)

/-- **Routines take courses.** Whatever a host does after it has loaded a program, the machine has
taken a course to where it stands, as long as no native runs ticks. -/
theorem reaches_perform {α : Type} (h_setting : setting.Immediate) {r : Routine α}
    (h_ordinary : r.Only Request.Ordinary) {m₀ m' : Machine} {i : Image} {a : α}
    (h : perform setting r (m₀.load i) = some (a, m')) :
    Config.Reaches setting ⟨m₀.beginning i, .idle⟩ ⟨m', .idle⟩ := by
  have h_resting := (runs_load m₀ i).resting (resting_beginning m₀ i)
  exact (reaches_load setting m₀ i).trans (r.reaches h_setting lifetime h_resting h_ordinary h)

end Machine

/-! ### Courses are what machines do -/

/-- Outside of turns nobody is in focus: a turn that is over puts the focus back. -/
theorem Step.resting (h : Step setting c d c') (h_c : c.stage.task? = none → c.machine.Resting)
    (h_stage : c'.stage.task? = none) : c'.machine.Resting := by
  cases h with
  | ask h_immediate h_answer =>
    exact (Machine.runs_answer_immediate h_immediate h_answer).resting (h_c rfl)
  | tick | skip | nextPass => exact h_c rfl
  | close => exact Machine.resting_rest _
  | @settle m mask => exact (Machine.runs_settle m mask).resting (h_c rfl)
  | serve | divert | execute | enter | request | leave | overrun => contradiction

theorem Course.resting (h : Course setting c scenes c')
    (h_c : c.stage.task? = none → c.machine.Resting) (h_stage : c'.stage.task? = none) :
    c'.machine.Resting := by
  induction h with
  | nil => exact h_c h_stage
  | cons h_step _ ih => exact ih (h_step.resting h_c) h_stage

namespace Machine

variable {m m' : Machine}

/-- **A tick takes one passage**, and no step in it could have been another one. -/
theorem exists_passage (h_setting : setting.Immediate) (h_resting : m.Resting) {bound : Nat}
    {mask : ScriptKind} (h : tick setting bound mask m = some m') :
    ∃ scenes, Passage setting ⟨m, .pass .handlers mask none⟩ scenes ⟨m', .idle⟩ ∧
      ∀ {scenes₂ c}, Passage setting ⟨m, .pass .handlers mask none⟩ scenes₂ c →
        scenes₂ <+: scenes := by
  cases bound with
  | zero => contradiction
  | succ bound =>
    obtain ⟨⟨scenes, h_passage⟩, -⟩ :=
      leads_tickWithin h_setting (follows_run setting _) h_resting h
    exact ⟨scenes, h_passage, fun h₂ => h_passage.prefix_of_idle rfl h₂⟩

/-- Courses from the beginning of a program tell what a machine does that has loaded it, neither
less nor anything else. -/
structure TakesCourses (setting : Setting) (m₀ : Machine) (i : Image) : Prop where
  /-- Whatever a host does, the machine takes a course to where it stands then. -/
  perform {α : Type} {r : Routine α} {m' : Machine} {a : α} (h_ordinary : r.Only Request.Ordinary)
    (h : perform setting r (m₀.load i) = some (a, m')) :
    Config.Reaches setting ⟨m₀.beginning i, .idle⟩ ⟨m', .idle⟩
  /-- A request other than a tick is one step, and such a step answers one. -/
  ask {m m' : Machine} {q : Request} {a : q.Answer} (h_immediate : q.Immediate) (bound : Nat) :
    m.answer (Machine.tick setting bound) q = some (a, m') ↔
      Step setting ⟨m, .idle⟩ (.ask none q a) ⟨m', .idle⟩
  /-- A tick takes one passage, which contains every one that begins where it does. -/
  tick {m m' : Machine} {bound : Nat} {mask : ScriptKind}
    (h_reaches : Config.Reaches setting ⟨m₀.beginning i, .idle⟩ ⟨m, .idle⟩)
    (h : tick setting bound mask m = some m') :
    ∃ scenes, Passage setting ⟨m, .pass .handlers mask none⟩ scenes ⟨m', .idle⟩ ∧
      ∀ {scenes₂ c}, Passage setting ⟨m, .pass .handlers mask none⟩ scenes₂ c →
        scenes₂ <+: scenes

/-- **Machines take courses**, as long as no native runs ticks. -/
theorem takesCourses (h_setting : setting.Immediate) (m₀ : Machine) (i : Image) :
    TakesCourses setting m₀ i where
  perform h_ordinary h := reaches_perform h_setting h_ordinary h
  ask h_immediate bound := by
    rw [answer_immediate h_immediate]
    refine ⟨fun h => .ask h_immediate h, fun h => ?_⟩
    cases h with
    | ask _ h_answer => exact h_answer
  tick h_reaches h := by
    obtain ⟨scenes, h_course⟩ := h_reaches
    have h_beginning : (m₀.beginning i).Resting := resting_beginning m₀ i
    exact exists_passage h_setting (h_course.resting (fun _ => h_beginning) rfl) h

end Machine

end ScriptMachine
