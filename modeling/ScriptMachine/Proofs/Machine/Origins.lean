import Mathlib.Logic.Function.Basic
import ScriptMachine.Proofs.Machine.Fate
import ScriptMachine.Proofs.Machine.SaveRestore

/-!
# Where tasks come from

From which script a task was started cannot be seen in the table: scripts need not have ids of their
own, and when ids of tasks wrap around, the task with an id is not the first one that had it. So it
is written down on the way. A chronicle (`Chronicle`) is a run with a record of which script the
last task with an id was started from, and what is written down is true of every task that is live
(`Chronicle.spec`).

A run tells what came of an operation, and here it is every state on the way that counts. So a
chronicle follows the moves of a machine one by one, and turns are taken apart: that the focus goes
to a task and comes back are two entries of their own. It can be broken off anywhere, in the turn of
a task or in a tick that the body of a native asks for.
-/

namespace ScriptMachine

/-! ### Chronicles -/

/-- What has happened since a program was loaded, with a record of the script that each id was
last given to a task of. -/
inductive Chronicle (i : Image) : (UInt32 → Option Script) → Machine → Prop
  | beginning (m : Machine) : Chronicle i (fun _ => none) (m.beginning i)
  | move {origin : UInt32 → Option Script} {m m' : Machine} (h : Chronicle i origin m)
      (h_move : m.Move m') (h_started : m'.started = m.started) : Chronicle i origin m'
  | spawn {origin : UInt32 → Option Script} {m : Machine} (h : Chronicle i origin m)
      (script : Script) (h_script : script ∈ m.program.scripts) :
      Chronicle i (Function.update origin (m.highestTask + 1) (some script)) (m.spawn script).2
  | wait {origin : UInt32 → Option Script} {m : Machine} (h : Chronicle i origin m)
      (task callee : UInt32) :
      Chronicle i origin (m.updateTask task fun t => { t with waitingFor := callee })
  | refocus {origin : UInt32 → Option Script} {m : Machine} (h : Chronicle i origin m)
      (focus : Focus) (running : Option UInt32) : Chronicle i origin { m with focus, running }

/-- The machine is at some point after the program was loaded. -/
def Image.Chronicled (i : Image) (m : Machine) : Prop := ∃ origin, Chronicle i origin m

namespace Chronicle

variable {i : Image} {origin : UInt32 → Option Script} {m m' : Machine}

/-- **What is known of every state:** the program and the names of the globals are those that were
loaded, and every task comes from the script that was written down. -/
theorem spec (h : Chronicle i origin m) : m.program = i.program ∧
    m.globals.map (·.name) = nullVariableName :: i.program.globals ∧
    ∀ id t, m.tasks.find? id = some t →
      ∃ s ∈ i.program.scripts, origin id = some s ∧ t.ComesFrom s := by
  -- along the chronicle: a start is the only entry that writes something down
  induction h with
  | beginning m =>
    have h_rooted := State.Rooted.beginning m i
    exact ⟨h_rooted.program, h_rooted.globals, fun id t h_find => nomatch h_find⟩
  | move _ h_move h_started ih =>
    obtain ⟨h_program, h_globals, h_tasks⟩ := ih
    have h_inherits := h_move.inherits
    refine ⟨h_inherits.program.trans h_program, h_inherits.globals.trans h_globals,
      fun id t' h_find => ?_⟩
    -- nobody is new, so the record of whoever is there still stands
    obtain ⟨t, h_find, h_same⟩ := h_move.nobodyNew h_started id t' h_find
    obtain ⟨s, h_s, h_origin, h_from⟩ := h_tasks id t h_find
    exact ⟨s, h_s, h_origin, h_from.of_anew h_same⟩
  | @spawn origin m _ script h_script ih =>
    obtain ⟨h_program, h_globals, h_tasks⟩ := ih
    have h_inherits := Machine.inherits_spawn h_script
    refine ⟨h_inherits.program.trans h_program, h_inherits.globals.trans h_globals,
      fun id t' h_find => ?_⟩
    rcases m.find?_spawn script h_find with ⟨rfl, h_new⟩ | ⟨h_id, t, h_find, h_same⟩
    · -- if somebody had this id before, the record of that one is gone together with it
      rw [Function.update_self]
      exact ⟨script, h_program ▸ h_script, rfl, h_new⟩
    · obtain ⟨s, h_s, h_origin, h_from⟩ := h_tasks id t h_find
      rw [Function.update_of_ne h_id]
      exact ⟨s, h_s, h_origin, h_from.of_anew h_same⟩
  | @wait origin m _ task callee ih =>
    obtain ⟨h_program, h_globals, h_tasks⟩ := ih
    refine ⟨h_program, h_globals, fun id t' h_find => ?_⟩
    have h_nobody : m.NobodyNew (m.updateTask task fun t => { t with waitingFor := callee }) :=
      .updateTask m task fun _ => rfl
    obtain ⟨t, h_find, h_same⟩ := h_nobody id t' h_find
    obtain ⟨s, h_s, h_origin, h_from⟩ := h_tasks id t h_find
    exact ⟨s, h_s, h_origin, h_from.of_anew h_same⟩
  | refocus _ _ _ ih => exact ih

end Chronicle

/-! ### Everything that happens is in a chronicle -/

namespace Image.Chronicled

variable {i : Image} {m m' : Machine}

theorem beginning (i : Image) (m : Machine) : i.Chronicled (m.beginning i) :=
  ⟨_, .beginning m⟩

theorem refocus (h : i.Chronicled m) (focus : Focus) (running : Option UInt32) :
    i.Chronicled { m with focus, running } := by
  obtain ⟨origin, h_chronicle⟩ := h
  exact ⟨origin, h_chronicle.refocus focus running⟩

theorem move (h : i.Chronicled m) (h_move : m.Move m') : i.Chronicled m' := by
  obtain ⟨origin, h_chronicle⟩ := h
  cases h_move with
  | spawn script h_script => exact ⟨_, h_chronicle.spawn script h_script⟩
  | call task script _ h_script =>
    -- a call is a start, and then the caller waits
    exact ⟨_, (h_chronicle.spawn script h_script).wait task _⟩
  | exchange h_exchange =>
    have h_confined := h_exchange.confined
    exact ⟨origin, h_chronicle.move (.exchange h_exchange) h_confined.started⟩
  | store task id v =>
    have h_confined := Machine.confined_writeVariable m task id v
    exact ⟨origin, h_chronicle.move (.store task id v) h_confined.started⟩
  | remove id =>
    refine ⟨origin, h_chronicle.move (.remove id) ?_⟩
    unfold Machine.remove
    split
    · rfl
    · dsimp only
      rw [Machine.foldl_emit]
  | steer task change h_change => exact ⟨origin, h_chronicle.move (.steer task change h_change) rfl⟩
  | halt task => exact ⟨origin, h_chronicle.move (.halt task) rfl⟩
  | release mask => exact ⟨origin, h_chronicle.move (.release mask) rfl⟩
  | mark ticks line executed memory =>
    exact ⟨origin, h_chronicle.move (.mark ticks line executed memory) rfl⟩

theorem runs (h : i.Chronicled m) (h_runs : m.Runs m') : i.Chronicled m' := by
  refine h_runs.lift (R := fun m m' => i.Chronicled m → i.Chronicled m') ?_ ?_ ?_ ?_ h
  · exact fun _ h => h
  · exact fun h_first h_second h => h_second (h_first h)
  · exact fun h_move h => h.move h_move
  · exact fun _ focus running h => h.refocus focus running

/-- **Routines are chronicled**, also those in which natives run ticks. -/
theorem perform {α : Type} {setting : Setting} (h_setting : setting.Ordinary) {r : Routine α}
    (h_ordinary : r.Only Request.Ordinary) {m₀ : Machine} {a : α}
    (h : Machine.perform setting r (m₀.load i) = some (a, m)) : i.Chronicled m :=
  ((beginning i m₀).runs (Machine.runs_load m₀ i)).runs
    (Machine.runs_perform h_setting h_ordinary h)

theorem begin (h : i.Chronicled m) (task : UInt32) : i.Chronicled (m.begin task) :=
  (h.refocus (.task task) (some task)).move (.steer task _ fun _ => rfl)

theorem divert (h : i.Chronicled m) (task address : UInt32) :
    i.Chronicled (m.divert task address) :=
  h.move (.steer task _ fun _ => rfl)

/-- The call of a native is counted, and the native is entered. -/
theorem enter (h : i.Chronicled m) (function : UInt32) :
    i.Chronicled ({ m with executed := m.executed + 1 }.emit (.nativeEntered function)) := by
  have h_counted := h.move (.mark m.ticks m.line (m.executed + 1) m.memory)
  exact h_counted.move (.exchange (.tell (.nativeEntered function) trivial))

/-- Every step of a course is, in the turns of tasks as well as between operations. -/
theorem step {setting : Setting} {c c' : Config} {d : Deed} (h : i.Chronicled c.machine)
    (h_step : Step setting c d c') : i.Chronicled c'.machine := by
  cases h_step with
  | tick | skip | nextPass => exact h
  | ask h_immediate h_answer | request h_immediate h_answer =>
    exact h.runs (Machine.runs_answer_immediate h_immediate h_answer)
  | serve => exact h.begin _
  | divert => exact (h.divert _ _).begin _
  | execute h_find _ _ h_advance =>
    have h_live := TaskTable.contains_eq_true_iff.2 ⟨_, h_find⟩
    exact h.runs (Machine.runs_advance_noBody h_live h_advance)
  -- what the native does then are requests, each of them a step
  | enter => exact h.enter _
  | leave m s function =>
    have h_told := h.move (.exchange (.tell (.nativeLeft function) trivial))
    exact h_told.move (.steer s.task _ fun _ => rfl)
  | @overrun m s t =>
    have h_told := h.move (.exchange (.fault m .invalidOperand t.name t.address))
    exact h_told.move (.halt s.task)
  | close => exact h.refocus .main none
  | settle => exact h.runs (Machine.runs_settle _ _)

theorem reaches {setting : Setting} {c c' : Config} (h : i.Chronicled c.machine)
    (h_reaches : c.Reaches setting c') : i.Chronicled c'.machine := by
  obtain ⟨scenes, h_course⟩ := h_reaches
  induction h_course with
  | nil => exact h
  | cons h_step _ ih => exact ih (h.step h_step)

end Image.Chronicled

/-- Chronicles follow a machine to where natives run ticks in the turn of a task, and to turns in
these: nothing that begins or is done at a point of a chronicle leads out of chronicles. -/
structure Image.Follows (i : Image) (setting : Setting) : Prop where
  begin {m : Machine} (h : i.Chronicled m) (task : UInt32) : i.Chronicled (m.begin task)
  divert {m : Machine} (h : i.Chronicled m) (task address : UInt32) :
    i.Chronicled (m.divert task address)
  execute {m m' : Machine} {bound : Nat} {task : UInt32} {j : Instruction} (h : i.Chronicled m)
    (h_live : m.tasks.contains task)
    (h_advance : m.advance setting
      (fun body m => (body.run (Machine.tick setting bound) m).map (·.2)) task j = some m') :
    i.Chronicled m'
  enter {m : Machine} (h : i.Chronicled m) (function : UInt32) :
    i.Chronicled ({ m with executed := m.executed + 1 }.emit (.nativeEntered function))
  ask {m m' : Machine} {bound : Nat} {q : Request} {a : q.Answer} (h : i.Chronicled m)
    (h_ordinary : q.Ordinary) (h_answer : m.answer (Machine.tick setting bound) q = some (a, m')) :
    i.Chronicled m'

theorem Image.follows {setting : Setting} (h_setting : setting.Ordinary) (i : Image) :
    i.Follows setting where
  begin h task := h.begin task
  divert h task address := h.divert task address
  execute {_ _ bound _ _} h h_live h_advance := by
    -- A body runs ticks of a lower bound, and these are runs as well.
    have h_carries := Machine.carries_run (Machine.runs_tick h_setting bound)
    exact h.runs (Machine.runs_advance h_setting h_carries h_live h_advance)
  enter h function := h.enter function
  ask {_ _ bound _ _} h h_ordinary h_answer :=
    h.runs (Machine.runs_answer (Machine.runs_tick h_setting bound) h_ordinary h_answer)

end ScriptMachine
