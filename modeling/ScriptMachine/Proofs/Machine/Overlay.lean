import ScriptMachine.Proofs.Machine.Accord

/-!
# Beside the state

Beside its state a machine has a log, a count of the tasks it has started and what its host keeps
for itself. The log and the count are written and never read, and the memory is only read by those
requests that ask for it. So a relation between machines that are in the same state, whichever it
is, is kept by everything that a machine does, as long as it puts up with what is written
(`Overlay`, `Overlay.accord`).

How two machines compare in what lies beside the state is up to the relation. Three are of use:

* the machines are in the same state, and that is all (`overlay_sameState`);
* they also write the same, each behind what was there before (`overlay_beside`);
* one of them is the other with a past (`LooksBack`).
-/

namespace ScriptMachine

/-- A request that has nothing to do with what the host keeps for itself. -/
def Request.Memoryless : Request → Prop
  | .memory | .keep _ => False
  | _ => True

namespace Machine

theorem restore_of_none {i : Image} (h : i.checkpoint = none) (m : Machine) :
    m.restore i = .error .missingCheckpoint := by
  unfold restore
  rw [h]

/-- A relation between machines in the same state, whichever it is, that is kept by what they
write. -/
structure Overlay (R : Machine → Machine → Prop) : Prop where
  same_state {m n : Machine} (h : R m n) : n.toState = m.toState
  become {m n : Machine} (h : R m n) (s : State) : R { m with toState := s } { n with toState := s }
  emit {m n : Machine} (h : R m n) (e : Event) : R (m.emit e) (n.emit e)
  count {m n : Machine} (h : R m n) :
    R { m with started := m.started + 1 } { n with started := n.started + 1 }

namespace Overlay

variable {R : Machine → Machine → Prop} {m n : Machine} (h : Overlay R)

include h

/-- What changes the state depending on nothing but the state. -/
theorem change (h_m : R m n) (f : State → State) :
    R { m with toState := f m.toState } { n with toState := f n.toState } := by
  -- the states are one and the same, so they become one and the same
  rw [h.same_state h_m]
  exact h.become h_m _

theorem lockstep (task : UInt32) : Lockstep task R where
  same_focus h_m := congrArg (·.focus) (h.same_state h_m)
  same_stack h_m := congrArg (·.currentStack?) (h.same_state h_m)
  same_task h_m := congrArg (·.tasks.find? task) (h.same_state h_m)
  same_program h_m := congrArg (·.program) (h.same_state h_m)
  same_globals h_m := congrArg (·.globals) (h.same_state h_m)
  same_highestTask h_m := congrArg (·.highestTask) (h.same_state h_m)
  same_executed h_m := congrArg (·.executed) (h.same_state h_m)
  emit := h.emit
  setStack := by
    intro m n h_m s
    unfold setStack
    rw [h.same_state h_m]
    cases m.focus with
    | main => exact h.become h_m { m.toState with stack := s, focus := .main }
    | task id => exact h.change h_m fun s₀ =>
        { s₀ with tasks := s₀.tasks.update id fun t => { t with stack := s } }
  updateTask h_m change :=
    h.change h_m fun s => { s with tasks := s.tasks.update task change }
  setGlobals h_m globals := h.change h_m fun s => { s with globals }
  takeId h_m := h.change (h.count h_m) fun s => { s with highestTask := s.highestTask + 1 }
  enrol h_m t := h.change h_m fun s => { s with tasks := s.tasks.insert t }
  setLine h_m line := h.change h_m fun s => { s with line }
  setExecuted h_m executed := h.change h_m fun s => { s with executed }

/-! ### Stopping tasks -/

theorem stop (h_m : R m n) (id : UInt32) : R (m.stop id) (n.stop id) := by
  have h_state := h.same_state h_m
  unfold Machine.stop Machine.remove
  rw [h_state]
  split
  · cases m.tasks.find? id with
    | none => exact h_m
    | some t =>
      -- The task is the same, and so are the events that tell of its objects and its end.
      have h_erased := h.change h_m fun s => { s with tasks := s.tasks.erase id }
      rw [h_state] at h_erased
      exact (h.lockstep id).foldl_emit h_erased _
  · exact h.emit h_m _

theorem stopWhere (h_m : R m n) (selected : Task → Bool) :
    R (m.stopWhere selected) (n.stopWhere selected) := by
  unfold Machine.stopWhere
  rw [h.same_state h_m]
  -- Who is selected is known beforehand, so they are stopped one by one.
  generalize (m.tasks.toList.filter selected).map (·.id) = ids
  induction ids generalizing m n with
  | nil => exact h_m
  | cons id ids ih => exact ih (h.stop h_m id)

theorem settle (h_m : R m n) (mask : ScriptKind) : R (m.settle mask) (n.settle mask) := by
  have h_released := h.change (h.stopWhere h_m (·.stopped)) fun s =>
    (Machine.release { toState := s } mask).toState
  exact h.change h_released fun s => { s with ticks := s.ticks + 1 }

/-! ### Loading -/

/-- Machines that were put at the beginning of the program are loaded alike. -/
theorem load_of_beginning {i : Image} (h_m : R (m.beginning i) (n.beginning i)) :
    R (m.load i) (n.load i) := by
  have h_starts (scripts : List UInt32) {m n : Machine} (h_m : R m n) :
      R (scripts.foldl (fun m script => (m.start script).2) m)
        (scripts.foldl (fun m script => (m.start script).2) n) := by
    induction scripts generalizing m n with
    | nil => exact h_m
    -- starting a script is in lockstep, for whichever task
    | cons script rest ih => exact ih ((h.lockstep 0).start h_m script).2
  exact h_starts i.program.autostart h_m

/-- Nothing of the state that there was is left. -/
theorem load (h_m : R m n) (i : Image) : R (m.load i) (n.load i) :=
  h.load_of_beginning (h.become h_m (beginning default i).toState)

theorem restore (h_m : R m n) {i : Image} {c : Checkpoint} (hc : i.checkpoint = some c) :
    ∃ m' n', m.restore i = .ok m' ∧ n.restore i = .ok n' ∧ R m' n' := by
  unfold Machine.restore
  rw [hc]
  exact ⟨_, _, rfl, rfl, h.become h_m _⟩

/-! ### Requests -/

theorem answer (h_m : R m n) {tick : ScriptKind → Machine → Option Machine}
    (h_tick : TicksAgree R tick) {q : Request} (h_q : q.Memoryless) :
    Option.Rel (Alike R) (m.answer tick q) (n.answer tick q) := by
  cases q with
  -- these see what lies beside the state
  | memory | keep => exact h_q.elim
  | observe => exact .some ⟨h.same_state h_m, h_m⟩
  | push v => exact .some ⟨rfl, (h.lockstep 0).push h_m v⟩
  | pop => exact .some ((h.lockstep 0).pop h_m)
  | tick mask => exact rel_map (h_tick mask h_m) fun _ _ h_out => ⟨rfl, h_out⟩
  | start script => exact .some ((h.lockstep 0).start h_m script)
  | startNamed name mask => exact .some ((h.lockstep 0).startNamed h_m name mask)
  | stop task => exact .some ⟨rfl, h.stop h_m task⟩
  | stopAll | stopKind mask | stopNamed selected => exact .some ⟨rfl, h.stopWhere h_m _⟩
  | load image => exact .some ⟨rfl, h.load h_m image⟩
  | restore image =>
    dsimp only [Machine.answer]
    cases hc : image.checkpoint with
    | none =>
      rw [restore_of_none hc, restore_of_none hc]
      exact .some ⟨rfl, h_m⟩
    | some c =>
      obtain ⟨m', n', h_m', h_n', h_out⟩ := h.restore h_m hc
      rw [h_m', h_n']
      exact .some ⟨rfl, h_out⟩
  | reboot =>
    exact .some ⟨rfl, h.change h_m fun s => (Machine.reboot { toState := s }).toState⟩
  | note text => exact .some ⟨rfl, h.emit h_m _⟩

/-- **What lies beside the state makes no difference.** -/
theorem accord (setting : Setting) : Accord setting Request.Memoryless R where
  same_state := h.same_state
  paced task := (h.lockstep task).paced setting
  refocus h_m focus running := h.change h_m fun s => { s with focus, running }
  settle := h.settle
  answer := h.answer

end Overlay

/-! ### What is compared -/

/-- The machines are in the same state. -/
def SameState (m n : Machine) : Prop := n.toState = m.toState

theorem overlay_sameState : Overlay SameState where
  same_state h := h
  become _ _ := rfl
  emit h _ := h
  count h := h

/-- The machine in another state, with more told to the host and more tasks started. -/
def replaced (m : Machine) (s : State) (es : Array Event) (count : Nat) : Machine :=
  { m with toState := s, log := m.log ++ es, started := m.started + count }

/-- The machines are in the same state, have written the same since they were `m₀` and `n₀`, and
their hosts have kept nothing since. -/
def Beside (m₀ n₀ m n : Machine) : Prop :=
  ∃ s es count, m = m₀.replaced s es count ∧ n = n₀.replaced s es count

theorem replaced_nil (m : Machine) (s : State) : m.replaced s #[] 0 = { m with toState := s } := by
  unfold replaced
  rw [Array.append_empty, Nat.add_zero]

theorem overlay_beside (m₀ n₀ : Machine) : Overlay (Beside m₀ n₀) where
  same_state := by
    rintro _ _ ⟨s, es, count, rfl, rfl⟩
    rfl
  become := by
    rintro _ _ ⟨s, es, count, rfl, rfl⟩ s'
    exact ⟨s', es, count, rfl, rfl⟩
  emit := by
    rintro _ _ ⟨s, es, count, rfl, rfl⟩ e
    -- what is told last stands behind all that was told since
    have h_emit (m : Machine) :
        (m.replaced s es count).emit e = m.replaced s (es.push e) count := by
      unfold emit replaced
      rw [Array.push_append]
    exact ⟨s, es.push e, count, h_emit m₀, h_emit n₀⟩
  count := by
    rintro _ _ ⟨s, es, count, rfl, rfl⟩
    exact ⟨s, es, count + 1, rfl, rfl⟩

end Machine

end ScriptMachine
