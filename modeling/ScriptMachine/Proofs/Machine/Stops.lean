import ScriptMachine.Proofs.Machine.Lifecycle

/-!
# Stopping many tasks

A host, or a native in the middle of a turn, may stop all tasks, those of some kinds, or those whose
script it names. It picks the tasks first and then stops them one by one, in a table that changes
with each of them. `Machine.bulk_stops` says that this is the same as if they left together: exactly
the tasks that are picked are gone, each of them says farewell once, in ascending order of id, and
that is all that happens.

What carries the proof is `Machine.stopWhere_eq`: as ids are different, the stop of one task takes no
other one away, so each of those that were picked is still there when its turn comes, and no stop is
reported as a fault.
-/

namespace ScriptMachine

namespace Machine

/-- From one machine to the other exactly the selected tasks are gone, and nothing else happens. -/
structure Clears (m : Machine) (selected : Task → Bool) (m' : Machine) : Prop where
  /-- The other tasks are left as they are. -/
  tasks (id : UInt32) : m'.tasks.find? id = (m.tasks.find? id).filter fun t => !selected t
  /-- Whatever is no task and not told stays. -/
  rest : m' = { m with tasks := m'.tasks, log := m'.log }
  /-- In ascending order of id, the host is told what the locals of each task let go of, and then
  that the task is gone. Of no task it is told twice, and of no fault. -/
  told : ∃ (gone : List Task) (events : List Event),
    gone.Pairwise (·.id < ·.id) ∧
    (∀ t, t ∈ gone ↔ m.tasks.find? t.id = some t ∧ selected t) ∧
    events = gone.flatMap (fun t =>
      (t.locals.filterMap (·.value.object?)).map .objectReleased ++ [.taskStopped t.id]) ∧
    m'.log = m.log ++ events.toArray ∧
    (∀ id, events.count (.taskStopped id) = if (m.tasks.find? id).any selected then 1 else 0) ∧
    ∀ f, .fault f ∉ events

/-- The end of a task is told once in its farewell. -/
theorem count_farewell (t : Task) : t.farewell.count (.taskStopped t.id) = 1 := by
  have h_released : (t.heldObjects.map Event.objectReleased).count (.taskStopped t.id) = 0 :=
    List.count_eq_zero.2 (by simp)
  unfold Task.farewell
  rw [List.count_append, h_released, List.count_singleton_self]

theorem fault_notMem_farewell (t : Task) (f : Fault) : .fault f ∉ t.farewell := by
  unfold Task.farewell
  simp

theorem count_farewells (table : TaskTable) (id : UInt32) :
    (table.toList.flatMap Task.farewell).count (.taskStopped id) =
      if (table.find? id).isSome then 1 else 0 := by
  cases h_find : table.find? id with
  | none =>
    have h_other := TaskTable.find?_eq_none_iff.1 h_find
    exact List.count_eq_zero.2 (taskStopped_notMem_farewells h_other)
  | some t =>
    obtain rfl := TaskTable.id_of_find? h_find
    -- what is told of the others is told before and after
    obtain ⟨before, after, h_events, h_before, h_after⟩ := parting_farewells h_find
    rw [h_events, List.count_append, List.count_append, count_farewell,
      List.count_eq_zero.2 h_before, List.count_eq_zero.2 h_after]
    rfl

theorem clears_stopWhere (m : Machine) (selected : Task → Bool) :
    m.Clears selected (m.stopWhere selected) where
  tasks id := find?_stopWhere m selected id
  rest := by rw [stopWhere_eq]
  told := by
    refine ⟨(m.tasks.filter selected).toList, _, (m.tasks.filter selected).ascending, fun t => ?_,
      rfl, ?_, fun id => ?_, fun f => ?_⟩
    · -- the tasks that are gone are those that were selected
      rw [TaskTable.find?_eq_some_iff, and_iff_left rfl]
      exact List.mem_filter
    · rw [stopWhere_eq]
      rfl
    · have h_count := count_farewells (m.tasks.filter selected) id
      rw [TaskTable.find?_filter, Option.isSome_filter] at h_count
      exact h_count
    · -- all that is told are farewells
      intro h_mem
      obtain ⟨t, -, h_fault⟩ := List.mem_flatMap.1 h_mem
      exact fault_notMem_farewell t f h_fault

/-- **Stopping many tasks.** At any time, in a turn or not, all tasks can be stopped, those that
have a kind in common with a mask, and those whose script name and file meet any condition: exactly
these are gone, and nothing else happens. -/
theorem bulk_stops (m : Machine) :
    m.Clears (fun _ => true) m.stopAll ∧
    (∀ mask : ScriptKind, m.Clears (fun t => t.kind.bits &&& mask.bits != 0) (m.stopKind mask)) ∧
    ∀ selected : String → String → Bool,
      m.Clears (fun t => selected t.name t.file) (m.stopNamed selected) :=
  ⟨clears_stopWhere m _, fun _ => clears_stopWhere m _, fun _ => clears_stopWhere m _⟩

end Machine

end ScriptMachine
