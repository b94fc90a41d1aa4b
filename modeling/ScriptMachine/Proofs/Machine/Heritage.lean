import ScriptMachine.Proofs.Machine.Extent

/-!
# What tasks take over

A task takes over what its script has when it is started: its names and files, its kind and offset
and the names of its locals. Whatever happens to it later leaves that alone. So a task says what it
was like when it was started (`Task.anew`), and from which script that can have been
(`Task.ComesFrom`).

Of the nine kinds of moves, two start a task and the others start nobody. Then whoever is there was
there before and has kept what it took over (`Machine.NobodyNew`). After a start the same is true of
all but the task that has the next id (`Machine.find?_spawn`).
-/

namespace ScriptMachine

/-! ### What a task keeps -/

/-- A task as it was started, but for its address. -/
def Task.anew (t : Task) : Task :=
  { t.withoutControl with
    waitingFor := 0, stopped := false, stack := .empty, locals := t.locals.map (.fresh ·.name) }

/-- The task was started from the script, whatever it has done since. -/
def Task.ComesFrom (t : Task) (s : Script) : Prop :=
  t.anew = { Task.start t.id s with address := 0 }

namespace Task

variable {t u : Task} {s : Script}

theorem comesFrom_start (id : UInt32) (s : Script) (stack : Stack) :
    ({ Task.start id s with stack } : Task).ComesFrom s := by
  have h_fresh : (s.localNames.map Variable.fresh).map (.fresh ·.name) =
      s.localNames.map Variable.fresh := by
    rw [List.map_map]
    rfl
  unfold ComesFrom anew
  dsimp only [Task.start]
  rw [h_fresh]
  rfl

/-- Locals keep their names. -/
theorem localNames_anew (t : Task) : t.anew.locals.map (·.name) = t.locals.map (·.name) := by
  show (t.locals.map fun v => Variable.fresh v.name).map (·.name) = _
  rw [List.map_map]
  rfl

theorem anew_of_withoutControl (h : u.withoutControl = t.withoutControl) : u.anew = t.anew := by
  have h_same := congrArg anew h
  exact h_same

namespace ComesFrom

theorem of_anew (h : t.ComesFrom s) (h_same : u.anew = t.anew) : u.ComesFrom s := by
  have h_id : u.id = t.id := congrArg (·.id) h_same
  unfold ComesFrom
  rw [h_same, h_id]
  exact h

/-- What is a number or a text of the script is that of the task. -/
theorem facts (h : t.ComesFrom s) : t.scriptId = s.id ∧ t.name = s.name ∧ t.file = s.file ∧
    t.kind = s.kind ∧ t.offset = s.offset :=
  ⟨congrArg Task.scriptId h, congrArg Task.name h, congrArg Task.file h, congrArg Task.kind h,
    congrArg Task.offset h⟩

theorem localNames (h : t.ComesFrom s) : t.locals.map (·.name) = s.localNames := by
  rw [← localNames_anew, h]
  show (s.localNames.map Variable.fresh).map (·.name) = s.localNames
  rw [List.map_map]
  exact List.map_id _

end ComesFrom

end Task

/-! ### What moves leave of tasks -/

namespace Machine

variable {m m' m'' : Machine}

/-- Whoever is there has been there before, and has kept what it took over. -/
def NobodyNew (m m' : Machine) : Prop :=
  ∀ id t', m'.tasks.find? id = some t' → ∃ t, m.tasks.find? id = some t ∧ t'.anew = t.anew

namespace NobodyNew

theorem of_tasks_eq (h : m'.tasks = m.tasks) : m.NobodyNew m' := by
  intro id t h_find
  rw [h] at h_find
  exact ⟨t, h_find, rfl⟩

theorem refl (m : Machine) : m.NobodyNew m := of_tasks_eq rfl

theorem trans (h : m.NobodyNew m') (h' : m'.NobodyNew m'') : m.NobodyNew m'' := by
  intro id t'' h_find
  obtain ⟨t', h_find', h_same'⟩ := h' id t'' h_find
  obtain ⟨t, h_find, h_same⟩ := h id t' h_find'
  exact ⟨t, h_find, h_same'.trans h_same⟩

theorem of_map {change : Task → Task} (h_tasks : m'.tasks = m.tasks.map change)
    (h_change : ∀ t, (change t).anew = t.anew) : m.NobodyNew m' := by
  intro id t' h_find
  rw [h_tasks, TaskTable.find?_map] at h_find
  obtain ⟨t, h_t, rfl⟩ := Option.map_eq_some_iff.1 h_find
  refine ⟨t, h_t, ?_⟩
  have h_same := congrArg (fun u : Task => { u with id := t.id }) (h_change t)
  exact h_same

theorem updateTask (m : Machine) (task : UInt32) {change : Task → Task}
    (h_change : ∀ t, (change t).anew = t.anew) : m.NobodyNew (m.updateTask task change) := by
  refine of_map rfl fun t => ?_
  split
  · exact h_change t
  · rfl

end NobodyNew

theorem Exchange.nobodyNew (h : m.Exchange m') : m.NobodyNew m' := by
  cases h with
  | tell => exact .of_tasks_eq rfl
  | restack =>
    unfold setStack
    split
    · exact .of_tasks_eq rfl
    · exact .updateTask m _ fun _ => rfl

theorem Exchanges.nobodyNew (h : m.Exchanges m') : m.NobodyNew m' := by
  induction h with
  | refl => exact .refl m
  | tail _ h_exchange ih => exact ih.trans h_exchange.nobodyNew

theorem nobodyNew_writeVariable (m : Machine) (task id : UInt32) (v : Value) :
    m.NobodyNew (m.writeVariable task id v) := by
  obtain ⟨globals, change, h_set, -, h_locals⟩ := setVariable_spec m task id v
  unfold writeVariable
  split
  · -- no variable has the id: nothing is stored, and the host is told
    exact .of_tasks_eq rfl
  · rw [foldl_emit, h_set]
    refine .of_map rfl fun t => ?_
    -- locals are known by their names, and these stay
    obtain ⟨locals, h_change, h_names⟩ := h_locals t
    have h_fresh := congrArg (List.map Variable.fresh) h_names
    rw [List.map_map, List.map_map] at h_fresh
    rw [h_change]
    exact congrArg (fun locals => { t.anew with locals }) h_fresh

theorem nobodyNew_remove (m : Machine) (id : UInt32) : m.NobodyNew (m.remove id) := by
  unfold remove
  split
  · exact .refl m
  · dsimp only
    rw [foldl_emit]
    -- Removing a task leaves the others as they are.
    intro other t h_find
    rw [TaskTable.find?_erase] at h_find
    split at h_find
    · contradiction
    · exact ⟨t, h_find, rfl⟩

theorem nobodyNew_release (m : Machine) (mask : ScriptKind) : m.NobodyNew (m.release mask) := by
  refine .of_map rfl fun t => ?_
  dsimp only
  split
  · split <;> rfl
  · rfl

theorem started_spawn (m : Machine) (script : Script) :
    (m.spawn script).2.started = m.started + 1 := (began_spawn m script).started

/-- **A move that starts nothing** leaves nobody but those who were there. -/
theorem Move.nobodyNew (h : m.Move m') (h_started : m'.started = m.started) : m.NobodyNew m' := by
  cases h with
  | exchange h_exchange => exact h_exchange.nobodyNew
  | store task id v => exact nobodyNew_writeVariable m task id v
  | spawn script =>
    -- starts are counted, however ids wrap around
    rw [started_spawn] at h_started
    omega
  | call task script =>
    have h_more : (m.spawn script).2.started = m.started := h_started
    rw [started_spawn] at h_more
    omega
  | remove id => exact nobodyNew_remove m id
  | steer task change h_change =>
    -- what control flow may change is nothing that a task takes over from its script
    exact .updateTask m task fun t => Task.anew_of_withoutControl (h_change t)
  | halt task => exact .updateTask m task fun _ => rfl
  | release mask => exact nobodyNew_release m mask
  | mark => exact .of_tasks_eq rfl

/-- The one who is new has the next id, whoever had it before. -/
theorem find?_spawn (m : Machine) (script : Script) {id : UInt32} {t' : Task}
    (h_find : (m.spawn script).2.tasks.find? id = some t') :
    id = m.highestTask + 1 ∧ t'.ComesFrom script ∨
      id ≠ m.highestTask + 1 ∧ ∃ t, m.tasks.find? id = some t ∧ t'.anew = t.anew := by
  obtain ⟨m₁, s, h_exchanges, -, h_spawn⟩ := spawn_spec m script
  rw [h_spawn, find?_enrol] at h_find
  change (if m.highestTask + 1 = id then some _ else m₁.tasks.find? id) = some t' at h_find
  -- The new task is put in last, so it is found under its id whoever was there before.
  by_cases h_id : id = m.highestTask + 1
  · rw [if_pos h_id.symm] at h_find
    cases h_find
    exact .inl ⟨h_id, Task.comesFrom_start (m.highestTask + 1) script s⟩
  · rw [if_neg fun h_same => h_id h_same.symm] at h_find
    exact .inr ⟨h_id, h_exchanges.nobodyNew id t' h_find⟩

end Machine

end ScriptMachine
