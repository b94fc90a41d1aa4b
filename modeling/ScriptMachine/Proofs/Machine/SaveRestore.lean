import ScriptMachine.Proofs.Image.Overlong
import ScriptMachine.Proofs.Machine.Heritage
import ScriptMachine.Proofs.Machine.Hoarding
import ScriptMachine.Proofs.Machine.Past

/-!
# Saving and restoring

A save file leaves out what can be found out again: the names and files of tasks are those of their
scripts, the null variable is blank, and between operations the focus is on the main stack. All of
that has to be true of every state that is saved, or else something is lost. What is true of every
state is an invariant of runs, `State.Rooted`: the program stays what was loaded, and globals and
tasks keep the names that the program gave them. It is enough for every field of a save file to fit
its place, so that what is read is what was saved, up to what is looked up for it
(`Machine.restoreBytes_save`). A task finds its script again if the scripts are numbered by their
ordinals (`Program.Numbered`), or at least one with the same name and file (`Program.Titled`).

The main result, `Machine.save_restore`, has the two directions:

* a machine that has run since it was loaded is put back exactly into the state that was saved, and
  from then on a machine that was put back does what the other one does. No number in a save file
  can exceed 32 bits, so that is true as long as tasks and handlers can be counted with 32 bits, and
  not beyond (`State.Countable`);
* an image with a checkpoint is what is saved right after it was restored.

A program can get beyond that within a single tick. What is saved of it then is refused, whoever
tries to restore it (`save_refused_hoarding`).
-/

namespace ScriptMachine

/-! ### Rooted states -/

/-- The ids of the scripts are their ordinals in the table. -/
def Program.Numbered (p : Program) : Prop :=
  ∀ (k : Nat) (s : Script), p.scripts[k]? = some s → s.id.toNat = k + 1

/-- Taken for an ordinal, the id of each script stands for one with the same name and file. -/
def Program.Titled (p : Program) : Prop :=
  ∀ s ∈ p.scripts, ∃ s', p.script? s.id = some s' ∧ s.name = s'.name ∧ s.file = s'.file

/-- What a task takes over from its script, its kind and addresses apart. -/
def Task.root (t : Task) : UInt32 × String × String × List String :=
  (t.scriptId, t.name, t.file, t.locals.map (·.name))

/-- The task has taken over what a script has. -/
def Task.Rooted (t : Task) (scripts : List Script) : Prop :=
  ∃ s ∈ scripts, t.root = (s.id, s.name, s.file, s.localNames)

/-- The state is one of a program: the slots of its globals have their names, and its tasks have
taken over what scripts have. -/
structure State.Rooted (p : Program) (s : State) : Prop where
  program : s.program = p
  globals : s.globals.map (·.name) = nullVariableName :: p.globals
  tasks : ∀ t ∈ s.tasks.toList, t.Rooted p.scripts

theorem Program.Numbered.ofOrdinal? {p : Program} (h : p.Numbered) {s : Script}
    (h_s : s ∈ p.scripts) : ofOrdinal? p.scripts s.id = some s := by
  obtain ⟨k, h_k⟩ := List.mem_iff_getElem?.1 h_s
  have h_id := h k s h_k
  -- zero is no ordinal
  have h_ne : s.id ≠ 0 := by
    intro h_zero
    rw [h_zero] at h_id
    contradiction
  unfold ScriptMachine.ofOrdinal?
  rw [if_neg h_ne, h_id]
  exact h_k

theorem Program.Numbered.titled {p : Program} (h : p.Numbered) : p.Titled :=
  fun s h_s => ⟨s, h.ofOrdinal? h_s, rfl, rfl⟩

theorem Task.Rooted.exists_script {t : Task} {scripts : List Script} (h : t.Rooted scripts) :
    ∃ s ∈ scripts, t.scriptId = s.id ∧ t.name = s.name ∧ t.file = s.file ∧
      t.locals.map (·.name) = s.localNames := by
  obtain ⟨s, h_s, h_root⟩ := h
  exact ⟨s, h_s, by simpa only [Task.root, Prod.mk.injEq] using h_root⟩

/-- What a task has taken over is what it was started with. -/
theorem Task.root_of_anew {t t' : Task} (h : t'.anew = t.anew) : t'.root = t.root := by
  have h_root (t : Task) : t.anew.root = t.root := by
    unfold root
    rw [t.localNames_anew]
    rfl
  rw [← h_root t', h, h_root t]

theorem Task.ComesFrom.root {t : Task} {s : Script} (h : t.ComesFrom s) :
    t.root = (s.id, s.name, s.file, s.localNames) := by
  obtain ⟨h_id, h_name, h_file, -⟩ := h.facts
  exact Prod.ext h_id (Prod.ext h_name (Prod.ext h_file h.localNames))

/-! ### What a run leaves of tasks and globals -/

namespace Machine

/-- The globals keep their names, and a task is there with the root of one that was there, or with
that of a script. -/
structure Inherits (m m' : Machine) : Prop where
  program : m'.program = m.program
  globals : m'.globals.map (·.name) = m.globals.map (·.name)
  tasks : ∀ t' ∈ m'.tasks.toList,
    (∃ t ∈ m.tasks.toList, t'.root = t.root) ∨ t'.Rooted m.program.scripts

variable {m m' : Machine}

namespace Inherits

theorem trans {m'' : Machine} (h : m.Inherits m') (h' : m'.Inherits m'') : m.Inherits m'' where
  program := h'.program.trans h.program
  globals := h'.globals.trans h.globals
  tasks t'' h_t'' := by
    -- a task may be new in the second part, or in the first, or in neither
    rcases h'.tasks t'' h_t'' with ⟨t', h_t', h_root⟩ | h_new
    · rcases h.tasks t' h_t' with ⟨t, h_t, h_root'⟩ | ⟨script, h_script, h_root'⟩
      · exact .inl ⟨t, h_t, h_root.trans h_root'⟩
      · exact .inr ⟨script, h_script, h_root.trans h_root'⟩
    · exact .inr (h.program ▸ h_new)

/-- Nobody is new. -/
theorem of_nobodyNew (h : m.NobodyNew m') (h_program : m'.program = m.program)
    (h_globals : m'.globals.map (·.name) = m.globals.map (·.name)) : m.Inherits m' := by
  refine ⟨h_program, h_globals, fun t' h_t' => ?_⟩
  obtain ⟨t, h_find, h_same⟩ := h t'.id t' (TaskTable.find?_eq_some_iff.2 ⟨h_t', rfl⟩)
  exact .inl ⟨t, TaskTable.mem_of_find? h_find, Task.root_of_anew h_same⟩

/-- Nothing happens to the tasks. -/
theorem of_eq (h_program : m'.program = m.program) (h_globals : m'.globals = m.globals)
    (h_tasks : m'.tasks = m.tasks) : m.Inherits m' :=
  .of_nobodyNew (.of_tasks_eq h_tasks) h_program (by rw [h_globals])

theorem refl (m : Machine) : m.Inherits m := .of_eq rfl rfl rfl

end Inherits

theorem Keeps.inherits (h : m.Keeps m') (h_nobody : m.NobodyNew m') : m.Inherits m' :=
  .of_nobodyNew h_nobody h.1 (by rw [h.2])

/-- A task that is started takes over what its script has. -/
theorem inherits_spawn {script : Script} (h_script : script ∈ m.program.scripts) :
    m.Inherits (m.spawn script).2 := by
  obtain ⟨h_program, h_globals⟩ := keeps_spawn m script
  refine ⟨h_program, by rw [h_globals], fun t' h_t' => ?_⟩
  have h_find := TaskTable.find?_eq_some_iff.2 ⟨h_t', rfl⟩
  -- one task is new, and what the caller gave away does not touch the roots of the others
  rcases m.find?_spawn script h_find with ⟨-, h_new⟩ | ⟨-, t, h_t, h_same⟩
  · exact .inr ⟨script, h_script, h_new.root⟩
  · exact .inl ⟨t, TaskTable.mem_of_find? h_t, Task.root_of_anew h_same⟩

theorem Move.inherits (h : m.Move m') : m.Inherits m' := by
  cases h with
  | exchange h_exchange => exact h_exchange.keeps.inherits h_exchange.nobodyNew
  | store task id v =>
    -- a variable gets a value, and keeps its name
    have h_same : (m.writeVariable task id v).program = m.program ∧
        (m.writeVariable task id v).globals.map (·.name) = m.globals.map (·.name) := by
      obtain ⟨globals, change, h_set, h_globals, -⟩ := setVariable_spec m task id v
      unfold writeVariable
      split
      · exact ⟨rfl, rfl⟩
      · rw [foldl_emit, h_set]
        exact ⟨rfl, h_globals⟩
    exact .of_nobodyNew (nobodyNew_writeVariable m task id v) h_same.1 h_same.2
  | spawn script h_script => exact inherits_spawn h_script
  | call task script _ h_script =>
    exact (inherits_spawn h_script).trans (.of_nobodyNew (.updateTask _ task fun _ => rfl) rfl rfl)
  | remove id => exact (keeps_remove m id).inherits (nobodyNew_remove m id)
  | steer task change h_change =>
    exact .of_nobodyNew (.updateTask m task fun t => Task.anew_of_withoutControl (h_change t)) rfl
      rfl
  | halt task => exact .of_nobodyNew (.updateTask m task fun _ => rfl) rfl rfl
  | release mask => exact .of_nobodyNew (nobodyNew_release m mask) rfl rfl
  | mark => exact .of_eq rfl rfl rfl

/-- **Every run leaves names and roots as they are.** -/
theorem Runs.inherits (h : m.Runs m') : m.Inherits m' :=
  h.lift .refl .trans Move.inherits fun _ _ _ => .of_eq rfl rfl rfl

end Machine

namespace State.Rooted

variable {p : Program}

/-- **Every run keeps a state rooted.** -/
theorem runs {m m' : Machine} (h : m.Rooted p) (h_runs : m.Runs m') : m'.Rooted p := by
  obtain ⟨h_program, h_globals, h_tasks⟩ := h_runs.inherits
  refine ⟨h_program.trans h.program, h_globals.trans h.globals, fun t' h_t' => ?_⟩
  -- a script that a root goes back to has not changed either
  rcases h_tasks t' h_t' with ⟨t, h_t, h_root⟩ | h_new
  · obtain ⟨script, h_script, h_root'⟩ := h.tasks t h_t
    exact ⟨script, h_script, h_root.trans h_root'⟩
  · exact h.program ▸ h_new

theorem beginning (m : Machine) (i : Image) : (m.beginning i).Rooted i.program where
  program := rfl
  globals := by
    change ((nullVariableName :: i.program.globals).map Variable.fresh).map (·.name) = _
    rw [List.map_map]
    exact List.map_id _
  tasks _ h_t := absurd h_t List.not_mem_nil

end State.Rooted

/-! ### What can be saved -/

/-- The tasks, and the handlers of each, can be counted with 32 bits. -/
structure State.Countable (s : State) : Prop where
  tasks : s.tasks.size < 2 ^ 32
  handlers : ∀ t ∈ s.tasks.toList, t.handlers.length < 2 ^ 32

namespace State

variable {p : Program} {s : State}

/-- Tasks have the titles of scripts, so they run scripts if the ids of these lead to such. -/
theorem Rooted.task_runs (h : s.Rooted p) (h_titled : p.Titled) {t : Task}
    (h_t : t ∈ s.tasks.toList) : t.Runs p.scripts := by
  obtain ⟨script, h_script, h_id, h_name, h_file, -⟩ := (h.tasks t h_t).exists_script
  obtain ⟨script', h_found, h_name', h_file'⟩ := h_titled script h_script
  exact ⟨script', h_id ▸ h_found, h_name.trans h_name', h_file.trans h_file'⟩

theorem Rooted.task_legible (h : s.Rooted p) (h_p : p.Writable) {t : Task}
    (h_t : t ∈ s.tasks.toList) (h_handlers : t.handlers.length < 2 ^ 32) : t.Legible := by
  obtain ⟨script, h_script, -, -, -, h_locals⟩ := (h.tasks t h_t).exists_script
  have h_writable := h_p.scripts script h_script
  -- the locals of a task are those that its script declares, as many and with the same names
  have h_length : t.locals.length = script.localNames.length := by
    rw [← h_locals, List.length_map]
  have h_bound := h_writable.localNames_length
  refine ⟨by omega, fun v h_v => ?_, h_handlers⟩
  have h_mem : v.name ∈ script.localNames := h_locals ▸ List.mem_map_of_mem h_v
  exact h_writable.localNames v.name h_mem

/-- **What is saved fits its places**, whatever scripts the tasks run. -/
theorem Rooted.legible (h : s.Rooted p) (h_p : p.Writable) (h_count : s.Countable) {c : Checkpoint}
    (h_c : (s.image true).checkpoint = some c) : c.Legible := by
  -- the null variable is left out, and the others are those of the program
  have h_names : (s.globals.drop 1).map (·.name) = p.globals := by
    rw [List.map_drop, h.globals]
    rfl
  obtain rfl := Option.some.inj h_c
  have h_length : (s.globals.drop 1).length = p.globals.length := by
    rw [← h_names, List.length_map]
  have h_bound := h_p.globals_length
  refine ⟨by dsimp only; omega, fun v h_v => ?_, h_count.tasks, fun t h_t => ?_⟩
  · have h_mem : v.name ∈ p.globals := h_names ▸ List.mem_map_of_mem h_v
    exact h_p.globals v.name h_mem
  · exact h.task_legible h_p h_t (h_count.handlers t h_t)

theorem Rooted.writable (h : s.Rooted p) (h_p : p.Writable) (h_titled : p.Titled)
    (h_count : s.Countable) : (s.image true).Writable := by
  have h_program : (s.image true).program = p := h.program
  refine ⟨h_program.symm ▸ h_p, fun c h_c => ?_⟩
  have h_legible := h.legible h_p h_count h_c
  obtain rfl := Option.some.inj h_c
  refine ⟨h_legible.globals_length, h_legible.globals, h_legible.tasks_length, fun t h_t => ?_⟩
  obtain ⟨h_locals, h_names, h_handlers⟩ := h_legible.tasks t h_t
  have h_runs := h.task_runs h_titled h_t
  rw [← h.program] at h_runs
  exact ⟨h_runs, h_locals, h_names, h_handlers⟩

end State

/-! ### What is restored -/

/-- The state as it is put back out of what is saved of it. The names and files of its tasks are
looked up, and its null variable begins anew. -/
def State.restored (s : State) : Except LoadError State :=
  return {
    s with
    globals := .fresh nullVariableName :: s.globals.drop 1
    tasks := .ofList (← s.tasks.toList.mapM (Task.retitle s.program.scripts)) }

/-- Nothing is lost of a state whose tasks are found with the names and files of their scripts. -/
theorem State.restored_of_runs {s : State} (h_runs : ∀ t ∈ s.tasks.toList, t.Runs s.program.scripts)
    (h_null : s.globals.head? = some (.fresh nullVariableName)) : s.restored = .ok s := by
  obtain ⟨rest, h_globals⟩ := List.head?_eq_some_iff.1 h_null
  have h_tasks : s.tasks.toList.mapM (Task.retitle s.program.scripts) = .ok s.tasks.toList :=
    mapM_retitle h_runs
  unfold restored
  rw [h_tasks, h_globals]
  -- the table is in order already, so nothing is dropped or moved when it is read
  change Except.ok { s with globals := _, tasks := TaskTable.ofList s.tasks.toList } = _
  rw [TaskTable.ofList_toList, List.drop_one, List.tail_cons, ← h_globals]

namespace Machine

/-- **A state is put back** out of what is saved of it, if that fits its places and the focus was on
the main stack. -/
theorem restoreBytes_save (m : Machine) {s : State} (h_program : s.program.Writable)
    (h_legible : ∀ {c}, (s.image true).checkpoint = some c → c.Legible) (h_focus : s.focus = .main)
    (h_running : s.running = none) :
    m.restoreBytes s.save = s.restored.map fun s' => { m with toState := s' } := by
  unfold restoreBytes State.save
  rw [Image.decode_encode_of_legible h_program rfl (h_legible rfl)]
  unfold Checkpoint.retitle State.restored
  change (((s.tasks.toList.mapM (Task.retitle s.program.scripts)).bind _).map _).bind _ =
    ((s.tasks.toList.mapM (Task.retitle s.program.scripts)).bind _).map _
  cases s.tasks.toList.mapM (Task.retitle s.program.scripts) with
  | error e => rfl
  | ok tasks =>
    -- focus and running task are not in the image and are what a restored machine begins with
    obtain ⟨program, stack, globals, tasks, ticks, line, highestTask, highestScript, executed,
      focus, running⟩ := s
    subst h_focus h_running
    rfl

/-- **Too many handlers.** If the last task has more handlers than a word can count, and nothing
else is too much, then what is saved of the state is refused. -/
theorem restoreBytes_overlong {p : Program} {s : State} (h : s.Rooted p) (h_p : p.Writable)
    (h_titled : p.Titled) {before : List Task} {last : Task}
    (h_tasks : s.tasks.toList = before ++ [last]) (h_size : s.tasks.size < 2 ^ 32)
    (h_before : ∀ t ∈ before, t.handlers.length < 2 ^ 32) (h_over : 2 ^ 32 ≤ last.handlers.length)
    (m : Machine) : m.restoreBytes s.save =
      .error (.trailingBytes (4 * (last.handlers.length - last.handlers.length % 2 ^ 32))) := by
  -- without these handlers the state is as rooted as before, and it can be counted
  let kept : List Task := before ++ [{ last with handlers := [] }]
  have h_ascending : kept.Pairwise (·.id < ·.id) := by
    have h_table := s.tasks.ascending
    rw [h_tasks] at h_table
    simpa only [kept, List.pairwise_append, List.pairwise_singleton, List.mem_singleton,
      forall_eq] using h_table
  let bare : State := { s with tasks := ⟨kept, h_ascending⟩ }
  have h_bare : bare.Rooted p := by
    refine ⟨h.program, h.globals, fun t h_t => ?_⟩
    rcases List.mem_append.1 h_t with h_t | h_t
    · exact h.tasks t (h_tasks ▸ List.mem_append_left _ h_t)
    · obtain rfl := List.mem_singleton.1 h_t
      exact h.tasks last (h_tasks ▸ List.mem_append_right _ (List.mem_singleton.2 rfl))
  -- only the last task had too many
  have h_count : bare.Countable := by
    refine ⟨?_, fun t h_t => ?_⟩
    · have h_same : bare.tasks.size = s.tasks.size := by
        simp [bare, kept, TaskTable.size, h_tasks]
      exact h_same ▸ h_size
    · rcases List.mem_append.1 h_t with h_t | h_t
      · exact h_before t h_t
      · obtain rfl := List.mem_singleton.1 h_t
        exact Nat.two_pow_pos 32
  -- so the handlers that are not counted are all that is left when the rest was read
  have h_refused := Image.decode_overlong (i := s.image true) rfl h_tasks
    (h_bare.writable h_p h_titled h_count) h_over
  unfold restoreBytes State.save
  rw [h_refused]
  rfl

/-- What is saved right after an image was restored is the image. -/
theorem image_restore (m : Machine) {i : Image} {c : Checkpoint} (h_c : i.checkpoint = some c)
    (h_ascending : c.tasks.Pairwise (·.id < ·.id)) :
    ∃ m', m.restore i = .ok m' ∧ m'.image true = i := by
  obtain ⟨program, checkpoint⟩ := i
  dsimp only at h_c
  subst h_c
  refine ⟨_, rfl, ?_⟩
  have h_tasks := TaskTable.toList_ofList h_ascending
  unfold State.image
  simp only [if_true, h_tasks]
  rfl

/-- What is put back out of bytes has tasks and handlers that were counted with 32 bits. -/
theorem countable_of_restoreBytes {m m' : Machine} {bytes : List UInt8}
    (h : m.restoreBytes bytes = .ok m') : m'.Countable := by
  unfold restoreBytes at h
  cases h_decode : Image.decode bytes with
  | error e =>
    rw [h_decode] at h
    contradiction
  | ok i =>
    rw [h_decode] at h
    change m.restore i = .ok m' at h
    unfold restore at h
    cases h_c : i.checkpoint with
    | none =>
      rw [h_c] at h
      contradiction
    | some c =>
      rw [h_c] at h
      obtain rfl := Except.ok.inj h
      -- what was decoded can be written down, so its tables are not too long
      have h_writable := (Image.writable_of_decode h_decode).checkpoint c h_c
      obtain ⟨h_mem, h_size⟩ := TaskTable.ofList_spec c.tasks
      exact ⟨Nat.lt_of_le_of_lt h_size h_writable.tasks_length, fun t h_t =>
        (h_writable.tasks t (h_mem t h_t)).handlers_length⟩

/-- A machine as it would be without its past. -/
theorem eq_withPast (m : Machine) :
    m = Machine.withPast { toState := m.toState, memory := m.memory } m.log m.started := by
  unfold withPast
  rw [Array.append_empty]
  rfl

/-- A null variable that is blank is as it was loaded. -/
theorem head?_globals {p : Program} {s : State} (h : s.Rooted p)
    (h_blank : s.globals.head?.map (·.value) = some .blank) :
    s.globals.head? = some (.fresh nullVariableName) := by
  have h_names := h.globals
  cases h_globals : s.globals with
  | nil =>
    -- the null variable is always there
    rw [h_globals] at h_names
    contradiction
  | cons x rest =>
    rw [h_globals] at h_names h_blank
    obtain ⟨name, value⟩ := x
    obtain rfl : name = nullVariableName := (List.cons.inj h_names).1
    obtain rfl : value = .blank := Option.some.inj h_blank
    rfl

/-- What is saved in the course of a program is put back, if it can be counted. -/
theorem restoreBytes_save_iff {setting : Setting} (h_setting : setting.Ordinary) {α : Type}
    {r : Routine α} {bytes : List UInt8} {i : Image} {m₀ m : Machine} {a : α}
    (h_routine : r.Only Request.Ordinary) (h_decode : Image.decode bytes = .ok i)
    (h_numbered : i.program.Numbered) (h_run : perform setting r (m₀.load i) = some (a, m))
    (h_blank : m.globals.head?.map (·.value) = some .blank) :
    (∀ m₁ : Machine, m₁.restoreBytes m.save = .ok { m₁ with toState := m.toState }) ↔
      m.Countable := by
  constructor
  · intro h
    exact countable_of_restoreBytes (h m)
  · intro h_count m₁
    have h_runs := (runs_load m₀ i).trans (runs_perform h_setting h_routine h_run)
    have h_rooted := (State.Rooted.beginning m₀ i).runs h_runs
    have h_program := (Image.writable_of_decode h_decode).program
    -- every name is found again, and the null variable is what it begins as
    have h_restored : m.toState.restored = .ok m.toState := by
      refine State.restored_of_runs (fun t h_t => ?_) (head?_globals h_rooted h_blank)
      rw [h_rooted.program]
      exact h_rooted.task_runs h_numbered.titled h_t
    -- the focus is where it was when the program was loaded
    rw [restoreBytes_save m₁ (h_rooted.program ▸ h_program) (h_rooted.legible h_program h_count)
      h_runs.focus_eq.1 h_runs.focus_eq.2, h_restored]
    rfl

/-- **Saving and restoring are inverse.** Take any machine that was loaded from an accepted image
and has carried out ordinary requests since, with the null variable still blank. What is saved of it
puts every machine into the same state, if its tasks and handlers can be counted with 32 bits, and
otherwise none. A machine that was put back does what the saved one does: whatever is asked of both,
they give the same answers, tell the host the same from then on and come to the same state, or both
come to no end. The other way round, an image with a checkpoint whose tasks are in ascending order
is what is saved after it was restored. -/
theorem save_restore {setting : Setting} (h_setting : setting.Ordinary) :
    (∀ {α : Type} (r : Routine α) (bytes : List UInt8) (i : Image) (m₀ m : Machine) (a : α),
      r.Only Request.Ordinary → Image.decode bytes = .ok i → i.program.Numbered →
      perform setting r (m₀.load i) = some (a, m) →
      m.globals.head?.map (·.value) = some .blank →
      ((∀ m₁ : Machine, m₁.restoreBytes m.save = .ok { m₁ with toState := m.toState }) ↔
        m.Countable) ∧
      ∀ (m₁ : Machine), m₁.memory = m.memory → ∀ {β : Type} (next : Routine β),
        ∃ outcome : Option (β × Machine),
          perform setting next m =
            outcome.map (fun o => (o.1, o.2.withPast m.log m.started)) ∧
          perform setting next { m₁ with toState := m.toState } =
            outcome.map (fun o => (o.1, o.2.withPast m₁.log m₁.started))) ∧
    ∀ (i : Image) (c : Checkpoint) (m : Machine), i.checkpoint = some c →
      c.tasks.Pairwise (·.id < ·.id) → ∃ m', m.restore i = .ok m' ∧ m'.image true = i := by
  refine ⟨fun r bytes i m₀ m a h_routine h_decode h_numbered h_run h_blank => ⟨?_, ?_⟩,
    fun i c m h_c h_ascending => image_restore m h_c h_ascending⟩
  · exact restoreBytes_save_iff h_setting h_routine h_decode h_numbered h_run h_blank
  · intro m₁ h_memory β next
    -- both are the same machine but for what they look back on
    refine ⟨perform setting next { toState := m.toState, memory := m.memory }, ?_, ?_⟩
    · rw [← perform_withPast, ← eq_withPast]
    · have h_past := eq_withPast { m₁ with toState := m.toState }
      dsimp only at h_past ⊢
      rw [h_memory] at h_past ⊢
      rw [← perform_withPast, ← h_past]

end Machine

/-! ### A machine in the middle of its work -/

/-- A script that adds to a global once in a tick, with a handler that does nothing. -/
def countingImage : Image :=
  { program := {
      globals := ["total"]
      code := [⟨.except, 0, .untyped, 6, 0⟩, ⟨.push, Mode.reference, .int, 1, 0⟩,
        ⟨.push, Mode.immediate, .int, 4, 0⟩, ⟨.callNative, 0, .untyped, 0, 0⟩,
        ⟨.pop, Mode.reference, .int, 1, 0⟩, ⟨.jump, Mode.backward, .untyped, 1, 0⟩,
        ⟨.endExcept, Mode.yield, .untyped, 0, 0⟩]
      autostart := [1]
      scripts := [⟨"Count", "count.chl", .script, 1, ["own"], 0, 0, 1⟩] } }

def addingSetting : Setting :=
  { natives := [⟨"add", 2, 1, some Routine.addInts⟩]
    tickLength := Setting.defaultTickLength }

/-- Two ticks with a value left on the main stack in between. -/
def countingRoutine : Routine Unit := do
  Routine.ticks .all 1
  Routine.pushInt 9
  Routine.ticks .all 1

def countingMachine : Machine :=
  ((Machine.perform addingSetting countingRoutine (Machine.load {} countingImage)).getD
    ((), default)).2

theorem addingSetting_ordinary : addingSetting.Ordinary := by
  intro native h_native body h_body
  -- the only native takes two values and leaves one
  obtain rfl := List.mem_singleton.1 h_native
  obtain rfl := Option.some.inj h_body
  exact ⟨trivial, fun _ => ⟨trivial, fun _ => ⟨trivial, fun _ => trivial⟩⟩⟩

theorem countingImage_numbered : countingImage.program.Numbered := by
  intro k s h
  cases k with
  | zero =>
    obtain rfl := Option.some.inj h
    rfl
  | succ k => contradiction

/-- In the middle of its work the machine has a task with a handler, and a value on its main
stack. -/
theorem save_restore_counting :
    Machine.perform addingSetting countingRoutine (Machine.load {} countingImage) =
      some ((), countingMachine) ∧
    countingMachine.tasks.toList.map (·.handlers) = [[6]] ∧ countingMachine.stack.size = 1 ∧
    (∀ m₁ : Machine, m₁.restoreBytes countingMachine.save =
      .ok { m₁ with toState := countingMachine.toState }) ∧
    ∃ m', Machine.restore {} (countingMachine.image true) = .ok m' ∧
      m'.image true = countingMachine.image true := by
  have h_run : Machine.perform addingSetting countingRoutine (Machine.load {} countingImage) =
      some ((), countingMachine) := by decide +kernel
  have h_decode : Image.decode countingImage.encode = .ok countingImage := by decide +kernel
  have h_count : countingMachine.Countable := ⟨by decide +kernel, by decide +kernel⟩
  obtain ⟨h_saved, h_restored⟩ := Machine.save_restore addingSetting_ordinary
  refine ⟨h_run, by decide +kernel, by decide +kernel, ?_, ?_⟩
  · exact (h_saved countingRoutine _ countingImage {} countingMachine ()
      ⟨trivial, fun _ => ⟨trivial, fun _ => ⟨trivial, fun _ => trivial⟩⟩⟩ h_decode
      countingImage_numbered h_run (by decide +kernel)).1.2 h_count
  · exact h_restored _ _ {} rfl countingMachine.tasks.ascending

/-! ### A machine that cannot be restored -/

theorem hoardingImage_numbered (start : UInt32) : (hoardingImage start).program.Numbered := by
  intro k s h
  cases k with
  | zero =>
    obtain rfl := Option.some.inj h
    rfl
  | succ k => contradiction

/-- What is saved while the task rests is refused, if it has too many handlers. -/
theorem Machine.AtRest.restoreBytes_save {handlers : List UInt32} {m : Machine}
    (h : m.AtRest 0 handlers) (h_over : 2 ^ 32 ≤ handlers.length) (m₁ : Machine) :
    m₁.restoreBytes m.save =
      .error (.trailingBytes (4 * (handlers.length - handlers.length % 2 ^ 32))) := by
  obtain ⟨saved, p, q, own, executed, ticks, rfl⟩ := h
  generalize h_t : restingTask handlers saved p q own = t
  -- the only task is one of the only script, whatever its registers are
  have h_rooted : (hoarding 0 t executed ticks).Rooted (hoardingImage 0).program := by
    refine ⟨rfl, rfl, fun u h_u => ?_⟩
    obtain rfl := List.mem_singleton.1 h_u
    exact ⟨hoardingScript, List.mem_singleton.2 rfl, h_t ▸ rfl⟩
  have h_handlers : t.handlers = handlers := h_t ▸ rfl
  rw [← h_handlers] at h_over ⊢
  exact restoreBytes_overlong h_rooted (Image.writable_of_decode decode_hoarding).program
    (hoardingImage_numbered 0).titled (rfl : _ = [] ++ [t]) (show 1 < 2 ^ 32 by decide) nofun
    h_over m₁

/-- **There is a save file that nobody can restore.** The program is accepted, runs a tick without
any native, and leaves the null variable alone. Of its handlers only one is counted, so what is saved
after the tick has all others as trailing bytes. -/
theorem save_refused_hoarding :
    plainSetting.Ordinary ∧ (Routine.ticks .all 1).Only Request.Ordinary ∧
    Image.decode (hoardingImage 0).encode = .ok (hoardingImage 0) ∧
    (hoardingImage 0).program.Numbered ∧
    ∃ m, Machine.perform plainSetting (Routine.ticks .all 1) (Machine.load {} (hoardingImage 0)) =
        some ((), m) ∧
      m.globals.head?.map (·.value) = some .blank ∧
      ∀ m₁ : Machine, m₁.restoreBytes m.save = .error (.trailingBytes (4 * 2 ^ 32)) := by
  obtain ⟨m, h_run, h_rest⟩ := Machine.perform_hoard
  refine ⟨plainSetting_immediate.ordinary, ⟨trivial, fun _ => trivial⟩, decode_hoarding,
    hoardingImage_numbered 0, m, h_run, ?_, fun m₁ => ?_⟩
  · obtain ⟨saved, p, q, own, executed, ticks, rfl⟩ := h_rest
    rfl
  · rw [h_rest.restoreBytes_save (by rw [Machine.length_hoard]; decide), Machine.length_hoard]
    rfl

end ScriptMachine
