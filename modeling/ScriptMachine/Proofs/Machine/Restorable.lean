import ScriptMachine.Proofs.Machine.Titles

/-!
# States that can be put back

A state that runs of a program have led to is saved with the titles of scripts and the names of
their locals. One that was put back out of a save file need not have either: its titles were looked
up, and its names are those of the file. Both can be saved and put back again, and what they have in
common is `State.Restorable`: the names can be written down, and the script id of every task stands
for a script. Runs keep that if the ids of all scripts of the program do (`Program.Resolved`), since
tasks take theirs over from the scripts that they are started of.
-/

namespace ScriptMachine

/-! ### Tasks and scripts that are found -/

/-- The id of each script stands for a script. -/
def Program.Resolved (p : Program) : Prop := ∀ s ∈ p.scripts, ∃ s', p.script? s.id = some s'

theorem Program.Titled.resolved {p : Program} (h : p.Titled) : p.Resolved := by
  intro s h_s
  obtain ⟨s', h_found, -⟩ := h s h_s
  exact ⟨s', h_found⟩

/-- A table of such names is read back. -/
structure Text.Legible (names : List String) : Prop where
  length : names.length < 2 ^ 32
  nulFree : ∀ n ∈ names, NulFree n

theorem Text.legible_names {slots : List Variable} (h_length : slots.length < 2 ^ 32)
    (h : ∀ v ∈ slots, NulFree v.name) : Legible (slots.map (·.name)) where
  length := by rwa [List.length_map]
  nulFree n h_n := by
    obtain ⟨v, h_v, rfl⟩ := List.mem_map.1 h_n
    exact h v h_v

theorem Text.Legible.of_names {slots : List Variable} (h : Legible (slots.map (·.name))) :
    slots.length < 2 ^ 32 ∧ ∀ v ∈ slots, NulFree v.name := by
  have h_length := h.length
  rw [List.length_map] at h_length
  exact ⟨h_length, fun v h_v => h.nulFree v.name (List.mem_map_of_mem h_v)⟩

/-- The task is read back as a task of some script, if its handlers can be counted. -/
structure Task.Restorable (p : Program) (t : Task) : Prop where
  locals : Text.Legible (t.locals.map (·.name))
  script : ∃ s, p.script? t.scriptId = some s

/-- What is saved of the state is read back, if its tasks and their handlers can be counted. -/
structure State.Restorable (p : Program) (s : State) : Prop where
  program : s.program = p
  globals : Text.Legible ((s.globals.map (·.name)).drop 1)
  tasks : ∀ t ∈ s.tasks.toList, t.Restorable p
  focus : s.focus = .main
  running : s.running = none

theorem Task.Restorable.of_root {p : Program} {t t' : Task} (h : t.Restorable p)
    (h_root : t'.root = t.root) : t'.Restorable p := by
  obtain ⟨h_id, h_rest⟩ := Prod.mk.inj h_root
  obtain ⟨-, h_rest⟩ := Prod.mk.inj h_rest
  obtain ⟨-, h_locals⟩ := Prod.mk.inj h_rest
  exact ⟨h_locals ▸ h.locals, h_id ▸ h.script⟩

/-- A task that has taken over what a script has is restored if the id of the script leads back to
one. -/
theorem Task.Rooted.restorable {p : Program} {t : Task} (h : t.Rooted p.scripts)
    (h_p : p.Writable) (h_resolved : p.Resolved) : t.Restorable p := by
  obtain ⟨s, h_s, h_id, -, -, h_locals⟩ := h.exists_script
  have h_script := h_p.scripts s h_s
  have h_length := h_script.localNames_length
  refine ⟨h_locals ▸ ⟨by omega, h_script.localNames⟩, ?_⟩
  rw [h_id]
  exact h_resolved s h_s

/-- A task is looked up if there is a script under its script id. -/
theorem Task.exists_retitle_iff {p : Program} {t : Task} :
    (∃ t', t.retitle p.scripts = .ok t') ↔ ∃ s, p.script? t.scriptId = some s := by
  unfold retitle Program.script?
  cases ofOrdinal? p.scripts t.scriptId with
  | none => exact iff_of_false (fun ⟨_, h⟩ => nomatch h) (fun ⟨_, h⟩ => nomatch h)
  | some s => exact iff_of_true ⟨_, rfl⟩ ⟨s, rfl⟩

theorem Task.restorable_of_retitle {p : Program} {t t' : Task} (h : t.Restorable p)
    (h_retitle : t.retitle p.scripts = .ok t') : t'.Restorable p := by
  unfold retitle at h_retitle
  split at h_retitle
  · contradiction
  · obtain rfl := Except.ok.inj h_retitle
    exact ⟨h.locals, h.script⟩

theorem exists_mapM_eq_ok_iff {α β ε : Type} {f : α → Except ε β} {as : List α} :
    (∃ bs, as.mapM f = .ok bs) ↔ ∀ a ∈ as, ∃ b, f a = .ok b := by
  induction as with
  | nil => exact iff_of_true ⟨[], rfl⟩ (List.forall_mem_nil _)
  | cons a as ih =>
    rw [List.forall_mem_cons, ← ih, List.mapM_cons]
    constructor
    · rintro ⟨bs, h⟩
      -- One that fails stops the rest, so success of all is success of the first and of the rest.
      cases h_first : f a with
      | error e =>
        rw [h_first] at h
        contradiction
      | ok b =>
        rw [h_first] at h
        cases h_rest : as.mapM f with
        | error e =>
          rw [h_rest] at h
          contradiction
        | ok bs => exact ⟨⟨b, rfl⟩, bs, rfl⟩
    · rintro ⟨⟨b, h_first⟩, bs, h_rest⟩
      rw [h_first, h_rest]
      exact ⟨b :: bs, rfl⟩

/-- A state is put back if there is a script for each task. -/
theorem State.exists_restored_iff {s : State} : (∃ s', s.restored = .ok s') ↔
    ∀ t ∈ s.tasks.toList, ∃ script, s.program.script? t.scriptId = some script := by
  simp only [← Task.exists_retitle_iff]
  -- looking a task up is all that can fail on the way
  rw [← exists_mapM_eq_ok_iff]
  unfold restored
  cases s.tasks.toList.mapM (Task.retitle s.program.scripts) with
  | error e => exact iff_of_false (fun ⟨_, h⟩ => nomatch h) (fun ⟨_, h⟩ => nomatch h)
  | ok tasks => exact iff_of_true ⟨_, rfl⟩ ⟨tasks, rfl⟩

namespace State.Restorable

variable {p : Program}

/-- **Every run keeps a state restorable**, since tasks are only started of scripts. -/
theorem runs {m m' : Machine} (h : m.Restorable p) (h_p : p.Writable) (h_resolved : p.Resolved)
    (h_runs : m.Runs m') : m'.Restorable p where
  program := h_runs.inherits.program.trans h.program
  globals := by
    rw [h_runs.inherits.globals]
    exact h.globals
  tasks t' h_t' := by
    -- a task that was there before keeps its names and its script, a new one has those of a script
    rcases h_runs.inherits.tasks t' h_t' with ⟨t, h_t, h_root⟩ | h_new
    · exact (h.tasks t h_t).of_root h_root
    · exact (h.program ▸ h_new).restorable h_p h_resolved
  focus := h_runs.focus_eq.1.trans h.focus
  running := h_runs.focus_eq.2.trans h.running

theorem beginning (m : Machine) {i : Image} (h_p : i.program.Writable) :
    (m.beginning i).Restorable i.program where
  program := rfl
  globals := by
    have h_length := h_p.globals_length
    rw [(State.Rooted.beginning m i).globals, List.drop_one, List.tail_cons]
    exact ⟨by omega, h_p.globals⟩
  tasks _ h_t := absurd h_t List.not_mem_nil
  focus := rfl
  running := rfl

/-- A checkpoint that was read is of a state that can be saved again. -/
theorem restore {m m' : Machine} {i : Image} (h_i : i.Writable) (h : m.restore i = .ok m') :
    m'.Restorable i.program := by
  unfold Machine.restore at h
  cases h_c : i.checkpoint with
  | none =>
    rw [h_c] at h
    contradiction
  | some c =>
    rw [h_c] at h
    obtain rfl := Except.ok.inj h
    have h_writable := h_i.checkpoint c h_c
    refine ⟨rfl, ?_, fun t h_t => ?_, rfl, rfl⟩
    · exact Text.legible_names h_writable.globals_length h_writable.globals
    · -- the reader has accepted the task, so it has looked up its script
      have h_task := h_writable.tasks t ((TaskTable.ofList_spec c.tasks).1 t h_t)
      obtain ⟨script, h_script, -⟩ := h_task.runs
      exact ⟨Text.legible_names h_task.locals_length h_task.locals, script, h_script⟩

theorem of_restoreBytes {m m' : Machine} {bytes : List UInt8}
    (h : m.restoreBytes bytes = .ok m') : m'.Restorable m'.program := by
  unfold Machine.restoreBytes at h
  cases h_decode : Image.decode bytes with
  | error e =>
    rw [h_decode] at h
    contradiction
  | ok i =>
    rw [h_decode] at h
    have h_m' := restore (Image.writable_of_decode h_decode) (show m.restore i = .ok m' from h)
    rw [h_m'.program]
    exact h_m'

theorem legible {s : State} (h : s.Restorable p) (h_count : s.Countable) {c : Checkpoint}
    (h_c : (s.image true).checkpoint = some c) : c.Legible := by
  obtain rfl := Option.some.inj h_c
  have h_globals := h.globals
  rw [← List.map_drop] at h_globals
  obtain ⟨h_length, h_names⟩ := h_globals.of_names
  refine ⟨h_length, h_names, h_count.tasks, fun t h_t => ?_⟩
  obtain ⟨h_length, h_names⟩ := (h.tasks t h_t).locals.of_names
  exact ⟨h_length, h_names, h_count.handlers t h_t⟩

/-- What was put back can be saved again. -/
theorem of_restored {s s' : State} (h : s.Restorable p) (h_restored : s.restored = .ok s') :
    s'.Restorable p := by
  unfold restored at h_restored
  rw [h.program] at h_restored
  cases h_tasks : s.tasks.toList.mapM (Task.retitle p.scripts) with
  | error e =>
    rw [h_tasks] at h_restored
    contradiction
  | ok tasks =>
    rw [h_tasks] at h_restored
    obtain rfl := Except.ok.inj h_restored
    have h_globals := h.globals
    rw [← List.map_drop] at h_globals
    -- A task that was put back is one that was saved, up to name and file.
    refine ⟨rfl, h_globals, fun t' h_t' => ?_, h.focus, h.running⟩
    obtain ⟨t, h_t, h_retitle⟩ :=
      exists_of_mem_mapM h_tasks ((TaskTable.ofList_spec tasks).1 t' h_t')
    exact Task.restorable_of_retitle (h.tasks t h_t) h_retitle

/-- **What is saved of such a state puts every machine into one.** -/
theorem restoreBytes_save {s : State} (h : s.Restorable p) (h_p : p.Writable)
    (h_count : s.Countable) (m : Machine) :
    ∃ m', m.restoreBytes s.save = .ok m' ∧ m'.Restorable p := by
  -- Every task has a script, so all of them are looked up.
  obtain ⟨s', h_restored⟩ := exists_restored_iff.2 fun t h_t => by
    rw [h.program]
    exact (h.tasks t h_t).script
  rw [Machine.restoreBytes_save m (h.program ▸ h_p) (h.legible h_count) h.focus h.running,
    h_restored]
  exact ⟨_, rfl, h.of_restored h_restored⟩

end State.Restorable

/-- The machine is what ordinary requests come to after the image was loaded, or restored. -/
def Image.Opening (i : Image) (m : Machine) : Prop :=
  ∃ (setting : Setting) (α : Type) (r : Routine α) (m₀ m₁ : Machine) (a : α),
    setting.Ordinary ∧ r.Only Request.Ordinary ∧ (m₁ = m₀.load i ∨ m₀.restore i = .ok m₁) ∧
      Machine.perform setting r m₁ = some (a, m)

theorem Image.Outcome.opening {i : Image} {m : Machine} (h : i.Outcome m) : i.Opening m := by
  obtain ⟨setting, α, r, m₀, a, h_setting, h_routine, h_run⟩ := h
  exact ⟨setting, α, r, m₀, _, a, h_setting, h_routine, .inl rfl, h_run⟩

theorem Image.Opening.restorable {i : Image} {m : Machine} (h : i.Opening m) (h_i : i.Writable)
    (h_resolved : i.program.Resolved) : m.Restorable i.program := by
  obtain ⟨setting, α, r, m₀, m₁, a, h_setting, h_routine, h_source, h_run⟩ := h
  have h_m₁ : m₁.Restorable i.program := by
    -- Loading begins with no task at all; a checkpoint that was accepted has only tasks of scripts.
    rcases h_source with rfl | h_restore
    · exact (State.Restorable.beginning m₀ h_i.program).runs h_i.program h_resolved
        (Machine.runs_load m₀ i)
    · exact .restore h_i h_restore
  exact h_m₁.runs h_i.program h_resolved (Machine.runs_perform h_setting h_routine h_run)

end ScriptMachine
