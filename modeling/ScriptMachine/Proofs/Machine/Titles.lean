import ScriptMachine.Proofs.Machine.SaveRestore

/-!
# Tasks that are saved under the id of another script

A task keeps the id that its script has in the program (`Task.start`), but a save file is read with
the ids taken for ordinals of the script table (`Task.retitle`). Nothing that reads a program holds
the two together: ids are words of the file like any others. So a program may be loaded and run, and
what is saved of it is refused, or comes back with tasks that have the names of other scripts.

`Image.restore_titles` says exactly when. A save file is read back up to the lookup of the scripts,
and keeps the titles of all tasks if and only if every task runs a script in the sense of the reader
(`Task.Runs`). That is so after every run of an image exactly if its program is `Program.Titled`,
that is, if the id of each script is the ordinal of one with the same name and the same file.
Programs with scripts that are numbered in their order are among them. For all others it is enough
to start the script in question (`Image.exists_outcome`).
-/

namespace ScriptMachine

/-! ### Titles -/

/-- What a task says about its script. -/
def Task.title (t : Task) : UInt32 × String × String := (t.scriptId, t.name, t.file)

/-- The same tasks are live, and say the same about their scripts. -/
def State.SameTitles (s s' : State) : Prop :=
  ∀ id, (s'.tasks.find? id).map Task.title = (s.tasks.find? id).map Task.title

/-- The machine is what ordinary requests come to after the image was loaded. -/
def Image.Outcome (i : Image) (m : Machine) : Prop :=
  ∃ (setting : Setting) (α : Type) (r : Routine α) (m₀ : Machine) (a : α),
    setting.Ordinary ∧ r.Only Request.Ordinary ∧
      Machine.perform setting r (m₀.load i) = some (a, m)

theorem Task.runs_of_retitle {t t' : Task} {scripts : List Script}
    (h : t.retitle scripts = .ok t') (h_title : t'.title = t.title) : t.Runs scripts := by
  unfold retitle at h
  cases h_script : ofOrdinal? scripts t.scriptId with
  | none =>
    rw [h_script] at h
    contradiction
  | some script =>
    rw [h_script] at h
    obtain rfl := Except.ok.inj h
    -- what was looked up is what the task had
    obtain ⟨h_name, h_file⟩ := Prod.mk.inj (Prod.mk.inj h_title).2
    exact ⟨script, h_script, h_name.symm, h_file.symm⟩

theorem Task.id_of_retitle {t t' : Task} {scripts : List Script}
    (h : t.retitle scripts = .ok t') : t'.id = t.id := by
  unfold retitle at h
  split at h
  · contradiction
  · obtain rfl := Except.ok.inj h
    rfl

theorem exists_of_mem_mapM {α β ε : Type} {f : α → Except ε β} {as : List α} {bs : List β}
    (h : as.mapM f = .ok bs) {b : β} (h_b : b ∈ bs) : ∃ a ∈ as, f a = .ok b := by
  induction as generalizing bs with
  | nil =>
    obtain rfl := Except.ok.inj h
    contradiction
  | cons a as ih =>
    rw [List.mapM_cons] at h
    cases h_first : f a with
    | error e =>
      rw [h_first] at h
      contradiction
    | ok first =>
      rw [h_first] at h
      cases h_rest : as.mapM f with
      | error e =>
        rw [h_rest] at h
        contradiction
      | ok rest =>
        rw [h_rest] at h
        obtain rfl := Except.ok.inj h
        -- it comes from the first member or from one of the rest
        rcases List.mem_cons.1 h_b with rfl | h_b
        · exact ⟨a, List.mem_cons_self, h_first⟩
        · obtain ⟨a', h_mem, h_a'⟩ := ih h_rest h_b
          exact ⟨a', List.mem_cons_of_mem a h_mem, h_a'⟩

/-- **What a save file keeps.** The titles come back exactly if every task finds a script with its
name and its file. -/
theorem State.restored_sameTitles_iff (s : State) :
    (∃ s', s.restored = .ok s' ∧ s.SameTitles s') ↔
      ∀ t ∈ s.tasks.toList, t.Runs s.program.scripts := by
  unfold restored
  constructor
  · rintro ⟨s', h_restored, h_same⟩ t h_t
    cases h_tasks : s.tasks.toList.mapM (Task.retitle s.program.scripts) with
    | error e =>
      rw [h_tasks] at h_restored
      contradiction
    | ok tasks =>
      rw [h_tasks] at h_restored
      obtain rfl := Except.ok.inj h_restored
      have h_find : s.tasks.find? t.id = some t := TaskTable.find?_eq_some_iff.2 ⟨h_t, rfl⟩
      have h_title := h_same t.id
      rw [h_find, Option.map_some, Option.map_eq_some_iff] at h_title
      obtain ⟨t', h_t', h_title⟩ := h_title
      obtain ⟨h_mem, h_id⟩ := TaskTable.find?_eq_some_iff.1 h_t'
      -- the task with this id was read from the one that was saved
      have h_t'_mem : t' ∈ tasks := (TaskTable.ofList_spec tasks).1 t' h_mem
      obtain ⟨u, h_u, h_read⟩ := exists_of_mem_mapM h_tasks h_t'_mem
      have h_same_id : u.id = t.id := (Task.id_of_retitle h_read).symm.trans h_id
      obtain rfl := TaskTable.eq_of_id_eq h_u h_t h_same_id
      exact Task.runs_of_retitle h_read h_title
  · -- every lookup gives what the task has, so the table is the same
    intro h_runs
    rw [mapM_retitle h_runs]
    refine ⟨_, rfl, fun id => ?_⟩
    dsimp only
    rw [TaskTable.ofList_toList]

/-! ### After a run -/

namespace Image

variable {bytes : List UInt8} {i : Image} {m : Machine}

theorem Outcome.exists_runs (h : i.Outcome m) : ∃ m₀ : Machine, (m₀.beginning i).Runs m := by
  obtain ⟨setting, α, r, m₀, a, h_setting, h_routine, h_run⟩ := h
  exact ⟨m₀, (Machine.runs_load m₀ i).trans (Machine.runs_perform h_setting h_routine h_run)⟩

theorem Outcome.rooted (h : i.Outcome m) : m.Rooted i.program := by
  obtain ⟨m₀, h_runs⟩ := h.exists_runs
  exact (State.Rooted.beginning m₀ i).runs h_runs

theorem Outcome.restoreBytes_save (h : i.Outcome m) (h_decode : decode bytes = .ok i)
    (h_count : m.Countable) (m₁ : Machine) :
    m₁.restoreBytes m.save = m.toState.restored.map fun s => { m₁ with toState := s } := by
  obtain ⟨m₀, h_runs⟩ := h.exists_runs
  -- what was read can be written
  have h_program := (writable_of_decode h_decode).program
  -- the focus is where it was when the program was loaded
  exact Machine.restoreBytes_save m₁ (h.rooted.program ▸ h_program)
    (h.rooted.legible h_program h_count) h_runs.focus_eq.1 h_runs.focus_eq.2

theorem Outcome.sameTitles_iff (h : i.Outcome m) (h_decode : decode bytes = .ok i)
    (h_count : m.Countable) (m₁ : Machine) :
    (∃ m', m₁.restoreBytes m.save = .ok m' ∧ m.SameTitles m'.toState) ↔
      ∀ t ∈ m.tasks.toList, t.Runs i.program.scripts := by
  rw [← h.rooted.program, ← State.restored_sameTitles_iff, h.restoreBytes_save h_decode h_count m₁]
  cases m.toState.restored with
  | error e => exact ⟨fun ⟨_, h_ok, _⟩ => by contradiction, fun ⟨_, h_ok, _⟩ => by contradiction⟩
  | ok s =>
    constructor
    · rintro ⟨m', h_ok, h_same⟩
      obtain rfl := Except.ok.inj h_ok
      exact ⟨s, rfl, h_same⟩
    · rintro ⟨s', h_ok, h_same⟩
      obtain rfl := Except.ok.inj h_ok
      exact ⟨_, rfl, h_same⟩

end Image

/-! ### Starting a script -/

/-- So many tasks at most, and none of them has a handler yet. -/
structure State.Early (s : State) (bound : Nat) : Prop where
  size : s.tasks.size ≤ bound
  handlers : ∀ t ∈ s.tasks.toList, t.handlers = []

namespace State.Early

variable {m m' : Machine} {bound : Nat}

theorem exchange (h : m.Early bound) (h_exchange : m.Exchange m') : m'.Early bound := by
  cases h_exchange with
  | tell => exact h
  | restack =>
    unfold Machine.setStack
    -- another stack brings neither handlers nor tasks with it
    split
    · exact ⟨h.size, h.handlers⟩
    · refine ⟨(Nat.le_of_eq (List.length_map _)).trans h.size, fun t h_t => ?_⟩
      obtain ⟨u, h_u, rfl⟩ := TaskTable.mem_map_iff.1 h_t
      dsimp only
      split <;> exact h.handlers u h_u

theorem exchanges (h : m.Early bound) (h_exchanges : m.Exchanges m') : m'.Early bound := by
  induction h_exchanges with
  | refl => exact h
  | tail _ h_exchange ih => exact ih.exchange h_exchange

theorem spawn (h : m.Early bound) (script : Script) : (m.spawn script).2.Early (bound + 1) := by
  obtain ⟨m₁, s, h_exchanges, -, h_spawn⟩ := Machine.spawn_spec m script
  have h_taken : m.takeId.Early bound := ⟨h.size, h.handlers⟩
  obtain ⟨h_size, h_handlers⟩ := h_taken.exchanges h_exchanges
  rw [h_spawn]
  refine ⟨?_, fun t h_t => ?_⟩
  · exact (TaskTable.size_insert_le m₁.tasks _).trans (Nat.succ_le_succ h_size)
  · -- the new task begins without handlers
    rcases TaskTable.mem_insert h_t with rfl | h_t
    · rfl
    · exact h_handlers t h_t

theorem start (h : m.Early bound) (script : UInt32) : (m.start script).2.Early (bound + 1) := by
  unfold Machine.start
  split
  · exact h.spawn _
  · exact ⟨Nat.le_succ_of_le h.size, h.handlers⟩

/-- Loading starts no more tasks than the program asks for. -/
theorem load (m : Machine) (i : Image) : (m.load i).Early i.program.autostart.length := by
  -- each start adds one task at most, and loading starts from none
  have h_from (scripts : List UInt32) (m : Machine) (bound : Nat) (h : m.Early bound) :
      (scripts.foldl (fun m script => (m.start script).2) m).Early (bound + scripts.length) := by
    induction scripts generalizing m bound with
    | nil => exact h
    | cons script scripts ih =>
      have h_rest := ih _ (bound + 1) (h.start script)
      rwa [Nat.add_right_comm] at h_rest
  have h_beginning : (m.beginning i).Early 0 :=
    ⟨Nat.le_refl 0, fun t h_t => absurd h_t List.not_mem_nil⟩
  have h_load := h_from i.program.autostart _ 0 h_beginning
  rwa [Nat.zero_add] at h_load

theorem countable (h : m.Early bound) (h_bound : bound < 2 ^ 32) : m.Countable where
  tasks := Nat.lt_of_le_of_lt h.size h_bound
  handlers t h_t := by
    rw [h.handlers t h_t]
    decide

end State.Early

/-- Every member of a list that is not too long has an ordinal. -/
theorem exists_ofOrdinal? {α : Type} {members : List α} {a : α} (h_a : a ∈ members)
    (h_length : members.length < 2 ^ 32) : ∃ ordinal, ofOrdinal? members ordinal = some a := by
  obtain ⟨k, h_k⟩ := List.mem_iff_getElem?.1 h_a
  obtain ⟨h_lt, -⟩ := List.getElem?_eq_some_iff.1 h_k
  -- ordinals begin with one
  have h_small : k + 1 < 2 ^ 32 := by omega
  have h_toNat : (UInt32.ofNat (k + 1)).toNat = k + 1 := UInt32.toNat_ofNat_of_lt' h_small
  have h_ne : UInt32.ofNat (k + 1) ≠ 0 := by
    intro h_zero
    rw [h_zero] at h_toNat
    contradiction
  refine ⟨UInt32.ofNat (k + 1), ?_⟩
  unfold ofOrdinal?
  rw [if_neg h_ne, h_toNat]
  exact h_k

namespace Image

variable {bytes : List UInt8} {i : Image}

/-- Every script can be started, and then a task has its title. -/
theorem exists_outcome (h_decode : decode bytes = .ok i) {s : Script}
    (h_s : s ∈ i.program.scripts) : ∃ m, i.Outcome m ∧ m.Countable ∧
      ∃ t ∈ m.tasks.toList, t.title = (s.id, s.name, s.file) := by
  have h_writable := (writable_of_decode h_decode).program
  have h_autostart := h_writable.autostart_length
  have h_program : (Machine.load {} i).program = i.program :=
    ((State.Rooted.beginning {} i).runs (Machine.runs_load {} i)).program
  obtain ⟨ordinal, h_ordinal⟩ := exists_ofOrdinal? h_s (by have := h_writable.scripts_length; omega)
  have h_start : (Machine.load {} i).start ordinal = (Machine.load {} i).spawn s := by
    unfold Machine.start Program.script?
    rw [h_program, h_ordinal]
  -- at most as many tasks as were asked for, and this one
  have h_early := (State.Early.load {} i).spawn s
  obtain ⟨stack, h_new⟩ := (Machine.began_spawn (Machine.load {} i) s).new
  refine ⟨((Machine.load {} i).spawn s).2, ?_, h_early.countable (by omega), _,
    TaskTable.mem_of_find? h_new, rfl⟩
  refine ⟨plainSetting, UInt32, .request (.start ordinal), {}, ((Machine.load {} i).spawn s).1,
    fun _ h => absurd h List.not_mem_nil, ⟨trivial, fun _ => trivial⟩, ?_⟩
  rw [← h_start]
  rfl

/-- **What can be saved and restored.** Take any machine that was loaded from an accepted image and
has carried out ordinary requests since, with tasks and handlers that can be counted with 32 bits.
What is saved of it is read back with every task's name and file looked up under its script id, and
is refused if there is no script under one of them. So every task comes back with its title exactly
if each one finds a script with its name and file. All machines that the image can come to are
restored in this way if and only if the id of each of its scripts stands for a script with the same
name and file, for example if the scripts are numbered by their ordinals. -/
theorem restore_titles (h_decode : decode bytes = .ok i) :
    (∀ m : Machine, i.Outcome m → m.Countable → ∀ m₁ : Machine,
      m₁.restoreBytes m.save = m.toState.restored.map (fun s => { m₁ with toState := s }) ∧
      ((∃ m', m₁.restoreBytes m.save = .ok m' ∧ m.SameTitles m'.toState) ↔
        ∀ t ∈ m.tasks.toList, t.Runs i.program.scripts)) ∧
    ((∀ m : Machine, i.Outcome m → m.Countable → ∀ m₁ : Machine,
      ∃ m', m₁.restoreBytes m.save = .ok m' ∧ m.SameTitles m'.toState) ↔ i.program.Titled) ∧
    (i.program.Numbered → i.program.Titled) := by
  refine ⟨fun m h_outcome h_count m₁ => ⟨?_, ?_⟩, ⟨fun h_kept s h_s => ?_, ?_⟩,
    Program.Numbered.titled⟩
  · exact h_outcome.restoreBytes_save h_decode h_count m₁
  · exact h_outcome.sameTitles_iff h_decode h_count m₁
  · -- the script can be started, and what is saved then has to be found again
    obtain ⟨m, h_outcome, h_count, t, h_t, h_title⟩ := exists_outcome h_decode h_s
    have h_runs := (h_outcome.sameTitles_iff h_decode h_count {}).1 (h_kept m h_outcome h_count {})
    obtain ⟨s', h_found, h_name, h_file⟩ := h_runs t h_t
    obtain ⟨h_id, h_title⟩ := Prod.mk.inj h_title
    obtain ⟨h_name', h_file'⟩ := Prod.mk.inj h_title
    exact ⟨s', h_id ▸ h_found, h_name' ▸ h_name, h_file' ▸ h_file⟩
  · intro h_titled m h_outcome h_count m₁
    exact (h_outcome.sameTitles_iff h_decode h_count m₁).2 fun t h_t =>
      h_outcome.rooted.task_runs h_titled h_t

end Image

/-! ### A script with the id of no script -/

/-- A program with one script, which is started by itself and has the id 5. -/
def strayImage : Image :=
  { program := {
      code := [⟨.finish, 0, .untyped, 0, 0⟩]
      autostart := [1]
      scripts := [⟨"Main", "main.chl", .script, 0, [], 0, 0, 5⟩] } }

def strayMachine : Machine := Machine.load {} strayImage

theorem decode_strayImage : Image.decode strayImage.encode = .ok strayImage := by decide +kernel

theorem strayImage_outcome : strayImage.Outcome strayMachine :=
  ⟨plainSetting, Unit, .done (), {}, (), fun _ h => absurd h List.not_mem_nil, trivial, rfl⟩

theorem strayMachine_countable : strayMachine.Countable := ⟨by decide +kernel, by decide +kernel⟩

/-- The task runs, but what is saved of it leads to no script. -/
theorem restore_titles_stray :
    Image.decode strayImage.encode = .ok strayImage ∧ strayImage.Outcome strayMachine ∧
    strayMachine.Countable ∧
    strayMachine.tasks.toList.map Task.title = [(5, "Main", "main.chl")] ∧
    (∀ m₁ : Machine, m₁.restoreBytes strayMachine.save = .error (.unknownScript 1 5)) ∧
    ¬ strayImage.program.Titled := by
  obtain ⟨h_restored, h_titled, -⟩ := Image.restore_titles decode_strayImage
  have h_stray := h_restored strayMachine strayImage_outcome strayMachine_countable
  have h_refused : strayMachine.toState.restored = .error (.unknownScript 1 5) := by decide +kernel
  have h_error (m₁ : Machine) :
      m₁.restoreBytes strayMachine.save = .error (.unknownScript 1 5) := by
    rw [(h_stray m₁).1, h_refused]
    rfl
  refine ⟨decode_strayImage, strayImage_outcome, strayMachine_countable, by decide +kernel, h_error,
    fun h => ?_⟩
  -- if its titles were in order, it would have been put back
  obtain ⟨m', h_ok, -⟩ := h_titled.2 h strayMachine strayImage_outcome strayMachine_countable {}
  rw [h_error] at h_ok
  contradiction

/-- Not all that can be saved can be restored, however few tasks there are. -/
theorem not_restored_stray :
    Machine.restoreBytes {} strayMachine.save = .error (.unknownScript 1 5) ∧
    ¬ ∀ (bytes : List UInt8) (i : Image) (m m₁ : Machine), Image.decode bytes = .ok i →
      i.Outcome m → m.Countable →
        ∃ m', m₁.restoreBytes m.save = .ok m' ∧ m.SameTitles m'.toState := by
  have h_error : Machine.restoreBytes {} strayMachine.save = .error (.unknownScript 1 5) := by
    decide +kernel
  refine ⟨h_error, fun h => ?_⟩
  obtain ⟨m', h_ok, -⟩ := h _ strayImage strayMachine {} decode_strayImage strayImage_outcome
    strayMachine_countable
  simp only [h_error, reduceCtorEq] at h_ok

end ScriptMachine
