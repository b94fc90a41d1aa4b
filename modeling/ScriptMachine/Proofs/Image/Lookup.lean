import ScriptMachine.Proofs.Image.Truncation

/-!
# Tasks whose script is looked up

The name and the file of a task are not written down. Where a task is read, they are those of the
script that its script id stands for in the table of the program, and the task is refused if the id
stands for none. So what was written of a task that does not run this script is not read as it was,
and not always read at all:

* `Image.decode_encode_of_legible` : an image whose fields fit their places is read back with every
  task `Task.retitle`d, or refused for the first task that has no script.

That is more than the round trip says, which is about the images that come back unchanged. Their
tasks run the scripts that they are given (`Task.retitle_of_runs`).

Until the lookup, the readers take what the writers wrote, one field after the other (`word_takes`
and its companions). `word_bind` and the like say so in the form in which a chain of binds meets a
chain of bytes.
-/

namespace ScriptMachine

/-! ### Looking scripts up -/

/-- The task with the name and the file of the script that its script id stands for. -/
def Task.retitle (scripts : List Script) (t : Task) : Except LoadError Task :=
  match ofOrdinal? scripts t.scriptId with
  | none => .error (.unknownScript t.id t.scriptId)
  | some script => .ok { t with name := script.name, file := script.file }

/-- The checkpoint with every task retitled. The first task without a script is reported. -/
def Checkpoint.retitle (scripts : List Script) (c : Checkpoint) : Except LoadError Checkpoint :=
  return { c with tasks := ← c.tasks.mapM (Task.retitle scripts) }

theorem Task.retitle_of_runs {t : Task} {scripts : List Script} (h : t.Runs scripts) :
    t.retitle scripts = .ok t := by
  obtain ⟨script, h_script, h_name, h_file⟩ := h
  unfold retitle
  rw [h_script]
  dsimp only
  rw [← h_name, ← h_file]

theorem mapM_retitle {tasks : List Task} {scripts : List Script}
    (h : ∀ t ∈ tasks, t.Runs scripts) : tasks.mapM (Task.retitle scripts) = .ok tasks := by
  induction tasks with
  | nil => rfl
  | cons t rest ih =>
    rw [List.mapM_cons, Task.retitle_of_runs (h t List.mem_cons_self),
      ih fun u h_u => h u (List.mem_cons_of_mem t h_u)]
    rfl

/-- The fields of the task fit their places, whatever script it runs. -/
structure Task.Legible (t : Task) : Prop where
  locals_length : t.locals.length < 2 ^ 32
  locals : ∀ v ∈ t.locals, Text.NulFree v.name
  handlers_length : t.handlers.length < 2 ^ 32

/-- The fields of the checkpoint fit their places, whatever scripts its tasks run. -/
structure Checkpoint.Legible (c : Checkpoint) : Prop where
  globals_length : c.globals.length < 2 ^ 32
  globals : ∀ v ∈ c.globals, Text.NulFree v.name
  tasks_length : c.tasks.length < 2 ^ 32
  tasks : ∀ t ∈ c.tasks, t.Legible

namespace Reader

variable {α β : Type}

/-! ### Fields that were written -/

theorem word_takes (field : String) (w : UInt32) : (word field).Takes (Writer.word w) w :=
  (word_prompt field).takes (word_reads field) ⟨_, rfl, rfl⟩

theorem flag_takes (field : String) (b : Bool) : (flag field).Takes (Writer.flag b) b :=
  (flag_prompt field).takes (flag_reads field) ((Writes.flag b).exists_mem Form.nonempty_flag)

theorem stack_takes (s : Stack) : stack.Takes (Writer.stack s) s :=
  stack_prompt.takes stack_reads ⟨_, rfl, rfl⟩

theorem variableTable_takes (field : String) {slots : List Variable}
    (h_length : slots.length < 2 ^ 32) (h_names : ∀ v ∈ slots, Text.NulFree v.name) :
    (variableTable field).Takes (Writer.table Writer.variableSlot slots) slots := by
  have h_nonempty : (Form.table Form.variableSlot slots).Nonempty := by
    refine Form.nonempty_table.2 ⟨h_length, fun v h_v => ?_⟩
    exact Form.nonempty_append.2 ⟨by simp, Form.nonempty_text.2 (h_names v h_v)⟩
  exact (variableTable_prompt field).takes (variableTable_reads field)
    ((Writes.table Writes.variableSlot slots).exists_mem h_nonempty)

theorem words_takes (field : String) {words : List UInt32} {count : Nat}
    (h : words.length = count) :
    (entries count (word field)).Takes (words.flatMap Writer.word) words :=
  (entries_prompt (word_prompt field) count).takes_all
    ((entries_eq_ok_iff (word_reads field)).2
      ⟨h, Form.splits_entries_word.2 (List.append_nil _).symm⟩)

theorem word_bind (field : String) (next : UInt32 → Reader β) (w : UInt32) (rest : List UInt8) :
    (word field >>= next) (Writer.word w ++ rest) = next w rest :=
  bind_eq_next ((word_takes field w).ok rest)

theorem flag_bind (field : String) (next : Bool → Reader β) (b : Bool) (rest : List UInt8) :
    (flag field >>= next) (Writer.flag b ++ rest) = next b rest :=
  bind_eq_next ((flag_takes field b).ok rest)

theorem stack_bind (next : Stack → Reader β) (s : Stack) (rest : List UInt8) :
    (stack >>= next) (Writer.stack s ++ rest) = next s rest :=
  bind_eq_next ((stack_takes s).ok rest)

theorem variableTable_bind (field : String) (next : List Variable → Reader β)
    {slots : List Variable} (h_length : slots.length < 2 ^ 32)
    (h_names : ∀ v ∈ slots, Text.NulFree v.name) (rest : List UInt8) :
    (variableTable field >>= next) (Writer.table Writer.variableSlot slots ++ rest) =
      next slots rest :=
  bind_eq_next ((variableTable_takes field h_length h_names).ok rest)

/-- Entries that were written are read one by one, up to the first that is refused. -/
theorem entriesFrom_append {entry : Reader α} {write : β → List UInt8}
    {read : β → Except LoadError α} (index : Nat) (members : List β)
    (h_entry : ∀ b ∈ members, ∀ rest, entry (write b ++ rest) = (read b).map fun a => (a, rest))
    (rest : List UInt8) :
    entriesFrom (fun _ => entry) index members.length (members.flatMap write ++ rest) =
      (members.mapM read).map fun as => (as, rest) := by
  induction members generalizing index with
  | nil => rfl
  | cons b members ih =>
    -- By induction on the members, with any place in the table and any bytes behind them: the first
    -- is read up to where the others begin.
    have h_b := h_entry b List.mem_cons_self (members.flatMap write ++ rest)
    have h_members := ih (index + 1) fun c h_c => h_entry c (List.mem_cons_of_mem b h_c)
    rw [List.flatMap_cons, List.append_assoc, List.length_cons, List.mapM_cons]
    unfold entriesFrom
    cases h_read : read b with
    | error e =>
      -- What is behind an entry that is refused is not looked at.
      rw [h_read] at h_b
      exact bind_eq_error h_b
    | ok a =>
      rw [h_read] at h_b
      rw [bind_eq_next h_b]
      cases h_rest : members.mapM read with
      | error e =>
        rw [h_rest] at h_members
        exact bind_eq_error h_members
      | ok as =>
        rw [h_rest] at h_members
        exact bind_eq_next h_members

/-- A table that is not too long for its length is read member by member. -/
theorem entries_append {entry : Reader α} {write : β → List UInt8} {read : β → Except LoadError α}
    {members : List β} (h_length : members.length < 2 ^ 32)
    (h_entry : ∀ b ∈ members, ∀ rest, entry (write b ++ rest) = (read b).map fun a => (a, rest))
    (rest : List UInt8) :
    entries (UInt32.ofNat members.length).toNat entry (members.flatMap write ++ rest) =
      (members.mapM read).map fun as => (as, rest) := by
  rw [UInt32.toNat_ofNat_of_lt' h_length]
  exact entriesFrom_append 0 members h_entry rest

theorem words_bind (field : String) (next : List UInt32 → Reader β) {words : List UInt32}
    (h_length : words.length < 2 ^ 32) (rest : List UInt8) :
    (entries (UInt32.ofNat words.length).toNat (word field) >>= next)
      (words.flatMap Writer.word ++ rest) = next words rest :=
  bind_eq_next ((words_takes field (UInt32.toNat_ofNat_of_lt' h_length).symm).ok rest)

/-! ### Tasks and checkpoints that were written -/

/-- **A task is retitled** when it is read, for better or worse. -/
theorem task_append (scripts : List Script) {t : Task} (h : t.Legible) (rest : List UInt8) :
    task scripts (Writer.task t ++ rest) = (t.retitle scripts).map fun t' => (t', rest) := by
  unfold Writer.task task
  simp only [List.append_assoc]
  rw [variableTable_bind _ _ h.locals_length h.locals]
  simp only [word_bind, flag_bind, stack_bind]
  unfold Writer.table
  rw [List.append_assoc, word_bind, words_bind _ _ h.handlers_length]
  unfold Task.retitle
  -- Everything has been read by now, and only the look-up of the script can refuse it.
  cases ofOrdinal? scripts t.scriptId with
  | none => rfl
  | some script => rfl

theorem checkpoint_append (scripts : List Script) {c : Checkpoint} (h : c.Legible)
    (rest : List UInt8) :
    checkpoint scripts (Writer.checkpoint c ++ rest) =
      (c.retitle scripts).map fun c' => (c', rest) := by
  have h_tasks := entries_append h.tasks_length fun t h_t => task_append scripts (h.tasks t h_t)
  unfold Writer.checkpoint checkpoint
  simp only [List.append_assoc]
  rw [stack_bind, variableTable_bind _ _ h.globals_length h.globals]
  unfold Writer.table
  rw [List.append_assoc, word_bind]
  unfold Checkpoint.retitle
  cases h_read : c.tasks.mapM (Task.retitle scripts) with
  | error e =>
    -- A task without a script ends the reading of the table, so the counters are not reached.
    rw [h_read] at h_tasks
    exact bind_eq_error (h_tasks _)
  | ok tasks =>
    rw [h_read] at h_tasks
    rw [bind_eq_next (h_tasks _)]
    simp only [word_bind]
    rfl

end Reader

/-! ### Images that were written -/

theorem Writer.checkpoint_ne_nil (c : Checkpoint) : Writer.checkpoint c ≠ [] := by
  simp [Writer.checkpoint, Writer.stack, Writer.word]

namespace Image

/-- **What becomes of a checkpoint that was written.** Every task is retitled, and all else is read
as it was. If a task has no script, all of the image is refused. -/
theorem decode_encode_of_legible {i : Image} (h_program : i.program.Writable) {c : Checkpoint}
    (h_c : i.checkpoint = some c) (h : c.Legible) :
    decode i.encode =
      (c.retitle i.program.scripts).map fun c' => { i with checkpoint := some c' } := by
  -- what can be written of the program does not depend on the tasks
  have h_bare : i.bare.Writable := ⟨h_program, fun _ h_none => by contradiction⟩
  have h_takes : Reader.program.Takes (Writer.program i.program) i.program := h_bare.takes_program
  have h_read := Reader.checkpoint_append i.program.scripts h []
  rw [List.append_nil] at h_read
  rw [encode_eq h_c, encode_bare, decode_of_program (h_takes.ok _) (Writer.checkpoint_ne_nil c),
    h_read]
  cases c.retitle i.program.scripts with
  | error e => rfl
  | ok c' => rfl

end Image

end ScriptMachine
