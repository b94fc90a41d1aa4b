import ScriptMachine.Proofs.Image.Metered
import ScriptMachine.Proofs.Image.Room

/-!
# Tables are no longer than the file

The length of a table is a number in the file, and nothing keeps a file from announcing two billion
entries and ending behind the second one. A reader does not get further than the bytes do:

* `Image.tables_within` : what is decoded takes no more room than the file, added up over all
  tables, and no table gets more entries than the file has bytes, whether the file is accepted or
  not.

What bounds a table is that each of its entries takes a byte at least (`Reader.Hungry`), so that the
entries that were read are no more than the bytes that were there. And the bytes that are there for
a table inside of another are what the fields before it have left over, never more than the file.

`Metered.Sound` carries that along the binds of the metered readers, together with the tallies that
a reader gives when it succeeds. These are all the tables of what is read (`Image.tallies`), so no
table goes without a tally.
-/

namespace ScriptMachine

namespace Reader

variable {α β : Type}

/-! ### Readers that take something -/

/-- The reader takes a byte at least, whenever it succeeds. -/
def Hungry (r : Reader α) : Prop :=
  ∀ input a rest, r input = .ok (a, rest) → rest.length < input.length

theorem Reads.hungry {r : Reader α} {F : α → Form} (h : r.Reads F)
    (h_size : ∀ a, (F a).AtLeast 1) : r.Hungry := by
  intro input a rest h_ok
  obtain ⟨p, hp, rfl⟩ := h.iff.1 h_ok
  have h_le := h_size a p hp
  rw [List.length_append]
  omega

theorem Prompt.length_le {r : Reader α} (h : r.Prompt) {input rest : List UInt8} {a : α}
    (h_ok : r input = .ok (a, rest)) : rest.length ≤ input.length := by
  obtain ⟨taken, -, rfl⟩ := h input a rest h_ok
  rw [List.length_append]
  exact Nat.le_add_left _ _

theorem Hungry.bind {r : Reader α} {next : α → Reader β} (hr : r.Hungry)
    (h_next : ∀ a, (next a).Prompt) : (r >>= next).Hungry := by
  intro input b rest h
  obtain ⟨a, mid, h_a, h_b⟩ := bind_eq_ok_iff.1 h
  exact Nat.lt_of_le_of_lt ((h_next a).length_le h_b) (hr input a mid h_a)

theorem word_hungry (field : String) : (word field).Hungry :=
  (word_reads field).hungry fun w => (Form.atLeast_word w).mono (by decide)

theorem text_hungry (field : String) : (text field).Hungry :=
  (text_reads field).hungry Form.atLeast_text

theorem instruction_hungry (index : Nat) : (instruction index).Hungry :=
  (instruction_reads index).hungry fun i => (Form.atLeast_instruction i).mono (by decide)

theorem script_hungry : script.Hungry :=
  script_reads.hungry fun s => (Form.atLeast_script s).mono (by omega)

theorem variableSlot_hungry : variableSlot.Hungry :=
  variableSlot_reads.hungry fun v => (Form.atLeast_variableSlot v).mono (by decide)

theorem task_hungry (scripts : List Script) : (task scripts).Hungry :=
  (task_reads scripts).hungry fun t => (Form.atLeast_task scripts t).mono (by omega)

/-! ### How far a table gets -/

section

variable {entry : Nat → Reader α} {index count : Nat} {input : List UInt8}

/-- The entries that are read before one is refused are those of a shorter table that is
complete. -/
theorem exists_entriesFrom_completed (entry : Nat → Reader α) (index count : Nat)
    (input : List UInt8) : ∃ members rest,
      entriesFrom entry index (completed entry index count input) input = .ok (members, rest) := by
  -- on the entries that are still to be read, up to the first that is refused
  induction count generalizing index input with
  | zero => exact ⟨[], input, rfl⟩
  | succ count ih =>
    unfold completed
    cases h : entry index input with
    | error e => exact ⟨[], input, rfl⟩
    | ok x =>
      obtain ⟨members, rest, h_later⟩ := ih (index + 1) x.2
      refine ⟨x.1 :: members, rest, bind_eq_ok_iff.2 ⟨x.1, x.2, h, ?_⟩⟩
      exact bind_eq_ok_iff.2 ⟨members, rest, h_later, rfl⟩

theorem completed_le : completed entry index count input ≤ count := by
  induction count generalizing index input with
  | zero => exact Nat.le_refl 0
  | succ count ih =>
    unfold completed
    split
    · exact Nat.zero_le _
    · exact Nat.succ_le_succ ih

theorem completed_of_ok {x : List α × List UInt8}
    (h : entriesFrom entry index count input = .ok x) :
    completed entry index count input = count := by
  -- on the entries, none of which was refused
  induction count generalizing index input x with
  | zero => rfl
  | succ count ih =>
    obtain ⟨first, mid, h_first, h_rest⟩ := bind_eq_ok_iff.1 h
    obtain ⟨later, _, h_later, -⟩ := bind_eq_ok_iff.1 h_rest
    unfold completed
    rw [h_first]
    exact congrArg (· + 1) (ih h_later)

/-- A table that is complete has no more entries than there were bytes. -/
theorem length_le_of_entriesFrom (h : ∀ index, (entry index).Hungry) {members : List α}
    {rest : List UInt8} (h_ok : entriesFrom entry index count input = .ok (members, rest)) :
    count + rest.length ≤ input.length := by
  induction count generalizing index input members with
  | zero =>
    obtain ⟨-, rfl⟩ := pure_eq_ok_iff.1 h_ok
    omega
  | succ count ih =>
    obtain ⟨first, mid, h_first, h_rest⟩ := bind_eq_ok_iff.1 h_ok
    obtain ⟨later, _, h_later, h_pure⟩ := bind_eq_ok_iff.1 h_rest
    obtain ⟨-, rfl⟩ := pure_eq_ok_iff.1 h_pure
    -- the first entry takes a byte, and the rest are as many as the bytes that it leaves
    have h_lt := h index input first mid h_first
    have h_le := ih h_later
    omega

theorem completed_le_length (h : ∀ index, (entry index).Hungry) :
    completed entry index count input ≤ input.length := by
  -- what was completed is a table of its own, and that table is complete
  obtain ⟨members, rest, h_ok⟩ := exists_entriesFrom_completed entry index count input
  have h_le := length_le_of_entriesFrom h h_ok
  omega

end

end Reader

/-! ### The tables of an image -/

/-- The tally of a table that got all its entries. -/
def Tally.full (kind : Table) (count : Nat) : Tally := ⟨kind, count, count⟩

def Script.tallies (s : Script) : List Tally := [.full .localNames s.localNames.length]

def Program.tallies (p : Program) : List Tally :=
  [.full .globals p.globals.length, .full .code p.code.length,
      .full .autostart p.autostart.length]
    ++ p.scripts.flatMap Script.tallies
    ++ [.full .scripts p.scripts.length, .full .data p.data.length]

def Stack.tallies (s : Stack) : List Tally := [.full .payloads s.size, .full .tags s.size]

def Task.tallies (t : Task) : List Tally :=
  [.full .variables t.locals.length] ++ t.stack.tallies ++ [.full .handlers t.handlers.length]

def Checkpoint.tallies (c : Checkpoint) : List Tally :=
  c.stack.tallies ++ [.full .variables c.globals.length] ++ c.tasks.flatMap Task.tallies
    ++ [.full .tasks c.tasks.length]

/-- The tallies of all tables of an image, in the order in which they end. -/
def Image.tallies (i : Image) : List Tally :=
  i.program.tallies ++ (i.checkpoint.map Checkpoint.tallies).getD []

/-! ### Readers that keep within the bytes -/

namespace Metered

variable {α β : Type}

/-- **Readers that do not get further than the bytes.** After the tallies before it, a reader keeps
its own tables within bounds, and if it succeeds, its result and all tallies are as told. -/
structure Sound (r : Metered α) (before : List Tally) (told : α → List Tally → Prop) : Prop where
  /-- No byte is given back. -/
  shrinks : ∀ input a rest, r.plain input = .ok (a, rest) → rest.length ≤ input.length
  /-- No table gets more entries than there are bytes, nor more than it was to have. -/
  bounded : ∀ input, ∀ t ∈ (r input).2, t.completed ≤ input.length ∧ t.completed ≤ t.announced
  tells : ∀ input a rest, r.plain input = .ok (a, rest) → told a (before ++ (r input).2)

namespace Sound

section

variable {before : List Tally} {told : β → List Tally → Prop}

theorem mono {r : Metered β} {told' : β → List Tally → Prop} (hr : r.Sound before told)
    (h : ∀ b l, told b l → told' b l) : r.Sound before told' where
  shrinks := hr.shrinks
  bounded := hr.bounded
  tells input b rest h_ok := h b _ (hr.tells input b rest h_ok)

theorem of_quiet {r : Reader α} (h : r.Prompt) : (quiet r).Sound before fun _ l => l = before where
  shrinks _ _ _ h_ok := h.length_le h_ok
  bounded _ _ h_t := absurd h_t List.not_mem_nil
  tells _ _ _ _ := List.append_nil before

theorem pure {b : β} (h : told b before) : (pure b : Metered β).Sound before told where
  shrinks _ _ _ h_ok := (Reader.Prompt.pure b).length_le h_ok
  bounded _ _ h_t := absurd h_t List.not_mem_nil
  tells input a rest h_ok := by
    obtain ⟨rfl, -⟩ := Reader.pure_eq_ok_iff.1 h_ok
    change told b (before ++ [])
    rwa [List.append_nil]

theorem fail (e : LoadError) : (quiet (Reader.fail e) : Metered β).Sound before told where
  shrinks := nofun
  bounded _ _ h_t := absurd h_t List.not_mem_nil
  tells := nofun

theorem bind {r : Metered α} {next : α → Metered β} {first : α → List Tally → Prop}
    (hr : r.Sound before first) (h_next : ∀ a l, first a l → (next a).Sound l told) :
    (r >>= next).Sound before told where
  shrinks input b rest h := by
    rw [plain_bind] at h
    obtain ⟨a, mid, h_a, h_b⟩ := Reader.bind_eq_ok_iff.1 h
    have h_next := h_next a _ (hr.tells input a mid h_a)
    exact (h_next.shrinks mid b rest h_b).trans (hr.shrinks input a mid h_a)
  bounded input t h_t := by
    have h_r := hr.bounded input t
    -- the tallies are those of the first reader, and those of the second if it comes to that
    match h : r input with
    | (.error e, tallies) =>
      rw [bind_of_error h] at h_t
      rw [h] at h_r
      exact h_r h_t
    | (.ok (a, mid), tallies) =>
      have h_a : r.plain input = .ok (a, mid) := congrArg Prod.fst h
      rw [bind_of_ok h] at h_t
      rw [h] at h_r
      rcases List.mem_append.1 h_t with h_t | h_t
      · exact h_r h_t
      · -- the next reader has only the bytes that the first one has left over
        have h_next := h_next a _ (hr.tells input a mid h_a)
        obtain ⟨h_length, h_announced⟩ := h_next.bounded mid t h_t
        exact ⟨h_length.trans (hr.shrinks input a mid h_a), h_announced⟩
  tells input b rest h := by
    rw [plain_bind] at h
    obtain ⟨a, mid, h_a, h_b⟩ := Reader.bind_eq_ok_iff.1 h
    have h_r : r input = (.ok (a, mid), (r input).2) := Prod.ext h_a rfl
    rw [bind_of_ok h_r, ← List.append_assoc]
    exact (h_next a _ (hr.tells input a mid h_a)).tells mid b rest h_b

/-- After something that has no tables in it the tallies are what they were. -/
theorem after {r : Reader α} {next : α → Metered β} (hr : r.Prompt)
    (h_next : ∀ a, (next a).Sound before told) : (quiet r >>= next).Sound before told := by
  refine (of_quiet hr).bind ?_
  rintro a _ rfl
  exact h_next a

theorem ite {condition : Prop} [Decidable condition] {r s : Metered β}
    (hr : r.Sound before told) (hs : s.Sound before told) :
    (if condition then r else s).Sound before told := by
  split
  · exact hr
  · exact hs

/-- A check either fails or changes nothing. -/
theorem check {condition : Prop} [Decidable condition] {e : LoadError} {next : PUnit → Metered β}
    (h : ∀ u, (next u).Sound before told) :
    (if condition then quiet (Reader.fail e) >>= next else next ()).Sound before told :=
  ite (after (.fail e) h) (h ())

end

section

variable {entry : Nat → Metered α} {own : α → List Tally}

theorem entriesFrom
    (h : ∀ index before, (entry index).Sound before fun a l => l = before ++ own a)
    (before : List Tally) (index count : Nat) :
    (Metered.entriesFrom entry index count).Sound before fun as l =>
      as.length = count ∧ l = before ++ as.flatMap own := by
  -- on the entries; each adds its own tallies behind those of the entries before
  induction count generalizing index before with
  | zero => exact .pure ⟨rfl, (List.append_nil _).symm⟩
  | succ count ih =>
    refine (h index before).bind fun first l h_first =>
      (ih l (index + 1)).bind fun later _ ⟨h_length, h_later⟩ => .pure ?_
    refine ⟨congrArg (· + 1) h_length, ?_⟩
    rw [h_later, h_first, List.flatMap_cons, List.append_assoc]

/-- The tables in the entries and the table itself. -/
theorem table (kind : Table) (count : Nat) (before : List Tally)
    (h : ∀ index before, (entry index).Sound before fun a l => l = before ++ own a)
    (h_hungry : ∀ index, (entry index).plain.Hungry) :
    (Metered.table kind count entry).Sound before fun as l =>
      as.length = count ∧ l = before ++ as.flatMap own ++ [.full kind as.length] where
  shrinks := (entriesFrom h before 0 count).shrinks
  bounded input t h_t := by
    rcases List.mem_append.1 h_t with h_t | h_t
    · exact (entriesFrom h before 0 count).bounded input t h_t
    · -- the tally of the table itself, of which the entries take a byte each
      obtain rfl := List.mem_singleton.1 h_t
      exact ⟨Reader.completed_le_length h_hungry, Reader.completed_le⟩
  tells input as rest h_ok := by
    obtain ⟨h_length, h_own⟩ := (entriesFrom h before 0 count).tells input as rest h_ok
    rw [plain_table] at h_ok
    refine ⟨h_length, ?_⟩
    change before ++ ((Metered.entriesFrom entry 0 count input).2 ++ [_]) = _
    rw [Reader.completed_of_ok h_ok, h_length, ← List.append_assoc, h_own]
    rfl

end

/-- A table whose entries have no tables in them. -/
theorem flatTable (kind : Table) (count : Nat) {before : List Tally} {entry : Nat → Reader α}
    (h : ∀ index, (entry index).Prompt) (h_hungry : ∀ index, (entry index).Hungry) :
    (Metered.table kind count fun index => quiet (entry index)).Sound before fun as l =>
      as.length = count ∧ l = before ++ [.full kind as.length] := by
  have h_entry (index : Nat) (before : List Tally) :
      (quiet (entry index)).Sound before fun _ l => l = before ++ [] := by
    simpa only [List.append_nil] using of_quiet (h index)
  have h_table := table kind count before h_entry h_hungry
  have h_own (as : List α) : as.flatMap (fun _ => ([] : List Tally)) = [] :=
    List.flatMap_eq_nil_iff.2 fun _ _ => rfl
  simpa only [h_own, List.append_nil] using h_table

end Sound

/-! ### The readers of the format -/

section

variable {before : List Tally}

theorem names_sound (kind : Table) (field : String) :
    (names kind field).Sound before fun names l => l = before ++ [.full kind names.length] :=
  .after (Reader.signedCount_prompt _) fun count =>
    (Sound.flatTable kind count (fun _ => Reader.text_prompt _) fun _ => Reader.text_hungry _).mono
      fun _ _ h => h.2

theorem script_sound : script.Sound before fun s l => l = before ++ s.tallies :=
  .after (Reader.text_prompt _) fun _ => .after (Reader.text_prompt _) fun _ =>
    .after (Reader.word_prompt _) fun _ => .after (Reader.word_prompt _) fun _ =>
    (names_sound _ _).bind fun _ _ h => .after (Reader.word_prompt _) fun _ =>
    .after (Reader.word_prompt _) fun _ => .after (Reader.word_prompt _) fun _ => .pure h

/-- The pool is there as a whole or gets nothing. -/
theorem pool_sound (count : Nat) :
    (pool count).Sound before fun bytes l => l = before ++ [.full .data bytes.length] where
  shrinks _ _ _ h := (Reader.bytes_prompt "data" count).length_le h
  bounded input t h_t := by
    obtain rfl := List.mem_singleton.1 h_t
    dsimp only
    -- the bytes of the pool are taken at once or not at all
    cases h : Reader.bytes "data" count input with
    | error e => exact ⟨Nat.zero_le _, Nat.zero_le _⟩
    | ok x =>
      obtain ⟨rfl, rfl⟩ := Reader.bytes_eq_ok_iff.1 h
      exact ⟨by simp [Except.isOk, Except.toBool], Nat.le_refl _⟩
  tells input taken rest h := by
    have h_bytes : Reader.bytes "data" count input = .ok (taken, rest) := h
    change before ++
      [⟨.data, count, if (Reader.bytes "data" count input).isOk then count else 0⟩] = _
    rw [h_bytes, (Reader.bytes_eq_ok_iff.1 h_bytes).1]
    rfl

theorem data_sound : data.Sound before fun bytes l => l = before ++ [.full .data bytes.length] :=
  .after (Reader.word_prompt _) fun _ => .ite (.fail _) (pool_sound _)

theorem program_sound : program.Sound before fun p l => l = before ++ p.tallies := by
  refine .after Reader.header_prompt fun _ => (names_sound _ _).bind fun globals _ h_globals =>
    .after (Reader.signedCount_prompt _) fun _ =>
    (Sound.flatTable _ _ Reader.instruction_prompt Reader.instruction_hungry).bind
      fun code _ ⟨_, h_code⟩ =>
    .after (Reader.signedCount_prompt _) fun _ =>
    (Sound.flatTable _ _ (fun _ => Reader.word_prompt _) fun _ => Reader.word_hungry _).bind
      fun autostart _ ⟨_, h_autostart⟩ =>
    .after (Reader.signedCount_prompt _) fun _ =>
    (Sound.table _ _ _ (fun _ _ => script_sound) fun _ => plain_script ▸ Reader.script_hungry).bind
      fun scripts _ ⟨_, h_scripts⟩ =>
    data_sound.bind fun bytes _ h_data => .pure ?_
  simp [h_data, h_scripts, h_autostart, h_code, h_globals, Program.tallies]

theorem valueAt_prompt (payloads : List UInt32) (index : Nat) :
    (valueAt payloads index).Prompt :=
  (Reader.word_prompt _).bind fun _ => (Reader.tagOf_prompt _).bind fun _ => .pure _

theorem valueAt_hungry (payloads : List UInt32) (index : Nat) :
    (valueAt payloads index).Hungry :=
  (Reader.word_hungry _).bind fun _ => (Reader.tagOf_prompt _).bind fun _ => .pure _

theorem stack_sound : stack.Sound before fun s l => l = before ++ s.tallies := by
  refine .after (Reader.word_prompt _) fun count => .check fun _ =>
    .after (Reader.word_prompt _) fun pushes => .after (Reader.word_prompt _) fun pops =>
    (Sound.flatTable _ _ (fun _ => Reader.word_prompt _) fun _ => Reader.word_hungry _).bind
      fun payloads _ ⟨_, h_payloads⟩ =>
    (Sound.flatTable _ _ (valueAt_prompt payloads) (valueAt_hungry payloads)).bind
      fun values _ ⟨h_length, h_values⟩ => ?_
  -- the size was checked, but the reader still asks whether the values fit
  cases h : Stack.ofValues? values pushes pops with
  | none => exact .fail _
  | some s =>
    refine .pure ?_
    obtain ⟨rfl, -, -⟩ := Stack.ofValues?_eq_some_iff.1 h
    -- there are as many tags as payloads
    rw [h_values, h_payloads, ← h_length, s.length_values, List.append_assoc]
    rfl

theorem variableTable_sound (field : String) : (variableTable field).Sound before fun slots l =>
    l = before ++ [.full .variables slots.length] :=
  .after (Reader.word_prompt _) fun _ =>
    (Sound.flatTable _ _ (fun _ => Reader.variableSlot_prompt)
      fun _ => Reader.variableSlot_hungry).mono fun _ _ h => h.2

theorem task_sound (scripts : List Script) :
    (task scripts).Sound before fun t l => l = before ++ t.tallies := by
  refine (variableTable_sound _).bind fun locals _ h_locals =>
    .after (Reader.word_prompt _) fun _ => .after (Reader.word_prompt _) fun _ =>
    .after (Reader.word_prompt _) fun _ => .after (Reader.word_prompt _) fun _ =>
    .after (Reader.word_prompt _) fun _ => .after (Reader.word_prompt _) fun _ =>
    .after (Reader.word_prompt _) fun _ => .after (Reader.word_prompt _) fun scriptId =>
    .after (Reader.word_prompt _) fun _ =>
    .after (Reader.flag_prompt _) fun _ => .after (Reader.flag_prompt _) fun _ =>
    .after (Reader.flag_prompt _) fun _ => .after (Reader.flag_prompt _) fun _ =>
    stack_sound.bind fun stack _ h_stack => .after (Reader.word_prompt _) fun _ =>
    (Sound.flatTable _ _ (fun _ => Reader.word_prompt _) fun _ => Reader.word_hungry _).bind
      fun handlers _ ⟨_, h_handlers⟩ => ?_
  -- without the script the task is refused, and then nothing is told
  cases ofOrdinal? scripts scriptId with
  | none => exact .fail _
  | some script =>
    refine .pure ?_
    simp [h_handlers, h_stack, h_locals, Task.tallies]

theorem checkpoint_sound (scripts : List Script) :
    (checkpoint scripts).Sound before fun c l => l = before ++ c.tallies := by
  refine stack_sound.bind fun stack _ h_stack =>
    (variableTable_sound _).bind fun globals _ h_globals => .after (Reader.word_prompt _) fun _ =>
    (Sound.table _ _ _ (fun _ _ => task_sound scripts)
      fun _ => plain_task scripts ▸ Reader.task_hungry scripts).bind fun tasks _ ⟨_, h_tasks⟩ =>
    .after (Reader.word_prompt _) fun _ => .after (Reader.word_prompt _) fun _ =>
    .after (Reader.word_prompt _) fun _ => .after (Reader.word_prompt _) fun _ =>
    .after (Reader.word_prompt _) fun _ => .pure ?_
  simp [h_tasks, h_globals, h_stack, Checkpoint.tallies]

/-- Looking for the end takes nothing. -/
theorem ended_sound : (quiet ended).Sound before fun _ l => l = before where
  shrinks _ _ _ h := by
    obtain ⟨-, rfl⟩ := Prod.mk.inj (Except.ok.inj h)
    exact Nat.le_refl _
  bounded _ _ h_t := absurd h_t List.not_mem_nil
  tells _ _ _ _ := List.append_nil before

theorem surplus_sound {told : α → List Tally → Prop} :
    (quiet surplus : Metered α).Sound before told where
  shrinks := nofun
  bounded _ _ h_t := absurd h_t List.not_mem_nil
  tells := nofun

theorem image_sound : image.Sound [] fun i l => l = i.tallies := by
  refine program_sound.bind fun p _ h_p => ended_sound.bind fun _ _ h_end => .ite (.pure ?_) <|
    (checkpoint_sound p.scripts).bind fun c _ h_c =>
    ended_sound.bind fun _ _ h_end' => .ite (.pure ?_) surplus_sound
  · simp [h_end, h_p, Image.tallies]
  · simp [h_end', h_c, h_end, h_p, Image.tallies]

end

end Metered

/-- **Tables are no longer than the file.** What is decoded from a file takes no more room than the
file has, and every table of it has a tally. Whether the file is accepted or not, no table gets more
entries than the file has bytes, whatever its length announces. -/
theorem Image.tables_within (bytes : List UInt8) :
    (∀ i, Image.decode bytes = .ok i →
      i.footprint ≤ bytes.length ∧ (Metered.image bytes).2 = i.tallies) ∧
    (Metered.image bytes).1.map (·.1) = Image.decode bytes ∧
    ∀ t ∈ (Metered.image bytes).2, t.completed ≤ bytes.length ∧ t.completed ≤ t.announced := by
  refine ⟨fun i h => ⟨Image.footprint_le h, ?_⟩, Metered.image_eq_decode bytes,
    Metered.image_sound.bounded bytes⟩
  rw [← Metered.image_eq_decode] at h
  -- what the metered reader tells when it accepts the file is the list of all tables
  cases h_image : (Metered.image bytes).1 with
  | error e =>
    rw [h_image] at h
    contradiction
  | ok x =>
    rw [h_image] at h
    obtain rfl := Except.ok.inj h
    exact Metered.image_sound.tells bytes x.1 x.2 h_image

/-- A file that announces more names than any file can hold, and ends behind the second one. -/
def boastfulBytes : List UInt8 :=
  Image.magic ++ Writer.word 7 ++ Writer.word 0x7FFFFFFF ++ [0x4D, 0, 0]

theorem tables_within_boastful :
    Image.decode looseBytes = .ok looseImage ∧ looseImage.footprint ≤ looseBytes.length ∧
    (Metered.image looseBytes).2 = looseImage.tallies ∧
    ⟨.globals, 0x7FFFFFFF, 2⟩ ∈ (Metered.image boastfulBytes).2 ∧ 2 ≤ boastfulBytes.length := by
  have h_tally : ⟨.globals, 0x7FFFFFFF, 2⟩ ∈ (Metered.image boastfulBytes).2 := by decide +kernel
  obtain ⟨h_footprint, h_tallies⟩ := (Image.tables_within looseBytes).1 _ decode_looseBytes
  exact ⟨decode_looseBytes, h_footprint, h_tallies, h_tally,
    ((Image.tables_within boastfulBytes).2.2 _ h_tally).1⟩

end ScriptMachine
