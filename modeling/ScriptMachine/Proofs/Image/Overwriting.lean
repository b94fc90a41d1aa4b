import ScriptMachine.Proofs.Image.Lookup

/-!
# Images with one field overwritten

What becomes of the bytes of an image when one field that is checked gets a value it cannot have:

* `Image.decode_overwritten` : the image is refused with the error of that check, which names the
  value and, where there are several of the kind, the instruction or the task.

Fields are found by their offsets. These are sums of lengths of what a writer puts before a field,
record by record (`Program.instructionAt`, `Stack.tagAt`, `variableAt`, `Task.scriptAt` and so on),
and so they are added up here. `Reader.Guards` says of a reader and the bytes of what it reads that
one of their fields is checked by it. It is carried along a chain of binds like `Reader.Takes`: what
stands before the field is taken as ever, so the reader is in step when it comes to the field
(`Takes.guards_bind`), and what comes behind it is not looked at any more (`Guards.bind`).

Not every check is made on the spot. An opcode and a type tag are checked at the end of their
record, and the script of a task behind everything else of the task, so for these the rest of the
record is read first.
-/

namespace ScriptMachine

@[simp] theorem length_word (w : UInt32) : (Writer.word w).length = 4 := rfl

@[simp] theorem length_flag (b : Bool) : (Writer.flag b).length = 1 := rfl

namespace Reader

variable {α β : Type}

/-! ### Fields that are checked -/

/-- In the bytes of what is read, `old` stands at the offset. With `new` in its place the bytes are
refused, whatever follows them. -/
def Guards (r : Reader α) (bytes : List UInt8) (offset : Nat) (old new : List UInt8)
    (e : LoadError) : Prop :=
  ∃ before after, before.length = offset ∧ bytes = before ++ old ++ after ∧
    ∀ rest, r (before ++ new ++ after ++ rest) = .error e

section

variable {s t old new : List UInt8} {offset : Nat} {e : LoadError}

/-- The field comes first. -/
theorem Guards.head {r : Reader α} (h : ∀ rest, r (new ++ (t ++ rest)) = .error e) :
    r.Guards (old ++ t) 0 old new e :=
  ⟨[], t, rfl, rfl, fun rest => by rw [List.nil_append, List.append_assoc]; exact h rest⟩

theorem Guards.bind {r : Reader α} (h : r.Guards s offset old new e) (next : α → Reader β)
    (t : List UInt8) : (r >>= next).Guards (s ++ t) offset old new e := by
  obtain ⟨before, after, h_offset, rfl, h_refuses⟩ := h
  refine ⟨before, after ++ t, h_offset, by simp only [List.append_assoc], fun rest => ?_⟩
  -- the field is refused before anything that comes behind it is read
  rw [← List.append_assoc _ after, List.append_assoc _ t]
  exact bind_eq_error (h_refuses _)

theorem Guards.bind_end {r : Reader α} (h : r.Guards s offset old new e) (next : α → Reader β) :
    (r >>= next).Guards s offset old new e := by
  have h_bind := h.bind next []
  rwa [List.append_nil] at h_bind

theorem Takes.guards_bind {r : Reader α} {a : α} (hr : r.Takes s a) {next : α → Reader β}
    (h : (next a).Guards t offset old new e) :
    (r >>= next).Guards (s ++ t) (s.length + offset) old new e := by
  obtain ⟨before, after, rfl, rfl, h_refuses⟩ := h
  refine ⟨s ++ before, after, List.length_append, by simp only [List.append_assoc], fun rest => ?_⟩
  -- the first reader leaves the bytes of the second one, and there the field stands
  have h_next : (r >>= next) (s ++ (before ++ new ++ after ++ rest)) = .error e :=
    (bind_eq_next (hr.ok _)).trans (h_refuses rest)
  simpa only [List.append_assoc] using h_next

/-- A check that is passed before. -/
theorem Guards.check {condition : Prop} [Decidable condition] {e' : LoadError}
    {next : PUnit → Reader α} (h_passed : ¬condition) (h : (next ()).Guards s offset old new e) :
    (if condition then fail e' >>= next else next ()).Guards s offset old new e := by
  rwa [if_neg h_passed]

/-- The same field, with its offset said in another way. -/
theorem Guards.at {r : Reader α} (h : r.Guards s offset old new e) {offset' : Nat}
    (h_offset : offset = offset') : r.Guards s offset' old new e := h_offset ▸ h

end

/-! ### Fields that were written -/

theorem byte_takes (field : String) (b : UInt8) : (byte field).Takes [b] b :=
  (byte_prompt field).takes_all rfl

theorem text_takes (field : String) {s : String} (h : Text.NulFree s) :
    (text field).Takes (Writer.text s) s :=
  (text_prompt field).takes (text_reads field) ((Writes.text s).exists_mem (Form.nonempty_text.2 h))

theorem signedCount_takes (field : String) {size : Nat} (h : size < 2 ^ 31) :
    (signedCount field).Takes (Writer.word (UInt32.ofNat size)) size :=
  (signedCount_prompt field).takes (fun _ _ _ => signedCount_eq_ok_iff)
    (Writes.signedLength.exists_mem (Form.nonempty_signedLength.2 h))

theorem names_takes (field : String) {names : List String} (h_length : names.length < 2 ^ 31)
    (h_names : ∀ n ∈ names, Text.NulFree n) :
    (Reader.names field).Takes (Writer.table Writer.text names) names :=
  (names_prompt field).takes (names_reads field) ((Writes.signedTable Writes.text names).exists_mem
    (Form.nonempty_signedTable.2 ⟨h_length, fun n h => Form.nonempty_text.2 (h_names n h)⟩))

theorem variableSlot_takes {v : Variable} (h : Text.NulFree v.name) :
    variableSlot.Takes (Writer.variableSlot v) v :=
  variableSlot_prompt.takes variableSlot_reads ((Writes.variableSlot v).exists_mem
    (Form.nonempty_append.2 ⟨by simp, Form.nonempty_text.2 h⟩))

theorem task_takes {scripts : List Script} {t : Task} (h : t.Writable scripts) :
    (task scripts).Takes (Writer.task t) t :=
  (task_prompt scripts).takes (task_reads scripts)
    ((Writes.task scripts t).exists_mem (Form.nonempty_task_iff.2 h))

/-! ### Tables -/

section

variable {write : α → List UInt8} {members : List α} {index : Nat} {a : α}
  {old new : List UInt8} {offset : Nat} {e : LoadError}

/-- A field in one of the entries, which is read at its place in the table. -/
theorem entriesFrom_guards {entry : Nat → Reader α} {start : Nat}
    (h_takes : ∀ k, ∀ b ∈ members, (entry k).Takes (write b) b) (h_get : members[index]? = some a)
    (h : (entry (start + index)).Guards (write a) offset old new e) :
    (entriesFrom entry start members.length).Guards (members.flatMap write)
      (((members.take index).flatMap write).length + offset) old new e := by
  -- on the entries before the one with the field, which are taken as ever
  induction members generalizing index start with
  | nil => contradiction
  | cons b members ih =>
    cases index with
    | zero =>
      obtain rfl : b = a := Option.some.inj h_get
      exact (h.bind _ _).at (Nat.zero_add offset).symm
    | succ index =>
      have h_place : start + (index + 1) = start + 1 + index := by omega
      have h_rest := (ih (fun k c h_c => h_takes k c (List.mem_cons_of_mem b h_c)) h_get
        (h_place ▸ h)).bind_end fun others => pure (b :: others)
      refine ((h_takes start b List.mem_cons_self).guards_bind h_rest).at ?_
      rw [List.take_succ_cons, List.flatMap_cons, List.length_append, Nat.add_assoc]

theorem entries_guards {entry : Reader α} {count : Nat} (h_count : members.length = count)
    (h_takes : ∀ b ∈ members, entry.Takes (write b) b) (h_get : members[index]? = some a)
    (h : entry.Guards (write a) offset old new e) :
    (entries count entry).Guards (members.flatMap write)
      (((members.take index).flatMap write).length + offset) old new e :=
  h_count ▸ entriesFrom_guards (fun _ => h_takes) h_get h

end

/-! ### Instructions -/

theorem ofNumber?_eq_none {v : UInt32} (h : 8 ≤ v) : Tag.ofNumber? v = none :=
  List.getElem?_eq_none (UInt32.le_iff_toNat_le.1 h)

theorem opcode_ofNumber?_eq_none {v : UInt32} (h : 31 ≤ v) : Opcode.ofNumber? v = none :=
  List.getElem?_eq_none (UInt32.le_iff_toNat_le.1 h)

theorem tagOf_number_bind (tag : Tag) (next : Tag → Reader β) :
    (tagOf tag.number >>= next) = next tag :=
  funext fun _ => bind_eq_next (tagOf_eq_ok_iff.2 ⟨rfl, rfl⟩)

/-- A number that is no tag is refused wherever it is read. -/
theorem tagOf_bind {v : UInt32} (h : 8 ≤ v) (next : Tag → Reader β) (input : List UInt8) :
    (tagOf v >>= next) input = .error (.invalidTag v) := by
  unfold tagOf
  rw [ofNumber?_eq_none h]
  rfl

theorem instruction_guards_opcode (i : Instruction) (index : Nat) {v : UInt32} (h : 31 ≤ v) :
    (instruction index).Guards (Writer.instruction i) 0 (Writer.word i.opcode.number)
      (Writer.word v) (.invalidOpcode v index) := by
  unfold Writer.instruction
  simp only [List.append_assoc]
  refine .head fun rest => ?_
  unfold instruction
  -- all five words are read first, and then the opcode is the first to be checked
  simp only [List.append_assoc, word_bind, opcode_ofNumber?_eq_none h]
  rfl

/-- The opcode is known by then. -/
theorem instruction_guards_tag (i : Instruction) (index : Nat) {v : UInt32} (h : 8 ≤ v) :
    (instruction index).Guards (Writer.instruction i) 8 (Writer.word i.tag.number)
      (Writer.word v) (.invalidTag v) := by
  unfold Writer.instruction instruction
  simp only [List.append_assoc]
  refine .at ((word_takes _ _).guards_bind <| (word_takes _ _).guards_bind <|
    .head fun rest => ?_) rfl
  simp only [List.append_assoc, word_bind, Opcode.ofNumber?_number]
  exact tagOf_bind h _ _

theorem instruction_takes (i : Instruction) (index : Nat) :
    (instruction index).Takes (Writer.instruction i) i :=
  (instruction_prompt index).takes (instruction_reads index) ⟨_, rfl, rfl⟩

/-! ### Variables and stacks -/

theorem variableSlot_guards {x : Variable} (h_name : Text.NulFree x.name) {b : UInt8} (h : 8 ≤ b) :
    variableSlot.Guards (Writer.variableSlot x) 0 [x.value.tag.number.toUInt8] [b]
      (.invalidTag b.toUInt32) := by
  unfold Writer.variableSlot variableSlot
  rw [List.append_assoc]
  refine .head fun rest => ?_
  rw [bind_eq_next ((byte_takes _ b).ok _), List.append_assoc, word_bind,
    bind_eq_next ((text_takes _ h_name).ok rest)]
  -- the byte is widened to a word before it is looked up
  refine tagOf_bind ?_ _ _
  rw [UInt32.le_iff_toNat_le, UInt8.toNat_toUInt32]
  exact UInt8.le_iff_toNat_le.1 h

/-- A number that is no place of a table stands for nothing. -/
theorem ofOrdinal?_eq_none {members : List α} {v : UInt32}
    (h : ¬(1 ≤ v.toNat ∧ v.toNat ≤ members.length)) : ofOrdinal? members v = none := by
  unfold ofOrdinal?
  split
  · rfl
  · rename_i h_zero
    have h_pos : v.toNat ≠ 0 := fun h_eq => h_zero (UInt32.toNat_inj.1 h_eq)
    exact List.getElem?_eq_none (by omega)

theorem tagged_guards {values : List Value} {index : Nat} {x : Value}
    (h_get : values[index]? = some x) {v : UInt32} (h : 8 ≤ v) :
    (tagged (values.map (·.bits))).Guards (values.flatMap fun x => Writer.word x.tag.number)
      (4 * index) (Writer.word x.tag.number) (Writer.word v) (.invalidTag v) := by
  -- on the tags before the one that is overwritten
  induction values generalizing index with
  | nil => contradiction
  | cons y values ih =>
    cases index with
    | zero =>
      obtain rfl : y = x := Option.some.inj h_get
      refine .head fun rest => ?_
      rw [List.map_cons, tagged, word_bind]
      exact tagOf_bind h _ _
    | succ index =>
      have h_rest := (ih h_get).bind_end fun others => pure ((⟨y.tag, y.bits⟩ : Value) :: others)
      -- the check of the first tag is passed, so it can be put in where it is made
      rw [← tagOf_number_bind y.tag fun tag => tagged (values.map (·.bits)) >>= fun others =>
        pure (⟨tag, y.bits⟩ :: others)] at h_rest
      refine ((word_takes "stack types" y.tag.number).guards_bind h_rest).at ?_
      rw [length_word]
      omega

end Reader

/-! ### Where the fields are -/

/-- Where the record of an instruction begins in a program: behind the magic bytes, the version, the
names of the globals, the number of instructions and those before it, of five words each. -/
def Program.instructionAt (p : Program) (index : Nat) : Nat :=
  8 + (Writer.table Writer.text p.globals).length + 4 + 20 * index

/-- Where the tag of a slot stands in a stack: behind three numbers and all payloads. -/
def Stack.tagAt (s : Stack) (slot : Nat) : Nat := 12 + 4 * s.size + 4 * slot

/-- Where a variable begins in a table. -/
def variableAt (slots : List Variable) (index : Nat) : Nat :=
  4 + ((slots.take index).flatMap Writer.variableSlot).length

/-- Where the script id stands in a task: behind the locals and seven numbers. -/
def Task.scriptAt (t : Task) : Nat := (Writer.table Writer.variableSlot t.locals).length + 28

/-- Where the stack begins in a task: behind the locals, nine numbers and four flags. -/
def Task.stackAt (t : Task) : Nat := (Writer.table Writer.variableSlot t.locals).length + 40

/-- Where the globals begin in a checkpoint. -/
def Checkpoint.globalsAt (c : Checkpoint) : Nat := (Writer.stack c.stack).length

/-- Where a task begins in a checkpoint. -/
def Checkpoint.taskAt (c : Checkpoint) (index : Nat) : Nat :=
  c.globalsAt + (Writer.table Writer.variableSlot c.globals).length + 4 +
    ((c.tasks.take index).flatMap Writer.task).length

/-- The stacks of a checkpoint, each with the offset at which it begins. -/
inductive Checkpoint.HasStack (c : Checkpoint) : Nat → Stack → Prop
  | main : HasStack c 0 c.stack
  | task {index : Nat} {t : Task} (h : c.tasks[index]? = some t) :
      HasStack c (c.taskAt index + t.stackAt) t.stack

/-- The tables of variables of a checkpoint, each with the offset at which it begins. -/
inductive Checkpoint.HasVariables (c : Checkpoint) : Nat → List Variable → Prop
  | globals : HasVariables c c.globalsAt c.globals
  | locals {index : Nat} {t : Task} (h : c.tasks[index]? = some t) :
      HasVariables c (c.taskAt index) t.locals

namespace Reader

variable {α : Type} {old new : List UInt8} {offset : Nat} {e : LoadError}

/-! ### Stacks, variables and tasks -/

theorem stack_guards_size (s : Stack) {v : UInt32} (h : 32 < v) :
    stack.Guards (Writer.stack s) 0 (Writer.word (UInt32.ofNat s.size)) (Writer.word v)
      (.stackTooLarge v) := by
  unfold Writer.stack
  simp only [List.append_assoc]
  refine .head fun rest => ?_
  have h_large : Stack.capacity < v.toNat := UInt32.lt_iff_toNat_lt.1 h
  unfold stack
  rw [word_bind, if_pos h_large]
  rfl

/-- Records of the same width. -/
theorem length_flatMap {write : α → List UInt8} {width : Nat} (h : ∀ a, (write a).length = width)
    (members : List α) : (members.flatMap write).length = width * members.length := by
  rw [List.length_flatMap, List.map_congr_left fun a _ => h a, List.map_const',
    List.sum_replicate_nat, Nat.mul_comm]

/-- The size has passed its check, and all payloads are read. -/
theorem stack_guards_tag {s : Stack} {slot : Nat} {x : Value} (h_get : s.values[slot]? = some x)
    {v : UInt32} (h : 8 ≤ v) :
    stack.Guards (Writer.stack s) (s.tagAt slot) (Writer.word x.tag.number) (Writer.word v)
      (.invalidTag v) := by
  -- no stack is too large, so the size that was written passes its check
  have h_fits : ¬Stack.capacity < (UInt32.ofNat s.size).toNat := by
    rw [s.toNat_ofNat_size]
    exact Nat.not_lt.2 s.size_le
  -- all payloads come before all tags
  have h_payloads : (entries (UInt32.ofNat s.size).toNat (word "stack values")).Takes
      (s.values.flatMap fun x => Writer.word x.bits) (s.values.map (·.bits)) := by
    rw [s.toNat_ofNat_size, ← List.flatMap_map]
    exact words_takes _ (by rw [List.length_map, s.length_values])
  unfold Writer.stack stack
  simp only [List.append_assoc]
  refine .at ((word_takes _ _).guards_bind <| .check h_fits <| (word_takes _ _).guards_bind <|
    (word_takes _ _).guards_bind <| h_payloads.guards_bind <|
    (tagged_guards h_get h).bind_end _) ?_
  rw [length_flatMap fun _ => length_word _, s.length_values]
  simp only [length_word, Stack.tagAt]
  omega

theorem variableTable_guards (field : String) {slots : List Variable}
    (h_length : slots.length < 2 ^ 32) (h_names : ∀ x ∈ slots, Text.NulFree x.name) {index : Nat}
    {x : Variable} (h_get : slots[index]? = some x) {b : UInt8} (h : 8 ≤ b) :
    (variableTable field).Guards (Writer.table Writer.variableSlot slots) (variableAt slots index)
      [x.value.tag.number.toUInt8] [b] (.invalidTag b.toUInt32) :=
  (word_takes _ _).guards_bind <| entries_guards (UInt32.toNat_ofNat_of_lt' h_length).symm
    (fun x h_x => variableSlot_takes (h_names x h_x)) h_get
    (variableSlot_guards (h_names x (List.mem_of_getElem? h_get)) h)

section

variable {scripts : List Script} {t : Task}

theorem task_guards_local (h_t : t.Writable scripts) {index : Nat} {x : Variable}
    (h_get : t.locals[index]? = some x) {b : UInt8} (h : 8 ≤ b) :
    (task scripts).Guards (Writer.task t) (variableAt t.locals index)
      [x.value.tag.number.toUInt8] [b] (.invalidTag b.toUInt32) := by
  unfold Writer.task task
  simp only [List.append_assoc]
  exact (variableTable_guards _ h_t.locals_length h_t.locals h_get h).bind _ _

theorem task_guards_stack (h_t : t.Writable scripts)
    (h : stack.Guards (Writer.stack t.stack) offset old new e) :
    (task scripts).Guards (Writer.task t) (t.stackAt + offset) old new e := by
  unfold Writer.task task
  simp only [List.append_assoc]
  -- the locals, nine numbers and four flags stand before it
  refine .at ((variableTable_takes _ h_t.locals_length h_t.locals).guards_bind <|
    (word_takes _ _).guards_bind <| (word_takes _ _).guards_bind <|
    (word_takes _ _).guards_bind <| (word_takes _ _).guards_bind <|
    (word_takes _ _).guards_bind <| (word_takes _ _).guards_bind <|
    (word_takes _ _).guards_bind <| (word_takes _ _).guards_bind <|
    (word_takes _ _).guards_bind <| (flag_takes _ _).guards_bind <|
    (flag_takes _ _).guards_bind <| (flag_takes _ _).guards_bind <|
    (flag_takes _ _).guards_bind <| h.bind _ _) ?_
  simp only [length_word, length_flag, Task.stackAt]
  omega

/-- With another script id in its bytes the task is read as one of another script. -/
theorem task_guards_script (h_t : t.Writable scripts) {v : UInt32}
    (h : ofOrdinal? scripts v = none) :
    (task scripts).Guards (Writer.task t) t.scriptAt (Writer.word t.scriptId) (Writer.word v)
      (.unknownScript t.id v) := by
  have h_read (rest : List UInt8) : task scripts (Writer.task { t with scriptId := v } ++ rest) =
      .error (.unknownScript t.id v) := by
    have h_append := task_append scripts (t := { t with scriptId := v })
      ⟨h_t.locals_length, h_t.locals, h_t.handlers_length⟩ rest
    rw [h_append, Task.retitle, h]
    rfl
  -- what stands before the script id and what stands behind it
  refine ⟨Writer.table Writer.variableSlot t.locals ++ Writer.word t.id ++ Writer.word t.address ++
      Writer.word t.savedAddress ++ Writer.word t.waitingFor ++ Writer.word t.offset ++
      Writer.word t.handlerIndex ++ Writer.word t.ticks,
    Writer.word t.kind.bits ++ Writer.flag t.inHandler ++ Writer.flag t.stopped ++
      Writer.flag t.yielded ++ Writer.flag t.sleeping ++ Writer.stack t.stack ++
      Writer.table Writer.word t.handlers, ?_, ?_, fun rest => ?_⟩
  · simp only [List.length_append, length_word]
    rfl
  · -- put together these are the bytes of the task
    simp only [Writer.task, List.append_assoc]
  · simpa only [Writer.task, List.append_assoc] using h_read rest

end

/-! ### Checkpoints and programs -/

section

variable {scripts : List Script} {c : Checkpoint}

theorem checkpoint_guards_stack (h : stack.Guards (Writer.stack c.stack) offset old new e) :
    (checkpoint scripts).Guards (Writer.checkpoint c) offset old new e := by
  unfold Writer.checkpoint checkpoint
  simp only [List.append_assoc]
  exact h.bind _ _

theorem checkpoint_guards_global (h_c : c.Writable scripts) {index : Nat} {x : Variable}
    (h_get : c.globals[index]? = some x) {b : UInt8} (h : 8 ≤ b) :
    (checkpoint scripts).Guards (Writer.checkpoint c) (c.globalsAt + variableAt c.globals index)
      [x.value.tag.number.toUInt8] [b] (.invalidTag b.toUInt32) := by
  unfold Writer.checkpoint checkpoint
  simp only [List.append_assoc]
  exact (stack_takes _).guards_bind <|
    (variableTable_guards _ h_c.globals_length h_c.globals h_get h).bind _ _

theorem checkpoint_guards_task (h_c : c.Writable scripts) {index : Nat} {t : Task}
    (h_get : c.tasks[index]? = some t)
    (h : (task scripts).Guards (Writer.task t) offset old new e) :
    (checkpoint scripts).Guards (Writer.checkpoint c) (c.taskAt index + offset) old new e := by
  -- the tasks before it are read as they were written
  have h_tasks : (entries (UInt32.ofNat c.tasks.length).toNat (task scripts)).Guards
      (c.tasks.flatMap Writer.task) (((c.tasks.take index).flatMap Writer.task).length + offset)
      old new e :=
    entries_guards (UInt32.toNat_ofNat_of_lt' h_c.tasks_length).symm
      (fun t h_t => task_takes (h_c.tasks t h_t)) h_get h
  unfold Writer.checkpoint checkpoint
  simp only [List.append_assoc]
  rw [Writer.table.eq_def Writer.task, List.append_assoc]
  refine .at ((stack_takes _).guards_bind <|
    (variableTable_takes _ h_c.globals_length h_c.globals).guards_bind <|
    (word_takes _ _).guards_bind <| h_tasks.bind _ _) ?_
  simp only [length_word, Checkpoint.taskAt, Checkpoint.globalsAt]
  omega

end

section

variable {p : Program}

theorem header_takes : header.Takes (Image.magic ++ Writer.word currentVersion) currentVersion :=
  header_prompt.takes_all (header_eq_ok_iff.2 ⟨rfl, by rw [List.append_nil]⟩)

theorem header_guards (version : UInt32) {v : UInt32} (h : v ≠ currentVersion) :
    header.Guards (Image.magic ++ Writer.word version) 4 (Writer.word version) (Writer.word v)
      (.unsupportedVersion v) := by
  refine ⟨Image.magic, [], rfl, (List.append_nil _).symm, fun rest => ?_⟩
  -- the magic bytes are those of an image, whatever the version
  have h_magic : bytes "header" 4 (Image.magic ++ (Writer.word v ++ rest)) =
      .ok (Image.magic, Writer.word v ++ rest) := bytes_eq_ok_iff.2 ⟨rfl, rfl⟩
  rw [List.append_nil, List.append_assoc]
  unfold header
  rw [bind_eq_next h_magic, if_neg (not_not.2 rfl)]
  dsimp only
  rw [word_bind, if_pos h]
  rfl

theorem program_guards_version (p : Program) {v : UInt32} (h : v ≠ currentVersion) :
    program.Guards (Writer.program p) 4 (Writer.word p.version) (Writer.word v)
      (.unsupportedVersion v) := by
  have h_header := header_guards p.version h
  unfold Writer.program program
  simp only [List.append_assoc]
  rw [← List.append_assoc Image.magic]
  exact h_header.bind _ _

theorem program_guards_instruction (h_p : p.Writable) {index : Nat} {i : Instruction}
    (h_get : p.code[index]? = some i)
    (h : (instruction index).Guards (Writer.instruction i) offset old new e) :
    program.Guards (Writer.program p) (p.instructionAt index + offset) old new e := by
  have h_code : (entriesFrom instruction 0 p.code.length).Guards (p.code.flatMap Writer.instruction)
      (((p.code.take index).flatMap Writer.instruction).length + offset) old new e :=
    entriesFrom_guards (fun k i _ => instruction_takes i k) h_get ((Nat.zero_add index).symm ▸ h)
  -- instructions are of one width, so their offsets are multiples of it
  have h_length : ((p.code.take index).flatMap Writer.instruction).length = 20 * index := by
    rw [length_flatMap fun i => show (Writer.instruction i).length = 20 from rfl,
      List.length_take_of_le (Nat.le_of_lt (List.getElem?_eq_some_iff.1 h_get).1)]
  unfold Writer.program program
  -- the version is the current one, or the header would be refused before
  rw [h_p.version, Writer.table.eq_def Writer.instruction]
  simp only [List.append_assoc]
  rw [← List.append_assoc Image.magic]
  refine .at (header_takes.guards_bind <|
    (names_takes _ h_p.globals_length h_p.globals).guards_bind <|
    (signedCount_takes _ h_p.code_length).guards_bind <| h_code.bind _ _) ?_
  have h_header : (Image.magic ++ Writer.word currentVersion).length = 8 := rfl
  rw [h_header, h_length, length_word]
  unfold Program.instructionAt
  omega

end

end Reader

/-! ### Images -/

/-- The bytes with a field written over those from an offset on. -/
def overwritten (bytes : List UInt8) (offset : Nat) (field : List UInt8) : List UInt8 :=
  bytes.take offset ++ field ++ bytes.drop (offset + field.length)

theorem overwritten_append {before old after new : List UInt8} (h : new.length = old.length) :
    overwritten (before ++ old ++ after) before.length new = before ++ new ++ after := by
  unfold overwritten
  rw [h, List.append_assoc before old, List.take_left, List.drop_length_add_append, List.drop_left]

namespace Image

/-- In the bytes of the image, `old` stands at the offset. With `new` written over it they are
refused. -/
structure Guards (i : Image) (offset : Nat) (old new : List UInt8) (e : LoadError) : Prop where
  stands : old <+: i.encode.drop offset
  length_eq : new.length = old.length
  refuses : decode (overwritten i.encode offset new) = .error e

variable {i : Image} {old new : List UInt8} {offset : Nat} {e : LoadError}

theorem guards_of_parts (h_length : new.length = old.length) (before after : List UInt8)
    (h_offset : before.length = offset) (h_encode : i.encode = before ++ old ++ after)
    (h : decode (before ++ new ++ after) = .error e) : i.Guards offset old new e := by
  subst h_offset
  refine ⟨?_, h_length, ?_⟩
  · rw [h_encode, List.append_assoc, List.drop_left]
    exact List.prefix_append ..
  · rwa [h_encode, overwritten_append h_length]

theorem guards_of_program (h_length : new.length = old.length)
    (h : Reader.program.Guards (Writer.program i.program) offset old new e) :
    i.Guards offset old new e := by
  obtain ⟨before, after, h_offset, h_eq, h_refuses⟩ := h
  -- a checkpoint behind the program changes nothing, as it is not read any more
  refine guards_of_parts h_length before (after ++ (i.checkpoint.map Writer.checkpoint).getD [])
    h_offset ?_ ?_
  · rw [encode, h_eq, List.append_assoc _ after]
  · rw [← List.append_assoc _ after]
    exact decode_of_program_error (h_refuses _)

/-- Where a checkpoint begins. -/
def checkpointAt (i : Image) : Nat := (Writer.program i.program).length

theorem Writable.guards_of_checkpoint (h_i : i.Writable) {c : Checkpoint}
    (h_c : i.checkpoint = some c) (h_length : new.length = old.length)
    (h : (Reader.checkpoint i.program.scripts).Guards (Writer.checkpoint c) offset old new e) :
    i.Guards (i.checkpointAt + offset) old new e := by
  obtain ⟨before, after, rfl, h_eq, h_refuses⟩ := h
  refine guards_of_parts h_length (Writer.program i.program ++ before) after
    List.length_append ?_ ?_
  · rw [encode_eq h_c, encode_bare, h_eq]
    simp only [List.append_assoc]
  · -- the bytes are as many as before, so they do not end with the program
    have h_some : before ++ new ++ after ≠ [] := by
      intro h_nil
      refine Writer.checkpoint_ne_nil c (List.eq_nil_of_length_eq_zero ?_)
      have h_zero := congrArg List.length h_nil
      simp only [h_eq, List.length_append, List.length_nil] at h_zero ⊢
      omega
    have h_read := h_refuses []
    rw [List.append_nil] at h_read
    rw [List.append_assoc, List.append_assoc, ← List.append_assoc before,
      decode_of_program (h_i.takes_program.ok _) h_some, h_read]
    rfl

/-- **A field with a wrong value is named.** The field that is overwritten may be the version, the
opcode or the tag of an instruction, the size of a stack or the tag of one of its slots, the tag of
a variable, or the script id of a task; the value may be any that the field cannot have. -/
theorem decode_overwritten (h : i.Writable) :
    (∀ v, v ≠ 7 → i.Guards 4 (Writer.word i.program.version) (Writer.word v)
      (.unsupportedVersion v)) ∧
    (∀ index instruction, i.program.code[index]? = some instruction →
      (∀ v, 31 ≤ v → i.Guards (i.program.instructionAt index)
        (Writer.word instruction.opcode.number) (Writer.word v) (.invalidOpcode v index)) ∧
      ∀ v, 8 ≤ v → i.Guards (i.program.instructionAt index + 8)
        (Writer.word instruction.tag.number) (Writer.word v) (.invalidTag v)) ∧
    ∀ c, i.checkpoint = some c →
      (∀ start stack, c.HasStack start stack →
        (∀ v, 32 < v → i.Guards (i.checkpointAt + start)
          (Writer.word (UInt32.ofNat stack.size)) (Writer.word v) (.stackTooLarge v)) ∧
        ∀ slot x, stack.values[slot]? = some x → ∀ v, 8 ≤ v →
          i.Guards (i.checkpointAt + (start + stack.tagAt slot))
            (Writer.word x.tag.number) (Writer.word v) (.invalidTag v)) ∧
      (∀ start slots, c.HasVariables start slots → ∀ index x, slots[index]? = some x →
        ∀ b : UInt8, 8 ≤ b → i.Guards (i.checkpointAt + (start + variableAt slots index))
          [x.value.tag.number.toUInt8] [b] (.invalidTag b.toUInt32)) ∧
      ∀ index t, c.tasks[index]? = some t →
        ∀ v : UInt32, ¬(1 ≤ v.toNat ∧ v.toNat ≤ i.program.scripts.length) →
          i.Guards (i.checkpointAt + (c.taskAt index + t.scriptAt))
            (Writer.word t.scriptId) (Writer.word v) (.unknownScript t.id v) := by
  -- the version, then opcodes and tags of the code, then what is in a checkpoint
  refine ⟨fun v h_v => ?_, fun index instruction h_get => ⟨fun v h_v => ?_, fun v h_v => ?_⟩,
    fun c h_c => ?_⟩
  · exact guards_of_program rfl (Reader.program_guards_version i.program h_v)
  · exact guards_of_program rfl (Reader.program_guards_instruction h.program h_get
      (Reader.instruction_guards_opcode instruction index h_v))
  · exact guards_of_program rfl (Reader.program_guards_instruction h.program h_get
      (Reader.instruction_guards_tag instruction index h_v))
  · -- in a checkpoint: the two fields of each stack, the tags of variables, and the script ids
    have h_writable := h.checkpoint c h_c
    refine ⟨fun start stack h_stack => ?_, fun start slots h_slots index x h_get b h_b => ?_,
      fun index t h_get v h_v => ?_⟩
    · -- the stack is the main one or that of a task, and the readers around it differ
      have h_reader {offset : Nat} {old new : List UInt8} {e : LoadError}
          (h_field : Reader.stack.Guards (Writer.stack stack) offset old new e)
          (h_length : new.length = old.length) :
          i.Guards (i.checkpointAt + (start + offset)) old new e := by
        refine h.guards_of_checkpoint h_c h_length ?_
        cases h_stack with
        | main => exact (Reader.checkpoint_guards_stack h_field).at (Nat.zero_add _).symm
        | task h_get =>
          have h_t := h_writable.tasks _ (List.mem_of_getElem? h_get)
          exact (Reader.checkpoint_guards_task h_writable h_get
            (Reader.task_guards_stack h_t h_field)).at (Nat.add_assoc ..).symm
      exact ⟨fun v h_v => h_reader (Reader.stack_guards_size stack h_v) rfl,
        fun slot x h_get v h_v => h_reader (Reader.stack_guards_tag h_get h_v) rfl⟩
    · refine h.guards_of_checkpoint h_c rfl ?_
      -- the variables are the globals or the locals of a task
      cases h_slots with
      | globals => exact Reader.checkpoint_guards_global h_writable h_get h_b
      | locals h_t =>
        have h_task := h_writable.tasks _ (List.mem_of_getElem? h_t)
        exact Reader.checkpoint_guards_task h_writable h_t
          (Reader.task_guards_local h_task h_get h_b)
    · have h_t := h_writable.tasks t (List.mem_of_getElem? h_get)
      exact h.guards_of_checkpoint h_c rfl (Reader.checkpoint_guards_task h_writable h_get
        (Reader.task_guards_script h_t (Reader.ofOrdinal?_eq_none h_v)))

/-- A save file with two instructions, a global, and two tasks of which the second has a local and a
value on its stack. -/
def crowdedImage : Image :=
  let script : Script := ⟨"Main", "m.chl", .script, 1, ["x"], 0, 0, 1⟩
  let crowd : Task := { Task.start 8 script with
    locals := [⟨"x", ⟨.float, 5⟩⟩], handlers := [1], kind := .script
    stack := { slots := [⟨.object, 3⟩], pushes := 1, pops := 0 } }
  { program := {
      globals := ["Score"], scripts := [script]
      code := [⟨.push, 0, .int, 7, 1⟩, ⟨.finish, 0, .untyped, 0, 2⟩] }
    checkpoint := some {
      stack := { slots := [⟨.int, 2⟩, ⟨.boolean, 1⟩], pushes := 2, pops := 0 }
      globals := [⟨"Score", ⟨.int, 4⟩⟩]
      tasks := [{ Task.start 4 script with handlerIndex := 1 }, crowd]
      highestTask := 8, highestScript := 1 } }

theorem decode_crowded : decode crowdedImage.encode = .ok crowdedImage := by decide +kernel

/-- Fields that are last of their kind, with the least values that are refused. -/
theorem decode_overwritten_crowded :
    crowdedImage.Writable ∧
    decode (overwritten crowdedImage.encode 4 (Writer.word 8)) = .error (.unsupportedVersion 8) ∧
    decode (overwritten crowdedImage.encode 42 (Writer.word 31)) = .error (.invalidOpcode 31 1) ∧
    decode (overwritten crowdedImage.encode 50 (Writer.word 8)) = .error (.invalidTag 8) ∧
    decode (overwritten crowdedImage.encode 135 (Writer.word 8)) = .error (.invalidTag 8) ∧
    decode (overwritten crowdedImage.encode 229 [8]) = .error (.invalidTag 8) ∧
    decode (overwritten crowdedImage.encode 264 (Writer.word 2)) = .error (.unknownScript 8 2) ∧
    decode (overwritten crowdedImage.encode 276 (Writer.word 33)) = .error (.stackTooLarge 33) := by
  have h_writable : crowdedImage.Writable := writable_of_decode decode_crowded
  obtain ⟨h_version, h_code, h_checkpoint⟩ := decode_overwritten h_writable
  obtain ⟨h_opcode, h_tag⟩ := h_code 1 _ rfl
  obtain ⟨h_stacks, h_variables, h_scripts⟩ := h_checkpoint _ rfl
  have h_main := (h_stacks _ _ .main).2 1 _ rfl 8 (by decide)
  have h_size := (h_stacks _ _ (@Checkpoint.HasStack.task _ 1 _ rfl)).1 33 (by decide)
  have h_local := h_variables _ _ (@Checkpoint.HasVariables.locals _ 1 _ rfl) 0 _ rfl 8 (by decide)
  have h_script := h_scripts 1 _ rfl 2 (by decide)
  exact ⟨h_writable, (h_version 8 (by decide)).refuses, (h_opcode 31 (by decide)).refuses,
    (h_tag 8 (by decide)).refuses, h_main.refuses, h_local.refuses, h_script.refuses,
    h_size.refuses⟩

end Image

end ScriptMachine
