import ScriptMachine.Image.Reader
import ScriptMachine.Proofs.Image.Form

/-!
# What readers accept

A reader succeeds on an input exactly if the input begins with a piece of the form of its result
(`Reader.Reads`). That is an equivalence, so it says in one direction that every form is accepted
and in the other that nothing else is, and that not a byte is passed over. It is proven reader by
reader, each from those that it calls, and ends in `decode_eq_ok_iff`: an image is decoded from the
bytes of its pieces and from no others.

A reader is a chain of binds, which `bind_eq_ok_iff` takes apart into the inputs in between; a form
is a chain of `++`, which `Form.append_assoc` puts in a row and `Form.splits_append` takes apart in
the same way. Where a check comes late, after the rest of a record is read, the two chains differ
in the place of one condition.
-/

namespace ScriptMachine

namespace Reader

variable {α β : Type} {input rest : List UInt8}

/-! ### Chains of readers -/

@[simp] theorem bind_eq_ok_iff {r : Reader α} {next : α → Reader β} {b : β} :
    (r >>= next) input = .ok (b, rest) ↔
      ∃ a mid, r input = .ok (a, mid) ∧ next a mid = .ok (b, rest) := by
  change Except.bind (r input) (fun x => next x.1 x.2) = _ ↔ _
  -- the second reader comes into play only where the first one succeeds
  cases r input with
  | error e => simp [Except.bind]
  | ok x =>
    refine ⟨fun h => ⟨x.1, x.2, rfl, h⟩, ?_⟩
    rintro ⟨a, mid, h_x, h⟩
    obtain rfl := Except.ok.inj h_x
    exact h

@[simp] theorem pure_eq_ok_iff {a b : α} :
    (pure a : Reader α) input = .ok (b, rest) ↔ a = b ∧ input = rest := by
  change Except.ok (a, input) = _ ↔ _
  simp

@[simp] theorem fail_ne_ok {e : LoadError} {a : α} :
    ¬ (fail e : Reader α) input = .ok (a, rest) := nofun

/-- The reader takes the pieces of the form of its result off the front, and no others. -/
def Reads (r : Reader α) (F : α → Form) : Prop :=
  ∀ input a rest, r input = .ok (a, rest) ↔ (F a).Splits input rest

theorem Reads.iff {r : Reader α} {F : α → Form} (h : Reads r F) {a : α} :
    r input = .ok (a, rest) ↔ (F a).Splits input rest := h input a rest

/-! ### Fields -/

theorem byte_eq_ok_iff {field : String} {b : UInt8} :
    byte field input = .ok (b, rest) ↔ input = b :: rest := by
  cases input with
  | nil => simp [byte]
  | cons b' input => simp [byte]

theorem word_reads (field : String) : Reads (word field) Form.word := by
  intro input w rest
  rw [Form.splits_word]
  match input with
  | [] | [_] | [_, _] | [_, _, _] =>
    -- the input ends inside the word
    simp [word, Writer.word]
  | b₀ :: b₁ :: b₂ :: b₃ :: input =>
    have h₀ := b₀.toNat_lt
    have h₁ := b₁.toNat_lt
    have h₂ := b₂.toNat_lt
    have h₃ := b₃.toNat_lt
    have h_w := w.toNat_lt
    simp only [word, Except.ok.injEq, Prod.mk.injEq, Writer.word, List.cons_append,
      List.nil_append, List.cons.injEq, ← UInt32.toNat_inj, ← UInt8.toNat_inj,
      UInt32.toNat_ofNat', UInt8.toNat_ofNat']
    constructor
    · rintro ⟨h_word, rfl⟩
      exact ⟨by omega, by omega, by omega, by omega, rfl⟩
    · rintro ⟨h_b₀, h_b₁, h_b₂, h_b₃, rfl⟩
      exact ⟨by omega, rfl⟩

theorem bytes_eq_ok_iff {field : String} {count : Nat} {taken : List UInt8} :
    bytes field count input = .ok (taken, rest) ↔
      taken.length = count ∧ input = taken ++ rest := by
  unfold bytes
  split
  · -- there are enough bytes to split the input, or there are too few
    rename_i h
    rw [List.splitAt_eq, Except.ok.injEq, Prod.mk.injEq]
    constructor
    · rintro ⟨rfl, rfl⟩
      exact ⟨List.length_take_of_le h, (List.take_append_drop _ _).symm⟩
    · rintro ⟨rfl, rfl⟩
      exact ⟨List.take_left, List.drop_left⟩
  · rename_i h
    constructor
    · nofun
    · rintro ⟨rfl, rfl⟩
      simp at h

theorem text_reads (field : String) : Reads (text field) Form.text := by
  intro input s rest
  rw [Form.splits_text]
  unfold text
  have h_input := List.takeWhile_append_dropWhile (p := (· != 0)) (l := input)
  have h_take : 0 ∉ input.takeWhile (· != 0) := by
    intro h
    simpa using List.all_eq_true.1 (List.all_takeWhile (p := (· != 0)) (l := input)) 0 h
  constructor
  · intro h
    split at h
    · contradiction
    · -- the byte at which the text stops is the first that is zero
      rename_i b mid h_drop
      obtain ⟨rfl, rfl⟩ := by simpa using h
      obtain rfl : b = 0 := by
        have h_head := List.head?_dropWhile_not (· != 0) input
        simpa [h_drop] using h_head
      exact ⟨_, h_take, rfl, by rw [← h_drop, h_input]⟩
  · rintro ⟨raw, h_raw, rfl, rfl⟩
    -- no byte of the text stops the reader before the zero byte behind it
    have h_ne : ∀ b ∈ raw, (b != 0) = true := fun b hb => bne_iff_ne.2 fun h => h_raw (h ▸ hb)
    rw [List.dropWhile_append_of_pos h_ne, List.takeWhile_append_of_pos h_ne]
    simp

theorem flag_reads (field : String) : Reads (flag field) Form.flag := by
  intro input b rest
  rw [Form.splits_flag]
  simp only [flag, bind_eq_ok_iff, pure_eq_ok_iff, byte_eq_ok_iff]
  constructor
  · rintro ⟨byte, _, rfl, h_byte, rfl⟩
    exact ⟨byte, h_byte, rfl⟩
  · rintro ⟨byte, h_byte, rfl⟩
    exact ⟨byte, _, rfl, h_byte, rfl⟩

theorem ofNumber?_eq_some_iff {number : UInt32} {tag : Tag} :
    Tag.ofNumber? number = some tag ↔ number = tag.number := by
  constructor
  · intro h
    obtain ⟨h_lt, h_get⟩ := List.getElem?_eq_some_iff.1 h
    -- tags stand in the table in the order of their numbers
    have h_all : ∀ n (h : n < Tag.all.length), Tag.all[n].number = UInt32.ofNat n := by decide
    rw [← h_get, h_all _ h_lt, UInt32.ofNat_toNat]
  · rintro rfl
    exact Tag.ofNumber?_number tag

theorem tagOf_eq_ok_iff {number : UInt32} {tag : Tag} :
    tagOf number input = .ok (tag, rest) ↔ number = tag.number ∧ input = rest := by
  unfold tagOf
  rw [← ofNumber?_eq_some_iff]
  cases Tag.ofNumber? number <;> simp

theorem opcode_ofNumber?_eq_some_iff {number : UInt32} {op : Opcode} :
    Opcode.ofNumber? number = some op ↔ number = op.number := by
  constructor
  · intro h
    obtain ⟨h_lt, h_get⟩ := List.getElem?_eq_some_iff.1 h
    -- and so do opcodes
    have h_all : ∀ n (h : n < Opcode.all.length), Opcode.all[n].number = UInt32.ofNat n := by decide
    rw [← h_get, h_all _ h_lt, UInt32.ofNat_toNat]
  · rintro rfl
    exact Opcode.ofNumber?_number op

/-! ### Tables -/

theorem entriesFrom_eq_ok_iff {entry : Nat → Reader α} {F : α → Form}
    (h : ∀ index, Reads (entry index) F) {count index : Nat} {members : List α} :
    entriesFrom entry index count input = .ok (members, rest) ↔
      members.length = count ∧ (Form.entries F members).Splits input rest := by
  -- the index is only for the places that errors name, so the induction is on the count
  induction count generalizing index members input rest with
  | zero =>
    rw [entriesFrom, pure_eq_ok_iff, List.length_eq_zero_iff]
    constructor
    · rintro ⟨rfl, rfl⟩
      exact ⟨rfl, by simp [Form.entries]⟩
    · rintro ⟨rfl, h_input⟩
      exact ⟨rfl, by simpa [Form.entries] using h_input⟩
  | succ count ih =>
    simp only [entriesFrom, bind_eq_ok_iff, pure_eq_ok_iff, (h index).iff, ih]
    constructor
    · rintro ⟨a, mid, h_a, others, _, ⟨rfl, h_others⟩, rfl, rfl⟩
      exact ⟨rfl, Form.splits_append.2 ⟨mid, h_a, h_others⟩⟩
    · rintro ⟨h_length, h_members⟩
      cases members with
      | nil => contradiction
      | cons a others =>
        obtain ⟨mid, h_a, h_others⟩ := Form.splits_append.1 h_members
        exact ⟨a, mid, h_a, others, rest, ⟨by simpa using h_length, h_others⟩, rfl, rfl⟩

theorem entries_eq_ok_iff {entry : Reader α} {F : α → Form} (h : Reads entry F) {count : Nat}
    {members : List α} : entries count entry input = .ok (members, rest) ↔
      members.length = count ∧ (Form.entries F members).Splits input rest :=
  entriesFrom_eq_ok_iff fun _ => h

theorem signedCount_eq_ok_iff {field : String} {size : Nat} :
    signedCount field input = .ok (size, rest) ↔ (Form.signedLength size).Splits input rest := by
  rw [Form.splits_signedLength]
  simp only [signedCount, bind_eq_ok_iff, pure_eq_ok_iff, (word_reads field).iff, Form.splits_word]
  constructor
  · rintro ⟨count, _, rfl, h_count, rfl⟩
    exact ⟨count, h_count, rfl⟩
  · rintro ⟨count, h_count, rfl⟩
    exact ⟨count, _, rfl, h_count, rfl⟩

/-- A signed length and then as many entries. -/
theorem signedTable_reads {entry : Nat → Reader α} {F : α → Form}
    (h : ∀ index, Reads (entry index) F) (field : String) :
    Reads (do entriesFrom entry 0 (← signedCount field)) (Form.signedTable F) := by
  intro input members rest
  simp only [bind_eq_ok_iff, signedCount_eq_ok_iff, entriesFrom_eq_ok_iff h, Form.signedTable,
    Form.splits_append]
  constructor
  · rintro ⟨_, mid, h_length, rfl, h_members⟩
    exact ⟨mid, h_length, h_members⟩
  · rintro ⟨mid, h_length, h_members⟩
    exact ⟨_, mid, h_length, rfl, h_members⟩

/-- A length without sign and then as many entries. -/
theorem table_reads {entry : Reader α} {F : α → Form} (h : Reads entry F) (field : String) :
    Reads (do entries (← word field).toNat entry) (Form.table F) := by
  intro input members rest
  simp only [bind_eq_ok_iff, (word_reads field).iff, entries_eq_ok_iff h, Form.splits_table]

theorem names_reads (field : String) : Reads (names field) (Form.signedTable Form.text) :=
  signedTable_reads (fun _ => text_reads field) field

/-! ### Programs -/

theorem instruction_reads (index : Nat) : Reads (instruction index) Form.instruction := by
  intro input i rest
  simp only [instruction, bind_eq_ok_iff, (word_reads "instruction").iff, Form.splits_word,
    Form.instruction, Form.splits_exactly, Writer.instruction, List.append_assoc]
  constructor
  · rintro ⟨opcode, _, rfl, mode, _, rfl, number, _, rfl, operand, _, rfl, line, _, rfl, h⟩
    -- opcode and tag are checked after all five words are read
    cases h_op : Opcode.ofNumber? opcode with
    | none => simp [h_op] at h
    | some op =>
      simp only [h_op, bind_eq_ok_iff, tagOf_eq_ok_iff, pure_eq_ok_iff] at h
      obtain ⟨tag, _, ⟨rfl, rfl⟩, rfl, rfl⟩ := h
      rw [opcode_ofNumber?_eq_some_iff.1 h_op]
  · rintro rfl
    refine ⟨_, _, rfl, _, _, rfl, _, _, rfl, _, _, rfl, _, _, rfl, ?_⟩
    simp only [Opcode.ofNumber?_number, bind_eq_ok_iff, tagOf_eq_ok_iff, pure_eq_ok_iff]
    exact ⟨_, _, ⟨rfl, rfl⟩, rfl, rfl⟩

theorem script_reads : Reads script Form.script := by
  intro input s rest
  simp only [script, bind_eq_ok_iff, pure_eq_ok_iff, (text_reads _).iff, (word_reads _).iff,
    (names_reads _).iff, Form.script, Form.append_assoc, Form.splits_append]
  constructor
  · -- the reader and the form list the same fields, in the same order
    rintro ⟨name, _, h_name, file, _, h_file, kind, _, h_kind, offset, _, h_offset, locals, _,
      h_locals, entry, _, h_entry, count, _, h_count, id, _, h_id, rfl, rfl⟩
    exact ⟨_, h_name, _, h_file, _, h_kind, _, h_offset, _, h_locals, _, h_entry, _, h_count, h_id⟩
  · rintro ⟨_, h_name, _, h_file, _, h_kind, _, h_offset, _, h_locals, _, h_entry, _, h_count,
      h_id⟩
    exact ⟨_, _, h_name, _, _, h_file, _, _, h_kind, _, _, h_offset, _, _, h_locals, _, _, h_entry,
      _, _, h_count, _, _, h_id, rfl, rfl⟩

theorem data_reads : Reads data Form.data := by
  intro input pool rest
  simp only [data, bind_eq_ok_iff, (word_reads _).iff, Form.splits_word, Form.data,
    Form.splits_given, Form.splits_exactly, Writer.table, List.flatMap_singleton',
    List.append_assoc]
  constructor
  · rintro ⟨size, _, rfl, h⟩
    split at h
    · exact absurd h fail_ne_ok
    · rename_i h_size
      obtain ⟨h_length, rfl⟩ := bytes_eq_ok_iff.1 h
      have h_lt := size.toInt32.toInt_lt
      -- the length is not negative, so it is the one that a writer would give
      rw [Int32.not_lt, Int32.le_iff_toInt_le, Int32.toInt_zero] at h_size
      have h_signed : (UInt32.ofNat pool.length).toInt32 = size.toInt32 := by
        rw [← Int32.toInt_inj, Form.toInt_toInt32_ofNat (by omega)]
        omega
      rw [show UInt32.ofNat pool.length = size from congrArg Int32.toUInt32 h_signed]
      exact ⟨by omega, rfl⟩
  · rintro ⟨h_lt, rfl⟩
    have h_size := Form.toInt_toInt32_ofNat h_lt
    refine ⟨_, _, rfl, ?_⟩
    rw [if_neg (by rw [Int32.lt_iff_toInt_lt, h_size, Int32.toInt_zero]; omega), bytes_eq_ok_iff,
      h_size, Int.toNat_natCast]
    exact ⟨rfl, rfl⟩

theorem header_eq_ok_iff {version : UInt32} : header input = .ok (version, rest) ↔
    version = currentVersion ∧ input = Image.magic ++ (Writer.word version ++ rest) := by
  simp only [header, bind_eq_ok_iff, bytes_eq_ok_iff]
  constructor
  · rintro ⟨magic, _, ⟨-, rfl⟩, h⟩
    -- the magic bytes are checked before the version is read, and each check ends the reading
    split at h
    · obtain ⟨_, _, h_fail, -⟩ := bind_eq_ok_iff.1 h
      exact absurd h_fail fail_ne_ok
    · rename_i h_magic
      simp only [bind_eq_ok_iff, (word_reads _).iff, Form.splits_word] at h
      obtain ⟨found, _, rfl, h⟩ := h
      split at h
      · obtain ⟨_, _, h_fail, -⟩ := bind_eq_ok_iff.1 h
        exact absurd h_fail fail_ne_ok
      · rename_i h_version
        simp only [pure_eq_ok_iff] at h
        obtain ⟨rfl, rfl⟩ := h
        exact ⟨not_not.1 h_version, by rw [not_not.1 h_magic]⟩
  · rintro ⟨rfl, rfl⟩
    refine ⟨_, _, ⟨rfl, rfl⟩, ?_⟩
    simp only [ne_eq, not_true_eq_false, if_false, bind_eq_ok_iff, (word_reads _).iff,
      Form.splits_word]
    exact ⟨_, _, rfl, by simp⟩

theorem program_reads : Reads program Form.program := by
  intro input p rest
  simp only [program, bind_eq_ok_iff, pure_eq_ok_iff, header_eq_ok_iff,
    (names_reads _).iff, signedCount_eq_ok_iff, entriesFrom_eq_ok_iff instruction_reads,
    entries_eq_ok_iff (word_reads _), entries_eq_ok_iff script_reads, data_reads.iff, Form.program,
    Form.signedTable, Form.append_assoc, Form.splits_append, Form.splits_given,
    Form.splits_exactly, Form.splits_word]
  constructor
  · -- each length is read into the table that it belongs to
    rintro ⟨version, _, ⟨rfl, rfl⟩, globals, _, ⟨_, h_globals_size, h_globals⟩, _, _, h_code_size,
      code, _, ⟨rfl, h_code⟩, _, _, h_autostart_size, autostart, _, ⟨rfl, h_autostart⟩, _, _,
      h_scripts_size, scripts, _, ⟨rfl, h_scripts⟩, data, _, h_data, rfl, rfl⟩
    exact ⟨_, ⟨rfl, rfl⟩, _, rfl, _, h_globals_size, _, h_globals, _, h_code_size, _, h_code, _,
      h_autostart_size, _, h_autostart, _, h_scripts_size, _, h_scripts, h_data⟩
  · rintro ⟨_, ⟨h_version, rfl⟩, _, rfl, _, h_globals_size, _, h_globals, _, h_code_size, _, h_code,
      _, h_autostart_size, _, h_autostart, _, h_scripts_size, _, h_scripts, h_data⟩
    exact ⟨_, _, ⟨h_version, rfl⟩, _, _, ⟨_, h_globals_size, h_globals⟩, _, _, h_code_size, _, _,
      ⟨rfl, h_code⟩, _, _, h_autostart_size, _, _, ⟨rfl, h_autostart⟩, _, _, h_scripts_size, _, _,
      ⟨rfl, h_scripts⟩, _, _, h_data, rfl, rfl⟩

/-! ### Checkpoints -/

theorem tagged_eq_ok_iff {payloads : List UInt32} {values : List Value} :
    tagged payloads input = .ok (values, rest) ↔
      payloads = values.map (·.bits) ∧
        input = values.flatMap (fun v => Writer.word v.tag.number) ++ rest := by
  -- on the payloads, for each of which a tag is read
  induction payloads generalizing values input rest with
  | nil =>
    rw [tagged, pure_eq_ok_iff]
    constructor
    · rintro ⟨rfl, rfl⟩
      exact ⟨rfl, rfl⟩
    · rintro ⟨h_values, rfl⟩
      obtain rfl := List.map_eq_nil_iff.1 h_values.symm
      exact ⟨rfl, rfl⟩
  | cons bits payloads ih =>
    simp only [tagged, bind_eq_ok_iff, pure_eq_ok_iff, (word_reads _).iff, Form.splits_word,
      tagOf_eq_ok_iff, ih]
    constructor
    · rintro ⟨_, _, rfl, tag, _, ⟨rfl, rfl⟩, others, _, ⟨rfl, rfl⟩, rfl, rfl⟩
      simp
    · rintro ⟨h_bits, rfl⟩
      cases values with
      | nil => contradiction
      | cons v others =>
        obtain ⟨rfl, rfl⟩ := by simpa using h_bits
        exact ⟨_, _, by rw [List.flatMap_cons, List.append_assoc], _, _, ⟨rfl, rfl⟩, _, _,
          ⟨rfl, rfl⟩, rfl, rfl⟩

/-- All payloads come before all tags, and the counters before both. -/
theorem stack_reads : Reads stack fun s => Form.exactly (Writer.stack s) := by
  intro input s rest
  simp only [stack, bind_eq_ok_iff, (word_reads _).iff, Form.splits_word, Form.splits_exactly,
    Writer.stack, List.append_assoc]
  constructor
  · rintro ⟨count, _, rfl, h⟩
    split at h
    · obtain ⟨_, _, h_fail, -⟩ := bind_eq_ok_iff.1 h
      exact absurd h_fail fail_ne_ok
    · simp only [bind_eq_ok_iff, (word_reads _).iff, entries_eq_ok_iff (word_reads _),
        Form.splits_word, Form.splits_entries_word, tagged_eq_ok_iff] at h
      obtain ⟨pushes, _, rfl, pops, _, rfl, _, _, ⟨h_count, rfl⟩, values, _, ⟨rfl, rfl⟩, h⟩ := h
      -- payloads and tags have been put together into values
      cases h_values : Stack.ofValues? values pushes pops with
      | none => simp [h_values] at h
      | some s' =>
        simp only [h_values, pure_eq_ok_iff] at h
        obtain ⟨rfl, rfl⟩ := h
        obtain ⟨rfl, rfl, rfl⟩ := Stack.ofValues?_eq_some_iff.1 h_values
        rw [List.length_map, Stack.length_values] at h_count
        rw [h_count, UInt32.ofNat_toNat, List.flatMap_map]
  · rintro rfl
    -- no stack is too large for the check of its size
    have h_le : s.size ≤ Stack.capacity := s.size_le
    refine ⟨_, _, rfl, ?_⟩
    rw [if_neg (by rw [s.toNat_ofNat_size]; omega)]
    simp only [bind_eq_ok_iff, (word_reads _).iff, entries_eq_ok_iff (word_reads _),
      Form.splits_word, Form.splits_entries_word, tagged_eq_ok_iff]
    refine ⟨_, _, rfl, _, _, rfl, s.values.map (·.bits), _, ⟨?_, ?_⟩, s.values, rest, ⟨rfl, rfl⟩,
      ?_⟩
    · rw [List.length_map, s.length_values, s.toNat_ofNat_size]
    · rw [List.flatMap_map]
    · rw [Stack.ofValues?_eq_some_iff.2 ⟨rfl, rfl, rfl⟩]
      exact pure_eq_ok_iff.2 ⟨rfl, rfl⟩

theorem toUInt32_eq_number_iff {b : UInt8} {tag : Tag} :
    b.toUInt32 = tag.number ↔ b = tag.number.toUInt8 := by
  constructor
  · intro h
    rw [← h, UInt8.toUInt8_toUInt32]
  · -- the number of every tag fits into a byte
    rintro rfl
    cases tag <;> rfl

theorem variableSlot_reads : Reads variableSlot Form.variableSlot := by
  intro input v rest
  simp only [variableSlot, bind_eq_ok_iff, pure_eq_ok_iff, byte_eq_ok_iff, (word_reads _).iff,
    (text_reads _).iff, tagOf_eq_ok_iff, toUInt32_eq_number_iff, Form.variableSlot,
    Form.splits_append, Form.splits_exactly]
  constructor
  · rintro ⟨_, _, rfl, bits, _, h_bits, name, _, h_name, tag, _, ⟨rfl, rfl⟩, rfl, rfl⟩
    exact ⟨_, ⟨_, rfl, h_bits⟩, h_name⟩
  · rintro ⟨_, ⟨_, rfl, h_bits⟩, h_name⟩
    exact ⟨_, _, rfl, _, _, h_bits, _, _, h_name, _, _, ⟨rfl, rfl⟩, rfl, rfl⟩

theorem variableTable_reads (field : String) :
    Reads (variableTable field) (Form.table Form.variableSlot) :=
  table_reads variableSlot_reads field

theorem task_reads (scripts : List Script) : Reads (task scripts) (Form.task scripts) := by
  intro input t rest
  simp only [task, bind_eq_ok_iff, (word_reads _).iff, (flag_reads _).iff, stack_reads.iff,
    (variableTable_reads _).iff, entries_eq_ok_iff (word_reads _), Form.task, Form.append_assoc,
    Form.splits_append, Form.splits_given]
  constructor
  · rintro ⟨locals, _, h_locals, id, _, h_id, address, _, h_address, saved, _, h_saved, waiting, _,
      h_waiting, offset, _, h_offset, index, _, h_index, ticks, _, h_ticks, scriptId, _, h_scriptId,
      kind, _, h_kind, inHandler, _, h_inHandler, stopped, _, h_stopped, yielded, _, h_yielded,
      sleeping, _, h_sleeping, stack, _, h_stack, count, _, h_count, handlers, _, h_handlers, h⟩
    -- that there is such a script is checked after the whole record is read
    cases h_script : ofOrdinal? scripts scriptId with
    | none => simp [h_script] at h
    | some script =>
      simp only [h_script, pure_eq_ok_iff] at h
      obtain ⟨rfl, rfl⟩ := h
      exact ⟨⟨script, h_script, rfl, rfl⟩, _, h_locals, _, h_id, _, h_address, _, h_saved, _,
        h_waiting, _, h_offset, _, h_index, _, h_ticks, _, h_scriptId, _, h_kind, _, h_inHandler,
        _, h_stopped, _, h_yielded, _, h_sleeping, _, h_stack,
        Form.splits_table.2 ⟨_, _, h_count, h_handlers⟩⟩
  · rintro ⟨⟨script, h_script, h_name, h_file⟩, _, h_locals, _, h_id, _, h_address, _, h_saved, _,
      h_waiting, _, h_offset, _, h_index, _, h_ticks, _, h_scriptId, _, h_kind, _, h_inHandler, _,
      h_stopped, _, h_yielded, _, h_sleeping, _, h_stack, h_table⟩
    obtain ⟨_, _, h_count, h_handlers⟩ := Form.splits_table.1 h_table
    refine ⟨_, _, h_locals, _, _, h_id, _, _, h_address, _, _, h_saved, _, _, h_waiting, _, _,
      h_offset, _, _, h_index, _, _, h_ticks, _, _, h_scriptId, _, _, h_kind, _, _, h_inHandler,
      _, _, h_stopped, _, _, h_yielded, _, _, h_sleeping, _, _, h_stack, _, _, h_count, _, _,
      h_handlers, ?_⟩
    rw [h_script]
    exact pure_eq_ok_iff.2 ⟨by rw [← h_name, ← h_file], rfl⟩

theorem checkpoint_reads (scripts : List Script) :
    Reads (checkpoint scripts) (Form.checkpoint scripts) := by
  intro input c rest
  simp only [checkpoint, bind_eq_ok_iff, pure_eq_ok_iff, stack_reads.iff,
    (variableTable_reads _).iff, (word_reads _).iff, entries_eq_ok_iff (task_reads scripts),
    Form.checkpoint, Form.append_assoc, Form.splits_append]
  constructor
  · -- a checkpoint has no check of its own, so the fields correspond one by one
    rintro ⟨stack, _, h_stack, globals, _, h_globals, count, _, h_count, tasks, _, h_tasks, ticks,
      _, h_ticks, line, _, h_line, highestTask, _, h_highestTask, highestScript, _, h_highestScript,
      executed, _, h_executed, rfl, rfl⟩
    exact ⟨_, h_stack, _, h_globals, _, Form.splits_table.2 ⟨_, _, h_count, h_tasks⟩, _, h_ticks, _,
      h_line, _, h_highestTask, _, h_highestScript, h_executed⟩
  · rintro ⟨_, h_stack, _, h_globals, _, h_table, _, h_ticks, _, h_line, _, h_highestTask, _,
      h_highestScript, h_executed⟩
    obtain ⟨_, _, h_count, h_tasks⟩ := Form.splits_table.1 h_table
    exact ⟨_, _, h_stack, _, _, h_globals, _, _, h_count, _, _, h_tasks, _, _, h_ticks, _, _,
      h_line, _, _, h_highestTask, _, _, h_highestScript, _, _, h_executed, rfl, rfl⟩

/-- A checkpoint takes some bytes, so none is there exactly if no bytes are left. -/
theorem checkpoint_ne_nil {scripts : List Script} {c : Checkpoint}
    (h : (Form.checkpoint scripts c).Splits input rest) : input ≠ [] := by
  simp only [Form.checkpoint, Form.append_assoc, Form.splits_append, Form.splits_exactly] at h
  obtain ⟨_, rfl, -⟩ := h
  simp [Writer.stack, Writer.word]

end Reader

/-! ### Images -/

/-- **What is decoded.** An image is decoded from the bytes of its pieces, and from no others. -/
theorem Image.decode_eq_ok_iff {bytes : List UInt8} {i : Image} :
    Image.decode bytes = .ok i ↔ ∃ p ∈ Form.image i, bytes = p.bytes := by
  have h_splits : (∃ p ∈ Form.image i, bytes = p.bytes) ↔ (Form.image i).Splits bytes [] := by
    simp [Form.Splits]
  rw [h_splits, Form.image, Form.splits_append]
  unfold Image.decode
  constructor
  · intro h
    cases h_program : Reader.program bytes with
    | error e => rw [h_program] at h; contradiction
    | ok x =>
      obtain ⟨program, rest⟩ := x
      rw [h_program] at h
      change (if rest.isEmpty then _ else _) = _ at h
      split at h
      · -- the file ends behind the program
        rename_i h_rest
        obtain rfl := Except.ok.inj h
        obtain rfl := List.isEmpty_iff.1 h_rest
        exact ⟨[], Reader.program_reads.iff.1 h_program, by simp⟩
      · cases h_checkpoint : Reader.checkpoint program.scripts rest with
        | error e => rw [h_checkpoint] at h; contradiction
        | ok x =>
          obtain ⟨checkpoint, rest'⟩ := x
          rw [h_checkpoint] at h
          change (if rest'.isEmpty then _ else _) = _ at h
          split at h
          · -- or behind the checkpoint, and nowhere else
            rename_i h_rest
            obtain rfl := Except.ok.inj h
            obtain rfl := List.isEmpty_iff.1 h_rest
            exact ⟨rest, Reader.program_reads.iff.1 h_program,
              (Reader.checkpoint_reads _).iff.1 h_checkpoint⟩
          · contradiction
  · rintro ⟨rest, h_program, h_rest⟩
    obtain ⟨program, checkpoint⟩ := i
    rw [Reader.program_reads.iff.2 h_program]
    cases checkpoint with
    | none =>
      obtain rfl := by simpa using h_rest
      rfl
    | some c =>
      -- bytes of a checkpoint cannot be taken for the end of the file
      have h_ne := Reader.checkpoint_ne_nil h_rest
      change (if rest.isEmpty then _ else _) = _
      rw [if_neg (mt List.isEmpty_iff.1 h_ne), (Reader.checkpoint_reads _).iff.2 h_rest]
      rfl

end ScriptMachine
