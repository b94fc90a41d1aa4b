import ScriptMachine.Proofs.Image.RoundTrip

/-!
# Images that are cut short or run on

What becomes of the bytes of an image when some are missing at their end, or some too many:

* `Image.decode_cut` : bytes that end early are refused as truncated, but for one place. Behind the
  program of a save file the bytes are a complete program file. And bytes behind a checkpoint are
  refused, with their number.

No reader looks ahead, and none checks a record before all of it is read. So the bytes that a
successful reader takes (`Reader.Takes`) decide its result, whatever follows them, and if any of
them are missing it stops inside some field and for no other reason. Every reader of the format is
`Reader.Prompt` in this sense. That is proven for the fields at the bottom and carried along binds,
where a cut falls into what one reader takes or into what the next one takes (`Takes.bind`).

The optional checkpoint is the only place at which the format does look ahead, if only for the end
of the bytes, and it is treated in `Image.decode` itself.
-/

namespace ScriptMachine

namespace Reader

variable {α β : Type}

/-! ### Taking bytes and no more -/

/-- The reader takes exactly these bytes to produce `a`. What follows does not matter, and any
fewer of them end inside a field. -/
structure Takes (r : Reader α) (taken : List UInt8) (a : α) : Prop where
  ok : ∀ rest, r (taken ++ rest) = .ok (a, rest)
  cut : ∀ input, input <+: taken → input ≠ taken → ∃ field, r input = .error (.truncated field)

/-- **Readers that stop as soon as they can.** Wherever one succeeds, it takes what it has
consumed. -/
def Prompt (r : Reader α) : Prop :=
  ∀ input a rest, r input = .ok (a, rest) → ∃ taken, r.Takes taken a ∧ input = taken ++ rest

theorem bind_eq_error {r : Reader α} {next : α → Reader β} {input : List UInt8} {e : LoadError}
    (h : r input = .error e) : (r >>= next) input = .error e := by
  change Except.bind (r input) (fun x => next x.1 x.2) = .error e
  rw [h]
  rfl

theorem bind_eq_next {r : Reader α} {next : α → Reader β} {input mid : List UInt8} {a : α}
    (h : r input = .ok (a, mid)) : (r >>= next) input = next a mid := by
  change Except.bind (r input) (fun x => next x.1 x.2) = next a mid
  rw [h]
  rfl

theorem Takes.bind {r : Reader α} {next : α → Reader β} {s t : List UInt8} {a : α} {b : β}
    (hr : r.Takes s a) (h_next : (next a).Takes t b) : (r >>= next).Takes (s ++ t) b where
  ok rest := by
    rw [List.append_assoc, bind_eq_next (hr.ok _)]
    exact h_next.ok rest
  cut input h_cut h_ne := by
    by_cases h : input <+: s ∧ input ≠ s
    · -- the cut falls into what the first reader takes
      obtain ⟨field, h_field⟩ := hr.cut input h.1 h.2
      exact ⟨field, bind_eq_error h_field⟩
    · -- or the first reader has all it needs, and the cut falls into what the next one takes
      obtain ⟨cut, rfl⟩ : s <+: input := by
        rcases List.prefix_or_prefix_of_prefix h_cut (List.prefix_append s t) with h_s | h_s
        · have h_eq : input = s := not_not.1 fun h_ne => h ⟨h_s, h_ne⟩
          exact h_eq ▸ List.prefix_rfl
        · exact h_s
      rw [List.prefix_append_right_inj] at h_cut
      obtain ⟨field, h_field⟩ := h_next.cut cut h_cut fun h_eq => h_ne (by rw [h_eq])
      exact ⟨field, by rw [bind_eq_next (hr.ok cut), h_field]⟩

theorem Prompt.bind {r : Reader α} {next : α → Reader β} (hr : r.Prompt)
    (h_next : ∀ a, (next a).Prompt) : (r >>= next).Prompt := by
  intro input b rest h
  obtain ⟨a, mid, h_a, h_b⟩ := bind_eq_ok_iff.1 h
  obtain ⟨s, h_s, rfl⟩ := hr input a mid h_a
  obtain ⟨t, h_t, rfl⟩ := h_next a mid b rest h_b
  -- The second reader starts where the first one stopped, so what they take stands in a row.
  exact ⟨s ++ t, h_s.bind h_t, (List.append_assoc ..).symm⟩

/-- A reader that takes nothing cannot be cut short. -/
theorem Prompt.pure (a : α) : (pure a : Reader α).Prompt := by
  intro input a' rest h
  obtain ⟨rfl, rfl⟩ := pure_eq_ok_iff.1 h
  exact ⟨[], ⟨fun _ => rfl, fun _ h_cut h_ne => absurd (List.prefix_nil.1 h_cut) h_ne⟩, rfl⟩

/-- A reader that never succeeds takes nothing either. -/
theorem Prompt.fail (e : LoadError) : (fail e : Reader α).Prompt :=
  fun _ _ _ h => absurd h fail_ne_ok

/-- A check either fails or changes nothing. -/
theorem Prompt.check {condition : Prop} [Decidable condition] {e : LoadError}
    {next : PUnit → Reader α} (h : ∀ u, (next u).Prompt) :
    (if condition then Reader.fail e >>= next else next ()).Prompt := by
  split
  · exact (Prompt.fail e).bind h
  · exact h ()

/-! ### Fields -/

theorem length_lt_of_cut {cut taken : List UInt8} (h : cut <+: taken) (h_ne : cut ≠ taken) :
    cut.length < taken.length :=
  Nat.lt_of_le_of_ne h.length_le fun h_length => h_ne (h.eq_of_length h_length)

theorem byte_prompt (field : String) : (byte field).Prompt := by
  intro input b rest h
  obtain rfl := byte_eq_ok_iff.1 h
  refine ⟨[b], ⟨fun _ => rfl, fun cut h_cut h_ne => ⟨field, ?_⟩⟩, rfl⟩
  -- The only cut of one byte is no byte.
  have h_length := length_lt_of_cut h_cut h_ne
  obtain rfl : cut = [] := List.length_eq_zero_iff.1 (Nat.lt_one_iff.1 h_length)
  rfl

/-- Fewer than four bytes are no word. -/
theorem word_of_length_lt {field : String} {input : List UInt8} (h : input.length < 4) :
    word field input = .error (.truncated field) := by
  match input with
  | [] | [_] | [_, _] | [_, _, _] => rfl
  | _ :: _ :: _ :: _ :: _ => simp at h; omega

theorem word_prompt (field : String) : (word field).Prompt := by
  intro input w rest h
  have h_splits := Form.splits_word.1 ((word_reads field).iff.1 h)
  refine ⟨Writer.word w, ⟨fun rest' => ?_, fun cut h_cut h_ne => ⟨field, ?_⟩⟩, h_splits⟩
  · exact (word_reads field).iff.2 (Form.splits_word.2 rfl)
  · -- a cut is shorter than the word, whatever bytes are in it
    exact word_of_length_lt (length_lt_of_cut h_cut h_ne)

theorem bytes_prompt (field : String) (count : Nat) : (bytes field count).Prompt := by
  intro input taken rest h
  obtain ⟨h_count, rfl⟩ := bytes_eq_ok_iff.1 h
  refine ⟨taken, ⟨fun rest' => bytes_eq_ok_iff.2 ⟨h_count, rfl⟩, fun cut h_cut h_ne => ?_⟩, rfl⟩
  have h_length := length_lt_of_cut h_cut h_ne
  exact ⟨field, if_neg (by omega)⟩

/-- Without a zero byte a text does not end. -/
theorem text_of_zero_notMem {field : String} {input : List UInt8} (h : 0 ∉ input) :
    text field input = .error (.truncated field) := by
  have h_ne : ∀ b ∈ input, (b != 0) = true := fun b hb => bne_iff_ne.2 fun h_zero => h (h_zero ▸ hb)
  have h_drop : input.dropWhile (· != 0) = [] := by
    rw [← List.append_nil input, List.dropWhile_append_of_pos h_ne, List.dropWhile_nil]
  unfold text
  rw [h_drop]

theorem text_prompt (field : String) : (text field).Prompt := by
  intro input s rest h
  obtain ⟨raw, h_raw, h_decode, rfl⟩ := Form.splits_text.1 ((text_reads field).iff.1 h)
  refine ⟨raw ++ [0], ⟨fun rest' => ?_, fun cut h_cut h_ne => ⟨field, ?_⟩⟩, by simp⟩
  · exact (text_reads field).iff.2 (Form.splits_text.2 ⟨raw, h_raw, h_decode, by simp⟩)
  · -- the zero byte comes last, so a cut leaves it out
    have h_cut : cut <+: raw := (List.prefix_concat_iff.1 h_cut).resolve_left h_ne
    exact text_of_zero_notMem fun h_zero => h_raw (h_cut.subset h_zero)

theorem flag_prompt (field : String) : (flag field).Prompt :=
  (byte_prompt field).bind fun _ => .pure _

theorem tagOf_prompt (number : UInt32) : (tagOf number).Prompt := by
  unfold tagOf
  cases Tag.ofNumber? number with
  | none => exact .fail _
  | some tag => exact .pure tag

/-! ### Tables -/

theorem entriesFrom_prompt {entry : Nat → Reader α} (h : ∀ index, (entry index).Prompt)
    (index count : Nat) : (entriesFrom entry index count).Prompt := by
  induction count generalizing index with
  | zero => exact .pure []
  -- each entry has its own place, so the hypothesis is about every index
  | succ count ih => exact (h index).bind fun _ => (ih (index + 1)).bind fun _ => .pure _

theorem entries_prompt {entry : Reader α} (h : entry.Prompt) (count : Nat) :
    (entries count entry).Prompt := entriesFrom_prompt (fun _ => h) 0 count

theorem signedCount_prompt (field : String) : (signedCount field).Prompt :=
  (word_prompt field).bind fun _ => .pure _

theorem names_prompt (field : String) : (names field).Prompt :=
  (signedCount_prompt field).bind fun count => entries_prompt (text_prompt field) count

/-! ### Programs -/

/-- An opcode is checked when all five words are there, so a cut inside the record hides it. -/
theorem instruction_prompt (index : Nat) : (instruction index).Prompt := by
  refine (word_prompt _).bind fun opcode => (word_prompt _).bind fun _ =>
    (word_prompt _).bind fun tag => (word_prompt _).bind fun _ => (word_prompt _).bind fun _ => ?_
  -- All words are read, so what is left are checks, which take nothing.
  cases Opcode.ofNumber? opcode with
  | none => exact .fail _
  | some _ => exact (tagOf_prompt tag).bind fun _ => .pure _

theorem script_prompt : script.Prompt :=
  (text_prompt _).bind fun _ => (text_prompt _).bind fun _ => (word_prompt _).bind fun _ =>
    (word_prompt _).bind fun _ => (names_prompt _).bind fun _ => (word_prompt _).bind fun _ =>
    (word_prompt _).bind fun _ => (word_prompt _).bind fun _ => .pure _

theorem data_prompt : data.Prompt := by
  refine (word_prompt _).bind fun size => ?_
  -- A negative size is refused before any byte of the pool is read.
  by_cases h : size.toInt32 < 0
  · rw [if_pos h]
    exact .fail _
  · rw [if_neg h]
    exact bytes_prompt _ _

/-- A cut inside the magic bytes is not taken for wrong ones, nor one inside the version. -/
theorem header_prompt : header.Prompt :=
  (bytes_prompt _ _).bind fun _ => .check fun _ => (word_prompt _).bind fun _ => .check fun _ =>
    .pure _

theorem program_prompt : program.Prompt :=
  header_prompt.bind fun _ => (names_prompt _).bind fun _ =>
    (signedCount_prompt _).bind fun _ => (entriesFrom_prompt instruction_prompt _ _).bind fun _ =>
    (signedCount_prompt _).bind fun _ => (entries_prompt (word_prompt _) _).bind fun _ =>
    (signedCount_prompt _).bind fun _ => (entries_prompt script_prompt _).bind fun _ =>
    data_prompt.bind fun _ => .pure _

/-! ### Checkpoints -/

theorem tagged_prompt (payloads : List UInt32) : (tagged payloads).Prompt := by
  induction payloads with
  | nil => exact .pure []
  | cons bits payloads ih =>
    exact (word_prompt _).bind fun number => (tagOf_prompt number).bind fun _ =>
      ih.bind fun _ => .pure _

theorem variableSlot_prompt : variableSlot.Prompt :=
  (byte_prompt _).bind fun tag => (word_prompt _).bind fun _ => (text_prompt _).bind fun _ =>
    (tagOf_prompt tag.toUInt32).bind fun _ => .pure _

theorem variableTable_prompt (field : String) : (variableTable field).Prompt :=
  (word_prompt field).bind fun _ => entries_prompt variableSlot_prompt _

theorem stack_prompt : stack.Prompt := by
  refine (word_prompt _).bind fun _ => .check fun _ => (word_prompt _).bind fun pushes =>
    (word_prompt _).bind fun pops => (entries_prompt (word_prompt _) _).bind fun payloads =>
    (tagged_prompt payloads).bind fun values => ?_
  -- The stack is put together when all of its fields are there.
  cases Stack.ofValues? values pushes pops with
  | none => exact .fail _
  | some s => exact .pure s

theorem task_prompt (scripts : List Script) : (task scripts).Prompt := by
  refine (variableTable_prompt _).bind fun _ => (word_prompt _).bind fun _ =>
    (word_prompt _).bind fun _ => (word_prompt _).bind fun _ => (word_prompt _).bind fun _ =>
    (word_prompt _).bind fun _ => (word_prompt _).bind fun _ => (word_prompt _).bind fun _ =>
    (word_prompt _).bind fun scriptId => (word_prompt _).bind fun _ => (flag_prompt _).bind fun _ =>
    (flag_prompt _).bind fun _ => (flag_prompt _).bind fun _ => (flag_prompt _).bind fun _ =>
    stack_prompt.bind fun _ => (word_prompt _).bind fun _ =>
    (entries_prompt (word_prompt _) _).bind fun _ => ?_
  -- whether there is such a script is asked when the whole record is there
  cases ofOrdinal? scripts scriptId with
  | none => exact .fail _
  | some _ => exact .pure _

theorem checkpoint_prompt (scripts : List Script) : (checkpoint scripts).Prompt :=
  stack_prompt.bind fun _ => (variableTable_prompt _).bind fun _ => (word_prompt _).bind fun _ =>
    (entries_prompt (task_prompt scripts) _).bind fun _ => (word_prompt _).bind fun _ =>
    (word_prompt _).bind fun _ => (word_prompt _).bind fun _ => (word_prompt _).bind fun _ =>
    (word_prompt _).bind fun _ => .pure _

/-- A prompt reader that leaves nothing over takes all. -/
theorem Prompt.takes_all {r : Reader α} (hr : r.Prompt) {w : List UInt8} {a : α}
    (h : r w = .ok (a, [])) : r.Takes w a := by
  obtain ⟨taken, h_taken, h_eq⟩ := hr w a [] h
  rwa [h_eq, List.append_nil]

/-- A prompt reader takes a piece of the form of what it reads, whichever it is. -/
theorem Prompt.takes {r : Reader α} {F : α → Form} (hr : r.Prompt) (h : r.Reads F) {a : α}
    {w : List UInt8} (h_w : ∃ p ∈ F a, p.bytes = w) : r.Takes w a := by
  obtain ⟨p, hp, rfl⟩ := h_w
  exact hr.takes_all (h.iff.2 ⟨p, hp, (List.append_nil _).symm⟩)

end Reader

/-! ### Images -/

/-- The image without the checkpoint. -/
def Image.bare (i : Image) : Image := { i with checkpoint := none }

@[simp] theorem Image.encode_bare (i : Image) : i.bare.encode = Writer.program i.program :=
  List.append_nil _

namespace Image

variable {i : Image}

theorem Writable.bare (h : i.Writable) : i.bare.Writable := ⟨h.program, nofun⟩

theorem Writable.takes_program (h : i.Writable) :
    Reader.program.Takes (Writer.program i.program) i.program :=
  Reader.program_prompt.takes Reader.program_reads
    ((Writes.program i.program).exists_mem (Form.nonempty_program_iff.2 h.program))

theorem Writable.takes_checkpoint (h : i.Writable) {c : Checkpoint} (hc : i.checkpoint = some c) :
    (Reader.checkpoint i.program.scripts).Takes (Writer.checkpoint c) c :=
  (Reader.checkpoint_prompt _).takes (Reader.checkpoint_reads _)
    ((Writes.checkpoint _ c).exists_mem (Form.nonempty_checkpoint_iff.2 (h.checkpoint c hc)))

theorem decode_of_program_error {bytes : List UInt8} {e : LoadError}
    (h : Reader.program bytes = .error e) : decode bytes = .error e := by
  unfold decode
  rw [h]
  rfl

/-- Behind a program there is a checkpoint or the end. -/
theorem decode_of_program {bytes rest : List UInt8} {p : Program}
    (h : Reader.program bytes = .ok (p, rest)) (h_rest : rest ≠ []) :
    decode bytes = (Reader.checkpoint p.scripts rest).bind fun x =>
      if x.2.isEmpty then .ok { program := p, checkpoint := some x.1 }
      else .error (.trailingBytes x.2.length) := by
  unfold decode
  rw [h]
  change (if rest.isEmpty then _ else _) = _
  rw [if_neg (mt List.isEmpty_iff.1 h_rest)]
  rfl

theorem encode_eq {c : Checkpoint} (hc : i.checkpoint = some c) :
    i.encode = i.bare.encode ++ Writer.checkpoint c := by
  rw [encode_bare, encode, hc]
  rfl

/-- A cut inside the checkpoint is noticed, unless it takes all of it away. -/
theorem Writable.decode_cut_checkpoint (h : i.Writable) {c : Checkpoint}
    (hc : i.checkpoint = some c) {cut : List UInt8} (h_cut : cut <+: Writer.checkpoint c)
    (h_ne : cut ≠ Writer.checkpoint c) (h_nil : cut ≠ []) :
    ∃ field, decode (i.bare.encode ++ cut) = .error (.truncated field) := by
  obtain ⟨field, h_field⟩ := (h.takes_checkpoint hc).cut cut h_cut h_ne
  refine ⟨field, ?_⟩
  rw [encode_bare, decode_of_program (h.takes_program.ok cut) h_nil, h_field]
  rfl

theorem Writable.decode_append (h : i.Writable) {c : Checkpoint} (hc : i.checkpoint = some c)
    {surplus : List UInt8} (h_nil : surplus ≠ []) :
    decode (i.encode ++ surplus) = .error (.trailingBytes surplus.length) := by
  -- The surplus makes sure that there is something behind the program, so a checkpoint is read, and
  -- it takes its own bytes only.
  have h_rest : Writer.checkpoint c ++ surplus ≠ [] := List.append_ne_nil_of_right_ne_nil _ h_nil
  rw [encode_eq hc, encode_bare, List.append_assoc,
    decode_of_program (h.takes_program.ok _) h_rest, (h.takes_checkpoint hc).ok]
  exact if_neg (mt List.isEmpty_iff.1 h_nil)

/-- **Cuts and surplus.** Bytes of an image that end early are refused as truncated, whatever field
the cut falls into. Only where everything but the checkpoint is left they are an image, the one
without it. Behind a checkpoint nothing may follow, and what does is counted. -/
theorem decode_cut (h : i.Writable) :
    (∀ cut, cut <+: i.encode → cut ≠ i.encode → cut ≠ i.bare.encode →
      ∃ field, decode cut = .error (.truncated field)) ∧
    ∀ c, i.checkpoint = some c →
      i.bare.encode <+: i.encode ∧ i.bare.encode ≠ i.encode ∧
      decode i.bare.encode = .ok i.bare ∧
      ∀ surplus, surplus ≠ [] →
        decode (i.encode ++ surplus) = .error (.trailingBytes surplus.length) := by
  refine ⟨fun cut h_cut h_ne h_bare => ?_, fun c hc => ⟨?_, ?_, h.bare.decode_encode,
    fun surplus h_nil => h.decode_append hc h_nil⟩⟩
  · by_cases h_program : cut <+: i.bare.encode
    · rw [encode_bare] at h_program h_bare
      obtain ⟨field, h_field⟩ := h.takes_program.cut cut h_program h_bare
      exact ⟨field, decode_of_program_error h_field⟩
    · -- the program is complete, so there is a checkpoint and the cut falls into it
      cases hc : i.checkpoint with
      | none =>
        have h_eq : i.bare = i := by rw [bare, ← hc]
        exact absurd (h_eq ▸ h_cut) h_program
      | some c =>
        rw [encode_eq hc] at h_cut h_ne
        obtain ⟨rest, rfl⟩ := (List.prefix_or_prefix_of_prefix h_cut
          (List.prefix_append i.bare.encode _)).resolve_left h_program
        rw [List.prefix_append_right_inj] at h_cut
        exact h.decode_cut_checkpoint hc h_cut (fun h_eq => h_ne (by rw [h_eq]))
          fun h_nil => h_bare (by rw [h_nil, List.append_nil])
  · rw [encode_eq hc]
    exact List.prefix_append ..
  · -- a checkpoint is never written as no bytes at all
    rw [encode_eq hc, ne_eq, List.self_eq_append_right]
    obtain ⟨p, hp, h_bytes⟩ := (Writes.checkpoint i.program.scripts c).exists_mem
      (Form.nonempty_checkpoint_iff.2 (h.checkpoint c hc))
    exact Reader.checkpoint_ne_nil ⟨p, hp, by rw [List.append_nil, h_bytes]⟩

/-- A save file that ends inside the number on top of its stack, one that ends with the program,
and one with a byte too many. -/
theorem decode_cut_loose :
    looseImage.Writable ∧
    looseImage.encode.take 73 <+: looseImage.encode ∧
    looseImage.encode.take 73 ≠ looseImage.encode ∧
    looseImage.encode.take 73 ≠ looseImage.bare.encode ∧
    (∃ field, decode (looseImage.encode.take 73) = .error (.truncated field)) ∧
    decode looseImage.bare.encode = .ok looseImage.bare ∧
    decode (looseImage.encode ++ [0]) = .error (.trailingBytes 1) := by
  have h_writable : looseImage.Writable := writable_of_decode decode_looseBytes
  have h_cut : looseImage.encode.take 73 <+: looseImage.encode := List.take_prefix ..
  have h_ne : looseImage.encode.take 73 ≠ looseImage.encode := by decide +kernel
  have h_ne_bare : looseImage.encode.take 73 ≠ looseImage.bare.encode := by decide +kernel
  obtain ⟨h_cuts, h_checkpoint⟩ := decode_cut h_writable
  obtain ⟨-, -, h_bare, h_surplus⟩ := h_checkpoint _ rfl
  exact ⟨h_writable, h_cut, h_ne, h_ne_bare, h_cuts _ h_cut h_ne h_ne_bare, h_bare,
    h_surplus [0] nofun⟩

end Image

end ScriptMachine
