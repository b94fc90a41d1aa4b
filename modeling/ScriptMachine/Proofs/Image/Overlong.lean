import ScriptMachine.Proofs.Image.Lookup

/-!
# Tables that are too long

The length of a table is a word, and it is written without a look at how long the table is. What the
word cannot tell is written all the same, as entries that nobody expects: where the table is read it
ends early, and the rest of its entries is taken for what comes next.

Nothing but memory bounds the handlers of a task. If the last task of a checkpoint has too many of
them, the first entries that are left over are taken for the five counters, and all that follows
them is surplus (`Writer.checkpoint_overlong`). So the image is refused, with as many trailing bytes
as the handlers take that were not counted (`Image.decode_overlong`).
-/

namespace ScriptMachine

namespace Writer

/-- The task without the table of its handlers, which is written last. -/
def taskHead (t : Task) : List UInt8 :=
  table variableSlot t.locals ++ word t.id ++ word t.address ++ word t.savedAddress
    ++ word t.waitingFor ++ word t.offset ++ word t.handlerIndex ++ word t.ticks ++ word t.scriptId
    ++ word t.kind.bits ++ flag t.inHandler ++ flag t.stopped ++ flag t.yielded ++ flag t.sleeping
    ++ stack t.stack

theorem task_eq (t : Task) : task t = taskHead t ++ table word t.handlers := rfl

/-- The checkpoint up to the handlers of its last task. -/
def checkpointHead (c : Checkpoint) (before : List Task) (last : Task) : List UInt8 :=
  stack c.stack ++ table variableSlot c.globals ++ word (UInt32.ofNat (before.length + 1))
    ++ before.flatMap task ++ taskHead last

/-- The counters at the end of a checkpoint. -/
def counters (c : Checkpoint) : List UInt8 :=
  [c.ticks, c.line, c.highestTask, c.highestScript, c.executed].flatMap word

theorem checkpoint_concat {c : Checkpoint} {before : List Task} {last : Task}
    (h : c.tasks = before ++ [last]) :
    checkpoint c = checkpointHead c before last ++ table word last.handlers ++ counters c := by
  -- The handlers of the last task are the last field of the last entry, so only the counters follow
  -- them.
  have h_tasks : table task c.tasks = word (UInt32.ofNat (before.length + 1))
      ++ before.flatMap task ++ taskHead last ++ table word last.handlers := by
    unfold table
    rw [h, List.length_append, List.flatMap_append, List.flatMap_singleton, task_eq]
    simp only [table, List.length_singleton, List.append_assoc]
  unfold checkpoint checkpointHead counters
  rw [h_tasks]
  simp only [List.flatMap_cons, List.flatMap_nil, List.append_assoc, List.append_nil]

theorem length_word (w : UInt32) : (word w).length = 4 := rfl

theorem length_flatMap_word (words : List UInt32) :
    (words.flatMap word).length = 4 * words.length := by
  induction words with
  | nil => rfl
  | cons w rest ih =>
    rw [List.flatMap_cons, List.length_append, length_word, ih, List.length_cons]
    omega

theorem length_counters (c : Checkpoint) : (counters c).length = 20 := length_flatMap_word _

/-- Words beyond what the length of their table tells are what comes next. -/
theorem table_word_append {kept surplus : List UInt32}
    (h : (kept ++ surplus).length % 2 ^ 32 = kept.length) :
    table word (kept ++ surplus) = table word kept ++ surplus.flatMap word := by
  -- The length is written as a word, so two tables with lengths that are alike modulo 2 ^ 32 begin
  -- alike.
  have h_length : UInt32.ofNat (kept ++ surplus).length = UInt32.ofNat kept.length := by
    rw [← h]
    exact UInt32.ofNat_mod_size.symm
  unfold table
  rw [h_length, List.flatMap_append, List.append_assoc]

/-- **What an overlong table is taken for.** The handlers of the last task that its length does not
tell are the counters, and then surplus. -/
theorem checkpoint_overlong {c : Checkpoint} {before : List Task} {last : Task}
    (h : c.tasks = before ++ [last]) {kept surplus : List UInt32}
    {ticks line highestTask highestScript executed : UInt32}
    (h_handlers : last.handlers =
      kept ++ (ticks :: line :: highestTask :: highestScript :: executed :: surplus))
    (h_kept : last.handlers.length % 2 ^ 32 = kept.length) :
    checkpoint c =
      checkpoint { c with
        tasks := before ++ [{ last with handlers := kept }],
        ticks, line, highestTask, highestScript, executed } ++
      (surplus.flatMap word ++ counters c) := by
  rw [h_handlers] at h_kept
  -- Both sides are the same bytes; they differ in where the table is taken to end.
  rw [checkpoint_concat h, h_handlers, table_word_append h_kept, checkpoint_concat rfl]
  unfold checkpointHead counters
  simp only [List.flatMap_cons, List.flatMap_nil, List.append_assoc, List.append_nil]
  rfl

end Writer

theorem exists_five {α : Type} {l : List α} (h : 5 ≤ l.length) :
    ∃ a b c d e rest, l = a :: b :: c :: d :: e :: rest := by
  match l with
  | [] | [_] | [_, _] | [_, _, _] | [_, _, _, _] => simp at h
  | a :: b :: c :: d :: e :: rest => exact ⟨a, b, c, d, e, rest, rfl⟩

namespace Image

/-- Only the number of its handlers can keep a task from being written down, and counters are
written whatever they are. -/
theorem Writable.with_handlers {i : Image} {c : Checkpoint} {before : List Task} {last : Task}
    (h : Writable { i with
      checkpoint := some { c with tasks := before ++ [{ last with handlers := [] }] } })
    {kept : List UInt32} (h_kept : kept.length < 2 ^ 32)
    (ticks line highestTask highestScript executed : UInt32) :
    Writable { i with
      checkpoint := some { c with
        tasks := before ++ [{ last with handlers := kept }],
        ticks, line, highestTask, highestScript, executed } } := by
  obtain ⟨h_program, h_checkpoint⟩ := h
  obtain ⟨h_globals, h_names, h_size, h_each⟩ := h_checkpoint _ rfl
  refine ⟨h_program, fun c' h_c' => ?_⟩
  obtain rfl := Option.some.inj h_c'
  -- Neither the number of tasks nor what is in the others depends on the handlers of the last one.
  refine ⟨h_globals, h_names, by simpa using h_size, fun t h_t => ?_⟩
  rcases List.mem_append.1 h_t with h_before | h_last
  · exact h_each t (List.mem_append_left _ h_before)
  · obtain rfl := List.mem_singleton.1 h_last
    obtain ⟨h_runs, h_locals, h_local_names, -⟩ :=
      h_each { last with handlers := [] } (List.mem_append_right _ (List.mem_singleton.2 rfl))
    exact ⟨h_runs, h_locals, h_local_names, h_kept⟩

/-- **An overlong table is refused.** Let an image be one that can be written down, but for the
handlers of its last task, which are too many for a word to count. It is refused, with as many
trailing bytes as there are in the handlers that were not counted. -/
theorem decode_overlong {i : Image} {c : Checkpoint} (h_c : i.checkpoint = some c)
    {before : List Task} {last : Task} (h_tasks : c.tasks = before ++ [last])
    (h_writable : Writable { i with
      checkpoint := some { c with tasks := before ++ [{ last with handlers := [] }] } })
    (h_over : 2 ^ 32 ≤ last.handlers.length) :
    decode i.encode =
      .error (.trailingBytes (4 * (last.handlers.length - last.handlers.length % 2 ^ 32))) := by
  have h_less := Nat.mod_lt last.handlers.length (by decide : 0 < 2 ^ 32)
  generalize h_count : last.handlers.length % 2 ^ 32 = count at h_less ⊢
  -- at least 2 ^ 32 handlers are left over, and five of them are taken for the counters
  obtain ⟨ticks, line, highestTask, highestScript, executed, surplus, h_rest⟩ :=
    exists_five (l := last.handlers.drop count) (by rw [List.length_drop]; omega)
  have h_kept : (last.handlers.take count).length = count := by
    rw [List.length_take]
    omega
  have h_handlers := (List.take_append_drop count last.handlers).symm
  rw [h_rest] at h_handlers
  have h_written := Writer.checkpoint_overlong h_tasks h_handlers (h_count.trans h_kept.symm)
  have h_read := h_writable.with_handlers (Nat.lt_of_le_of_lt (Nat.le_of_eq h_kept) h_less)
    ticks line highestTask highestScript executed
  have h_length : (surplus.flatMap Writer.word ++ Writer.counters c).length =
      4 * (last.handlers.length - count) := by
    have h_sum := congrArg List.length h_rest
    simp only [List.length_drop, List.length_cons] at h_sum
    rw [List.length_append, Writer.length_flatMap_word, Writer.length_counters]
    omega
  -- The counters themselves are behind the surplus, so there always is something left over.
  have h_surplus : surplus.flatMap Writer.word ++ Writer.counters c ≠ [] := by
    rw [← List.length_pos_iff, h_length]
    omega
  have h_refused := h_read.decode_append rfl h_surplus
  rw [encode_eq rfl, h_length, List.append_assoc] at h_refused
  rw [encode_eq h_c, h_written]
  exact h_refused

end Image

end ScriptMachine
