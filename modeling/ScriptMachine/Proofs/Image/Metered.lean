import ScriptMachine.Proofs.Image.Truncation

/-!
# Readers with a meter

A reader that fails says nothing about how far it got, and one that succeeds nothing about the
tables that it went through. A `Metered` reader does: beside its result it gives a `Tally` of every
table that it has begun, with the number of entries that the length of the table announces and the
number of those that were read (`Reader.completed`).

The readers of the format that have tables in them are written once more with a meter, and what has
none is run as it is (`Metered.quiet`). Without the meter (`Metered.plain`) they are the readers
that they are named for, down to `Metered.image`, whose results are those of `Image.decode`
(`Metered.image_eq_decode`).
-/

namespace ScriptMachine

/-! ### Tallies -/

/-- The tables of a file. A stack has two, one after the other. -/
inductive Table where
  | globals
  | code
  | autostart
  | scripts
  | localNames
  | data
  | payloads
  | tags
  | variables
  | tasks
  | handlers
deriving DecidableEq, Repr

/-- What became of a table that was begun. -/
structure Tally where
  table : Table
  /-- The number of entries that its length announces. -/
  announced : Nat
  /-- The number of entries that were read before the table was complete or an entry refused. -/
  completed : Nat
deriving DecidableEq, Repr

/-- The number of entries of a table that are read before it is complete or one is refused. -/
def Reader.completed {α : Type} (entry : Nat → Reader α) (index : Nat) : Nat → List UInt8 → Nat
  | 0, _ => 0
  | count + 1, input =>
    match entry index input with
    | .error _ => 0
    | .ok (_, rest) => completed entry (index + 1) count rest + 1

/-- Reads like a `Reader`, and keeps a tally of every table. -/
def Metered (α : Type) : Type :=
  List UInt8 → Except LoadError (α × List UInt8) × List Tally

namespace Metered

variable {α β : Type}

/-- The reader without the meter. -/
def plain (r : Metered α) : Reader α := fun input => (r input).1

instance : Monad Metered where
  pure a := fun input => (.ok (a, input), [])
  bind r next := fun input =>
    match r input with
    | (.error e, tallies) => (.error e, tallies)
    | (.ok (a, rest), tallies) => ((next a rest).1, tallies ++ (next a rest).2)

/-- A reader of something that has no tables in it. -/
def quiet (r : Reader α) : Metered α := fun input => (r input, [])

/-- Reads `count` entries, each with a reader that knows its place in the table. -/
def entriesFrom (entry : Nat → Metered α) (index : Nat) : Nat → Metered (List α)
  | 0 => return []
  | count + 1 => do
    let first ← entry index
    return first :: (← entriesFrom entry (index + 1) count)

/-- The tables inside of the entries come before the table itself. -/
def table (kind : Table) (count : Nat) (entry : Nat → Metered α) : Metered (List α) := fun input =>
  let (result, inner) := entriesFrom entry 0 count input
  (result, inner ++ [⟨kind, count, Reader.completed (fun i => (entry i).plain) 0 count input⟩])

/-- The bytes of the text pool are taken all at once or not at all. -/
def pool (count : Nat) : Metered (List UInt8) := fun input =>
  let result := Reader.bytes "data" count input
  (result, [⟨.data, count, if result.isOk then count else 0⟩])

/-! ### The readers of the format -/

def names (kind : Table) (field : String) : Metered (List String) := do
  table kind (← quiet (Reader.signedCount field)) fun _ => quiet (Reader.text field)

def script : Metered Script := do
  let name ← quiet (Reader.text "script name")
  let file ← quiet (Reader.text "script filename")
  let kind ← quiet (Reader.word "script type")
  let offset ← quiet (Reader.word "script variables offset")
  let localNames ← names .localNames "script variables"
  let entry ← quiet (Reader.word "script instruction address")
  let parameterCount ← quiet (Reader.word "script parameter count")
  let id ← quiet (Reader.word "script id")
  return { name, file, kind := ⟨kind⟩, offset, localNames, entry, parameterCount, id }

def data : Metered (List UInt8) := do
  let size := (← quiet (Reader.word "data size")).toInt32
  if size < 0 then quiet (Reader.fail (.negativeCount "data" size)) else pool size.toInt.toNat

def program : Metered Program := do
  let version ← quiet Reader.header
  let globals ← names .globals "global variable names"
  let code ← table .code (← quiet (Reader.signedCount "code count")) fun index =>
    quiet (Reader.instruction index)
  let autostart ← table .autostart (← quiet (Reader.signedCount "autostart count")) fun _ =>
    quiet (Reader.word "autostart id")
  let scripts ← table .scripts (← quiet (Reader.signedCount "script count")) fun _ => script
  return { version, globals, code, autostart, scripts, data := ← data }

/-- The value whose payload stands at an index, with the type tag that is read for it. -/
def valueAt (payloads : List UInt32) (index : Nat) : Reader Value := do
  let tag ← Reader.tagOf (← Reader.word "stack types")
  return ⟨tag, payloads.getD index 0⟩

def stack : Metered Stack := do
  let count ← quiet (Reader.word "stack count")
  if Stack.capacity < count.toNat then quiet (Reader.fail (.stackTooLarge count))
  let pushes ← quiet (Reader.word "stack push count")
  let pops ← quiet (Reader.word "stack pop count")
  let payloads ← table .payloads count.toNat fun _ => quiet (Reader.word "stack values")
  let values ← table .tags payloads.length fun index => quiet (valueAt payloads index)
  quiet (match Stack.ofValues? values pushes pops with
    | some s => return s
    | none => Reader.fail (.stackTooLarge count))

def variableTable (field : String) : Metered (List Variable) := do
  table .variables (← quiet (Reader.word field)).toNat fun _ => quiet Reader.variableSlot

def task (scripts : List Script) : Metered Task := do
  let locals ← variableTable "task locals"
  let id ← quiet (Reader.word "task number")
  let address ← quiet (Reader.word "task instruction address")
  let savedAddress ← quiet (Reader.word "task previous instruction address")
  let waitingFor ← quiet (Reader.word "task waiting task")
  let offset ← quiet (Reader.word "task variables offset")
  let handlerIndex ← quiet (Reader.word "task exception handler index")
  let ticks ← quiet (Reader.word "task ticks")
  let scriptId ← quiet (Reader.word "task script id")
  let kind ← quiet (Reader.word "task type")
  let inHandler ← quiet (Reader.flag "task flags")
  let stopped ← quiet (Reader.flag "task flags")
  let yielded ← quiet (Reader.flag "task flags")
  let sleeping ← quiet (Reader.flag "task flags")
  let stack ← stack
  let count ← quiet (Reader.word "task exception handler count")
  let handlers ← table .handlers count.toNat fun _ => quiet (Reader.word "task exception handlers")
  quiet (match ofOrdinal? scripts scriptId with
    | none => Reader.fail (.unknownScript id scriptId)
    | some script =>
      return {
        id, scriptId, name := script.name, file := script.file, kind := ⟨kind⟩, address,
        savedAddress, waitingFor, offset, locals, stack, handlers, handlerIndex, ticks, inHandler,
        stopped, yielded, sleeping })

def checkpoint (scripts : List Script) : Metered Checkpoint := do
  let stack ← stack
  let globals ← variableTable "global values"
  let tasks ← table .tasks (← quiet (Reader.word "task count")).toNat fun _ => task scripts
  let ticks ← quiet (Reader.word "clock ticks")
  let line ← quiet (Reader.word "current line number")
  let highestTask ← quiet (Reader.word "highest task id")
  let highestScript ← quiet (Reader.word "highest script id")
  let executed ← quiet (Reader.word "executed instruction count")
  return { stack, globals, tasks, ticks, line, highestTask, highestScript, executed }

/-- Whether there are no bytes left. -/
def ended : Reader Bool := fun input => .ok (input.isEmpty, input)

/-- Nothing may be left. -/
def surplus : Reader α := fun input => .error (.trailingBytes input.length)

def image : Metered Image := do
  let program ← program
  if ← quiet ended then return { program }
  let checkpoint ← checkpoint program.scripts
  if ← quiet ended then return { program, checkpoint := some checkpoint }
  quiet surplus

/-! ### Without the meter -/

@[simp] theorem plain_pure (a : α) : (pure a : Metered α).plain = pure a := rfl

@[simp] theorem plain_quiet (r : Reader α) : (quiet r).plain = r := rfl

section

variable {r : Metered α} {next : α → Metered β} {input rest : List UInt8} {tallies : List Tally}

theorem bind_of_error {e : LoadError} (h : r input = (.error e, tallies)) :
    (r >>= next) input = (.error e, tallies) := by
  simp only [Bind.bind, h]

theorem bind_of_ok {a : α} (h : r input = (.ok (a, rest), tallies)) :
    (r >>= next) input = ((next a rest).1, tallies ++ (next a rest).2) := by
  simp only [Bind.bind, h]

end

@[simp] theorem plain_bind (r : Metered α) (next : α → Metered β) :
    (r >>= next).plain = r.plain >>= fun a => (next a).plain := by
  funext input
  change ((r >>= next) input).1 = _
  match h : r input with
  | (.error e, tallies) => rw [Reader.bind_eq_error (congrArg Prod.fst h), bind_of_error h]
  | (.ok (a, rest), tallies) =>
    rw [Reader.bind_eq_next (congrArg Prod.fst h), bind_of_ok h]
    rfl

@[simp] theorem plain_ite {condition : Prop} [Decidable condition] (r s : Metered α) :
    (if condition then r else s).plain = if condition then r.plain else s.plain :=
  apply_ite ..

@[simp] theorem plain_entriesFrom (entry : Nat → Metered α) (index count : Nat) :
    (entriesFrom entry index count).plain =
      Reader.entriesFrom (fun i => (entry i).plain) index count := by
  -- on the count, since both readers take the entries from the front
  induction count generalizing index with
  | zero => rfl
  | succ count ih => simp [entriesFrom, Reader.entriesFrom, ih]

@[simp] theorem plain_table (kind : Table) (count : Nat) (entry : Nat → Metered α) :
    (table kind count entry).plain = Reader.entriesFrom (fun i => (entry i).plain) 0 count :=
  plain_entriesFrom entry 0 count

@[simp] theorem plain_pool (count : Nat) : (pool count).plain = Reader.bytes "data" count := rfl

theorem plain_names (kind : Table) (field : String) :
    (names kind field).plain = Reader.names field := by
  simp [names, Reader.names, Reader.entries]

theorem plain_script : script.plain = Reader.script := by
  simp [script, Reader.script, plain_names]

theorem plain_data : data.plain = Reader.data := by
  simp [data, Reader.data]

theorem plain_program : program.plain = Reader.program := by
  simp [program, Reader.program, Reader.entries, plain_names, plain_script, plain_data]

theorem entriesFrom_valueAt_append (before payloads : List UInt32) :
    Reader.entriesFrom (valueAt (before ++ payloads)) before.length payloads.length =
      Reader.tagged payloads := by
  induction payloads generalizing before with
  | nil => rfl
  | cons bits payloads ih =>
    -- The payload in front joins those that were read before, which is what its successors count
    -- their index from.
    have h_later := ih (before ++ [bits])
    rw [List.append_assoc, List.singleton_append, List.length_append, List.length_singleton]
      at h_later
    rw [List.length_cons]
    unfold Reader.entriesFrom Reader.tagged
    rw [h_later]
    simp [valueAt]

/-- A value finds its payload by its index, or has it at hand. -/
theorem entriesFrom_valueAt (payloads : List UInt32) :
    Reader.entriesFrom (valueAt payloads) 0 payloads.length = Reader.tagged payloads :=
  entriesFrom_valueAt_append [] payloads

theorem plain_stack : stack.plain = Reader.stack := by
  simp only [stack, plain_bind, plain_quiet, plain_ite, plain_table, entriesFrom_valueAt]
  rfl

theorem plain_variableTable (field : String) :
    (variableTable field).plain = Reader.variableTable field := by
  simp [variableTable, Reader.variableTable, Reader.entries]

theorem plain_task (scripts : List Script) : (task scripts).plain = Reader.task scripts := by
  simp only [task, plain_bind, plain_quiet, plain_table, plain_variableTable, plain_stack]
  rfl

theorem plain_checkpoint (scripts : List Script) :
    (checkpoint scripts).plain = Reader.checkpoint scripts := by
  simp [checkpoint, Reader.checkpoint, Reader.entries, plain_variableTable, plain_stack, plain_task]

/-- An image is decoded as ever. -/
theorem image_eq_decode (bytes : List UInt8) :
    (image bytes).1.map (·.1) = Image.decode bytes := by
  change (image.plain bytes).map (·.1) = _
  simp only [image, plain_bind, plain_quiet, plain_ite, plain_pure, plain_program,
    plain_checkpoint]
  cases h : Reader.program bytes with
  | error e =>
    rw [Reader.bind_eq_error h, Image.decode_of_program_error h]
    rfl
  | ok x =>
    obtain ⟨p, rest⟩ := x
    rw [Reader.bind_eq_next h]
    cases rest with
    | nil =>
      -- the file ends behind the program
      unfold Image.decode
      rw [h]
      rfl
    | cons b rest =>
      have h_more : ended (b :: rest) = .ok (false, b :: rest) := rfl
      rw [Image.decode_of_program h (List.cons_ne_nil b rest), Reader.bind_eq_next h_more,
        if_neg Bool.false_ne_true]
      -- Bytes are left, so both readers try a checkpoint and then ask whether more is left.
      cases h_checkpoint : Reader.checkpoint p.scripts (b :: rest) with
      | error e =>
        rw [Reader.bind_eq_error h_checkpoint]
        rfl
      | ok y =>
        obtain ⟨c, surplus⟩ := y
        rw [Reader.bind_eq_next h_checkpoint]
        cases surplus <;> rfl

end Metered

end ScriptMachine
