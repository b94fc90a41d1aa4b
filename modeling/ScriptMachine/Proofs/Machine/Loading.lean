import ScriptMachine.Proofs.Machine.Overlay
import ScriptMachine.Proofs.Machine.Parameters
import ScriptMachine.Proofs.Machine.SaveRestore

/-!
# Loading and restoring forget the past

A file is loaded or restored entirely or not at all (`Machine.load_replaces`). Either it is refused,
and then the machine is as it was and the host was told nothing; or the state is replaced by another
one. Whether it is, by which state, and what the host is told on the way are the same for all
machines (`Routine.Replaces`).

That nothing was written before a file is refused is plain, as files are decoded first. That nothing
of the state is left is not, since the scripts of a program are started one after the other on a
machine that had a past, and take their parameters off its stack. But all of them find the machine
at the beginning of the program, and what lies beside the state makes no difference to a start
(`overlay_beside`).

What loading starts is said beside it. The main stack is empty all along, so a start takes nothing
off it, and every new id is above the others, so the tasks stand in the table in the order in which
they were started (`Machine.Loaded`).
-/

namespace ScriptMachine

/-! ### All or nothing -/

/-- The routine is refused by all machines and leaves them as they are; or it puts the same in the
place of the state of all, and tells the host the same. -/
def Routine.Replaces (setting : Setting) (r : Routine (Except LoadError Unit)) : Prop :=
  (∃ e, ∀ m, Machine.perform setting r m = some (.error e, m)) ∨
  ∃ s es count, ∀ m, Machine.perform setting r m = some (.ok (), m.replaced s es count)

namespace Machine

theorem beginning_eq (m : Machine) (i : Image) :
    m.beginning i = m.replaced (beginning default i).toState #[] 0 := by
  rw [replaced_nil]
  rfl

/-- What stands beside the blank machine is replaced as the blank machine is. -/
theorem Beside.eq_replaced {m m₁ n : Machine} (h : Beside default m m₁ n) :
    n = m.replaced m₁.toState m₁.log m₁.started := by
  obtain ⟨s, es, count, rfl, rfl⟩ := h
  show m.replaced s es count = m.replaced s (#[] ++ es) (0 + count)
  rw [Array.empty_append, Nat.zero_add]

/-- What is loaded does not depend on the machine. -/
theorem load_eq (m : Machine) (i : Image) :
    m.load i =
      m.replaced (load default i).toState (load default i).log (load default i).started := by
  -- the scripts are started side by side on the blank machine and on this one
  have h_begun : Beside default m (beginning default i) (m.beginning i) :=
    ⟨_, #[], 0, beginning_eq default i, beginning_eq m i⟩
  exact ((overlay_beside default m).load_of_beginning h_begun).eq_replaced

/-- What is restored does not depend on the machine. -/
theorem restore_eq {i : Image} {c : Checkpoint} (hc : i.checkpoint = some c) :
    ∃ s, ∀ m : Machine, m.restore i = .ok (m.replaced s #[] 0) := by
  let s : State :=
    { program := i.program, stack := c.stack, globals := .fresh nullVariableName :: c.globals
      tasks := .ofList c.tasks, ticks := c.ticks, line := c.line, highestTask := c.highestTask
      highestScript := c.highestScript, executed := c.executed }
  refine ⟨s, fun m => ?_⟩
  rw [replaced_nil]
  unfold restore
  rw [hc]
  rfl

theorem perform_load (setting : Setting) (i : Image) (m : Machine) :
    perform setting (Routine.load (.ok i)) m = some (.ok (), m.load i) := rfl

/-- Restoring is a request, and the answer to it is that of `Machine.restore`. -/
theorem perform_restore (setting : Setting) (i : Image) (m : Machine) :
    perform setting (Routine.restore (.ok i)) m =
      some (match m.restore i with
        | .ok m => (.ok (), m)
        | .error e => (.error e, m)) := by
  unfold perform Routine.restore Routine.request
  rw [Routine.run_ask]
  dsimp only [answer]
  cases m.restore i <;> rfl

theorem replaces_load (setting : Setting) (source : Except LoadError Image) :
    (Routine.load source).Replaces setting := by
  cases source with
  | error e => exact .inl ⟨e, fun m => rfl⟩
  | ok i =>
    -- What is loaded does not look at the machine, so the state of any machine will do.
    refine .inr ⟨(load default i).toState, (load default i).log, (load default i).started,
      fun m => ?_⟩
    rw [perform_load, ← load_eq]

theorem perform_restore_of_none (setting : Setting) {i : Image} (hc : i.checkpoint = none)
    (m : Machine) :
    perform setting (Routine.restore (.ok i)) m = some (.error .missingCheckpoint, m) := by
  rw [perform_restore, restore_of_none hc]

theorem replaces_restore (setting : Setting) (source : Except LoadError Image) :
    (Routine.restore source).Replaces setting := by
  cases source with
  | error e => exact .inl ⟨e, fun m => rfl⟩
  | ok i =>
    cases hc : i.checkpoint with
    | none =>
      -- it could be read, but there is nothing to go on from
      exact .inl ⟨.missingCheckpoint, perform_restore_of_none setting hc⟩
    | some c =>
      obtain ⟨s, h_restore⟩ := restore_eq hc
      refine .inr ⟨s, #[], 0, fun m => ?_⟩
      rw [perform_restore, h_restore]

end Machine

/-! ### What a start finds -/

/-- The host is told that there is no script with some id. -/
def Event.missesScript : Event → Bool
  | .fault ⟨.scriptIdNotFound, _, _⟩ => true
  | _ => false

/-- A stack onto which that many zeros were pushed, as far as there was room for them. -/
def Stack.zeros : Nat → Stack
  | 0 => .empty
  | count + 1 => ((zeros count).push? .zero).getD (zeros count)

/-- A task that was started off an empty stack. All its parameters are zero. -/
def Task.begun (id : UInt32) (script : Script) : Task :=
  { Task.start id script with stack := .zeros script.parameterCount.toNat }

theorem Stack.filled_zeros (count : Nat) :
    Stack.empty.filled (List.replicate count .zero) = .zeros count := by
  induction count with
  | zero => rfl
  | succ count ih =>
    unfold filled at ih ⊢
    rw [List.replicate_succ', List.foldl_append, ih]
    rfl

namespace Machine

variable {m m' : Machine}

theorem parameters_empty (count : Nat) : parameters .empty count = List.replicate count .zero := by
  unfold parameters
  rw [show Stack.empty.values = [] from rfl, List.drop_nil, List.append_nil]
  rfl

/-- **A start off an empty stack.** All that is told is of values that are missing or find no
room. -/
theorem spawn_of_empty (h : m.currentStack? = some .empty) (script : Script) :
    ∃ es : List Event, es.filter Event.missesScript = [] ∧ (m.spawn script).2 =
      (es.foldl emit m.takeId).enrol (Task.begun (m.highestTask + 1) script) := by
  have h_taken : m.takeId.currentStack? = some .empty := h
  have h_spawn := congrArg Prod.snd (spawn_eq h script)
  rw [Stack.without_of_none rfl, setStack_self h_taken, parameters_empty,
    Stack.filled_zeros] at h_spawn
  refine ⟨_, ?_, h_spawn⟩
  -- All events are the same for each parameter, and none is of a missing script.
  rw [List.filter_append, List.filter_replicate, List.filter_replicate]
  rfl

end Machine

/-! ### What loading starts -/

namespace Program

variable (p : Program)

/-- The tasks that are there once the scripts with the given ids were started, in this order. -/
def begun (scripts : List UInt32) : List Task :=
  (scripts.filterMap p.script?).mapIdx fun k script => .begun (UInt32.ofNat (k + 1)) script

/-- What the host is told about those ids that no script has. -/
def missed (scripts : List UInt32) : List Event :=
  (scripts.filter fun id => (p.script? id).isNone).map fun id => .fault ⟨.scriptIdNotFound, "", id⟩

variable {p} (scripts : List UInt32) {id : UInt32}

theorem begun_append_some {script : Script} (h : p.script? id = some script) :
    p.begun (scripts ++ [id]) =
      p.begun scripts ++ [.begun (UInt32.ofNat ((p.begun scripts).length + 1)) script] := by
  have h_found :
      (scripts ++ [id]).filterMap p.script? = scripts.filterMap p.script? ++ [script] := by
    rw [List.filterMap_append, List.filterMap_cons_some h, List.filterMap_nil]
  unfold begun
  rw [h_found, List.mapIdx_concat, List.length_mapIdx]

theorem begun_append_none (h : p.script? id = none) :
    p.begun (scripts ++ [id]) = p.begun scripts := by
  unfold begun
  rw [List.filterMap_append, List.filterMap_cons_none h, List.filterMap_nil, List.append_nil]

theorem missed_append_some {script : Script} (h : p.script? id = some script) :
    p.missed (scripts ++ [id]) = p.missed scripts := by
  unfold missed
  rw [List.filter_append, List.filter_cons_of_neg (by simp [h]), List.filter_nil, List.append_nil]

theorem missed_append_none (h : p.script? id = none) :
    p.missed (scripts ++ [id]) = p.missed scripts ++ [.fault ⟨.scriptIdNotFound, "", id⟩] := by
  unfold missed
  rw [List.filter_append, List.filter_cons_of_pos (by simp [h]), List.filter_nil, List.map_append,
    List.map_singleton]

theorem length_begun : (p.begun scripts).length = (scripts.filterMap p.script?).length :=
  List.length_mapIdx

theorem length_begun_le : (p.begun scripts).length ≤ scripts.length := by
  rw [length_begun]
  exact List.length_filterMap_le _ _

variable {scripts}

/-- As long as the ids do not wrap around, they count from 1. -/
theorem ids_begun (h : scripts.length < UInt32.size) :
    (p.begun scripts).map (·.id.toNat) = List.range' 1 (p.begun scripts).length := by
  refine List.ext_getElem (by rw [List.length_map, List.length_range']) fun k h_k _ => ?_
  rw [List.length_map] at h_k
  have h_le := length_begun_le (p := p) scripts
  -- Ids are counted in words, which the table is too short to exhaust.
  have h_id : (p.begun scripts)[k].id = UInt32.ofNat (k + 1) :=
    congrArg Task.id List.getElem_mapIdx
  rw [List.getElem_map, List.getElem_range', h_id, UInt32.toNat_ofNat_of_lt' (by omega),
    Nat.one_mul, Nat.add_comm]

theorem id_le_of_mem_begun (h : scripts.length < UInt32.size) {t : Task}
    (h_t : t ∈ p.begun scripts) : t.id.toNat ≤ (p.begun scripts).length := by
  have h_mem : t.id.toNat ∈ List.range' 1 (p.begun scripts).length := by
    rw [← ids_begun h]
    exact List.mem_map_of_mem h_t
  have h_bounds := List.mem_range'_1.1 h_mem
  omega

end Program

namespace Machine

/-- Where loading stands once the scripts with the given ids were started. `m₀` is the machine
before the first of them. -/
structure Loaded (m₀ : Machine) (scripts : List UInt32) (m : Machine) : Prop where
  program : m.program = m₀.program
  focus : m.focus = .main
  stack : m.stack = .empty
  tasks : m.tasks.toList = m.program.begun scripts
  highestTask : m.highestTask = UInt32.ofNat (m.program.begun scripts).length
  told : ∃ es : List Event, m.log = m₀.log ++ es.toArray ∧
    es.filter Event.missesScript = m.program.missed scripts

namespace Loaded

variable {m₀ m : Machine} {scripts : List UInt32}

theorem beginning (m : Machine) (i : Image) : Loaded (m.beginning i) [] (m.beginning i) where
  program := rfl
  focus := rfl
  stack := rfl
  tasks := rfl
  highestTask := rfl
  told := ⟨[], (Array.append_empty).symm, rfl⟩

theorem currentStack? (h : Loaded m₀ scripts m) : m.currentStack? = some .empty := by
  unfold State.currentStack?
  rw [h.focus, h.stack]

/-- One more script was looked for. -/
theorem start (h : Loaded m₀ scripts m) (h_length : scripts.length + 1 < UInt32.size)
    (id : UInt32) : Loaded m₀ (scripts ++ [id]) (m.start id).2 := by
  obtain ⟨es, h_log, h_missed⟩ := h.told
  have h_tasks := h.tasks
  have h_highest := h.highestTask
  unfold Machine.start
  cases h_script : m.program.script? id with
  | none =>
    -- the host is told, and that is all
    rw [← Program.begun_append_none scripts h_script] at h_tasks h_highest
    refine ⟨h.program, h.focus, h.stack, h_tasks, h_highest,
      es ++ [.fault ⟨.scriptIdNotFound, "", id⟩], ?_, ?_⟩
    · show (m.log.push _) = _
      rw [h_log, ← List.append_toArray, ← Array.append_assoc, Array.push_eq_append]
    · show _ = m.program.missed (scripts ++ [id])
      rw [List.filter_append, h_missed, Program.missed_append_none scripts h_script]
      rfl
  | some script =>
    obtain ⟨es', h_es', h_spawn⟩ := spawn_of_empty h.currentStack? script
    rw [foldl_emit] at h_spawn
    dsimp only
    rw [h_spawn]
    have h_begun := Program.begun_append_some scripts h_script
    have h_id : m.highestTask + 1 = UInt32.ofNat ((m.program.begun scripts).length + 1) := by
      rw [h_highest, UInt32.ofNat_add]
      rfl
    refine ⟨h.program, h.focus, h.stack, ?_, ?_, es ++ es', ?_, ?_⟩
    · -- the new id is above all the others, so the task comes last
      show TaskTable.place _ m.tasks.toList = m.program.begun (scripts ++ [id])
      rw [h_begun, ← h_id, h_tasks]
      refine TaskTable.place_last fun u h_u => ?_
      have h_u_le := Program.id_le_of_mem_begun (by omega) h_u
      have h_count := Program.length_begun_le (p := m.program) scripts
      show u.id < m.highestTask + 1
      rw [h_id, UInt32.lt_iff_toNat_lt, UInt32.toNat_ofNat_of_lt' (by omega)]
      omega
    · show m.highestTask + 1 = UInt32.ofNat (m.program.begun (scripts ++ [id])).length
      rw [h_begun, List.length_append]
      exact h_id
    · show m.log ++ _ = _
      rw [h_log, ← List.append_toArray, ← Array.append_assoc]
    · show _ = m.program.missed (scripts ++ [id])
      rw [List.filter_append, h_missed, h_es', List.append_nil,
        Program.missed_append_some scripts h_script]

theorem foldl_start (h : Loaded m₀ scripts m) (rest : List UInt32)
    (h_length : scripts.length + rest.length < UInt32.size) :
    Loaded m₀ (scripts ++ rest) (rest.foldl (fun m script => (m.start script).2) m) := by
  -- what was looked for moves over from one list to the other
  induction rest generalizing scripts m with
  | nil => rwa [List.append_nil]
  | cons id rest ih =>
    rw [List.length_cons] at h_length
    have h_start := h.start (by omega) id
    -- One script more was looked for, and one less is to be.
    have h_rest := ih h_start (by rw [List.length_append, List.length_singleton]; omega)
    rwa [List.append_assoc] at h_rest

end Loaded

theorem loaded_load (m : Machine) {i : Image}
    (h_length : i.program.autostart.length < UInt32.size) :
    Loaded (m.beginning i) i.program.autostart (m.load i) :=
  (Loaded.beginning m i).foldl_start i.program.autostart (by rwa [List.length_nil, Nat.zero_add])

/-- **Loading and restoring forget the past.** Bytes are loaded by all machines or by none, and so
they are restored. Those who refuse them are left as they are; those who do not all come to the same
state, and tell their hosts the same. Bytes without a checkpoint are not restored. Once a program is
loaded, its tasks are those of the scripts it starts by itself, in their order and with ids that
count from 1, and the host was told of each script that was to be started but does not exist. -/
theorem load_replaces (setting : Setting) (bytes : List UInt8) :
    (Routine.load (Image.decode bytes)).Replaces setting ∧
    (Routine.restore (Image.decode bytes)).Replaces setting ∧
    ∀ i : Image, Image.decode bytes = .ok i →
      (i.checkpoint = none → ∀ m : Machine,
        perform setting (Routine.restore (Image.decode bytes)) m =
          some (.error .missingCheckpoint, m)) ∧
      ∀ m : Machine, ∃ (m' : Machine) (es : List Event),
        perform setting (Routine.load (Image.decode bytes)) m = some (.ok (), m') ∧
        m'.tasks.toList = i.program.begun i.program.autostart ∧
        m'.tasks.toList.map (·.id.toNat) =
          List.range' 1 (i.program.autostart.filterMap i.program.script?).length ∧
        m'.log = m.log ++ es.toArray ∧
        es.filter Event.missesScript = i.program.missed i.program.autostart := by
  refine ⟨replaces_load setting _, replaces_restore setting _, fun i h_decode => ⟨?_, ?_⟩⟩
  · intro hc m
    rw [h_decode, perform_restore_of_none setting hc]
  · intro m
    -- a table of a file is too short for ids to wrap around
    have h_length : i.program.autostart.length < UInt32.size :=
      Nat.lt_trans (Image.writable_of_decode h_decode).program.autostart_length (by decide)
    have h_loaded := loaded_load m h_length
    obtain ⟨es, h_log, h_missed⟩ := h_loaded.told
    have h_program : (m.load i).program = i.program := h_loaded.program
    have h_tasks := h_loaded.tasks
    rw [h_program] at h_tasks h_missed
    refine ⟨m.load i, es, ?_, h_tasks, ?_, h_log, h_missed⟩
    · rw [h_decode, perform_load]
    · rw [h_tasks, Program.ids_begun h_length, Program.length_begun]

end Machine

/-- Two scripts are started, one of which has parameters, and one that is not there. -/
def startingImage : Image :=
  { program := {
      code := [⟨.finish, 0, .untyped, 0, 0⟩]
      autostart := [2, 9, 1]
      scripts := [⟨"Plain", "start.chl", .script, 0, [], 0, 0, 1⟩,
        ⟨"Given", "start.chl", .script, 0, ["x", "y"], 0, 2, 2⟩] } }

/-- The task with parameters is started first, with zeros for want of anything else, and the host is
told of the script that is missing. All this on machines in the middle of something else. -/
theorem load_replaces_starting :
    Image.decode startingImage.encode = .ok startingImage ∧
    ∀ m : Machine,
      Machine.perform addingSetting (Routine.restore (Image.decode startingImage.encode)) m =
        some (.error .missingCheckpoint, m) ∧
      ∃ (m' : Machine) (es : List Event),
        Machine.perform addingSetting (Routine.load (Image.decode startingImage.encode)) m =
          some (.ok (), m') ∧
        m'.tasks.toList.map (fun t => (t.id, t.name, t.stack.slots)) =
          [(1, "Given", [.zero, .zero]), (2, "Plain", [])] ∧
        m'.log = m.log ++ es.toArray ∧
        es.filter Event.missesScript = [.fault ⟨.scriptIdNotFound, "", 9⟩] := by
  have h_decode : Image.decode startingImage.encode = .ok startingImage := by decide +kernel
  obtain ⟨-, -, h_replaces⟩ := Machine.load_replaces addingSetting startingImage.encode
  obtain ⟨h_restore, h_load⟩ := h_replaces startingImage h_decode
  refine ⟨h_decode, fun m => ⟨h_restore rfl m, ?_⟩⟩
  obtain ⟨m', es, h_perform, h_tasks, -, h_log, h_missed⟩ := h_load m
  refine ⟨m', es, h_perform, ?_, h_log, ?_⟩
  · rw [h_tasks]
    decide +kernel
  · rw [h_missed]
    decide +kernel

end ScriptMachine
