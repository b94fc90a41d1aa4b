import ScriptMachine.Proofs.Machine.Operators

/-!
# Stacks and their counters

A stack counts the values that were put on it and those that were taken off, and both counts wrap
around. Nothing else tells how much was refused, so the counts are worth something only if they go
with what is on the stack:

* `Machine.stacks_accounted` : wherever a run from the loading of a program comes to, the counts of
  every stack differ by the number of its slots.
* `Machine.unbound_effect` : a native without a body takes as many values off as it declares,
  and puts as many on. What is missing and what finds no room is reported, and the counts are of
  the values that were really moved.

A stack is changed in four ways only (`Stack.Step`), and `Stack.Step.accounted` is about these. All
else is about which stacks there are: the one of the host and those of the live tasks
(`State.Accounted`). A run gives a task another stack only by such steps, and a task that is started
has taken the steps from an empty stack.
-/

namespace ScriptMachine

/-! ### Stacks -/

namespace Stack

variable {s t : Stack} {v : Value}

/-- As many values as are on the stack were put on and not taken off, up to a wrap around. -/
def Accounted (s : Stack) : Prop := s.pushes - s.pops = UInt32.ofNat s.size

theorem accounted_empty : empty.Accounted := by
  unfold Accounted
  decide

theorem counts_push (h : s.push? v = some t) : t.pushes = s.pushes + 1 ∧ t.pops = s.pops := by
  unfold push? at h
  split at h
  · cases h
    exact ⟨rfl, rfl⟩
  · contradiction

theorem counts_pop (h : s.pop? = some (v, t)) : t.pushes = s.pushes ∧ t.pops = s.pops + 1 := by
  unfold pop? at h
  split at h
  · contradiction
  · cases h
    exact ⟨rfl, rfl⟩

/-- Values that stay on the stack are not counted. -/
theorem counts_poke {depth : Nat} (h : s.poke? depth v = some t) :
    t.pushes = s.pushes ∧ t.pops = s.pops ∧ t.size = s.size := by
  unfold poke? at h
  split at h
  · cases h
    exact ⟨rfl, rfl, List.length_set⟩
  · contradiction

theorem counts_swap (h : s.swap? = some t) :
    t.pushes = s.pushes ∧ t.pops = s.pops ∧ t.size = s.size := by
  unfold swap? at h
  split at h
  · cases h
    exact ⟨rfl, rfl, rfl⟩
  · contradiction

/-- **One operation on a stack.** A push and a pop are counted with the slot that comes or goes. -/
theorem Step.accounted (h : s.Step t) (h_s : s.Accounted) : t.Accounted := by
  unfold Accounted at h_s ⊢
  cases h with
  | push h =>
    obtain ⟨h_pushes, h_pops⟩ := counts_push h
    calc t.pushes - t.pops = s.pushes - s.pops + 1 := by rw [h_pushes, h_pops]; grind
      _ = UInt32.ofNat s.size + 1 := by rw [h_s]
      _ = UInt32.ofNat t.size := by rw [size_filled_of_some h, UInt32.ofNat_add]; rfl
  | pop h =>
    obtain ⟨h_pushes, h_pops⟩ := counts_pop h
    have h_size : s.size = t.size + 1 := congrArg List.length (slots_pop h)
    calc t.pushes - t.pops = s.pushes - s.pops - 1 := by rw [h_pushes, h_pops]; grind
      _ = UInt32.ofNat t.size + 1 - 1 := by rw [h_s, h_size, UInt32.ofNat_add]; rfl
      _ = UInt32.ofNat t.size := UInt32.add_sub_cancel ..
  | poke h =>
    -- neither counts nor slots change
    obtain ⟨h_pushes, h_pops, h_size⟩ := counts_poke h
    rwa [h_pushes, h_pops, h_size]
  | swap h =>
    obtain ⟨h_pushes, h_pops, h_size⟩ := counts_swap h
    rwa [h_pushes, h_pops, h_size]

theorem Steps.accounted (h : s.Steps t) (h_s : s.Accounted) : t.Accounted := by
  induction h with
  | refl => exact h_s
  | tail _ h_step ih => exact h_step.accounted ih

/-- Of the values that are put on, those that find room are counted. -/
theorem counts_filled (s : Stack) (values : List Value) :
    (s.filled values).pushes = s.pushes + UInt32.ofNat (min values.length (capacity - s.size)) ∧
      (s.filled values).pops = s.pops := by
  induction values generalizing s with
  | nil =>
    rw [List.length_nil, Nat.zero_min]
    exact ⟨(UInt32.add_zero _).symm, rfl⟩
  | cons v rest ih =>
    rw [List.length_cons]
    cases h_push : s.push? v with
    | some t =>
      obtain ⟨h_pushes, h_pops⟩ := counts_push h_push
      obtain ⟨h_rest_pushes, h_rest_pops⟩ := ih t
      have h_size := size_filled_of_some h_push
      have h_le : t.size ≤ capacity := t.size_le
      -- one slot less for the others
      have h_room : min (rest.length + 1) (capacity - s.size) =
          1 + min rest.length (capacity - t.size) := by omega
      rw [filled_of_some h_push, h_rest_pushes, h_rest_pops, h_pushes, h_pops, h_room,
        UInt32.ofNat_add, UInt32.add_assoc]
      exact ⟨rfl, rfl⟩
    | none =>
      -- no room for this one, and so for none of the others
      have h_full : capacity - s.size = 0 := by rw [push?_eq_none_iff.1 h_push, Nat.sub_self]
      obtain ⟨h_pushes, h_pops⟩ := ih s
      rw [h_full, Nat.min_zero] at h_pushes ⊢
      rw [filled_of_none h_push]
      exact ⟨h_pushes, h_pops⟩

end Stack

/-! ### The stacks of a machine -/

/-- The stack of the host and those of the live tasks are accounted for. -/
structure State.Accounted (s : State) : Prop where
  main : s.stack.Accounted
  tasks : ∀ t ∈ s.tasks.toList, t.stack.Accounted

namespace State.Accounted

variable {m m' : Machine}

/-- A change to tasks that keeps their stacks, or gives them others in order. -/
theorem map (h : m.Accounted) {change : Task → Task}
    (h_change : ∀ t ∈ m.tasks.toList, t.stack.Accounted → (change t).stack.Accounted) :
    State.Accounted { m.toState with tasks := m.tasks.map change } where
  main := h.main
  tasks t h_t := by
    obtain ⟨u, h_u, rfl⟩ := TaskTable.mem_map_iff.1 h_t
    exact h_change u h_u (h.tasks u h_u)

theorem updateTask (h : m.Accounted) (task : UInt32) {change : Task → Task}
    (h_change : ∀ t ∈ m.tasks.toList, t.stack.Accounted → (change t).stack.Accounted) :
    (m.updateTask task change).Accounted := by
  refine h.map fun t h_t h_stack => ?_
  split
  · exact h_change t h_t h_stack
  · exact h_stack

theorem setStack (h : m.Accounted) {s : Stack} (h_s : s.Accounted) : (m.setStack s).Accounted := by
  unfold Machine.setStack
  -- the stack of the host, or of a task
  split
  · exact ⟨h_s, h.tasks⟩
  · exact h.updateTask _ fun _ _ _ => h_s

/-- The stack in focus is one of them. -/
theorem of_currentStack? (h : m.Accounted) {s : Stack} (h_focus : m.currentStack? = some s) :
    s.Accounted := by
  unfold currentStack? at h_focus
  split at h_focus
  · cases h_focus
    exact h.main
  · obtain ⟨t, h_find, rfl⟩ := Option.map_eq_some_iff.1 h_focus
    exact h.tasks t (TaskTable.mem_of_find? h_find)

theorem exchange (h : m.Accounted) (h_exchange : m.Exchange m') : m'.Accounted := by
  cases h_exchange with
  | tell => exact ⟨h.main, h.tasks⟩
  | restack h_focus h_step => exact h.setStack (h_step.accounted (h.of_currentStack? h_focus))

theorem exchanges (h : m.Accounted) (h_exchanges : m.Exchanges m') : m'.Accounted := by
  induction h_exchanges with
  | refl => exact h
  | tail _ h_exchange ih => exact ih.exchange h_exchange

theorem writeVariable (h : m.Accounted) (task id : UInt32) (v : Value) :
    (m.writeVariable task id v).Accounted := by
  obtain ⟨globals, change, h_set, -, h_locals⟩ := Machine.setVariable_spec m task id v
  unfold Machine.writeVariable
  split
  · exact ⟨h.main, h.tasks⟩
  · rw [Machine.foldl_emit, h_set]
    -- variables are no part of a stack
    have h_map : State.Accounted { m.toState with tasks := m.tasks.map change } := by
      refine h.map fun t _ h_stack => ?_
      obtain ⟨locals, h_change, -⟩ := h_locals t
      rwa [h_change]
    exact ⟨h_map.main, h_map.tasks⟩

/-- What the caller gives away is taken off by steps, and so is what the new task has put on. -/
theorem spawn (h : m.Accounted) (script : Script) : (m.spawn script).2.Accounted := by
  obtain ⟨m₁, s, h_exchanges, h_steps, h_spawn⟩ := Machine.spawn_spec m script
  have h_taken : m.takeId.Accounted := ⟨h.main, h.tasks⟩
  obtain ⟨h_main, h_tasks⟩ := h_taken.exchanges h_exchanges
  rw [h_spawn]
  refine ⟨h_main, fun t h_t => ?_⟩
  rcases TaskTable.mem_insert h_t with rfl | h_t
  · exact h_steps.accounted Stack.accounted_empty
  · exact h_tasks t h_t

theorem remove (h : m.Accounted) (id : UInt32) : (m.remove id).Accounted := by
  unfold Machine.remove
  split
  · exact h
  · dsimp only
    rw [Machine.foldl_emit]
    -- a stack that goes with its task is not asked for any more
    exact ⟨h.main, fun t h_t => h.tasks t (TaskTable.mem_erase h_t)⟩

theorem move (h : m.Accounted) (h_move : m.Move m') : m'.Accounted := by
  cases h_move with
  | exchange h_exchange => exact h.exchange h_exchange
  | store task id v => exact h.writeVariable task id v
  | spawn script => exact h.spawn script
  | call task script => exact (h.spawn script).updateTask task fun _ _ h_stack => h_stack
  | remove id => exact h.remove id
  | steer task change h_change =>
    refine h.updateTask task fun t _ h_stack => ?_
    have h_same : (change t).stack = t.stack := congrArg (·.stack) (h_change t)
    rwa [h_same]
  | halt task => exact h.updateTask task fun _ _ h_stack => h_stack
  | release mask =>
    refine h.map fun t _ h_stack => ?_
    dsimp only
    split
    · split <;> exact h_stack
    · exact h_stack
  | mark => exact ⟨h.main, h.tasks⟩

theorem runs (h : m.Accounted) (h_runs : m.Runs m') : m'.Accounted :=
  h_runs.lift (R := fun m m' => m.Accounted → m'.Accounted) (fun _ h => h)
    (fun h h' h_m => h' (h h_m)) (fun h_move h => h.move h_move)
    (fun _ _ _ h => ⟨h.main, h.tasks⟩) h

end State.Accounted

namespace Machine

variable {m m' : Machine}

/-- **Stacks are accounted for.** After the loading of a program, whatever a host does that is
ordinary, no stack has more than 32 slots, and on each of them the count of pushes less that of pops
is the number of slots, as words go. -/
theorem stacks_accounted {α : Type} {setting : Setting} {r : Routine α}
    (h_setting : setting.Ordinary) (h_routine : r.Only Request.Ordinary) {i : Image} {a : α}
    (h : perform setting r (m.load i) = some (a, m')) :
    (m'.stack.values.length ≤ 32 ∧
      m'.stack.pushes - m'.stack.pops = UInt32.ofNat m'.stack.values.length) ∧
    ∀ t ∈ m'.tasks.toList, t.stack.values.length ≤ 32 ∧
      t.stack.pushes - t.stack.pops = UInt32.ofNat t.stack.values.length := by
  have h_beginning : (m.beginning i).Accounted :=
    ⟨Stack.accounted_empty, fun t h_t => absurd h_t List.not_mem_nil⟩
  have h_runs := (runs_load m i).trans (runs_perform h_setting h_routine h)
  obtain ⟨h_main, h_tasks⟩ := h_beginning.runs h_runs
  have h_stack {s : Stack} (h_s : s.Accounted) : s.values.length ≤ 32 ∧
      s.pushes - s.pops = UInt32.ofNat s.values.length := by
    rw [s.length_values]
    exact ⟨s.size_le, h_s⟩
  exact ⟨h_stack h_main, fun t h_t => h_stack (h_tasks t h_t)⟩

/-- Leaves a value and starts a script. -/
def leaveAndStart : Routine UInt32 := do
  let _ ← Routine.request (.push ⟨.int, 7⟩)
  Routine.request (.start 2)

/-- The script takes more values than there are, and more than there is room for. Each of the two
stacks counts what came over it. -/
theorem stacks_accounted_taking :
    ∃ id m', perform plainSetting leaveAndStart (load {} takingImage) = some (id, m') ∧
      (m'.stack.pushes = 1 ∧ m'.stack.pops = 1 ∧
        m'.stack.pushes - m'.stack.pops = UInt32.ofNat m'.stack.values.length) ∧
      ∃ t ∈ m'.tasks.toList, t.stack.pushes = 32 ∧ t.stack.values.length ≤ 32 ∧
        t.stack.pushes - t.stack.pops = UInt32.ofNat t.stack.values.length := by
  have h_setting : plainSetting.Ordinary := fun _ h => absurd h List.not_mem_nil
  have h_routine : leaveAndStart.Only Request.Ordinary :=
    ⟨trivial, fun _ => ⟨trivial, fun _ => trivial⟩⟩
  let p := ((load {} takingImage).push ⟨.int, 7⟩).start 2
  have h_run : perform plainSetting leaveAndStart (load {} takingImage) = some p := rfl
  obtain ⟨⟨-, h_main⟩, h_tasks⟩ := stacks_accounted h_setting h_routine h_run
  obtain ⟨t, h_find, h_pushes⟩ : ∃ t, p.2.tasks.find? 1 = some t ∧ t.stack.pushes = 32 := by
    decide +kernel
  have h_t := TaskTable.mem_of_find? h_find
  obtain ⟨h_size, h_counts⟩ := h_tasks t h_t
  exact ⟨p.1, p.2, h_run, ⟨by decide +kernel, by decide +kernel, h_main⟩, t, h_t, h_pushes, h_size,
    h_counts⟩

/-! ### Natives without a body -/

section

variable {m : Machine} {s : Stack} (h : m.currentStack? = some s) (entry : Native)
include h

/-- What a native without a body leaves and what it reports, in one equation. -/
theorem callUnbound_eq (function : UInt32) : m.callUnbound function entry =
    (.fault ⟨.nativeNotFound, entry.name, function⟩ ::
        (List.replicate (entry.inputs.toNat - s.size) missingValue ++
          List.replicate (s.size - entry.inputs.toNat + entry.outputs.toNat - Stack.capacity)
            lostValue)).foldl emit
      (m.setStack ((s.without entry.inputs.toNat).filled
        (List.replicate entry.outputs.toNat .blank))) := by
  let told := m.fault .nativeNotFound entry.name function
  let below := s.without entry.inputs.toNat
  let blanks : List Value := List.replicate entry.outputs.toNat .blank
  let missing := List.replicate (entry.inputs.toNat - s.size) missingValue
  let lost := List.replicate (s.size - entry.inputs.toNat + entry.outputs.toNat - Stack.capacity)
    lostValue
  have h_told : told.currentStack? = some s := h
  -- what was missing is reported, and the rest is what lies below
  have h_taken : (popMany entry.inputs.toNat told).2 =
      missing.foldl emit (told.setStack below) := by
    rw [popMany_eq h_told]
  have h_below : (popMany entry.inputs.toNat told).2.currentStack? = some below := by
    rw [h_taken, foldl_emit]
    exact currentStack?_setStack h_told below
  -- the blanks come on what lies below, and those without room are reported
  have h_put : (popMany entry.inputs.toNat told).2.pushAll blanks =
      lost.foldl emit ((popMany entry.inputs.toNat told).2.setStack (below.filled blanks)) := by
    have h_size : below.size = s.size - entry.inputs.toNat := List.length_drop
    rw [pushAll_eq h_below, List.length_replicate, h_size]
  -- the report comes first, but makes no difference to the stack
  have h_first : told.setStack (below.filled blanks) =
      [.fault ⟨.nativeNotFound, entry.name, function⟩].foldl emit
        (m.setStack (below.filled blanks)) := setStack_foldl_emit [_] m _
  calc m.callUnbound function entry
      = lost.foldl emit ((missing.foldl emit (told.setStack below)).setStack
          (below.filled blanks)) := by rw [← h_taken, ← h_put]; rfl
    _ = lost.foldl emit (missing.foldl emit (told.setStack (below.filled blanks))) := by
        rw [setStack_foldl_emit, setStack_setStack]
    _ = _ := by rw [h_first, ← List.foldl_append, ← List.foldl_append]; rfl

/-- **Natives without a body.** Such a native does to the stack what it declares. It takes the
topmost values off, as many as it declares or else all of them, and puts blanks on, as many as it
declares or else as many as find room. The host hears that the native has no body, then of each
value that was missing, and then of each that found no room, and of nothing else. -/
theorem unbound_effect (setting : Setting) {i : Instruction} (h_call : i.opcode = .callNative)
    (h_native : setting.natives[i.operand.toNat]? = some entry) (h_unbound : entry.body = none)
    (carryOut : Routine Unit → Machine → Option Machine) (task : UInt32) :
    ∃ (left : Stack) (faults : List Fault),
      execute setting carryOut task i m =
        some (.next, { m.setStack left with log := m.log ++ (faults.map Event.fault).toArray }) ∧
      left.values = (s.values.take (s.size - entry.inputs.toNat) ++
        List.replicate entry.outputs.toNat (⟨.float, 0⟩ : Value)).take 32 ∧
      faults = ⟨.nativeNotFound, entry.name, i.operand⟩ ::
        (List.replicate (entry.inputs.toNat - s.size) ⟨.stackEmpty, "", 0⟩ ++
          List.replicate (s.size - entry.inputs.toNat + entry.outputs.toNat - 32)
            ⟨.stackFull, "", 0⟩) ∧
      left.pops = s.pops + UInt32.ofNat (min entry.inputs.toNat s.size) ∧
      left.pushes = s.pushes + UInt32.ofNat
        (min entry.outputs.toNat (32 - (s.size - entry.inputs.toNat))) := by
  -- there is no body to carry out
  have h_run : execute setting carryOut task i m =
      some (.next, m.callUnbound i.operand entry) := by
    unfold execute
    rw [if_neg (not_not_intro h_call)]
    dsimp only
    rw [h_native]
    dsimp only
    rw [h_unbound]
  have h_size : (s.without entry.inputs.toNat).size = s.size - entry.inputs.toNat :=
    List.length_drop
  obtain ⟨h_pushes, h_pops⟩ := (s.without entry.inputs.toNat).counts_filled
    (List.replicate entry.outputs.toNat .blank)
  rw [List.length_replicate, h_size] at h_pushes
  refine ⟨(s.without entry.inputs.toNat).filled (List.replicate entry.outputs.toNat .blank), _,
    ?_, ?_, rfl, h_pops, h_pushes⟩
  · rw [h_run, callUnbound_eq h, foldl_emit, log_setStack, List.map_cons, List.map_append,
      List.map_replicate, List.map_replicate]
    rfl
  · rw [Stack.values_filled, Stack.values_without]
    rfl

end

/-- A native that takes more than there is, and leaves more than there is room for. -/
def greedySetting : Setting :=
  { natives := [⟨"Greedy", 3, 34, none⟩], tickLength := Setting.defaultTickLength }

/-- Of the two values on the stack none is left, and of the blanks two find no room. -/
theorem unbound_effect_greedy :
    shortMachine.currentStack? = some shortMachine.stack ∧
    greedySetting.natives[0]? = some ⟨"Greedy", 3, 34, none⟩ ∧
    ∃ left : Stack,
      execute greedySetting noBody 0 ⟨.callNative, 0, .untyped, 0, 0⟩ shortMachine =
        some (.next, { shortMachine.setStack left with
          log := #[.fault ⟨.nativeNotFound, "Greedy", 0⟩, .fault ⟨.stackEmpty, "", 0⟩,
            .fault ⟨.stackFull, "", 0⟩, .fault ⟨.stackFull, "", 0⟩] }) ∧
      left.values = List.replicate 32 ⟨.float, 0⟩ ∧ left.pops = 2 ∧ left.pushes = 34 := by
  obtain ⟨left, faults, h_run, h_values, rfl, h_pops, h_pushes⟩ :=
    unbound_effect (m := shortMachine) (s := shortMachine.stack) rfl ⟨"Greedy", 3, 34, none⟩
      greedySetting (i := ⟨.callNative, 0, .untyped, 0, 0⟩) rfl rfl rfl noBody 0
  exact ⟨rfl, rfl, left, h_run, h_values, h_pops, h_pushes⟩

end Machine

end ScriptMachine
