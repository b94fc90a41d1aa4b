import ScriptMachine.Proofs.Machine.HandlerWalk
import ScriptMachine.Proofs.Machine.Isolation
import ScriptMachine.Proofs.Machine.Origins

/-!
# Turns that come to an end

A turn goes on until the task yields, waits, stops, or enters or leaves a handler, so in code that
skips to and fro it may go on for ever. It does not where only loops lead backward
(`Program.Structured`): then it executes at most as many instructions as there are, and in a handler
as many again for each handler before it (`Machine.turn_ends`).

Neither the handlers nor the place of the one that runs are a measure, since handlers come and go
while they run. What counts is the place alone, which no instruction raises, together with the code
that follows (`Task.ahead`). An instruction of normal flow lessens the second. The one that goes on
with the next handler may raise it again, to the length of the code at most, but lessens the first.
-/

namespace ScriptMachine

/-- Jumps lead forward, except for those that are loops. -/
def Program.Structured (p : Program) : Prop :=
  ∀ (address : Nat) (i : Instruction), p.code[address]? = some i →
    i.opcode = .jump ∨ i.opcode = .jumpIfZero → i.mode ≠ Mode.backward → address < i.operand.toNat

/-- What a task has before it: the code from its address on, and in a handler the whole of the code
for each of the handlers registered before. -/
def Task.ahead (length : Nat) (t : Task) : Nat :=
  (if t.inHandler then t.handlerIndex.toNat * length else 0) + (length - t.address.toNat)

namespace Task

variable {t t' : Task} {i : Instruction} {length : Nat} {begunInHandler : Bool}

theorem ahead_le (t : Task) (length : Nat) :
    t.ahead length ≤ if t.inHandler then (t.handlerIndex.toNat + 1) * length else length := by
  unfold ahead
  split
  · rw [Nat.succ_mul]
    exact Nat.add_le_add_left (Nat.sub_le ..) _
  · rw [Nat.zero_add]
    exact Nat.sub_le ..

/-- Further on in the code, with as many handlers before it. -/
theorem ahead_lt_of_onward (h_inside : t'.inHandler = t.inHandler)
    (h_index : t'.handlerIndex = t.handlerIndex) (h_code : t.address.toNat < length)
    (h_onward : t.address.toNat < t'.address.toNat) : t'.ahead length < t.ahead length := by
  unfold ahead
  rw [h_inside, h_index]
  exact Nat.add_lt_add_left (by omega) _

/-- Anywhere in the code, with one handler less before it. -/
theorem ahead_lt_of_earlier (h_inside : t.inHandler)
    (h_index : t.handlerIndex.toNat = t'.handlerIndex.toNat + 1)
    (h_code : t.address.toNat < length) : t'.ahead length < t.ahead length := by
  -- the whole code for each handler that is left, at most
  have h_most : t'.ahead length ≤ t.handlerIndex.toNat * length := by
    refine Nat.le_trans (ahead_le t' length) ?_
    rw [h_index]
    split
    · exact Nat.le_refl _
    · exact Nat.le_mul_of_pos_left length (Nat.succ_pos _)
  refine Nat.lt_of_le_of_lt h_most ?_
  unfold ahead
  rw [if_pos h_inside]
  exact Nat.lt_add_of_pos_right (Nat.sub_pos_of_lt h_code)

theorem ahead_lt_of_passed (h_inside : t'.inHandler = t.inHandler)
    (h_index : t'.handlerIndex = t.handlerIndex) (h_code : t.address.toNat < length)
    (h_length : length < UInt32.size) (h_passed : t'.address = t.address + 1) :
    t'.ahead length < t.ahead length := by
  refine ahead_lt_of_onward h_inside h_index h_code ?_
  -- it is in the code, so the address does not wrap around
  rw [h_passed, Machine.toNat_next (by omega)]
  exact Nat.lt_succ_self _

/-- Going on with the next handler: either there is one, or the turn is over. -/
theorem afterNext_ahead (h_inside : t.inHandler) (h_code : t.address.toNat < length) :
    Machine.turnEnds true t.afterNext = true ∨ t.afterNext.ahead length < t.ahead length := by
  have h_returned (t : Task) : Machine.turnEnds true t.returned = true := by
    simp [Machine.turnEnds, returned]
  -- no handler is left, or its place is vacant, or it runs now
  by_cases h_first : t.handlerIndex = 0
  · rw [afterNext_of_first h_first]
    exact .inl (h_returned t)
  · cases h_next : t.handlers[(t.handlerIndex - 1).toNat]? with
    | none =>
      rw [afterNext_of_none h_first h_next]
      exact .inl (h_returned _)
    | some address =>
      rw [afterNext_of_some h_first h_next]
      exact .inr (ahead_lt_of_earlier h_inside (place_pred h_first).symm h_code)

/-- **What is ahead of a task lessens** with each instruction, unless the turn is over. -/
theorem after_ahead (holds : Bool) (callee : UInt32)
    (h_goes : Machine.turnEnds begunInHandler t = false) (h_code : t.address.toNat < length)
    (h_length : length < UInt32.size)
    (h_forward : i.opcode = .jump ∨ i.opcode = .jumpIfZero → i.mode ≠ Mode.backward →
      t.address.toNat < i.operand.toNat) :
    Machine.turnEnds begunInHandler (t.after i holds callee) = true ∨
      (t.after i holds callee).ahead length < t.ahead length := by
  obtain ⟨-, -, -, h_inside⟩ := Machine.turnEnds_eq_false_iff.1 h_goes
  have h_passed (t' : Task) (h_inside : t'.inHandler = t.inHandler)
      (h_index : t'.handlerIndex = t.handlerIndex) (h_address : t'.address = t.address + 1) :
      t'.ahead length < t.ahead length :=
    ahead_lt_of_passed h_inside h_index h_code h_length h_address
  -- a loop yields, and other jumps lead forward
  have h_jumped (h_jump : i.opcode = .jump ∨ i.opcode = .jumpIfZero) :
      Machine.turnEnds begunInHandler (t.jumped i) = true ∨
        (t.jumped i).ahead length < t.ahead length := by
    by_cases h_back : i.mode = Mode.backward
    · exact .inl (by simp [Machine.turnEnds, jumped, h_back])
    · exact .inr (ahead_lt_of_onward rfl rfl h_code (h_forward h_jump h_back))
  unfold after
  cases h_opcode : i.opcode with
  | finish => exact .inl (by simp [Machine.turnEnds])
  | jump => exact h_jumped (.inl h_opcode)
  | jumpIfZero =>
    dsimp only
    split
    · exact .inr (h_passed _ rfl rfl rfl)
    · exact h_jumped (.inr h_opcode)
  | callScript =>
    unfold afterCall
    dsimp only
    split
    · exact .inr (h_passed _ rfl rfl rfl)
    · rename_i h_waits
      -- the task waits now
      have h_callee : callee ≠ 0 := fun h => h_waits (.inl h)
      exact .inl (by simp [Machine.turnEnds, isWaiting, h_callee])
  | endExcept =>
    dsimp only
    split
    · exact .inl (by simp [Machine.turnEnds])
    · exact .inr (h_passed _ rfl rfl rfl)
  | returnExcept =>
    dsimp only
    split
    · rename_i h_in
      exact .inl (by simp [Machine.turnEnds, returned, ← h_inside, h_in])
    · exact .inr (h_passed _ rfl rfl rfl)
  | nextExcept =>
    dsimp only
    split
    · rename_i h_in
      -- in a handler: the turn was begun in it, too
      rw [← h_inside, h_in]
      exact afterNext_ahead h_in h_code
    · exact .inr (h_passed _ rfl rfl rfl)
  | breakExcept =>
    cases h_in : t.inHandler with
    | true => exact .inl (by simp [Machine.turnEnds, afterBreak, ← h_inside, h_in])
    | false => exact .inr (h_passed _ h_in.symm rfl rfl)
  -- all others go on to what follows
  | _ => exact .inr (h_passed _ rfl rfl rfl)

theorem ahead_bearing (h : t'.bearing = t.bearing) (length : Nat) :
    t'.ahead length = t.ahead length := by
  obtain ⟨h_inside, h_address, h_index, -⟩ := of_bearing_eq h
  unfold ahead
  rw [h_inside, h_address, h_index]

end Task

namespace Machine

variable {setting : Setting} {m m' m₁ : Machine} {task : UInt32} {begunInHandler : Bool}
  {t : Task} {i : Instruction} {executed : List (UInt32 × Instruction)}

/-! ### Where a turn leads -/

theorem Executes.runs (h : m.Executes setting noBody task begunInHandler executed m') :
    m.Runs m' := by
  induction h with
  | nil m => exact .refl m
  | cons h_find _ _ h_advance _ ih =>
    exact (runs_advance_noBody (TaskTable.contains_eq_true_iff.2 ⟨_, h_find⟩) h_advance).trans ih

/-- A task that has run out of the code. -/
theorem exists_overrun (h_find : m.tasks.find? task = some t)
    (h_goes : turnEnds begunInHandler t = false)
    (h_code : m.program.code[t.address.toNat]? = none) :
    ∃ ended, m.step setting noBody task begunInHandler = some (.ended ended) := by
  unfold step
  simp only [h_find, h_goes, h_code]
  exact ⟨_, rfl⟩

/-- As long as ids do not wrap around, a task that calls a script does not replace itself. -/
theorem ne_callee (h_find : m.tasks.find? task = some t) (h_call : i.opcode = .callScript)
    (h_script : (m.program.script? i.operand).isSome)
    (h_ample : ∀ {m'}, m.advance setting noBody task i = some m' → Ample m m') :
    task ≠ m.highestTask + 1 := by
  obtain ⟨script, h_script⟩ := Option.isSome_iff_exists.1 h_script
  have h_started := (began_spawn { m with executed := m.executed + 1 } script).started
  obtain ⟨-, h_none⟩ := (h_ample (advance_callScript h_call h_script)).next h_started
  -- the id of the new task was free, and that of the caller is not
  rintro rfl
  exact nomatch h_find.symm.trans h_none

/-- One instruction of a turn. -/
theorem exists_advance (h_unbound : setting.Unbound) (h_structured : m.program.Structured)
    (h_length : m.program.code.length < UInt32.size) (h_find : m.tasks.find? task = some t)
    (h_goes : turnEnds begunInHandler t = false)
    (h_code : m.program.code[t.address.toNat]? = some i)
    (h_ample : ∀ {m'}, m.advance setting noBody task i = some m' → Ample m m') :
    ∃ m₁ t₁, m.advance setting noBody task i = some m₁ ∧ m₁.program = m.program ∧
      m₁.tasks.find? task = some t₁ ∧ (turnEnds begunInHandler t₁ = true ∨
        t₁.ahead m.program.code.length < t.ahead m.program.code.length) := by
  -- no native can change the task behind its back
  have h_body (_ : i.opcode = .callNative) :
      ∀ native ∈ setting.natives[i.operand.toNat]?, native.body = none :=
    fun native h_native => h_unbound native (List.mem_of_getElem? h_native)
  obtain ⟨m₁, t₁, h_advance, h_same, h_find₁, h_bearing⟩ := advance_after noBody h_body h_find
    fun h_call h_script => ne_callee h_find h_call h_script h_ample
  have h_in : t.address.toNat < m.program.code.length := (List.getElem?_eq_some_iff.1 h_code).1
  have h_ahead := Task.after_ahead m.pop.1.truth (m.callee i) h_goes h_in h_length
    (h_structured _ i h_code)
  rw [← Task.ahead_bearing h_bearing, ← turnEnds_bearing h_bearing] at h_ahead
  exact ⟨m₁, t₁, h_advance, h_same, h_find₁, h_ahead⟩

/-- **The end of a turn.** Let no id wrap around in it. Then it comes to where nothing is executed
any more, with at most as many instructions as the task has ahead of it. -/
theorem exists_over (h_unbound : setting.Unbound) {p : Program} (h_structured : p.Structured)
    (h_length : p.code.length < UInt32.size) (h_program : m.program = p)
    (h_find : m.tasks.find? task = some t)
    (h_ample : ∀ {executed m'}, m.Executes setting noBody task begunInHandler executed m' →
      Ample m m') :
    ∃ executed last ended, m.Executes setting noBody task begunInHandler executed last ∧
      last.step setting noBody task begunInHandler = some (.ended ended) ∧
      executed.length ≤ t.ahead p.code.length := by
  have h_ended {m : Machine} {t : Task} (h_find : m.tasks.find? task = some t)
      (h_over : turnEnds begunInHandler t = true) :
      m.step setting noBody task begunInHandler = some (.ended m) := by
    refine Ended.step_eq fun u h_u => ?_
    cases h_find.symm.trans h_u
    exact h_over
  -- on what the task has ahead of it, which lessens with each instruction
  induction h_ahead : t.ahead p.code.length using Nat.strongRecOn generalizing m t with
  | _ ahead ih =>
    subst h_ahead h_program
    cases h_goes : turnEnds begunInHandler t with
    | true => exact ⟨[], m, m, .nil m, h_ended h_find h_goes, Nat.zero_le _⟩
    | false =>
      cases h_code : m.program.code[t.address.toNat]? with
      | none =>
        obtain ⟨ended, h_over⟩ := exists_overrun h_find h_goes h_code
        exact ⟨[], m, ended, .nil m, h_over, Nat.zero_le _⟩
      | some i =>
        obtain ⟨m₁, t₁, h_advance, h_same, h_find₁, h_over | h_less⟩ :=
          exists_advance h_unbound h_structured h_length h_find h_goes h_code
            fun h_advance => h_ample (.cons h_find h_goes h_code h_advance (.nil _))
        · -- this was the last instruction, and the task had at least itself ahead of it
          have h_in : t.address.toNat < m.program.code.length :=
            (List.getElem?_eq_some_iff.1 h_code).1
          exact ⟨[(t.address, i)], m₁, m₁, .cons h_find h_goes h_code h_advance (.nil m₁),
            h_ended h_find₁ h_over, Nat.le_trans (Nat.sub_pos_of_lt h_in) (Nat.le_add_left ..)⟩
        · -- ids do not wrap around in the rest of the turn either
          have h_first := (runs_advance_noBody
            (TaskTable.contains_eq_true_iff.2 ⟨t, h_find⟩) h_advance).accounts
          obtain ⟨executed, last, ended, h_executes, h_over, h_le⟩ :=
            ih _ h_less h_same h_find₁ (fun h_rest =>
              ((h_ample (.cons h_find h_goes h_code h_advance h_rest)).split h_first
                h_rest.runs.accounts).2) rfl
          exact ⟨_, last, ended, .cons h_find h_goes h_code h_advance h_executes, h_over,
            Nat.lt_of_le_of_lt h_le h_less⟩

/-! ### Loops -/

/-- The instruction is about to take a jump backward. -/
def JumpsBack (m : Machine) (i : Instruction) : Prop :=
  i.mode = Mode.backward ∧
    (i.opcode = .jump ∨ i.opcode = .jumpIfZero ∧ m.pop.1.truth = false)

theorem JumpsBack.after_eq (h : m.JumpsBack i) (callee : UInt32) (t : Task) :
    t.after i m.pop.1.truth callee = { t with address := i.operand, yielded := true } := by
  obtain ⟨h_mode, h_opcode | ⟨h_opcode, h_holds⟩⟩ := h
  · unfold Task.after Task.jumped
    rw [h_opcode, h_mode]
    simp
  · unfold Task.after Task.jumped
    rw [h_opcode, h_holds, h_mode]
    simp

/-- **A jump backward is the last thing in a turn.** -/
theorem Executes.eq_nil_of_jumpsBack {address : UInt32} {after : List (UInt32 × Instruction)}
    (h : m.Executes setting noBody task begunInHandler ((address, i) :: after) m')
    (h_back : m.JumpsBack i) : after = [] := by
  cases h with
  | cons h_find h_goes h_code h_advance h_rest =>
    -- it calls nothing, so what becomes of the task is known
    have h_jump : i.opcode ≠ .callNative ∧ i.opcode ≠ .callScript := by
      obtain ⟨-, h_opcode | ⟨h_opcode, -⟩⟩ := h_back <;> rw [h_opcode] <;> decide
    have h_body (h_native : i.opcode = .callNative) :
        ∀ native ∈ setting.natives[i.operand.toNat]?, native.body = none :=
      absurd h_native h_jump.1
    obtain ⟨m₁, t₁, h_eq, -, h_find₁, h_bearing⟩ :=
      advance_after noBody h_body h_find fun h_call => absurd h_call h_jump.2
    cases h_advance.symm.trans h_eq
    rw [h_back.after_eq] at h_bearing
    -- the task has yielded, so nothing follows
    cases h_rest with
    | nil => rfl
    | cons h_find₂ h_goes₂ _ _ _ =>
      cases h_find₁.symm.trans h_find₂
      rw [turnEnds_bearing h_bearing] at h_goes₂
      simp [turnEnds] at h_goes₂

/-! ### Whole turns -/

/-- How the turn of a task ends, which stands in the table as `t`: after some instructions nothing
more is executed, and there is a bound to how many they are. -/
structure TurnEnd (setting : Setting) (m : Machine) (task : UInt32) (t : Task)
    (executed : List (UInt32 × Instruction)) (last ended : Machine) : Prop where
  executes : (m.begin task).Executes setting noBody task t.inHandler executed last
  ends : last.step setting noBody task t.inHandler = some (.ended ended)
  /-- Nothing else can have been executed at any point of the turn. -/
  unique : ∀ {executed' m'}, (m.begin task).Executes setting noBody task t.inHandler executed' m' →
    executed' <+: executed
  slice : ∀ carryOut {budget}, executed.length < budget → m.slice setting carryOut budget task =
    some { ended with focus := m.focus, running := m.running }
  outside : t.inHandler = false → executed.length ≤ m.program.code.length
  inside : t.inHandler → executed.length ≤ (t.handlerIndex.toNat + 1) * m.program.code.length
  /-- Only the last instruction can be a jump backward. -/
  loop : ∀ {before m₁ address i after m₂},
    (m.begin task).Executes setting noBody task t.inHandler before m₁ →
    m₁.Executes setting noBody task t.inHandler ((address, i) :: after) m₂ →
    m₁.JumpsBack i → after = []

theorem exists_turnEnd (h_unbound : setting.Unbound) (h_structured : m.program.Structured)
    (h_length : m.program.code.length < UInt32.size) (h_find : m.tasks.find? task = some t)
    (h_ids : m.IdsGiven)
    (h_room : ∀ {executed m'},
      (m.begin task).Executes setting noBody task t.inHandler executed m' →
        m.highestTask.toNat + (m'.started - m.started) < UInt32.size) :
    ∃ executed last ended, TurnEnd setting m task t executed last ended := by
  -- a turn begins with a task that has not yielded
  have h_begun : (m.begin task).tasks.find? task = some { t with yielded := false } := by
    obtain rfl := TaskTable.id_of_find? h_find
    exact find?_updateTask_self
      (m := { m with focus := .task t.id, running := some t.id }) h_find _
  have h_ample {executed m'}
      (h : (m.begin task).Executes setting noBody task t.inHandler executed m') :
      Ample (m.begin task) m' := by
    have h_inside : Ample { m with focus := .task task, running := some task } m' :=
      ⟨h_ids, h_room h⟩
    exact h_inside.updateTask task _
  obtain ⟨executed, last, ended, h_executes, h_over, h_le⟩ :=
    exists_over h_unbound h_structured h_length (m := m.begin task) rfl h_begun h_ample
  -- the bound on what is ahead of the task when its turn begins, for the two kinds of turns
  have h_most := Nat.le_trans h_le (Task.ahead_le ..)
  refine ⟨executed, last, ended, h_executes, h_over, h_executes.prefix_of_over h_over,
    fun carryOut budget h_budget => ?_, fun h_outside => ?_, fun h_inside => ?_,
    fun _ h_rest h_back => h_rest.eq_nil_of_jumpsBack h_back⟩
  · -- nothing is carried out, so it does not matter how
    rw [slice_unbound carryOut h_unbound]
    exact Executes.slice_of_over h_find h_executes h_over h_budget
  · rwa [if_neg (by simp [h_outside])] at h_most
  · rwa [if_pos h_inside] at h_most

/-- **A turn in structured code comes to an end.** Let no native have a body, and let the jumps of
the program lead forward except for those that are loops. Let all ids have been given away before,
and let those that the turn gives away not wrap around. Then the task, however it stands, executes
some instructions in its turn and no more, and these are at most as many as the code has; in a
handler, at most as many for it and for each handler whose place is before its own. A jump backward
is the last of them, so there is at most one.

An address is a word, and the code of a program that was read from bytes is not longer than words
count, so that nothing has to be known of its length (`exists_turnEnd_of_decode`). -/
theorem turn_ends (h_unbound : setting.Unbound) (h_structured : m.program.Structured)
    (h_length : m.program.code.length < UInt32.size) (h_find : m.tasks.find? task = some t)
    (h_ids : m.IdsGiven)
    (h_room : ∀ {executed m'},
      (m.begin task).Executes setting noBody task t.inHandler executed m' →
        m.highestTask.toNat + (m'.started - m.started) < UInt32.size) :
    ∃ executed last ended,
      (m.begin task).Executes setting noBody task t.inHandler executed last ∧
      last.step setting noBody task t.inHandler = some (.ended ended) ∧
      (∀ {executed' m'}, (m.begin task).Executes setting noBody task t.inHandler executed' m' →
        executed' <+: executed) ∧
      (∀ carryOut {budget}, executed.length < budget → m.slice setting carryOut budget task =
        some { ended with focus := m.focus, running := m.running }) ∧
      (t.inHandler = false → executed.length ≤ m.program.code.length) ∧
      (t.inHandler → executed.length ≤ (t.handlerIndex.toNat + 1) * m.program.code.length) ∧
      ∀ {before m₁ address i after m₂},
        (m.begin task).Executes setting noBody task t.inHandler before m₁ →
        m₁.Executes setting noBody task t.inHandler ((address, i) :: after) m₂ →
        m₁.JumpsBack i → after = [] := by
  obtain ⟨executed, last, ended, h⟩ :=
    exists_turnEnd h_unbound h_structured h_length h_find h_ids h_room
  exact ⟨executed, last, ended, h.executes, h.ends, h.unique, h.slice, h.outside, h.inside, h.loop⟩

/-- So does every turn in structured code that was read from bytes, at any point after it was
loaded. -/
theorem exists_turnEnd_of_decode {bytes : List UInt8} {image : Image}
    (h_decode : Image.decode bytes = .ok image) (h_chronicled : image.Chronicled m)
    (h_unbound : setting.Unbound) (h_structured : image.program.Structured)
    (h_find : m.tasks.find? task = some t) (h_ids : m.IdsGiven)
    (h_room : ∀ {executed m'},
      (m.begin task).Executes setting noBody task t.inHandler executed m' →
        m.highestTask.toNat + (m'.started - m.started) < UInt32.size) :
    ∃ executed last ended, TurnEnd setting m task t executed last ended := by
  obtain ⟨origin, h_chronicle⟩ := h_chronicled
  have h_program : m.program = image.program := h_chronicle.spec.1
  -- lengths are read as signed numbers, so they are below half of what words count
  have h_length : image.program.code.length < UInt32.size :=
    Nat.lt_trans (Image.writable_of_decode h_decode).program.code_length (by decide)
  rw [← h_program] at h_structured h_length
  exact exists_turnEnd h_unbound h_structured h_length h_find h_ids h_room

/-! ### Code without calls -/

theorem advance_of_no_call (h_call : i.opcode ≠ .callScript) (h_focus : m.focus = .task task)
    (h : m.advance setting noBody task i = some m') :
    m'.program = m.program ∧ m'.started = m.started := by
  unfold advance at h
  obtain ⟨⟨flow, m₁⟩, h_execute, h⟩ := Option.bind_eq_some_iff.1 h
  have h_executed : m₁.program = m.program ∧ m₁.started = m.started := by
    -- natives without a body and most instructions only act on the task
    rcases execute_cases h_execute with ⟨-, -, h_acts⟩ | ⟨h_finish | h_is, h_obey⟩
    · exact ⟨(h_acts.confined h_focus).program, (h_acts.confined h_focus).started⟩
    · rw [obey_finish setting h_finish] at h_obey
      cases h_obey
      exact ⟨rfl, rfl⟩
    · exact absurd h_is h_call
  cases flow <;> cases h <;> exact h_executed

/-- Without calls in the code no id is given away. -/
theorem Executes.started_eq (h : m.Executes setting noBody task begunInHandler executed m')
    (h_focus : m.focus = .task task) (h_code : ∀ i ∈ m.program.code, i.opcode ≠ .callScript) :
    m'.started = m.started := by
  induction h with
  | nil => rfl
  | cons h_find _ h_at h_advance _ ih =>
    have h_runs := runs_advance_noBody (TaskTable.contains_eq_true_iff.2 ⟨_, h_find⟩) h_advance
    obtain ⟨h_program, h_started⟩ :=
      advance_of_no_call (h_code _ (List.mem_of_getElem? h_at)) h_focus h_advance
    exact (ih (h_runs.focus_eq.1.trans h_focus) (h_program ▸ h_code)).trans h_started

end Machine

/-! ### Two handlers in a program with a loop -/

/-- With one handler before the one that runs, and seven instructions, a turn is over after
fourteen. -/
theorem turn_ends_walking : walkingMachine.program.Structured ∧
    ∃ executed ended, ((walkingMachine.divert 1 5).begin 1).Executes unboundSetting Machine.noBody
        1 true executed ended ∧ executed.length ≤ 14 ∧
      ∀ {budget}, executed.length < budget → ∃ rested,
        (walkingMachine.divert 1 5).slice unboundSetting Machine.noBody budget 1 = some rested := by
  have h_code : walkingMachine.program.code = walkingImage.program.code := by decide +kernel
  -- the only jump there is leads backward
  have h_loops : ∀ i ∈ walkingImage.program.code,
      i.opcode = .jump ∨ i.opcode = .jumpIfZero → i.mode = Mode.backward := by decide
  have h_structured : walkingMachine.program.Structured := by
    intro address i h_at h_jump h_mode
    exact absurd (h_loops i (h_code ▸ List.mem_of_getElem? h_at) h_jump) h_mode
  have h_length : walkingMachine.program.code.length < UInt32.size := by
    rw [h_code]
    decide
  have h_find : (walkingMachine.divert 1 5).tasks.find? 1 = some
      { walkingTask with savedAddress := 2, handlerIndex := 1, address := 5, inHandler := true } := by
    decide +kernel
  have h_ids : (walkingMachine.divert 1 5).IdsGiven := by
    unfold State.IdsGiven
    decide +kernel
  have h_calls : ∀ i ∈ ((walkingMachine.divert 1 5).begin 1).program.code,
      i.opcode ≠ .callScript := by decide +kernel
  have h_highest : (walkingMachine.divert 1 5).highestTask.toNat < UInt32.size :=
    UInt32.toNat_lt_size _
  -- the beginning of a turn gives no id away either
  have h_none : ((walkingMachine.divert 1 5).begin 1).started -
      (walkingMachine.divert 1 5).started = 0 := Nat.sub_self _
  obtain ⟨executed, last, ended, h_executes, -, -, h_slice, -, h_most, -⟩ :=
    Machine.turn_ends unboundSetting_unbound (m := walkingMachine.divert 1 5) h_structured h_length
      h_find h_ids fun h => by
        rw [h.started_eq rfl h_calls, h_none]
        exact h_highest
  refine ⟨h_structured, executed, last, h_executes, ?_, fun h => ⟨_, h_slice _ h⟩⟩
  have h_fourteen := h_most rfl
  have h_seven : (walkingMachine.divert 1 5).program.code.length = 7 := by
    decide +kernel
  rw [h_seven] at h_fourteen
  exact h_fourteen

end ScriptMachine
