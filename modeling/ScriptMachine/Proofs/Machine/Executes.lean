import ScriptMachine.Proofs.Machine.Course

/-!
# What a turn executes

A turn is described by the instructions that it executes, each with its address
(`Machine.Executes`). Turns put together this way need no budget: what is executed is found out
instruction by instruction, and a turn that has come to where nothing more is to be done
(`Machine.Ended`) has a result within any budget that is greater than the number of its
instructions (`Machine.Executes.slice_eq`).
-/

namespace ScriptMachine

variable {setting : Setting} {carryOut : Routine Unit → Machine → Option Machine}

namespace Machine

/-- The task executes the instructions one after the other in its turn. Each is given with the
address at which it stands. -/
inductive Executes (setting : Setting) (carryOut : Routine Unit → Machine → Option Machine)
    (task : UInt32) (begunInHandler : Bool) :
    Machine → List (UInt32 × Instruction) → Machine → Prop
  | nil (m : Machine) : Executes setting carryOut task begunInHandler m [] m
  | cons {m m₁ m' : Machine} {t : Task} {i : Instruction} {rest : List (UInt32 × Instruction)}
      (h_find : m.tasks.find? task = some t) (h_goes : turnEnds begunInHandler t = false)
      (h_code : m.program.code[t.address.toNat]? = some i)
      (h_advance : m.advance setting carryOut task i = some m₁)
      (h_rest : Executes setting carryOut task begunInHandler m₁ rest m') :
      Executes setting carryOut task begunInHandler m ((t.address, i) :: rest) m'

/-- Nothing more is to be done in the turn. -/
def Ended (task : UInt32) (begunInHandler : Bool) (m : Machine) : Prop :=
  ∀ t, m.tasks.find? task = some t → turnEnds begunInHandler t

variable {task : UInt32} {begunInHandler : Bool} {m m₁ m' ended : Machine}
  {executed executed' : List (UInt32 × Instruction)}

theorem Ended.step_eq (h : m.Ended task begunInHandler) :
    m.step setting carryOut task begunInHandler = some (.ended m) := by
  unfold step
  cases h_find : m.tasks.find? task with
  | none => rfl
  | some t =>
    dsimp only
    rw [if_pos (h t h_find)]

namespace Executes

theorem append (h : Executes setting carryOut task begunInHandler m executed m₁)
    (h' : Executes setting carryOut task begunInHandler m₁ executed' m') :
    Executes setting carryOut task begunInHandler m (executed ++ executed') m' := by
  induction h with
  | nil => exact h'
  | cons h_find h_goes h_code h_advance _ ih =>
    exact .cons h_find h_goes h_code h_advance (ih h')

/-- **A turn that is over.** With more budget than instructions the turn ends where they lead. -/
theorem steps_of_over (h : Executes setting carryOut task begunInHandler m executed m')
    (h_over : m'.step setting carryOut task begunInHandler = some (.ended ended)) {budget : Nat}
    (h_budget : executed.length < budget) :
    m.steps setting carryOut task begunInHandler budget = some ended := by
  induction h generalizing budget with
  | nil m =>
    -- budget is left to look at the task once more, and to see that the turn is over
    obtain ⟨budget, rfl⟩ := Nat.exists_eq_succ_of_ne_zero (Nat.ne_of_gt h_budget)
    unfold steps
    simp only [h_over]
  | cons h_find h_goes h_code h_advance _ ih =>
    obtain ⟨budget, rfl⟩ :=
      Nat.exists_eq_succ_of_ne_zero (Nat.ne_of_gt (Nat.zero_lt_of_lt h_budget))
    unfold steps step
    simp only [h_find, h_goes, h_code, h_advance]
    exact ih h_over (Nat.lt_of_succ_lt_succ h_budget)

/-- A turn of a task, from its beginning to where the pass goes on. -/
theorem slice_of_over {t : Task} (h_find : m.tasks.find? task = some t)
    (h : (m.begin task).Executes setting carryOut task t.inHandler executed m')
    (h_over : m'.step setting carryOut task t.inHandler = some (.ended ended)) {budget : Nat}
    (h_budget : executed.length < budget) : m.slice setting carryOut budget task =
      some { ended with focus := m.focus, running := m.running } := by
  unfold slice
  rw [h_find]
  exact Option.bind_eq_some_iff.2 ⟨ended, h.steps_of_over h_over h_budget, rfl⟩

/-- It is never left open what is executed next. -/
theorem prefix_of_over (h : Executes setting carryOut task begunInHandler m executed m')
    (h_over : m'.step setting carryOut task begunInHandler = some (.ended ended))
    (h' : Executes setting carryOut task begunInHandler m executed' m₁) :
    executed' <+: executed := by
  induction h' generalizing executed with
  -- the turn would be over here, but the other run goes on
  | nil => exact List.nil_prefix
  | cons h_find h_goes h_code h_advance _ ih =>
    cases h with
    | nil =>
      unfold step at h_over
      simp [h_find, h_goes, h_code, h_advance] at h_over
    | cons h_find₂ _ h_code₂ h_advance₂ h_rest₂ =>
      cases h_find.symm.trans h_find₂
      cases h_code.symm.trans h_code₂
      cases h_advance.symm.trans h_advance₂
      exact List.cons_prefix_cons.2 ⟨rfl, ih h_rest₂⟩

theorem slice_eq {t : Task} (h_find : m.tasks.find? task = some t)
    (h : (m.begin task).Executes setting carryOut task t.inHandler executed m')
    (h_ended : m'.Ended task t.inHandler) {budget : Nat} (h_budget : executed.length < budget) :
    m.slice setting carryOut budget task =
      some { m' with focus := m.focus, running := m.running } :=
  slice_of_over h_find h h_ended.step_eq h_budget

theorem prefix_of_ended (h : Executes setting carryOut task begunInHandler m executed m')
    (h_ended : m'.Ended task begunInHandler)
    (h' : Executes setting carryOut task begunInHandler m executed' m₁) :
    executed' <+: executed :=
  h.prefix_of_over h_ended.step_eq h'

end Executes

/-- The task executes that many instructions in its turn. -/
def Proceeds (setting : Setting) (carryOut : Routine Unit → Machine → Option Machine)
    (task : UInt32) (begunInHandler : Bool) (m : Machine) (count : Nat) (m' : Machine) : Prop :=
  ∃ executed, m.Executes setting carryOut task begunInHandler executed m' ∧ executed.length = count

namespace Proceeds

theorem refl (m : Machine) : m.Proceeds setting carryOut task begunInHandler 0 m := ⟨[], .nil m, rfl⟩

theorem head (m₁ : Machine) {t : Task} {i : Instruction} {count : Nat}
    (h_find : m.tasks.find? task = some t) (h_goes : turnEnds begunInHandler t = false)
    (h_code : m.program.code[t.address.toNat]? = some i)
    (h_advance : m.advance setting carryOut task i = some m₁)
    (h : m₁.Proceeds setting carryOut task begunInHandler count m') :
    m.Proceeds setting carryOut task begunInHandler (count + 1) m' := by
  obtain ⟨executed, h_executes, h_length⟩ := h
  exact ⟨_, .cons h_find h_goes h_code h_advance h_executes, congrArg (· + 1) h_length⟩

theorem trans {count count' : Nat} (h : m.Proceeds setting carryOut task begunInHandler count m₁)
    (h' : m₁.Proceeds setting carryOut task begunInHandler count' m') :
    m.Proceeds setting carryOut task begunInHandler (count + count') m' := by
  obtain ⟨executed, h_executes, rfl⟩ := h
  obtain ⟨executed', h_executes', rfl⟩ := h'
  exact ⟨_, h_executes.append h_executes', List.length_append⟩

theorem slice_eq {t : Task} {count : Nat} (h_find : m.tasks.find? task = some t)
    (h : (m.begin task).Proceeds setting carryOut task t.inHandler count m')
    (h_ended : m'.Ended task t.inHandler) {budget : Nat} (h_budget : count < budget) :
    m.slice setting carryOut budget task =
      some { m' with focus := m.focus, running := m.running } := by
  obtain ⟨executed, h_executes, rfl⟩ := h
  exact h_executes.slice_eq h_find h_ended h_budget

end Proceeds

end Machine

end ScriptMachine
