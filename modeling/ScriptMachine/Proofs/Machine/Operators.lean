import ScriptMachine.Proofs.Machine.Parameters

/-!
# Operators on the stack

Fifteen opcodes replace operands on top of a stack by results. They pop and push one value at a
time, and each pop and each push may fail. What that comes to is one equation
(`Machine.operate_eq`): the stack without the operands and with the results, and the list of what
the host is told. No push fails, since an operator leaves at most as many values as it takes
(`Operator.yields_le_arity`) and at most as many as an empty stack holds.

* `Machine.operands_padded` : missing operands are zeros. Each is reported, before anything else,
  and apart from that the stack might as well have had zeros at its bottom.

The values an operator is given are `Machine.parameters` read from the top, where zeros stand for
what is missing. So a stack with zeros at its bottom gives it the same values
(`Machine.parameters_padded`), and both runs come down to the same `Operator.eval`. Where nothing is
missing, `Instruction.Computes` leaves the stack out of account: these operands, wherever they are
on top, make place for these results.
-/

namespace ScriptMachine

/-- Any values are those of a stack, if they find room on one. -/
theorem Stack.exists_values {values : List Value} (h : values.length ≤ capacity) :
    ∃ s : Stack, s.values = values := by
  have h_stack : ofValues? values 0 0 = some _ := dif_pos h
  exact ⟨_, (ofValues?_eq_some_iff.1 h_stack).1⟩

/-! ### Outcomes -/

namespace Operator

/-- How many values an operator leaves. A vector is three of them. -/
def yields (op : Operator) (tag : Tag) : Nat :=
  match op with
  | arithmetic _ | neg => if tag = .vector then 3 else 1
  | _ => 1

theorem yields_le_arity (op : Operator) (tag : Tag) : op.yields tag ≤ op.arity tag := by
  by_cases h : tag = .vector <;> cases op <;> simp [yields, arity, h]

theorem yields_le (op : Operator) (tag : Tag) : op.yields tag ≤ 3 := by
  by_cases h : tag = .vector <;> cases op <;> simp [yields, h]

theorem arity_mem (op : Operator) (tag : Tag) : op.arity tag ∈ [1, 2, 3, 6] := by
  by_cases h : tag = .vector <;> cases op <;> simp [arity, h]

theorem arity_le (op : Operator) (tag : Tag) : op.arity tag ≤ Stack.capacity := by
  have h_all : ∀ arity ∈ [1, 2, 3, 6], arity ≤ Stack.capacity := by decide
  exact h_all _ (op.arity_mem tag)

theorem length_results (op : Operator) (tag : Tag) (taken : Nat → Value) :
    (op.eval tag taken).results.length = op.yields tag := by
  cases op <;> cases tag <;> rfl

/-- What goes wrong is a division by zero, or the tag. -/
theorem trouble_eq (op : Operator) (tag : Tag) (taken : Nat → Value) {code : FaultCode}
    (h : (op.eval tag taken).trouble = some code) :
    code = .divisionByZero ∨ code = .invalidType := by
  -- Only outcomes of these two kinds have trouble at all.
  have h_quotients {blank : Value} {results : List (Option Value)}
      (h : (Outcome.quotients blank results).trouble = some code) : code = .divisionByZero := by
    unfold Outcome.quotients at h
    split at h
    · contradiction
    · exact (Option.some.inj h).symm
  have h_unknown {result : Value} (h : (Outcome.unknown result).trouble = some code) :
      code = .invalidType := (Option.some.inj h).symm
  cases op with
  | arithmetic op =>
    cases tag with
    | int | float | vector => exact .inl (h_quotients h)
    | _ => exact .inr (h_unknown h)
  | neg =>
    cases tag with
    | int | float | vector => contradiction
    | _ => exact .inr (h_unknown h)
  | not | and | or => contradiction
  | eq | ne =>
    cases tag with
    | int | float | vector | object | boolean => contradiction
    | _ => exact .inr (h_unknown h)
  | relation r =>
    cases tag with
    | int | float => contradiction
    | _ => exact .inr (h_unknown h)

end Operator

/-- What the host is told of an outcome. -/
def Outcome.faults (o : Outcome) (i : Instruction) : List Fault :=
  o.trouble.toList.map fun code =>
    ⟨code, i.opcode.name, if code = .invalidType then i.tag.number else 0⟩

/-- What an operator computes on a stack. -/
def Operator.outcome (op : Operator) (tag : Tag) (s : Stack) : Outcome :=
  op.eval tag ((Machine.parameters s (op.arity tag)).reverse.getD · .zero)

namespace Machine

variable {m : Machine} {s : Stack}

/-! ### Putting values on the stack -/

/-- What the host is told when a value is put on a full stack. -/
def lostValue : Event := .fault ⟨.stackFull, "", 0⟩

/-- It makes no difference to the stack what the host was told before. -/
theorem setStack_foldl_emit (events : List Event) (m : Machine) (s : Stack) :
    (events.foldl emit m).setStack s = events.foldl emit (m.setStack s) := by
  rw [foldl_emit, foldl_emit]
  unfold setStack
  cases m.focus <;> rfl

/-- **Putting values on.** Those that find no room are lost, and the host is told of each of
them. -/
theorem pushAll_eq (h : m.currentStack? = some s) (values : List Value) : m.pushAll values =
    (List.replicate (s.size + values.length - Stack.capacity) lostValue).foldl emit
      (m.setStack (s.filled values)) := by
  induction values generalizing m s with
  | nil =>
    have h_room : s.size + 0 - Stack.capacity = 0 := Nat.sub_eq_zero_of_le s.size_le
    rw [List.length_nil, h_room]
    exact (setStack_self h).symm
  | cons v rest ih =>
    rw [List.length_cons]
    show (m.push v).pushAll rest = _
    unfold push
    rw [h]
    dsimp only
    cases h_push : s.push? v with
    | some t =>
      -- there is room, and as much less for the others
      dsimp only
      rw [ih (currentStack?_setStack h t), setStack_setStack, Stack.filled_of_some h_push,
        Stack.size_filled_of_some h_push, Nat.add_right_comm, Nat.add_assoc _ _ 1]
    | none =>
      -- the stack stays full, so the values after this one are lost too
      have h_full := Stack.push?_eq_none_iff.1 h_push
      have h_told : (m.fault .stackFull "" 0).currentStack? = some s := h
      have h_same := setStack_foldl_emit [lostValue] m (s.filled rest)
      dsimp only
      rw [ih h_told, Stack.filled_of_none h_push, h_full, Nat.add_sub_cancel_left,
        Nat.add_sub_cancel_left, List.replicate_succ, List.foldl_cons]
      exact congrArg (List.foldl emit · _) h_same

/-- What is left below the results leaves room for them. -/
theorem room_for_results (op : Operator) (tag : Tag) (s : Stack) :
    (s.without (op.arity tag)).size + (op.outcome tag s).results.length ≤ Stack.capacity := by
  have h_size : (s.without (op.arity tag)).size = s.size - op.arity tag := List.length_drop
  have h_le : s.size ≤ Stack.capacity := s.size_le
  -- No operator leaves more than it takes, and none takes more than the stack can hold.
  have h_arity := op.yields_le_arity tag
  have h_yields : op.yields tag ≤ Stack.capacity := Nat.le_trans (op.yields_le tag) (by decide)
  rw [h_size, Operator.outcome, Operator.length_results]
  omega

/-! ### Operators, written out -/

theorem operate_eq (h : m.currentStack? = some s) (op : Operator) (i : Instruction) :
    m.operate op i =
      (List.replicate (op.arity i.tag - s.size) missingValue ++
        ((op.outcome i.tag s).faults i).map Event.fault).foldl emit
          (m.setStack ((s.without (op.arity i.tag)).filled (op.outcome i.tag s).results)) := by
  -- What is computed is read off the stack beforehand, so it is known before the operands are
  -- taken.
  have h_operate : m.operate op i =
      (((op.outcome i.tag s).faults i).map Event.fault).foldl emit
        ((popMany (op.arity i.tag) m).2.pushAll (op.outcome i.tag s).results) := by
    unfold operate Operator.outcome
    rw [popMany_eq h, ← reverse_parameters]
    dsimp only
    unfold Outcome.faults
    cases (op.eval i.tag ((parameters s (op.arity i.tag)).reverse.getD · .zero)).trouble with
    | none => rfl
    | some code => rfl
  have h_left : (popMany (op.arity i.tag) m).2.currentStack? =
      some (s.without (op.arity i.tag)) := by
    rw [popMany_eq h, foldl_emit]
    exact currentStack?_setStack h _
  rw [h_operate, pushAll_eq h_left, Nat.sub_eq_zero_of_le (room_for_results op i.tag s),
    popMany_eq h, setStack_foldl_emit, setStack_setStack, List.foldl_append]
  rfl

theorem execute_operator {i : Instruction} {op : Operator} (h : i.opcode.operator? = some op)
    (setting : Setting) (carryOut : Routine Unit → Machine → Option Machine) (task : UInt32)
    (m : Machine) : execute setting carryOut task i m = some (.next, m.operate op i) := by
  unfold execute obey
  cases h_opcode : i.opcode with
  | finish | jumpIfZero | push | pop | callNative | jump | sleep | except | cast | callScript
  | endExcept | returnExcept | nextExcept | breakExcept | swap | line =>
    rw [h_opcode] at h
    contradiction
  | _ =>
    rw [h_opcode] at h
    obtain rfl := Option.some.inj h
    rfl

/-- **An operator at work.** The operands are replaced by the results. The host is told of those
that are missing, and then of what went wrong. -/
theorem execute_operator_eq (h : m.currentStack? = some s) {i : Instruction} {op : Operator}
    (h_op : i.opcode.operator? = some op) (setting : Setting)
    (carryOut : Routine Unit → Machine → Option Machine) (task : UInt32) :
    ∃ left : Stack,
      left.values = s.values.take (s.size - op.arity i.tag) ++ (op.outcome i.tag s).results ∧
      execute setting carryOut task i m = some (.next, { m.setStack left with
        log := m.log ++ (List.replicate (op.arity i.tag - s.size) missingValue ++
          ((op.outcome i.tag s).faults i).map Event.fault).toArray }) := by
  refine ⟨(s.without (op.arity i.tag)).filled (op.outcome i.tag s).results, ?_, ?_⟩
  · have h_room := room_for_results op i.tag s
    rw [Stack.values_filled, List.take_of_length_le, Stack.values_without]
    rwa [List.length_append, Stack.length_values]
  · rw [execute_operator h_op, operate_eq h, foldl_emit, log_setStack]

end Machine

namespace Instruction

variable {i : Instruction} {operands results results' : List Value} {faults faults' : List Fault}

/-- Wherever the operands are on top of a stack, the instruction puts the results in their place and
tells the host of the faults. -/
def Computes (i : Instruction) (operands results : List Value) (faults : List Fault) : Prop :=
  ∀ (setting : Setting) (carryOut : Routine Unit → Machine → Option Machine) (task : UInt32)
    (m : Machine) (s : Stack) (below : List Value),
    m.currentStack? = some s → s.values = below ++ operands →
    ∃ left : Stack, left.values = below ++ results ∧
      Machine.execute setting carryOut task i m = some (.next, { m.setStack left with
        log := m.log ++ (faults.map Event.fault).toArray })

/-- What an instruction does with its operands is what its operator does. -/
theorem computes_of_eval {op : Operator} {o : Outcome} (h_op : i.opcode.operator? = some op)
    (h_length : operands.length = op.arity i.tag)
    (h : op.eval i.tag (operands.reverse.getD · .zero) = o) :
    i.Computes operands o.results (o.faults i) := by
  intro setting carryOut task m s below h_focus h_values
  have h_size : s.size = below.length + op.arity i.tag := by
    rw [← h_length, ← List.length_append, ← h_values, s.length_values]
  have h_below : s.size - op.arity i.tag = below.length := by omega
  -- As many operands as are asked for are there, so none of them is made up.
  have h_operands : Machine.parameters s (op.arity i.tag) = operands := by
    unfold Machine.parameters
    rw [Nat.sub_eq_zero_of_le (by omega), h_below, h_values, List.drop_left]
    rfl
  obtain ⟨left, h_left, h_run⟩ := Machine.execute_operator_eq h_focus h_op setting carryOut task
  rw [Operator.outcome, h_operands, h] at h_left h_run
  rw [h_below, h_values, List.take_left] at h_left
  rw [Nat.sub_eq_zero_of_le (by omega)] at h_run
  exact ⟨left, h_left, h_run⟩

/-- What an instruction computes is determined, since there are machines to run it on. -/
theorem Computes.unique (h : i.Computes operands results faults)
    (h' : i.Computes operands results' faults') (h_fits : operands.length ≤ Stack.capacity) :
    results = results' ∧ faults = faults' := by
  obtain ⟨s, h_values⟩ := Stack.exists_values h_fits
  obtain ⟨left, h_left, h_run⟩ :=
    h ⟨[], Setting.defaultTickLength⟩ (fun _ m => some m) 0 { stack := s } s [] rfl h_values
  obtain ⟨left', h_left', h_run'⟩ :=
    h' ⟨[], Setting.defaultTickLength⟩ (fun _ m => some m) 0 { stack := s } s [] rfl h_values
  -- Both describe the one run on a stack with nothing but the operands.
  have h_same := (Prod.mk.inj (Option.some.inj (h_run.symm.trans h_run'))).2
  have h_stack : left = left' := congrArg (·.stack) h_same
  have h_log := Array.append_right_inj _ |>.1 (congrArg (·.log) h_same)
  have h_fault : Function.Injective Event.fault := fun _ _ h => Event.fault.inj h
  refine ⟨?_, List.map_injective_iff.2 h_fault (congrArg Array.toList h_log)⟩
  rw [List.nil_append] at h_left h_left'
  rw [← h_left, ← h_left', h_stack]

end Instruction

namespace Machine

variable {m : Machine} {s : Stack}

/-! ### Missing operands -/

theorem exists_padded (s : Stack) {count : Nat} (h : count ≤ Stack.capacity) :
    ∃ padded : Stack, padded.values = List.replicate (count - s.size) ⟨.int, 0⟩ ++ s.values := by
  have h_le : s.size ≤ Stack.capacity := s.size_le
  refine Stack.exists_values ?_
  rw [List.length_append, List.length_replicate, s.length_values]
  omega

/-- Zeros at the bottom of a stack are what is found where values are missing. -/
theorem parameters_padded {padded : Stack} {count : Nat}
    (h : padded.values = List.replicate (count - s.size) ⟨.int, 0⟩ ++ s.values) :
    parameters padded count = parameters s count ∧
      padded.values.take (padded.size - count) = s.values.take (s.size - count) ∧
      count ≤ padded.size := by
  have h_size : padded.size = count - s.size + s.size := by
    rw [← padded.length_values, h, List.length_append, List.length_replicate, s.length_values]
  unfold parameters
  by_cases h_enough : count ≤ s.size
  · -- no zeros are put below
    rw [Nat.sub_eq_zero_of_le h_enough] at h h_size ⊢
    rw [Nat.zero_add] at h_size
    rw [List.replicate_zero, List.nil_append] at h
    rw [h, h_size, Nat.sub_eq_zero_of_le h_enough]
    exact ⟨rfl, rfl, h_enough⟩
  · -- nothing but operands is on either stack
    have h_padded : padded.size = count := by omega
    have h_none : s.size - count = 0 := by omega
    rw [h_padded, h_none, Nat.sub_self, h]
    exact ⟨rfl, rfl, Nat.le_refl _⟩

/-- **Missing operands are zeros.** An instruction that asks for more operands than there are tells
the host of each that is missing, before anything else, and does what it would do if the stack had
zeros for them at its bottom. What lies below the operands stays, and the results find room. -/
theorem operands_padded (h : m.currentStack? = some s) {i : Instruction} {op : Operator}
    (h_op : i.opcode.operator? = some op) (setting : Setting)
    (carryOut : Routine Unit → Machine → Option Machine) (task : UInt32) :
    op.arity i.tag ∈ [1, 2, 3, 6] ∧
    (∃ padded : Stack,
      padded.values = List.replicate (op.arity i.tag - s.size) ⟨.int, 0⟩ ++ s.values) ∧
    ∀ padded : Stack,
      padded.values = List.replicate (op.arity i.tag - s.size) ⟨.int, 0⟩ ++ s.values →
      ∃ (left left' : Stack) (results : List Value) (faults : List Fault),
        execute setting carryOut task i m = some (.next, { m.setStack left with
          log := m.log ++ (List.replicate (op.arity i.tag - s.size)
            (Event.fault ⟨.stackEmpty, "", 0⟩) ++ faults.map Event.fault).toArray }) ∧
        execute setting carryOut task i (m.setStack padded) = some (.next, { m.setStack left' with
          log := m.log ++ (faults.map Event.fault).toArray }) ∧
        left.values = s.values.take (s.size - op.arity i.tag) ++ results ∧
        left'.values = left.values ∧
        results.length = op.yields i.tag ∧
        left.size = s.size - op.arity i.tag + op.yields i.tag ∧
        ∀ f ∈ faults, f.code ≠ .stackEmpty ∧ f.code ≠ .stackFull := by
  refine ⟨op.arity_mem i.tag, exists_padded s (op.arity_le i.tag), fun padded h_padded => ?_⟩
  obtain ⟨h_operands, h_below, h_enough⟩ := parameters_padded h_padded
  -- The same operands are found on both stacks, so the same comes of them.
  have h_outcome : op.outcome i.tag padded = op.outcome i.tag s := by
    unfold Operator.outcome
    rw [h_operands]
  have h_results : (op.outcome i.tag s).results.length = op.yields i.tag :=
    Operator.length_results ..
  obtain ⟨left, h_left, h_run⟩ := execute_operator_eq h h_op setting carryOut task
  obtain ⟨left', h_left', h_run'⟩ :=
    execute_operator_eq (currentStack?_setStack h padded) h_op setting carryOut task
  rw [h_outcome, h_below] at h_left'
  rw [h_outcome, Nat.sub_eq_zero_of_le h_enough, setStack_setStack, log_setStack] at h_run'
  refine ⟨left, left', _, _, h_run, h_run', h_left, h_left'.trans h_left.symm, h_results, ?_,
    fun f h_f => ?_⟩
  · rw [← left.length_values, h_left, List.length_append, List.length_take, s.length_values,
      h_results, Nat.min_eq_left (Nat.sub_le ..)]
  · obtain ⟨code, h_code, rfl⟩ := List.mem_map.1 h_f
    have h_codes : code ≠ .stackEmpty ∧ code ≠ .stackFull := by
      rcases Operator.trouble_eq op i.tag _ (Option.mem_toList.1 h_code) with rfl | rfl <;> decide
    exact h_codes

/-- A machine with two values on its stack, where a division of vectors takes six. -/
def shortMachine : Machine :=
  { stack := { slots := [⟨.float, 0x40000000⟩, ⟨.int, 7⟩], pushes := 2, pops := 0 } }

/-- The same two values above four zeros. -/
def filledStack : Stack :=
  { slots := [⟨.float, 0x40000000⟩, ⟨.int, 7⟩, .zero, .zero, .zero, .zero], pushes := 9, pops := 3 }

def divideVectors : Instruction := ⟨.div, 0, .vector, 0, 0⟩

/-- Four values are missing, one of them a divisor. -/
theorem operands_padded_short :
    shortMachine.currentStack? = some shortMachine.stack ∧
    divideVectors.opcode.operator? = some (.arithmetic .div) ∧
    filledStack.values = List.replicate 4 ⟨.int, 0⟩ ++ shortMachine.stack.values ∧
    ∃ (left left' : Stack) (results : List Value) (faults : List Fault),
      execute ⟨[], Setting.defaultTickLength⟩ (fun _ m => some m) 0 divideVectors shortMachine =
        some (.next, { shortMachine.setStack left with
          log := shortMachine.log ++ (List.replicate 4 (Event.fault ⟨.stackEmpty, "", 0⟩) ++
            faults.map Event.fault).toArray }) ∧
      execute ⟨[], Setting.defaultTickLength⟩ (fun _ m => some m) 0 divideVectors
          (shortMachine.setStack filledStack) =
        some (.next, { shortMachine.setStack left' with
          log := shortMachine.log ++ (faults.map Event.fault).toArray }) ∧
      left.values = results ∧ left'.values = results ∧ left.size = 3 := by
  have h_filled : filledStack.values = List.replicate 4 ⟨.int, 0⟩ ++ shortMachine.stack.values := by
    decide
  obtain ⟨-, -, h_padded⟩ := operands_padded (m := shortMachine) (i := divideVectors) rfl rfl
    ⟨[], Setting.defaultTickLength⟩ (fun _ m => some m) 0
  obtain ⟨left, left', results, faults, h_run, h_run', h_left, h_left', -, h_size, -⟩ :=
    h_padded filledStack h_filled
  exact ⟨rfl, rfl, h_filled, left, left', results, faults, h_run, h_run', h_left,
    h_left'.trans h_left, h_size⟩

end Machine

end ScriptMachine
