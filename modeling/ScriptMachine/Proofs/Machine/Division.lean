import Mathlib.Data.Int.ModEq
import ScriptMachine.Proofs.Machine.Vectors

/-!
# Division of integers

Integers are divided with a remainder, and two instructions leave one part of the result each. That
the two belong together, whatever the operands are, is `Arithmetic.division_truncates`: the quotient
is rounded toward zero, and the remainder is what is missing from the quotient times the divisor.

There are two places where words and numbers part. Nothing is divided by zero; both parts are zero
then, and the host is told. And the quotient of the least number by minus one is one more than the
greatest number, so it wraps around to where it came from. The remainder is never affected by that,
for it is less than the divisor (`Int32.toInt_mod`), and since the equation that ties the parts
together is one of words, it holds there too.
-/

namespace ScriptMachine

/-! ### Instructions one after the other -/

/-- A push of an integer. -/
def Instruction.pushInt (a : Int32) (line : UInt32) : Instruction :=
  ⟨.push, Mode.immediate, .int, a.toUInt32, line⟩

namespace Machine

variable (setting : Setting) (carryOut : Routine Unit → Machine → Option Machine) (task : UInt32)
  {m m' : Machine} {s : Stack}

/-- Executes the instructions of a task one after the other; none if there is one after which the
task does not go on with the next. -/
def executeAll : List Instruction → Machine → Option Machine
  | [], m => some m
  | i :: rest, m =>
    match execute setting carryOut task i m with
    | some (.next, m) => executeAll rest m
    | _ => none

variable {setting carryOut task} in
theorem executeAll_cons {i : Instruction} (h : execute setting carryOut task i m = some (.next, m'))
    (rest : List Instruction) :
    executeAll setting carryOut task (i :: rest) m = executeAll setting carryOut task rest m' := by
  rw [executeAll, h]

/-- A pushed integer comes to stand on top. -/
theorem execute_pushInt (h : m.currentStack? = some s) (h_room : s.size < Stack.capacity)
    (a : Int32) (line : UInt32) :
    ∃ t : Stack, t.values = s.values ++ [.ofInt a] ∧
      execute setting carryOut task (.pushInt a line) m = some (.next, m.setStack t) := by
  cases h_push : s.push? (.ofInt a) with
  | none => exact absurd (Stack.push?_eq_none_iff.1 h_push) (Nat.ne_of_lt h_room)
  | some t =>
    refine ⟨t, Stack.values_push h_push, ?_⟩
    show some (Flow.next, m.push (.ofInt a)) = _
    unfold push
    rw [h]
    dsimp only
    rw [h_push]

end Machine

/-! ### Two integers and an operator -/

namespace Arithmetic

/-- On any stack that has room for two values, two integers that are pushed and an operator on them
leave one integer, and the host is told of the faults. -/
def Leaves (op : Arithmetic) (a b result : Int32) (faults : List Fault) : Prop :=
  ∀ (setting : Setting) (carryOut : Routine Unit → Machine → Option Machine) (task : UInt32)
    (m : Machine) (s : Stack) (line₁ line₂ : UInt32) (i : Instruction),
    m.currentStack? = some s → s.size + 2 ≤ Stack.capacity →
    ∃ left : Stack, left.values = s.values ++ [.ofInt result] ∧
      Machine.executeAll setting carryOut task
        [.pushInt a line₁, .pushInt b line₂, { i with opcode := op.opcode, tag := .int }] m =
          some { m.setStack left with log := m.log ++ (faults.map Event.fault).toArray }

theorem computes_int (i : Instruction) (op : Arithmetic) (a b : Int32) :
    { i with opcode := op.opcode, tag := .int }.Computes [.ofInt a, .ofInt b]
      [.ofInt ((op.int? a b).getD 0)] (op.faults (op.int? a b).isNone) := by
  -- An operator takes its operands from the top, so the divisor comes first.
  have h_eval : (Operator.arithmetic op).eval .int
      ([Value.ofInt a, .ofInt b].reverse.getD · .zero) =
        .quotients (.ofInt 0) [(op.int? a b).map .ofInt] := rfl
  cases h_int : op.int? a b with
  | none =>
    rw [h_int] at h_eval
    exact Instruction.computes_of_eval (i := { i with opcode := op.opcode, tag := .int })
      op.operator?_opcode rfl h_eval
  | some n =>
    rw [h_int] at h_eval
    exact Instruction.computes_of_eval (i := { i with opcode := op.opcode, tag := .int })
      op.operator?_opcode rfl h_eval

theorem leaves_int (op : Arithmetic) (a b : Int32) :
    op.Leaves a b ((op.int? a b).getD 0) (op.faults (op.int? a b).isNone) := by
  intro setting carryOut task m s line₁ line₂ i h_focus h_room
  obtain ⟨s₁, h_values₁, h_run₁⟩ :=
    Machine.execute_pushInt setting carryOut task h_focus (by omega) a line₁
  have h_focus₁ := Machine.currentStack?_setStack h_focus s₁
  have h_size₁ : s₁.size = s.size + 1 := by
    rw [← s₁.length_values, h_values₁, List.length_append, s.length_values]
    rfl
  obtain ⟨s₂, h_values₂, h_run₂⟩ :=
    Machine.execute_pushInt setting carryOut task h_focus₁ (by omega) b line₂
  have h_focus₂ := Machine.currentStack?_setStack h_focus₁ s₂
  -- After the pushes the two operands stand on top of whatever was on the stack.
  have h_operands : s₂.values = s.values ++ [.ofInt a, .ofInt b] := by
    rw [h_values₂, h_values₁, List.append_assoc]
    rfl
  obtain ⟨left, h_left, h_run⟩ :=
    computes_int i op a b setting carryOut task _ s₂ s.values h_focus₂ h_operands
  refine ⟨left, h_left, ?_⟩
  rw [Machine.executeAll_cons h_run₁, Machine.executeAll_cons h_run₂, Machine.executeAll_cons h_run,
    Machine.setStack_setStack, Machine.setStack_setStack, Machine.log_setStack,
    Machine.log_setStack]
  rfl

/-! ### Quotient and remainder -/

/-- The quotient is the exact one, rounded toward zero, unless it is too large for a word. -/
theorem toInt_div_of_fits {a b : Int32} (h : ¬ (a = Int32.minValue ∧ b = -1)) :
    (a / b).toInt = a.toInt.tdiv b.toInt := by
  -- Either the dividend is not the least integer or the divisor is not -1; each alone is enough.
  by_cases h_a : a = Int32.minValue
  · exact Int32.toInt_div_of_ne_right a b fun h_b => h ⟨h_a, h_b⟩
  · exact Int32.toInt_div_of_ne_left a b h_a

/-- Quotient times divisor and the remainder make up the dividend, as words do. -/
theorem div_mul_add_mod (a b : Int32) :
    (a / b).toInt * b.toInt + (a % b).toInt ≡ a.toInt [ZMOD 2 ^ 32] := by
  -- The quotient may have wrapped around, so this holds modulo 2 ^ 32 only.
  have h_div : (a / b).toInt ≡ a.toInt.tdiv b.toInt [ZMOD 2 ^ 32] := by
    rw [Int32.toInt_div]
    exact Int.bmod_emod
  calc (a / b).toInt * b.toInt + (a % b).toInt
      ≡ a.toInt.tdiv b.toInt * b.toInt + a.toInt.tmod b.toInt [ZMOD 2 ^ 32] := by
        rw [Int32.toInt_mod]
        exact (h_div.mul_right _).add_right _
    _ = a.toInt := by rw [Int.mul_comm, Int.mul_tdiv_add_tmod]

/-- The remainder is less than the divisor. -/
theorem natAbs_mod_lt (a : Int32) {b : Int32} (h : b ≠ 0) :
    (a % b).toInt.natAbs < b.toInt.natAbs := by
  have h_b : b.toInt ≠ 0 := fun h_zero => h (Int32.toInt_inj.1 h_zero)
  rw [Int32.toInt_mod, Int.natAbs_tmod]
  exact Nat.mod_lt _ (Int.natAbs_pos.2 h_b)

/-- The remainder goes with the dividend. -/
theorem mod_eq_zero_or_sign (a b : Int32) :
    a % b = 0 ∨ (a % b).toInt.sign = a.toInt.sign := by
  have h_sign : (a % b).toInt.sign = if b.toInt ∣ a.toInt then 0 else a.toInt.sign := by
    rw [Int32.toInt_mod, Int.sign_tmod]
  split at h_sign
  · exact .inl (Int32.toInt_inj.1 (Int.sign_eq_zero_iff_zero.1 h_sign))
  · exact .inr h_sign

/-- **Division of integers truncates and never traps.** A division by zero leaves zero, and the host
is told of it. Every other division leaves a quotient and a remainder that belong together, and the
host is told of nothing: the remainder is less than the divisor and has the sign of the dividend,
and the quotient is rounded toward zero. The only quotient that is too large for a word wraps
around. -/
theorem division_truncates (a b : Int32) :
    (b = 0 → Arithmetic.div.Leaves a b 0 [⟨.divisionByZero, "DIV", 0⟩] ∧
      Arithmetic.mod.Leaves a b 0 [⟨.divisionByZero, "MOD", 0⟩]) ∧
    (b ≠ 0 → ∃ q r : Int32, Arithmetic.div.Leaves a b q [] ∧ Arithmetic.mod.Leaves a b r [] ∧
      q.toInt * b.toInt + r.toInt ≡ a.toInt [ZMOD 2 ^ 32] ∧
      |r.toInt| < |b.toInt| ∧
      (r = 0 ∨ r.toInt.sign = a.toInt.sign) ∧
      (¬ (a.toInt = -2 ^ 31 ∧ b.toInt = -1) → q.toInt = a.toInt.tdiv b.toInt) ∧
      (a.toInt = -2 ^ 31 ∧ b.toInt = -1 → q.toInt = -2 ^ 31 ∧ r = 0)) := by
  have h_div := leaves_int .div a b
  have h_mod := leaves_int .mod a b
  unfold int? at h_div h_mod
  dsimp only at h_div h_mod
  constructor
  · -- a division by zero has no result, so zero is left
    intro h_b
    rw [if_pos h_b] at h_div h_mod
    exact ⟨h_div, h_mod⟩
  · intro h_b
    rw [if_neg h_b] at h_div h_mod
    -- the one quotient that does not fit, in signed numbers and in words
    have h_words : a.toInt = -2 ^ 31 ∧ b.toInt = -1 ↔ a = Int32.minValue ∧ b = -1 := by
      rw [← Int32.toInt_inj, ← Int32.toInt_inj]
      exact Iff.rfl
    refine ⟨a / b, a % b, h_div, h_mod, div_mul_add_mod a b, ?_, mod_eq_zero_or_sign a b, ?_, ?_⟩
    · rw [Int.abs_eq_natAbs, Int.abs_eq_natAbs]
      exact Int.ofNat_lt.2 (natAbs_mod_lt a h_b)
    · exact fun h => toInt_div_of_fits (mt h_words.2 h)
    · intro h
      obtain ⟨rfl, rfl⟩ := h_words.1 h
      decide

/-- The quotient that wraps around, one that is rounded toward zero, and none. -/
theorem division_truncates_least :
    (∃ q r : Int32, Arithmetic.div.Leaves (-2147483648) (-1) q [] ∧
      Arithmetic.mod.Leaves (-2147483648) (-1) r [] ∧ q = -2147483648 ∧ r = 0) ∧
    (∃ q r : Int32, Arithmetic.div.Leaves (-7) 2 q [] ∧ Arithmetic.mod.Leaves (-7) 2 r [] ∧
      q.toInt = -3 ∧ q.toInt * 2 + r.toInt ≡ -7 [ZMOD 2 ^ 32] ∧ |r.toInt| < 2 ∧
      (r = 0 ∨ r.toInt.sign = -1)) ∧
    Arithmetic.div.Leaves 7 0 0 [⟨.divisionByZero, "DIV", 0⟩] := by
  obtain ⟨q, r, h_div, h_mod, -, -, -, -, h_least⟩ :=
    (division_truncates (-2147483648) (-1)).2 (by decide)
  obtain ⟨h_q, h_r⟩ := h_least (by decide)
  obtain ⟨q', r', h_div', h_mod', h_sum, h_lt, h_sign, h_exact, -⟩ :=
    (division_truncates (-7) 2).2 (by decide)
  have h_zero := (division_truncates 7 0).1 rfl
  exact ⟨⟨q, r, h_div, h_mod, Int32.toInt_inj.1 h_q, h_r⟩,
    ⟨q', r', h_div', h_mod', h_exact (by decide), h_sum, h_lt, h_sign⟩, h_zero.1⟩

end Arithmetic

end ScriptMachine
