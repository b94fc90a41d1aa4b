import ScriptMachine.Proofs.Machine.Comparisons

/-!
# Vectors

A vector is three numbers on the stack, x lowest. What an instruction does with vectors is what it
does with numbers, part by part:

* `Instruction.parts_agree` : the parts of a result are the results for the parts, and the host is
  told of a division by zero once, however many parts it happens in. Two vectors are equal if all
  parts are.

An instruction takes the parts of both operands before it puts the first part of the result in their
place. So which part of one operand meets which of the other is a matter of counting from the top of
the stack, where the last part of the right operand is.
-/

namespace ScriptMachine

namespace Arithmetic

/-- The opcode that stands for an operator. -/
def opcode : Arithmetic → Opcode
  | add => .add
  | sub => .sub
  | mul => .mul
  | div => .div
  | mod => .mod

theorem operator?_opcode (op : Arithmetic) : op.opcode.operator? = some (.arithmetic op) := by
  cases op <;> rfl

/-- What is left of two numbers: zero for want of a quotient. -/
def result (op : Arithmetic) (a b : Value) : Single :=
  (op.single? a.single b.single).getD (.zero false)

/-- Two numbers have no quotient. -/
def fails (op : Arithmetic) (a b : Value) : Bool := (op.single? a.single b.single).isNone

/-- What is left of several pairs of numbers. -/
def outcome (op : Arithmetic) (pairs : List (Value × Value)) : Outcome :=
  .quotients (.ofSingle (.zero false))
    (pairs.map fun p => (op.single? p.1.single p.2.single).map .ofSingle)

theorem results_outcome (op : Arithmetic) (pairs : List (Value × Value)) :
    (op.outcome pairs).results = pairs.map fun p => .ofSingle (op.result p.1 p.2) := by
  unfold outcome Outcome.quotients
  rw [List.map_map]
  exact List.map_congr_left fun p _ => Option.getD_map ..

/-- What the host is told of divisions by zero, if there were any. -/
def faults (op : Arithmetic) (divided : Bool) : List Fault :=
  if divided then [⟨.divisionByZero, op.opcode.name, 0⟩] else []

theorem faults_outcome {i : Instruction} {op : Arithmetic} (h : i.opcode = op.opcode)
    (pairs : List (Value × Value)) :
    (op.outcome pairs).faults i = op.faults (pairs.any fun p => op.fails p.1 p.2) := by
  -- there is no trouble if and only if no pair fails
  have h_all : (pairs.map fun p => (op.single? p.1.single p.2.single).map Value.ofSingle).all
      (·.isSome) = !pairs.any fun p => op.fails p.1 p.2 := by
    rw [List.all_map, List.not_any_eq_all_not]
    refine congrArg (List.all pairs) (funext fun p => ?_)
    unfold fails
    dsimp only [Function.comp]
    rw [Option.isSome_map, Option.not_isNone]
  unfold outcome Outcome.quotients Outcome.faults faults
  rw [h_all, h]
  cases pairs.any fun p => op.fails p.1 p.2 <;> rfl

/-- Nothing is divided by zero, nor by minus zero, and that is reported once. -/
example : Arithmetic.div.outcome [(⟨.float, 0x40000000⟩, ⟨.float, 0⟩),
      (⟨.int, 0x40800000⟩, ⟨.float, 0x40000000⟩), (⟨.float, 7⟩, ⟨.float, 0x80000000⟩)] =
    { results := [⟨.float, 0⟩, ⟨.float, 0x40000000⟩, ⟨.float, 0⟩]
      trouble := some .divisionByZero } := by decide

end Arithmetic

namespace Instruction

/-! ### Arithmetic -/

/-- An instruction that lines up the operands in pairs leaves a result for each. -/
theorem computes_pairs (i : Instruction) (op : Arithmetic) (tag : Tag) (operands : List Value)
    (pairs : List (Value × Value)) (h_length : operands.length = (Operator.arithmetic op).arity tag)
    (h : (Operator.arithmetic op).eval tag (operands.reverse.getD · .zero) = op.outcome pairs) :
    { i with opcode := op.opcode, tag }.Computes operands
      (pairs.map fun p : Value × Value => .ofSingle (op.result p.1 p.2))
      (op.faults (pairs.any fun p => op.fails p.1 p.2)) := by
  have h_faults := Arithmetic.faults_outcome (i := { i with opcode := op.opcode, tag }) rfl pairs
  rw [← op.results_outcome, ← h_faults]
  exact computes_of_eval op.operator?_opcode h_length h

theorem computes_float (i : Instruction) (op : Arithmetic) (a b : Value) :
    { i with opcode := op.opcode, tag := .float }.Computes [a, b] [.ofSingle (op.result a b)]
      (op.faults (op.fails a b)) := by
  have h_computes := i.computes_pairs op .float [a, b] [(a, b)] rfl rfl
  rwa [List.any_cons, List.any_nil, Bool.or_false] at h_computes

theorem computes_vector (i : Instruction) (op : Arithmetic) (a₁ a₂ a₃ b₁ b₂ b₃ : Value) :
    { i with opcode := op.opcode, tag := .vector }.Computes [a₁, a₂, a₃, b₁, b₂, b₃]
      [.ofSingle (op.result a₁ b₁), .ofSingle (op.result a₂ b₂), .ofSingle (op.result a₃ b₃)]
      (op.faults (op.fails a₁ b₁ || op.fails a₂ b₂ || op.fails a₃ b₃)) := by
  -- the parts that stand at the same depth in both operands meet
  have h_computes := i.computes_pairs op .vector [a₁, a₂, a₃, b₁, b₂, b₃]
    [(a₁, b₁), (a₂, b₂), (a₃, b₃)] rfl rfl
  rwa [List.any_cons, List.any_cons, List.any_cons, List.any_nil, Bool.or_false, ← Bool.or_assoc]
    at h_computes

theorem computes_neg_float (i : Instruction) (a : Value) :
    { i with opcode := .neg, tag := .float }.Computes [a] [.ofSingle a.single.neg] [] :=
  computes_of_eval (i := { i with opcode := .neg, tag := .float }) rfl rfl rfl

theorem computes_neg_vector (i : Instruction) (a₁ a₂ a₃ : Value) :
    { i with opcode := .neg, tag := .vector }.Computes [a₁, a₂, a₃]
      [.ofSingle a₁.single.neg, .ofSingle a₂.single.neg, .ofSingle a₃.single.neg] [] :=
  computes_of_eval (i := { i with opcode := .neg, tag := .vector }) rfl rfl rfl

/-! ### Equality -/

/-- What an instruction decides is determined. -/
theorem Decides.unique {i : Instruction} {opcode : Opcode} {tag : Tag} {operands : List Value}
    {holds holds' : Bool} (h : i.Decides opcode tag operands holds)
    (h' : i.Decides opcode tag operands holds') (h_fits : operands.length ≤ Stack.capacity) :
    holds = holds' := by
  have h_results := (Computes.unique h h' h_fits).1
  -- one of the results is one and the other zero
  cases holds <;> cases holds' <;> first | rfl | exact absurd h_results (by decide)

theorem decides_eq_float (i : Instruction) (a b : Value) :
    i.Decides .eq .float [a, b] (a.single.equals b.single) :=
  (decides_equality i rfl rfl).1

theorem decides_equality_vector (i : Instruction) (a₁ a₂ a₃ b₁ b₂ b₃ : Value) :
    let equal := a₁.single.equals b₁.single && a₂.single.equals b₂.single &&
      a₃.single.equals b₃.single
    i.Decides .eq .vector [a₁, a₂, a₃, b₁, b₂, b₃] equal ∧
      i.Decides .ne .vector [a₁, a₂, a₃, b₁, b₂, b₃] (!equal) := by
  refine decides_equality i rfl (congrArg some ?_)
  -- the last parts are on top, and are compared first
  show (a₃.single.equals b₃.single && (a₂.single.equals b₂.single &&
    (a₁.single.equals b₁.single && true))) = _
  rw [Bool.and_true, Bool.and_comm (a₂.single.equals b₂.single), Bool.and_comm]

/-- **Vectors part by part.** Whatever is in the six slots, an operator leaves for two vectors the
three numbers that it leaves for their parts, in the same order, and reports a division by zero once
if there is one in any part. A vector is negated part by part. Two vectors are equal exactly if they
are in all three parts, and unequal otherwise. -/
theorem parts_agree (i : Instruction) (a₁ a₂ a₃ b₁ b₂ b₃ : Value) :
    (∀ op : Arithmetic, ∃ (x y z : UInt32) (divided₁ divided₂ divided₃ : Bool),
      { i with opcode := op.opcode, tag := .float }.Computes
        [a₁, b₁] [⟨.float, x⟩] (op.faults divided₁) ∧
      { i with opcode := op.opcode, tag := .float }.Computes
        [a₂, b₂] [⟨.float, y⟩] (op.faults divided₂) ∧
      { i with opcode := op.opcode, tag := .float }.Computes
        [a₃, b₃] [⟨.float, z⟩] (op.faults divided₃) ∧
      { i with opcode := op.opcode, tag := .vector }.Computes
        [a₁, a₂, a₃, b₁, b₂, b₃] [⟨.float, x⟩, ⟨.float, y⟩, ⟨.float, z⟩]
        (op.faults (divided₁ || divided₂ || divided₃))) ∧
    (∃ x y z : UInt32,
      { i with opcode := .neg, tag := .float }.Computes [a₁] [⟨.float, x⟩] [] ∧
      { i with opcode := .neg, tag := .float }.Computes [a₂] [⟨.float, y⟩] [] ∧
      { i with opcode := .neg, tag := .float }.Computes [a₃] [⟨.float, z⟩] [] ∧
      { i with opcode := .neg, tag := .vector }.Computes
        [a₁, a₂, a₃] [⟨.float, x⟩, ⟨.float, y⟩, ⟨.float, z⟩] []) ∧
    ∃ equal : Bool,
      i.Decides .eq .vector [a₁, a₂, a₃, b₁, b₂, b₃] equal ∧
      i.Decides .ne .vector [a₁, a₂, a₃, b₁, b₂, b₃] (!equal) ∧
      (equal = true ↔ i.Decides .eq .float [a₁, b₁] true ∧ i.Decides .eq .float [a₂, b₂] true ∧
        i.Decides .eq .float [a₃, b₃] true) := by
  refine ⟨fun op => ?_, ?_, ?_⟩
  · exact ⟨_, _, _, _, _, _, i.computes_float op a₁ b₁, i.computes_float op a₂ b₂,
      i.computes_float op a₃ b₃, i.computes_vector op a₁ a₂ a₃ b₁ b₂ b₃⟩
  · exact ⟨_, _, _, i.computes_neg_float a₁, i.computes_neg_float a₂, i.computes_neg_float a₃,
      i.computes_neg_vector a₁ a₂ a₃⟩
  · have h_fits : 2 ≤ Stack.capacity := by decide
    -- what an instruction decides about two numbers is whether they are equal
    have h_float (a b : Value) :
        i.Decides .eq .float [a, b] true ↔ a.single.equals b.single = true :=
      ⟨fun h => (i.decides_eq_float a b).unique h h_fits, fun h => h ▸ i.decides_eq_float a b⟩
    obtain ⟨h_eq, h_ne⟩ := i.decides_equality_vector a₁ a₂ a₃ b₁ b₂ b₃
    refine ⟨_, h_eq, h_ne, ?_⟩
    rw [h_float, h_float, h_float, Bool.and_eq_true, Bool.and_eq_true, and_assoc]

end Instruction

end ScriptMachine
