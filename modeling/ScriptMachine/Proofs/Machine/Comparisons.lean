import ScriptMachine.Proofs.Machine.Operators

/-!
# Comparisons

Six opcodes compare the two operands on top of a stack. The payloads are compared as signed numbers,
as floating point numbers or as bits, whichever the type tag asks for, and vectors part by part.
What the six have to do with each other:

* `Instruction.comparisons_agree` : equality and the four relations are those of one order, but for
  operands that are no numbers, of which none of them holds.

For each tag that is ordered there is one `Ordering` of the two operands (`Instruction.ComparesAs`),
from which all six results are read. So that exactly one of three relations holds is that an
`Ordering` has three values, and that operands may change sides is that it can be swapped.
-/

namespace ScriptMachine

/-! ### The order of numbers -/

namespace Single

variable {x y : Single}

theorem compare?_of_isNaN (h : x.isNaN ∨ y.isNaN) : x.compare? y = none := by
  unfold compare?
  rw [if_pos (by simpa using h)]

theorem compare?_of_numbers (hx : x.isNaN = false) (hy : y.isNaN = false) :
    x.compare? y = some (compare x.position y.position) := by
  unfold compare?
  rw [hx, hy]
  rfl

theorem compare?_swap (x y : Single) : y.compare? x = (x.compare? y).map Ordering.swap := by
  unfold compare?
  rw [Bool.or_comm]
  split
  · rfl
  · -- neither is a NaN, so it is their positions that are compared
    exact congrArg some Std.OrientedCmp.eq_swap

end Single

/-- The opcode that stands for a relation. -/
def Relation.opcode : Relation → Opcode
  | ge => .ge
  | le => .le
  | gt => .gt
  | lt => .lt

theorem Relation.operator?_opcode (r : Relation) : r.opcode.operator? = some (.relation r) := by
  cases r <;> rfl

namespace Instruction

variable {i : Instruction} {opcode : Opcode} {tag : Tag} {operands : List Value} {a b : Value}

/-- With this opcode and tag the instruction puts a truth value in the place of the operands, and
the host is told of nothing. -/
def Decides (i : Instruction) (opcode : Opcode) (tag : Tag) (operands : List Value) (holds : Bool) :
    Prop :=
  { i with opcode, tag }.Computes operands [⟨.boolean, if holds then 1 else 0⟩] []

theorem decides_of_eval {op : Operator} (h_op : opcode.operator? = some op)
    (h_length : operands.length = op.arity tag) {holds : Bool}
    (h : op.eval tag (operands.reverse.getD · .zero) = .truth holds) :
    i.Decides opcode tag operands holds :=
  computes_of_eval (i := { i with opcode, tag }) h_op h_length h

/-- With this opcode and tag the instruction puts a false in the place of the operands, and the host
is told that the tag is not known. -/
def Declines (i : Instruction) (opcode : Opcode) (tag : Tag) (operands : List Value) : Prop :=
  { i with opcode, tag }.Computes operands [⟨.boolean, 0⟩] [⟨.invalidType, opcode.name, tag.number⟩]

theorem declines_of_eval {op : Operator} (h_op : opcode.operator? = some op)
    (h_length : operands.length = op.arity tag)
    (h : op.eval tag (operands.reverse.getD · .zero) = .unknown (.ofBool false)) :
    i.Declines opcode tag operands :=
  computes_of_eval (i := { i with opcode, tag }) h_op h_length h

/-! ### Equality -/

theorem decides_equality (i : Instruction) {equal : Bool}
    (h_length : operands.length = Operator.eq.arity tag)
    (h : Operator.equal? tag (operands.reverse.getD · .zero) = some equal) :
    i.Decides .eq tag operands equal ∧ i.Decides .ne tag operands (!equal) := by
  have h_eq : Operator.eq.eval tag (operands.reverse.getD · .zero) = .truth equal := by
    unfold Operator.eval
    dsimp only
    rw [h]
  have h_ne : Operator.ne.eval tag (operands.reverse.getD · .zero) = .truth (!equal) := by
    unfold Operator.eval
    dsimp only
    rw [h]
  have h_length_ne : operands.length = Operator.ne.arity tag := h_length
  exact ⟨decides_of_eval rfl h_length h_eq, decides_of_eval rfl h_length_ne h_ne⟩

theorem declines_equality (i : Instruction) (h_length : operands.length = Operator.eq.arity tag)
    (h : Operator.equal? tag (operands.reverse.getD · .zero) = none) :
    i.Declines .eq tag operands ∧ i.Declines .ne tag operands := by
  have h_eq : Operator.eq.eval tag (operands.reverse.getD · .zero) = .unknown (.ofBool false) := by
    unfold Operator.eval
    dsimp only
    rw [h]
  have h_ne : Operator.ne.eval tag (operands.reverse.getD · .zero) = .unknown (.ofBool false) := by
    unfold Operator.eval
    dsimp only
    rw [h]
  have h_length_ne : operands.length = Operator.ne.arity tag := h_length
  exact ⟨declines_of_eval rfl h_length h_eq, declines_of_eval rfl h_length_ne h_ne⟩

/-! ### Order -/

theorem decides_int (i : Instruction) (r : Relation) (a b : Value) :
    i.Decides r.opcode .int [a, b] (r.holds (compare a.int b.int)) :=
  decides_of_eval r.operator?_opcode rfl rfl

theorem decides_float (i : Instruction) (r : Relation) (a b : Value) :
    i.Decides r.opcode .float [a, b] ((a.single.compare? b.single).any r.holds) :=
  decides_of_eval r.operator?_opcode rfl rfl

/-- With this tag the two operands are compared as this order says. -/
structure ComparesAs (i : Instruction) (tag : Tag) (a b : Value) (order : Ordering) : Prop where
  relation : ∀ r : Relation, i.Decides r.opcode tag [a, b] (r.holds order)
  eq : i.Decides .eq tag [a, b] order.isEq

theorem comparesAs_int (i : Instruction) (a b : Value) :
    i.ComparesAs .int a b (compare a.int b.int) where
  relation r := i.decides_int r a b
  eq := by
    have h_equal : Operator.equal? .int ([a, b].reverse.getD · .zero) =
        some (compare a.int b.int).isEq := by
      -- a payload is determined by the signed number that it is read as
      have h_int : compare a.int b.int = .eq ↔ a.bits = b.bits :=
        Std.compare_eq_iff_eq.trans ⟨fun h => congrArg Int32.toUInt32 h, congrArg UInt32.toInt32⟩
      refine congrArg some (Bool.eq_iff_iff.2 ?_)
      rw [beq_iff_eq, Ordering.isEq_iff_eq_eq, h_int]
      rfl
    exact (decides_equality i rfl h_equal).1

theorem comparesAs_float (i : Instruction) {a b : Value} {order : Ordering}
    (h : a.single.compare? b.single = some order) : i.ComparesAs .float a b order where
  relation r := by
    have h_decides := i.decides_float r a b
    rwa [h] at h_decides
  eq := by
    have h_equal : Operator.equal? .float ([a, b].reverse.getD · .zero) = some order.isEq := by
      show some (a.single.compare? b.single == some .eq) = _
      -- whether they are equal is read off the same comparison as their order
      rw [h]
      cases order <;> rfl
    exact (decides_equality i rfl h_equal).1

/-- Exactly one of three relations holds, and the other two are what is left of them. -/
def Trichotomous (i : Instruction) (tag : Tag) (a b : Value) : Prop :=
  ∃ lt eq gt : Bool, lt.toNat + eq.toNat + gt.toNat = 1 ∧
    i.Decides .lt tag [a, b] lt ∧ i.Decides .eq tag [a, b] eq ∧ i.Decides .gt tag [a, b] gt ∧
    i.Decides .ge tag [a, b] (!lt) ∧ i.Decides .le tag [a, b] (!gt)

theorem ComparesAs.trichotomous {order : Ordering} (h : i.ComparesAs tag a b order) :
    i.Trichotomous tag a b := by
  refine ⟨order.isLT, order.isEq, order.isGT, ?_, h.relation .lt, h.eq, h.relation .gt, ?_, ?_⟩
  · cases order <;> rfl
  · have h_ge := h.relation .ge
    cases order <;> exact h_ge
  · have h_le := h.relation .le
    cases order <;> exact h_le

/-- Nothing holds of two operands of which one is no number, but that they are not equal. -/
theorem decides_of_isNaN (i : Instruction) (h : a.single.isNaN ∨ b.single.isNaN) :
    (∀ r : Relation, i.Decides r.opcode .float [a, b] false) ∧ i.Decides .eq .float [a, b] false ∧
      i.Decides .ne .float [a, b] true := by
  have h_none := Single.compare?_of_isNaN h
  have h_equal : Operator.equal? .float ([a, b].reverse.getD · .zero) = some false := by
    show some (a.single.compare? b.single == some .eq) = _
    rw [h_none]
    rfl
  refine ⟨fun r => ?_, decides_equality i rfl h_equal⟩
  have h_decides := i.decides_float r a b
  rwa [h_none] at h_decides

/-- Operands that change sides change what is greater and what is less. -/
theorem decides_swapped (i : Instruction) (a b : Value) {tag : Tag} (h : tag ∈ [Tag.int, .float]) :
    ∃ greater, i.Decides .gt tag [a, b] greater ∧ i.Decides .lt tag [b, a] greater := by
  have h_swap (order : Ordering) : Relation.lt.holds order.swap = Relation.gt.holds order := by
    cases order <;> rfl
  obtain rfl | rfl := by simpa using h
  · refine ⟨_, i.decides_int .gt a b, ?_⟩
    rw [← h_swap, ← Std.OrientedCmp.eq_swap]
    exact i.decides_int .lt b a
  · -- an operand that is no number stands on one of the sides before and after
    have h_any : (b.single.compare? a.single).any Relation.lt.holds =
        (a.single.compare? b.single).any Relation.gt.holds := by
      rw [Single.compare?_swap a.single b.single, Option.any_map, funext h_swap]
    exact ⟨_, i.decides_float .gt a b, h_any ▸ i.decides_float .lt b a⟩

/-- **Comparisons agree.** Of signed numbers, and of floating point numbers that are numbers,
exactly one is true of less, equal and greater, and the other two relations are what is left of
them. An operand that is no number is unequal to everything and not ordered. What a tag has no
equality or no order for is false and reported. -/
theorem comparisons_agree (i : Instruction) (a b : Value) :
    i.Trichotomous .int a b ∧
    (a.single.isNaN = false → b.single.isNaN = false → i.Trichotomous .float a b) ∧
    (a.single.isNaN ∨ b.single.isNaN →
      (∀ r : Relation, i.Decides r.opcode .float [a, b] false) ∧
        i.Decides .eq .float [a, b] false ∧ i.Decides .ne .float [a, b] true) ∧
    (∀ tag ∈ [Tag.int, .float], ∃ greater,
      i.Decides .gt tag [a, b] greater ∧ i.Decides .lt tag [b, a] greater) ∧
    (∀ tag ∈ [Tag.int, .boolean, .float, .object], ∃ equal,
      i.Decides .eq tag [a, b] equal ∧ i.Decides .ne tag [a, b] (!equal)) ∧
    (∀ a₁ a₂ a₃ b₁ b₂ b₃ : Value, ∃ equal,
      i.Decides .eq .vector [a₁, a₂, a₃, b₁, b₂, b₃] equal ∧
        i.Decides .ne .vector [a₁, a₂, a₃, b₁, b₂, b₃] (!equal)) ∧
    (∀ tag ∉ [Tag.int, .boolean, .float, .vector, .object],
      i.Declines .eq tag [a, b] ∧ i.Declines .ne tag [a, b]) ∧
    ∀ tag ∉ [Tag.int, .float], ∀ r : Relation, i.Declines r.opcode tag [a, b] := by
  refine ⟨(comparesAs_int i a b).trichotomous, fun h_a h_b => ?_, i.decides_of_isNaN,
    fun _ => i.decides_swapped a b, fun tag h_tag => ?_, fun a₁ a₂ a₃ b₁ b₂ b₃ => ?_,
    fun tag h_tag => ?_, fun tag h_tag r => ?_⟩
  · exact (comparesAs_float i (Single.compare?_of_numbers h_a h_b)).trichotomous
  · obtain rfl | rfl | rfl | rfl := by simpa using h_tag
    all_goals exact ⟨_, decides_equality i rfl rfl⟩
  · exact ⟨_, decides_equality i rfl rfl⟩
  · cases tag with
    | int | boolean | float | vector | object => exact absurd (by decide) h_tag
    | _ => exact declines_equality i rfl rfl
  · cases tag with
    | int | float => exact absurd (by decide) h_tag
    | _ => exact declines_of_eval r.operator?_opcode rfl rfl

/-- A number beside one that is none, the two zeros, and a tag without equality. -/
theorem comparisons_agree_apart :
    (Value.single ⟨.int, 0⟩).isNaN = false ∧ (Value.single ⟨.float, 0x80000000⟩).isNaN = false ∧
    (default : Instruction).Trichotomous .float ⟨.int, 0⟩ ⟨.float, 0x80000000⟩ ∧
    (Value.single ⟨.float, 0x7FC00001⟩).isNaN = true ∧
    (default : Instruction).Decides .ne .float [⟨.float, 0x7FC00001⟩, ⟨.float, 0x7FC00001⟩] true ∧
    (default : Instruction).Declines .eq .untyped [⟨.int, 0⟩, ⟨.float, 0x80000000⟩] := by
  have h_zero : (Value.single ⟨.int, 0⟩).isNaN = false := by decide
  have h_negative : (Value.single ⟨.float, 0x80000000⟩).isNaN = false := by decide
  have h_nan : (Value.single ⟨.float, 0x7FC00001⟩).isNaN = true := by decide
  obtain ⟨-, h_numbers, -, -, -, -, h_unknown, -⟩ :=
    comparisons_agree default ⟨.int, 0⟩ ⟨.float, 0x80000000⟩
  obtain ⟨-, -, h_apart, -⟩ :=
    comparisons_agree default ⟨.float, 0x7FC00001⟩ ⟨.float, 0x7FC00001⟩
  exact ⟨h_zero, h_negative, h_numbers h_zero h_negative, h_nan, (h_apart (.inl h_nan)).2.2,
    (h_unknown .untyped (by decide)).1⟩

end Instruction

end ScriptMachine
