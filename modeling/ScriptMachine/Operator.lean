import ScriptMachine.Fault
import ScriptMachine.Instruction

/-!
# Operators

Fifteen opcodes do nothing but replace the topmost values of a stack by values computed from them.
What they compute is a function of the values taken (`Operator.eval`), which are as many as operator
and type tag demand (`Operator.arity`), whether the stack holds so many or not.

Integers wrap around. A division by zero yields zero and is reported, and so is a type tag that an
operator does not know.
-/

namespace ScriptMachine

/-! ### The operators -/

inductive Arithmetic where
  | add
  | sub
  | mul
  | div
  | mod
deriving DecidableEq, Repr

/-- The relations that come with an order. -/
inductive Relation where
  | ge
  | le
  | gt
  | lt
deriving DecidableEq, Repr

inductive Operator where
  | arithmetic (op : Arithmetic)
  | neg
  | not
  | and
  | or
  | eq
  | ne
  | relation (r : Relation)
deriving DecidableEq, Repr

/-- The operator that an opcode stands for. -/
def Opcode.operator? : Opcode → Option Operator
  | add => some (.arithmetic .add)
  | sub => some (.arithmetic .sub)
  | mul => some (.arithmetic .mul)
  | div => some (.arithmetic .div)
  | mod => some (.arithmetic .mod)
  | neg => some .neg
  | not => some .not
  | and => some .and
  | or => some .or
  | eq => some .eq
  | ne => some .ne
  | ge => some (.relation .ge)
  | le => some (.relation .le)
  | gt => some (.relation .gt)
  | lt => some (.relation .lt)
  | _ => none

namespace Arithmetic

/-- The result for integers; none for a division by zero. -/
def int? (op : Arithmetic) (a b : Int32) : Option Int32 :=
  match op with
  | add => some (a + b)
  | sub => some (a - b)
  | mul => some (a * b)
  | div => if b = 0 then none else some (a / b)
  | mod => if b = 0 then none else some (a % b)

/-- The result for floating point numbers; none for a division by zero. -/
def single? (op : Arithmetic) (a b : Single) : Option Single :=
  match op with
  | add => some (a.add b)
  | sub => some (a.sub b)
  | mul => some (a.mul b)
  | div => if b.isZero then none else some (a.div b)
  | mod => if b.isZero then none else some (a.rem b)

end Arithmetic

/-- Whether a relation holds between things that are ordered in this way. -/
def Relation.holds : Relation → Ordering → Bool
  | ge, order => order.isGE
  | le, order => order.isLE
  | gt, order => order.isGT
  | lt, order => order.isLT

/-! ### Evaluation -/

/-- What an operator leaves: values, the first of which is pushed first, and what went wrong. -/
structure Outcome where
  results : List Value
  trouble : Option FaultCode := none
deriving DecidableEq, Repr

namespace Outcome

def truth (b : Bool) : Outcome := { results := [.ofBool b] }

/-- Results that may be missing for want of a quotient. -/
def quotients (blank : Value) (results : List (Option Value)) : Outcome :=
  { results := results.map (·.getD blank)
    trouble := if results.all (·.isSome) then none else some .divisionByZero }

/-- The outcome for a type tag that the operator does not know. -/
def unknown (result : Value) : Outcome := { results := [result], trouble := some .invalidType }

end Outcome

namespace Operator

/-- How many values an operator takes off the stack. A vector is three of them. -/
def arity (op : Operator) (tag : Tag) : Nat :=
  match op with
  | not => 1
  | and | or | relation _ => 2
  | neg => if tag = .vector then 3 else 1
  | arithmetic _ | eq | ne => if tag = .vector then 6 else 2

/-- Equality of two operands given from the top down, for the tags that have one. -/
def equal? (tag : Tag) (taken : Nat → Value) : Option Bool :=
  match tag with
  | .int | .boolean | .object => some ((taken 1).bits == (taken 0).bits)
  | .float => some ((taken 1).single.equals (taken 0).single)
  | .vector => some <| [0, 1, 2].all fun i => (taken (3 + i)).single.equals (taken i).single
  | _ => none

/-- What an operator computes from the values `taken`, number 0 being the topmost. -/
def eval (op : Operator) (tag : Tag) (taken : Nat → Value) : Outcome :=
  match op with
  | not => .truth (!(taken 0).truth)
  | and => .truth ((taken 1).truth && (taken 0).truth)
  | or => .truth ((taken 1).truth || (taken 0).truth)
  | neg =>
    match tag with
    | .int => { results := [.ofInt (-(taken 0).int)] }
    | .float => { results := [.ofSingle (taken 0).single.neg] }
    -- The part that was taken last is the first to go back.
    | .vector => { results := [2, 1, 0].map fun i => .ofSingle (taken i).single.neg }
    | _ => .unknown ⟨tag, 0⟩
  | arithmetic op =>
    let number (i j : Nat) : Option Value :=
      (op.single? (taken i).single (taken j).single).map .ofSingle
    match tag with
    | .int => .quotients (.ofInt 0) [(op.int? (taken 1).int (taken 0).int).map .ofInt]
    | .float => .quotients (.ofSingle (.zero false)) [number 1 0]
    -- The right operand is at 0 to 2 and the left one at 3 to 5, each from its last part down.
    | .vector => .quotients (.ofSingle (.zero false)) [number 5 2, number 4 1, number 3 0]
    | _ => .unknown ⟨tag, 0⟩
  | eq =>
    match equal? tag taken with
    | some equal => .truth equal
    | none => .unknown (.ofBool false)
  | ne =>
    match equal? tag taken with
    | some equal => .truth (!equal)
    | none => .unknown (.ofBool false)
  | relation r =>
    match tag with
    | .int => .truth (r.holds (compare (taken 1).int (taken 0).int))
    | .float => .truth (((taken 1).single.compare? (taken 0).single).any r.holds)
    | _ => .unknown (.ofBool false)

end Operator

end ScriptMachine
