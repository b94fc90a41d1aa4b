import ScriptMachine.Value

/-!
# Operand stacks

A `Stack` holds at most `Stack.capacity` values, the top first, and counts the values that were ever
pushed and popped; both counters wrap around. A push on a full stack and a pop from an empty one are
refused and leave no trace, in the counters neither.

`Stack.values` lists the slots from the bottom up, as save files and dumps do.
-/

namespace ScriptMachine

/-- The number of slots of every stack. -/
def Stack.capacity : Nat := 32

/-- An operand stack, the top slot first. -/
structure Stack where
  slots : List Value
  pushes : UInt32
  pops : UInt32
  size_le : slots.length ≤ Stack.capacity := by decide
deriving DecidableEq, Repr

namespace Stack

def empty : Stack := { slots := [], pushes := 0, pops := 0 }

instance : Inhabited Stack := ⟨empty⟩

def size (s : Stack) : Nat := s.slots.length

/-- The slots from the bottom up. -/
def values (s : Stack) : List Value := s.slots.reverse

/-- The stack that holds the given values, the last one on top; none if they are too many. -/
def ofValues? (values : List Value) (pushes pops : UInt32) : Option Stack :=
  if h : values.length ≤ capacity then
    some { slots := values.reverse, pushes, pops, size_le := by simpa using h }
  else none

/-- Puts a value on top; none if the stack is full. -/
def push? (s : Stack) (v : Value) : Option Stack :=
  if h : s.slots.length < capacity then
    some { slots := v :: s.slots, pushes := s.pushes + 1, pops := s.pops, size_le := h }
  else none

/-- Takes the top value off; none if the stack is empty. -/
def pop? (s : Stack) : Option (Value × Stack) :=
  match s with
  | { slots := [], .. } => none
  | { slots := top :: rest, pushes, pops, size_le } =>
    some (top, { slots := rest, pushes, pops := pops + 1, size_le := Nat.le_of_succ_le size_le })

/-- The value `depth` slots below the top. -/
def peek? (s : Stack) (depth : Nat) : Option Value := s.slots[depth]?

/-- Overwrites the value `depth` slots below the top; none if there is no such slot. -/
def poke? (s : Stack) (depth : Nat) (v : Value) : Option Stack :=
  if depth < s.slots.length then
    some { s with slots := s.slots.set depth v, size_le := by simpa using s.size_le }
  else none

/-- Exchanges the two topmost values; none if there are not two. -/
def swap? (s : Stack) : Option Stack :=
  match s with
  -- Nothing is pushed or popped, so nothing is counted.
  | { slots := top :: next :: rest, pushes, pops, size_le } =>
    some { slots := next :: top :: rest, pushes, pops, size_le }
  | _ => none

/-! ### What the operations do to the slots -/

theorem length_values (s : Stack) : s.values.length = s.size := List.length_reverse

/-- A stack is small enough for its size to be a word. -/
theorem toNat_ofNat_size (s : Stack) : (UInt32.ofNat s.size).toNat = s.size :=
  UInt32.toNat_ofNat_of_lt' (Nat.lt_of_le_of_lt s.size_le (by decide))

theorem ofValues?_eq_some_iff {values : List Value} {pushes pops : UInt32} {s : Stack} :
    ofValues? values pushes pops = some s ↔
      s.values = values ∧ s.pushes = pushes ∧ s.pops = pops := by
  unfold ofValues? Stack.values
  constructor
  · intro h
    split at h
    · obtain rfl := Option.some.inj h
      exact ⟨List.reverse_reverse _, rfl, rfl⟩
    · contradiction
  · rintro ⟨rfl, rfl, rfl⟩
    rw [dif_pos (by simpa using s.size_le)]
    simp

theorem slots_push {s t : Stack} {v : Value} (h : s.push? v = some t) : t.slots = v :: s.slots := by
  unfold push? at h
  split at h
  · simp only [Option.some.injEq] at h
    rw [← h]
  · contradiction

theorem push?_eq_none_iff {s : Stack} {v : Value} : s.push? v = none ↔ s.size = capacity := by
  have := s.size_le
  unfold push? size
  split <;> simp <;> omega

theorem slots_pop {s t : Stack} {v : Value} (h : s.pop? = some (v, t)) :
    s.slots = v :: t.slots := by
  unfold pop? at h
  split at h
  · contradiction
  · simp only [Option.some.injEq, Prod.mk.injEq] at h
    rw [← h.1, ← h.2]

theorem pop?_eq_none_iff {s : Stack} : s.pop? = none ↔ s.size = 0 := by
  unfold pop? size
  split <;> simp

end Stack

end ScriptMachine
