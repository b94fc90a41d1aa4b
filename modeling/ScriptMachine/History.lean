/-!
# Tick history

A `Moment` is the state of a machine before a tick, in the form of a save file. A `History` keeps
moments in order, up to a limit on the memory they take; a moment that would pass the limit is
refused and nothing changes. The memory in use is counted along and not added up anew.
-/

namespace ScriptMachine

/-! ### Moments -/

/-- A saved state, and three counters that can be shown without loading it. -/
structure Moment where
  tick : UInt32
  executed : UInt32
  tasks : Nat
  save : List UInt8
deriving DecidableEq, Repr, Inhabited

/-- The bytes that a moment takes beside its save file. -/
def Moment.overhead : Nat := 40

def Moment.size (m : Moment) : Nat := m.save.length + overhead

/-! ### Histories -/

/-- Moments under a memory limit. -/
structure History where
  limit : Nat
  newestFirst : List Moment := []
  used : Nat := 0
deriving DecidableEq, Repr

/-- A moment was refused. -/
structure History.LimitExceeded where
  used : Nat
  size : Nat
  limit : Nat
deriving DecidableEq, Repr

def History.LimitExceeded.message (e : LimitExceeded) : String :=
  "tick history memory limit exceeded: " ++ toString e.used ++ " + " ++ toString e.size ++ " > "
    ++ toString e.limit

namespace History

/-- As much as a machine word can count. -/
def noLimit : Nat := 0xFFFFFFFFFFFFFFFF

instance : Inhabited History := ⟨{ limit := noLimit }⟩

def length (h : History) : Nat := h.newestFirst.length

def last? (h : History) : Option Moment := h.newestFirst.head?

/-- The moment with the given number, the oldest being number 0. -/
def get? (h : History) (index : Nat) : Option Moment := h.newestFirst.reverse[index]?

def push (h : History) (m : Moment) : Except LimitExceeded History :=
  if h.used + m.size ≤ h.limit then
    .ok { h with newestFirst := m :: h.newestFirst, used := h.used + m.size }
  else .error ⟨h.used, m.size, h.limit⟩

/-- Takes the newest moment out. -/
def pop? (h : History) : Option (Moment × History) :=
  match h.newestFirst with
  | [] => none
  | m :: rest => some (m, { h with newestFirst := rest, used := h.used - m.size })

/-- Keeps the `length` oldest moments and forgets the others. -/
def truncate (h : History) (length : Nat) : History :=
  let excess := h.length - length
  { h with
    newestFirst := h.newestFirst.drop excess
    used := (h.newestFirst.take excess).foldl (fun used m => used - m.size) h.used }

end History

end ScriptMachine
