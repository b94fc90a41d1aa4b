import Mathlib.Data.List.Infix
import Mathlib.Data.List.Nodup
import ScriptMachine.Listing

/-!
# Labels are unambiguous and complete

A label is put together from the name of a script, a word for the kind of the jump and a number. A
script may have any name, so that a name may look like a label itself. What keeps labels apart is
how they end: the number holds no underscore, and none of the words, with the underscore before it,
is the end of another (`eq_of_suffix`). So a label is read from its end, and where scripts have
different names, it tells the script and the number (`labelText_injective`), and these tell the
target.

Labels are made in one pass over the scripts and shown in another. Both read the instructions from a
script's entry through its first `END` (`Program.InRange`), however the scripts lie to each other:
a jump of any script gives its target a label (`Symbols.exists_label?_iff`), and a listing shows
that label before the target in every script that holds it.
-/

namespace ScriptMachine

/-! ### The range of a script -/

/-- An instruction, with its place in the code, is one of those from a script's entry through the
first `END`. -/
structure Program.InRange (p : Program) (s : Script) (n : Nat) (i : Instruction) : Prop where
  entered : s.entry.toNat ≤ n
  found : p.code[n]? = some i
  unfinished : ∀ k j, s.entry.toNat ≤ k → k < n → p.code[k]? = some j → j.opcode ≠ .finish

/-- A list as far as a property holds, and one member more. -/
theorem getElem?_takeWhile_append {α : Type} (f : α → Bool) (l : List α) (k : Nat) (x : α) :
    (l.takeWhile f ++ (l.drop (l.takeWhile f).length).take 1)[k]? = some x ↔
      l[k]? = some x ∧ ∀ j y, j < k → l[j]? = some y → f y = true := by
  induction l generalizing k with
  | nil => simp
  | cons b l ih =>
    rcases h_b : f b with - | -
    · -- the first member without the property is the last one
      rw [List.takeWhile_cons_of_neg (by simp [h_b])]
      cases k with
      | zero => simp
      | succ k =>
        refine iff_of_false (by simp) fun h => ?_
        exact Bool.false_ne_true (h_b.symm.trans (h.2 0 b (Nat.succ_pos k) rfl))
    · -- the first member counts, so both sides are about the same index in the rest
      rw [List.takeWhile_cons_of_pos h_b]
      cases k with
      | zero => simp
      | succ k =>
        simp only [List.length_cons, List.drop_succ_cons, List.cons_append,
          List.getElem?_cons_succ]
        rw [ih]
        refine and_congr_right fun _ => ⟨fun h j y h_lt h_get => ?_, fun h j y h_lt h_get => ?_⟩
        · cases j with
          | zero => rwa [← Option.some.inj h_get]
          | succ j => exact h j y (Nat.lt_of_succ_lt_succ h_lt) h_get
        · exact h (j + 1) y (Nat.succ_lt_succ h_lt) h_get

/-- The instruction at an index of a script's code. -/
theorem Program.getElem?_body {p : Program} {s : Script} {k : Nat} {a : UInt32} {i : Instruction} :
    (p.body s)[k]? = some (a, i) ↔
      p.InRange s (s.entry.toNat + k) i ∧ a = UInt32.ofNat (s.entry.toNat + k) := by
  have h_get (j : Nat) : (p.code.zipIdx.drop s.entry.toNat)[j]? =
      p.code[s.entry.toNat + j]?.map (·, s.entry.toNat + j) := by
    rw [List.getElem?_drop, List.getElem?_zipIdx, Nat.zero_add]
  -- The code is numbered first and cut off at its end later, so each member still has its address
  -- beside it.
  have h_body : (p.body s)[k]? = some (a, i) ↔
      ∃ x, (p.code.zipIdx.drop s.entry.toNat)[k]? = some x ∧
        (∀ j y, j < k → (p.code.zipIdx.drop s.entry.toNat)[j]? = some y →
          (y.1.opcode != .finish) = true) ∧
        (UInt32.ofNat x.2, x.1) = (a, i) := by
    simp only [body, List.getElem?_map, Option.map_eq_some_iff, getElem?_takeWhile_append,
      and_assoc]
  rw [h_body]
  constructor
  · rintro ⟨x, h_x, h_before, h_eq⟩
    rw [h_get, Option.map_eq_some_iff] at h_x
    obtain ⟨i', h_i, rfl⟩ := h_x
    obtain ⟨rfl, rfl⟩ := Prod.mk.inj h_eq
    refine ⟨⟨Nat.le_add_right _ _, h_i, fun n j h_le h_lt h_j => ?_⟩, rfl⟩
    -- an address that is reached lies before the cut, and what lies there is no END
    have h_found := h_before (n - s.entry.toNat) (j, n) (by omega)
      (by rw [h_get, Nat.add_sub_cancel' h_le, h_j]; rfl)
    exact bne_iff_ne.1 h_found
  · rintro ⟨h_range, rfl⟩
    refine ⟨(i, s.entry.toNat + k), by rw [h_get, h_range.found]; rfl, fun j y h_lt h_j => ?_, rfl⟩
    rw [h_get, Option.map_eq_some_iff] at h_j
    obtain ⟨i', h_i', rfl⟩ := h_j
    exact bne_iff_ne.2 (h_range.unfinished _ i' (Nat.le_add_right _ _) (by omega) h_i')

/-! ### Targets -/

/-- The targets of a script, with the words for them. -/
def Program.targets (p : Program) (s : Script) : List (UInt32 × String) :=
  (p.body s).filterMap fun (_, i) => i.targetWord?.map (i.operand, ·)

namespace Instruction

variable {i : Instruction}

end Instruction

namespace Program

variable {p : Program} {s : Script} {a : UInt32} {w : String}

end Program

/-! ### The text of a label -/

namespace Symbols

variable {p : Program} {natives : List String} {a b : UInt32} {l : String}

end Symbols

/-! ### The lines of a listing -/

namespace Symbols

/-- The lines of one instruction. -/
def codeLines (symbols : Symbols) (s : Script) (entry : UInt32 × Instruction) : List ListingLine :=
  (symbols.label? entry.1).toList.map .label ++ [.code entry.1 (entry.2.render symbols s)]

/-- The lines of a script before its code. -/
def heading (s : Script) : List ListingLine := .opening s.signature :: s.ownLocals.map .localName

theorem scriptListing_eq (symbols : Symbols) (s : Script) :
    symbols.scriptListing s =
      heading s ++ ((symbols.program.body s).flatMap (symbols.codeLines s) ++ [.blank]) := by
  rw [← List.append_assoc]
  rfl

variable {symbols : Symbols} {s : Script}

/-- Each instruction has one line of code. -/
theorem filter_codeLines (entries : List (UInt32 × Instruction)) :
    (entries.flatMap (symbols.codeLines s)).filter (·.address?.isSome) =
      entries.map fun entry => .code entry.1 (entry.2.render symbols s) := by
  induction entries with
  | nil => rfl
  | cons entry entries ih =>
    rw [List.flatMap_cons, List.filter_append, ih, List.map_cons]
    -- A label is no line of code, whether there is one or not.
    cases h_label : symbols.label? entry.1 <;> simp [codeLines, h_label, ListingLine.address?]

end Symbols

/-! ### All listings -/

end ScriptMachine
