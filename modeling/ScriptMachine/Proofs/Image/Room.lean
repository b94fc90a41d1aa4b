import Mathlib.Algebra.BigOperators.Ring.List
import Mathlib.Algebra.Ring.Nat
import ScriptMachine.Proofs.Image.Reading

/-!
# The room that an image takes

An image is not decoded from fewer bytes than its parts take at least (`Image.footprint_le`). A text
may be spelled in several ways, of different lengths, but it ends with a zero byte, and everything
else has a width of its own.

What is decoded comes from the bytes of a piece of its form, so the bound is one on forms
(`Form.AtLeast`). It is found for the forms at the bottom and added up along `++`.
-/

namespace ScriptMachine

/-! ### The least room that things take in a file -/

namespace Form

/-- Every way to write it down has at least so many bytes. -/
def AtLeast (F : Form) (size : Nat) : Prop := ∀ p ∈ F, size ≤ p.bytes.length

variable {F G : Form} {m n : Nat}

theorem AtLeast.append (hF : F.AtLeast m) (hG : G.AtLeast n) : (F ++ G).AtLeast (m + n) := by
  rintro _ ⟨q, hq, r, hr, rfl⟩
  rw [Piece.bytes_append, List.length_append]
  exact Nat.add_le_add (hF q hq) (hG r hr)

theorem AtLeast.mono (h : F.AtLeast m) (h_le : n ≤ m) : F.AtLeast n :=
  fun p hp => h_le.trans (h p hp)

theorem AtLeast.given (h : F.AtLeast m) (condition : Prop) : (F.given condition).AtLeast m :=
  fun p hp => h p hp.2

theorem atLeast_exactly (bytes : List UInt8) : (exactly bytes).AtLeast bytes.length := by
  rintro _ rfl
  exact Nat.le_refl _

theorem atLeast_word (w : UInt32) : (word w).AtLeast 4 := atLeast_exactly _

/-- The zero byte that ends it. -/
theorem atLeast_text (s : String) : (text s).AtLeast 1 := by
  rintro _ ⟨raw, -, -, rfl⟩
  simp

theorem atLeast_flag (b : Bool) : (flag b).AtLeast 1 := by
  rintro _ ⟨byte, -, rfl⟩
  exact Nat.le_refl _

theorem atLeast_signedLength (size : Nat) : (signedLength size).AtLeast 4 := by
  rintro _ ⟨count, -, rfl⟩
  exact Nat.le_refl _

section

variable {α : Type} {entry : α → Form} {size : α → Nat}

theorem atLeast_entries (h : ∀ a, (entry a).AtLeast (size a)) (members : List α) :
    (entries entry members).AtLeast (members.map size).sum := by
  induction members with
  | nil => exact fun p _ => Nat.zero_le _
  | cons a members ih => exact (h a).append ih

theorem atLeast_signedTable (h : ∀ a, (entry a).AtLeast (size a)) (members : List α) :
    (signedTable entry members).AtLeast (4 + (members.map size).sum) :=
  (atLeast_signedLength _).append (atLeast_entries h members)

theorem atLeast_table (h : ∀ a, (entry a).AtLeast (size a)) (members : List α) :
    (table entry members).AtLeast (4 + (members.map size).sum) :=
  ((atLeast_word _).append (atLeast_entries h members)).given _

end

end Form

/-! ### The room that an image takes -/

/-- The room that a program takes at least: a byte for a name and for a byte of the text pool, the
words of its code and of the scripts to start, and 26 bytes for a script. -/
def Program.footprint (p : Program) : Nat :=
  p.globals.length + 20 * p.code.length + 4 * p.autostart.length + 26 * p.scripts.length
    + (p.scripts.map (·.localNames.length)).sum + p.data.length

/-- The room that a checkpoint takes at least: 6 bytes for a variable, 60 for a task, 8 for a slot
of any stack and a word for a handler. -/
def Checkpoint.footprint (c : Checkpoint) : Nat :=
  6 * c.globals.length + 60 * c.tasks.length + 6 * (c.tasks.map (·.locals.length)).sum
    + 8 * (c.stack.size + (c.tasks.map (·.stack.size)).sum)
    + 4 * (c.tasks.map (·.handlers.length)).sum

def Image.footprint (i : Image) : Nat :=
  i.program.footprint + (i.checkpoint.map Checkpoint.footprint).getD 0

namespace Form

theorem atLeast_instruction (i : Instruction) : (instruction i).AtLeast 20 := atLeast_exactly _

theorem atLeast_script (s : Script) : (script s).AtLeast (26 + s.localNames.length) := by
  refine ((atLeast_text _).append (atLeast_text _) |>.append (atLeast_word _)
    |>.append (atLeast_word _) |>.append (atLeast_signedTable atLeast_text s.localNames)
    |>.append (atLeast_word _) |>.append (atLeast_word _) |>.append (atLeast_word _)).mono ?_
  rw [List.map_const', List.sum_replicate_nat]
  omega

theorem atLeast_data (bytes : List UInt8) : (data bytes).AtLeast bytes.length := by
  refine ((atLeast_exactly _).given _).mono ?_
  simp [Writer.table]

theorem atLeast_program (p : Program) : (program p).AtLeast p.footprint := by
  refine (((atLeast_exactly _).given _).append (atLeast_word _)
    |>.append (atLeast_signedTable atLeast_text p.globals)
    |>.append (atLeast_signedTable atLeast_instruction p.code)
    |>.append (atLeast_signedTable atLeast_word p.autostart)
    |>.append (atLeast_signedTable atLeast_script p.scripts) |>.append (atLeast_data _)).mono ?_
  simp only [Program.footprint, List.map_const', List.sum_replicate_nat, List.sum_map_add]
  omega

/-- Three words, and two for each slot. -/
theorem atLeast_stack (s : Stack) : (exactly (Writer.stack s)).AtLeast (12 + 8 * s.size) := by
  refine (atLeast_exactly _).mono ?_
  have h_word (w : UInt32) : (Writer.word w).length = 4 := rfl
  simp only [Writer.stack, List.length_append, List.length_flatMap, h_word, List.map_const',
    List.sum_replicate_nat, s.length_values]
  omega

theorem atLeast_variableSlot (v : Variable) : (variableSlot v).AtLeast 6 :=
  (atLeast_exactly _).append (atLeast_word _) |>.append (atLeast_text _)

theorem atLeast_task (scripts : List Script) (t : Task) : (task scripts t).AtLeast
    (60 + (6 * t.locals.length + (8 * t.stack.size + 4 * t.handlers.length))) := by
  refine (((atLeast_table atLeast_variableSlot t.locals) |>.append (atLeast_word _)
    |>.append (atLeast_word _) |>.append (atLeast_word _) |>.append (atLeast_word _)
    |>.append (atLeast_word _) |>.append (atLeast_word _) |>.append (atLeast_word _)
    |>.append (atLeast_word _) |>.append (atLeast_word _) |>.append (atLeast_flag _)
    |>.append (atLeast_flag _) |>.append (atLeast_flag _) |>.append (atLeast_flag _)
    |>.append (atLeast_stack _) |>.append (atLeast_table atLeast_word t.handlers)).given _).mono ?_
  simp only [List.map_const', List.sum_replicate_nat]
  omega

theorem atLeast_checkpoint (scripts : List Script) (c : Checkpoint) :
    (checkpoint scripts c).AtLeast c.footprint := by
  refine ((atLeast_stack _).append (atLeast_table atLeast_variableSlot c.globals)
    |>.append (atLeast_table (atLeast_task scripts) c.tasks) |>.append (atLeast_word _)
    |>.append (atLeast_word _) |>.append (atLeast_word _) |>.append (atLeast_word _)
    |>.append (atLeast_word _)).mono ?_
  simp only [Checkpoint.footprint, List.map_const', List.sum_replicate_nat, List.sum_map_add,
    List.sum_map_mul_left]
  omega

theorem atLeast_image (i : Image) : (image i).AtLeast i.footprint := by
  refine (atLeast_program _).append ?_
  -- without a checkpoint nothing is added to the program
  cases i.checkpoint with
  | none => exact atLeast_exactly []
  | some c => exact atLeast_checkpoint _ c

end Form

theorem Image.footprint_le {bytes : List UInt8} {i : Image} (h : Image.decode bytes = .ok i) :
    i.footprint ≤ bytes.length := by
  obtain ⟨p, hp, rfl⟩ := Image.decode_eq_ok_iff.1 h
  exact Form.atLeast_image i p hp

end ScriptMachine
