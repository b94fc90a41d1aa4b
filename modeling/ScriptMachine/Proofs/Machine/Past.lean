import ScriptMachine.Proofs.Machine.Overlay

/-!
# The past of a machine

What was told to the host before, and how many tasks were started, makes no difference to what a
machine does. It is written down and never read. So a machine that looks back on a past
(`Machine.withPast`) does all that it would do without, and looks back on the same past afterwards;
`Machine.perform_withPast` says so of every routine, ordinary or not.

So two machines that are in the same state and have the same memory of the host answer alike from
then on, whatever has led up to it.
-/

namespace ScriptMachine

/-- Every routine makes requests of some kind. -/
theorem Routine.only_true {α : Type} (r : Routine α) : r.Only fun _ => True := by
  induction r with
  | done => trivial
  | ask q next ih => exact ⟨trivial, ih⟩

namespace Machine

/-- The machine with events before those in its log, and with tasks started before its own. -/
def withPast (m : Machine) (past : Array Event) (count : Nat) : Machine :=
  { m with log := past ++ m.log, started := count + m.started }

/-- A machine and one that looks back on a past. -/
def LooksBack (past : Array Event) (count : Nat) (m n : Machine) : Prop :=
  n = m.withPast past count

variable (past : Array Event) (count : Nat)

theorem overlay_looksBack : Overlay (LooksBack past count) where
  same_state := by
    rintro m _ rfl
    rfl
  become := by
    rintro m _ rfl s
    rfl
  emit := by
    rintro m _ rfl e
    -- events come behind what is there, in either log
    unfold LooksBack emit withPast
    rw [Array.push_append]
  count := by
    rintro m _ rfl
    rfl

/-- A machine and the one that looks back have the same memory, too. -/
theorem accord_looksBack (setting : Setting) :
    Accord setting (fun _ => True) (LooksBack past count) :=
  { (overlay_looksBack past count).accord setting with
    answer := by
      rintro m _ rfl tick h_tick q -
      -- the memory of the host is none of the state, but the past leaves it alone
      cases q with
      | memory | keep => exact .some ⟨rfl, rfl⟩
      | _ => exact (overlay_looksBack past count).answer rfl h_tick trivial }

/-- **The past makes no difference.** -/
theorem perform_withPast {α : Type} (setting : Setting) (r : Routine α) (m : Machine)
    (past : Array Event) (count : Nat) : perform setting r (m.withPast past count) =
      (perform setting r m).map fun r => (r.1, r.2.withPast past count) := by
  -- both come to the same end, or both to none
  have h_related : Option.Rel (Alike (LooksBack past count)) (perform setting r m)
      (perform setting r (m.withPast past count)) :=
    (accord_looksBack past count setting).perform (fun _ _ body _ => body.only_true) rfl
      r.only_true
  generalize perform setting r m = outcome at h_related ⊢
  generalize perform setting r (m.withPast past count) = outcome' at h_related ⊢
  cases h_related with
  | none => rfl
  | some h_results => exact congrArg some (Prod.ext h_results.1 h_results.2)

end Machine

end ScriptMachine
