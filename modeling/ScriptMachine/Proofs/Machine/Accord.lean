import ScriptMachine.Proofs.Machine.Course
import ScriptMachine.Proofs.Machine.Lockstep

/-!
# Ticks in accord

`Lockstep` is about the turn of one task. Here is what follows for whole ticks, and for the ticks
that natives run in the middle of them: if a relation between machines in the same state is kept by
turns, by what stands between the turns, and by answers to requests (`Accord`), then it is kept by
ticks (`Accord.tick`). Two machines that are in accord either both come to the end of a tick, in
accord again, or neither does.

It serves two ends. A relation between different machines says what a tick does not depend on
(`Overlay`). And if only equal machines are related, those that meet a condition, then being in
accord means that the condition is an invariant.
-/

namespace ScriptMachine

/-- No native that could be called makes any other requests than these. -/
def Setting.Only (setting : Setting) (allowed : Request → Prop) : Prop :=
  ∀ native ∈ setting.natives, ∀ body ∈ native.body, body.Only allowed

theorem Setting.Only.mono {setting : Setting} {allowed allowed' : Request → Prop}
    (h : setting.Only allowed) (h_mono : ∀ q, allowed q → allowed' q) : setting.Only allowed' :=
  fun native h_native body h_body => (h native h_native body h_body).mono h_mono

namespace Machine

/-- Ticks keep the relation. -/
def TicksAgree (R : Machine → Machine → Prop) (tick : ScriptKind → Machine → Option Machine) :
    Prop :=
  ∀ mask {m n : Machine}, R m n → Option.Rel R (tick mask m) (tick mask n)

/-- A relation that is kept by all that a tick is made of, by the requests that are allowed in it
among them. -/
structure Accord (setting : Setting) (allowed : Request → Prop) (R : Machine → Machine → Prop) :
    Prop where
  same_state {m n : Machine} (h : R m n) : n.toState = m.toState
  paced (task : UInt32) : Paced setting task R
  refocus {m n : Machine} (h : R m n) (focus : Focus) (running : Option UInt32) :
    R { m with focus, running } { n with focus, running }
  settle {m n : Machine} (h : R m n) (mask : ScriptKind) : R (m.settle mask) (n.settle mask)
  answer {m n : Machine} (h : R m n) {tick : ScriptKind → Machine → Option Machine}
    (h_tick : TicksAgree R tick) {q : Request} (h_q : allowed q) :
    Option.Rel (Alike R) (m.answer tick q) (n.answer tick q)

namespace Accord

variable {setting : Setting} {allowed : Request → Prop} {R : Machine → Machine → Prop}
  {m n : Machine} (h : Accord setting allowed R)

include h

/-! ### Requests -/

theorem run {α : Type} {tick : ScriptKind → Machine → Option Machine} (h_tick : TicksAgree R tick)
    (h_m : R m n) {r : Routine α} (h_r : r.Only allowed) :
    Option.Rel (Alike R) (r.run tick m) (r.run tick n) := by
  induction r generalizing m n with
  | done a => exact .some ⟨rfl, h_m⟩
  | ask q next ih =>
    rw [Routine.run_ask, Routine.run_ask]
    refine rel_bind (h.answer h_m h_tick h_r.1) ?_
    -- Both machines give the same answer, so both routines go on alike.
    rintro ⟨a, m₁⟩ ⟨b, n₁⟩ ⟨h_answer, h_out⟩
    obtain rfl : b = a := h_answer
    exact ih b h_out (h_r.2 b)

/-! ### Turns -/

section

variable {carryOut : Routine Unit → Machine → Option Machine}
  (h_bodies : ∀ native ∈ setting.natives, ∀ body ∈ native.body, ∀ {m n}, R m n →
    Option.Rel R (carryOut body m) (carryOut body n))

include h_bodies

theorem slice (h_m : R m n) (budget : Nat) (task : UInt32) :
    Option.Rel R (m.slice setting carryOut budget task) (n.slice setting carryOut budget task) := by
  have h_state := h.same_state h_m
  unfold Machine.slice
  rw [h_state]
  cases m.tasks.find? task with
  | none => exact .some h_m
  | some t =>
    -- The turn begins with the same change to both tables, and ends with the focus that it found.
    have h_begun := (h.paced task).updateTask (h.refocus h_m (.task task) (some task))
      fun t => { t with yielded := false }
    rw [h_state] at h_begun
    exact rel_bind ((h.paced task).steps h_bodies h_begun t.inHandler budget)
      fun _ _ h_ended => .some (h.refocus h_ended m.focus m.running)

theorem turn (h_m : R m n) (p : Pass) (budget : Nat) (mask : ScriptKind) (t : Task) :
    Option.Rel R (p.turn setting carryOut budget mask t m)
      (p.turn setting carryOut budget mask t n) := by
  rw [Pass.turn_eq, Pass.turn_eq]
  -- What is made of a visit depends on the task alone, which is the same.
  cases p.service mask t with
  | skip => exact .some h_m
  | serve => exact h.slice h_bodies h_m budget t.id
  | divert address =>
    have h_diverted : R (m.divert t.id address) (n.divert t.id address) :=
      (h.paced t.id).updateTask h_m _
    exact h.slice h_bodies h_diverted budget t.id

theorem pass (h_m : R m n) (p : Pass) (budget : Nat) (mask : ScriptKind)
    (cursor : Option UInt32) :
    Option.Rel R (m.pass (p.turn setting carryOut budget mask) cursor)
      (n.pass (p.turn setting carryOut budget mask) cursor) := by
  -- both tables are the same, so it is the same task that is served next
  induction cursor, m using pass.induct (p.turn setting carryOut budget mask) generalizing n with
  | case1 cursor m h_after =>
    have h_after' : n.tasks.after? cursor = none := by rw [h.same_state h_m, h_after]
    rw [Machine.pass, h_after, Machine.pass, h_after']
    exact .some h_m
  | case2 cursor m t h_after h_none =>
    -- the turn has no end here, so it has none there
    have h_after' : n.tasks.after? cursor = some t := by rw [h.same_state h_m, h_after]
    have h_turn := h.turn h_bodies h_m p budget mask t
    rw [Machine.pass, h_after, Machine.pass, h_after']
    dsimp only
    rw [h_none] at h_turn ⊢
    generalize p.turn setting carryOut budget mask t n = turned at h_turn ⊢
    cases h_turn
    exact .none
  | case3 cursor m t h_after m₁ h_some ih =>
    have h_after' : n.tasks.after? cursor = some t := by rw [h.same_state h_m, h_after]
    have h_turn := h.turn h_bodies h_m p budget mask t
    rw [Machine.pass, h_after, Machine.pass, h_after']
    dsimp only
    rw [h_some] at h_turn ⊢
    generalize p.turn setting carryOut budget mask t n = turned at h_turn ⊢
    cases h_turn with
    | some h_turned => exact ih h_turned

theorem tickWithin (h_m : R m n) (budget : Nat) (mask : ScriptKind) :
    Option.Rel R (m.tickWithin setting carryOut budget mask)
      (n.tickWithin setting carryOut budget mask) :=
  rel_bind (h.pass h_bodies h_m .handlers budget mask none) fun _ _ h_first =>
    rel_bind (h.pass h_bodies h_first .normal budget mask none) fun _ _ h_second =>
      .some (h.settle h_second mask)

end

/-- **Ticks in accord.** However deep they are nested. -/
theorem tick (h_setting : setting.Only allowed) (bound : Nat) :
    TicksAgree R (tick setting bound) := by
  induction bound with
  | zero => exact fun _ _ _ _ => .none
  | succ bound ih =>
    intro mask m n h_m
    -- the bodies of natives ask for ticks of the lower bound
    refine h.tickWithin (fun native h_native body h_body m n h_m => ?_) h_m (bound + 1) mask
    exact rel_map (h.run ih h_m (h_setting native h_native body h_body)) fun _ _ h_out => h_out.2

theorem perform {α : Type} (h_setting : setting.Only allowed) (h_m : R m n) {r : Routine α}
    (h_r : r.Only allowed) :
    Option.Rel (Alike R) (perform setting r m) (perform setting r n) :=
  h.run (h.tick h_setting lifetime) h_m h_r

end Accord

end Machine

end ScriptMachine
