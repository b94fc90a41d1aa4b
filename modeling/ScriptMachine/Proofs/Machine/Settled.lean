import ScriptMachine.Proofs.Machine.Host
import ScriptMachine.Proofs.Machine.Passes

/-!
# What a tick leaves behind

When all turns of a tick are over, the tasks that have ended are removed, and after that those are
let go that waited for a task which is gone (`Machine.settle`). In this order nobody is overlooked,
whatever the tasks were like before and whatever has become of them in the tick. A state from a save
file may have tasks in it that had ended long ago, or that wait for themselves or for nobody; one
tick puts it in order (`TaskTable.Settled`).

There is nothing more to ask of a tick than that its turns come to an end. `TurnsEnd` says so of the
turns of a pass, as they come up, and a pass has a result if and only if that is the case
(`Machine.pass_isSome_iff`).
-/

namespace ScriptMachine

/-! ### The end of a tick -/

/-- Nobody has ended, and nobody of the kinds in the mask waits for a task that is not there. -/
structure TaskTable.Settled (table : TaskTable) (mask : ScriptKind) : Prop where
  runs {t : Task} (h : t ∈ table.toList) : t.stopped = false
  waits {t : Task} (h : t ∈ table.toList) (h_mask : t.kind.overlaps mask)
    (h_waits : t.waitingFor ≠ 0) : table.contains t.waitingFor

/-- Who is left at the end of a tick is what became of a task that has not ended. -/
theorem Machine.exists_of_mem_settle {m : Machine} {mask : ScriptKind} {t : Task}
    (h : t ∈ (m.settle mask).tasks.toList) :
    ∃ u, u.stopped = false ∧ (m.settle mask).tasks.letGo mask u = t := by
  have h_find := TaskTable.find?_eq_some_iff.2 ⟨h, rfl⟩
  rw [find?_settle] at h_find
  obtain ⟨u, h_u, h_t⟩ := Option.map_eq_some_iff.1 h_find
  -- the others were removed
  obtain ⟨-, h_runs⟩ := Option.filter_eq_some_iff.1 h_u
  exact ⟨u, by simpa using h_runs, h_t⟩

theorem Machine.settled_settle (m : Machine) (mask : ScriptKind) :
    (m.settle mask).tasks.Settled mask where
  runs h := by
    obtain ⟨u, h_runs, rfl⟩ := exists_of_mem_settle h
    rw [TaskTable.stopped_letGo, h_runs]
  waits h h_mask h_waits := by
    obtain ⟨u, -, rfl⟩ := exists_of_mem_settle h
    rw [TaskTable.kind_letGo] at h_mask
    rcases TaskTable.waitingFor_letGo (m.settle mask).tasks mask u with h_zero | ⟨h_same, h_left⟩
    · exact absurd h_zero h_waits
    · -- who still waits was not let go, because the other one is there
      rw [h_same] at h_waits ⊢
      exact h_left h_mask h_waits

/-! ### Turns that end -/

/-- Every turn of a pass comes to an end, as the pass comes to it. -/
def TurnsEnd (serve : Task → Machine → Option Machine) (cursor : Option UInt32) (m : Machine) :
    Prop :=
  ∀ visits ending, Visits serve cursor m visits ending →
    ∀ v ∈ visits, (serve v.task v.machine).isSome

theorem Machine.pass_isSome_iff {serve : Task → Machine → Option Machine}
    {cursor : Option UInt32} {m : Machine} :
    (m.pass serve cursor).isSome ↔ TurnsEnd serve cursor m := by
  -- along the tasks that are served
  induction cursor, m using Machine.pass.induct serve with
  | case1 cursor m h_after =>
    rw [Machine.pass, h_after]
    -- nobody is left whom the pass could come to
    refine iff_of_true rfl fun visits ending h_visits v h_v => ?_
    cases h_visits with
    | ended => contradiction
    | begun h_next | cons h_next =>
      rw [h_after] at h_next
      contradiction
  | case2 cursor m t h_after h_none =>
    rw [Machine.pass, h_after]
    simp only [h_none]
    -- the turn that has begun is among the visits
    refine iff_of_false Bool.false_ne_true fun h_end => ?_
    have h_turn := h_end _ _ (.begun h_after) _ List.mem_cons_self
    rw [h_none] at h_turn
    contradiction
  | case3 cursor m t h_after m₁ h_some ih =>
    rw [Machine.pass, h_after]
    simp only [h_some]
    rw [ih]
    constructor
    · -- a visit is the first one, or belongs to the rest of the pass
      intro h_end visits ending h_visits v h_v
      cases h_visits with
      | ended h_none =>
        rw [h_after] at h_none
        contradiction
      | begun h_next =>
        -- whom the pass comes to, and what becomes of the turn, is determined
        cases h_after.symm.trans h_next
        rw [List.mem_singleton.1 h_v, h_some]
        rfl
      | cons h_next h_turn h_rest =>
        cases h_after.symm.trans h_next
        cases h_some.symm.trans h_turn
        rcases List.mem_cons.1 h_v with rfl | h_v
        · rw [h_some]
          rfl
        · exact h_end _ _ h_rest v h_v
    · intro h_end visits ending h_visits v h_v
      exact h_end _ _ (.cons h_after h_some h_visits) v (List.mem_cons_of_mem _ h_v)

/-! ### Ticks -/

/-- **A tick leaves everything in order.** Of whatever machine, a tick has a result if and only if
all turns of its two passes come to an end. Then nobody is left that has ended, of whatever kind,
and nobody of the kinds in the mask waits for a task that is not there. And if natives run no ticks,
one tick more was counted. -/
theorem Machine.tick_settles (setting : Setting) (bound : Nat) (mask : ScriptKind) (m : Machine) :
    let turn (p : Pass) := p.turn setting (bodies setting bound) (bound + 1) mask
    ((tick setting (bound + 1) mask m).isSome ↔ TurnsEnd (turn .handlers) none m ∧
      ∀ m₁, m.pass (turn .handlers) none = some m₁ → TurnsEnd (turn .normal) none m₁) ∧
    ∀ m', tick setting (bound + 1) mask m = some m' →
      (∀ t ∈ m'.tasks.toList, t.stopped = false) ∧
      (∀ t ∈ m'.tasks.toList, t.kind.overlaps mask → t.waitingFor ≠ 0 →
        m'.tasks.contains t.waitingFor) ∧
      (setting.Immediate → m'.ticks = m.ticks + 1) := by
  intro turn
  have h_tick : tick setting (bound + 1) mask m =
      (m.pass (turn .handlers) none).bind fun m₁ =>
        (m₁.pass (turn .normal) none).bind fun m₂ => some (m₂.settle mask) := rfl
  refine ⟨?_, fun m' h => ?_⟩
  · rw [h_tick, ← pass_isSome_iff]
    -- the second pass is about the machine that the first one leaves
    cases h_first : m.pass (turn .handlers) none with
    | none => simp
    | some m₁ =>
      simp only [Option.bind_some, Option.isSome_some, Option.some.injEq, true_and, forall_eq']
      rw [← pass_isSome_iff]
      cases m₁.pass (turn .normal) none <;> rfl
  · have h_settled : m'.tasks.Settled mask := by
      rw [h_tick] at h
      obtain ⟨m₁, -, h⟩ := Option.bind_eq_some_iff.1 h
      obtain ⟨m₂, -, h⟩ := Option.bind_eq_some_iff.1 h
      cases h
      exact settled_settle m₂ mask
    exact ⟨fun _ => h_settled.runs, fun _ => h_settled.waits,
      fun h_setting => (host_tick h_setting h).2.1⟩

/-- A state from a save file in bad order. The first task waits for itself, the second has ended but
is still there, the third waits for the second, and the fourth for a task that is not there. -/
def neglectedMachine : Machine :=
  let script : Script := ⟨"M", "", .script, 0, [], 0, 0, 1⟩
  Machine.resume {} {
    program := {
      code := [⟨.callScript, 0, .untyped, 1, 0⟩, ⟨.finish, 0, .untyped, 0, 0⟩]
      scripts := [script] }
    checkpoint := some {
      tasks := [
        { Task.start 1 script with waitingFor := 1 },
        { Task.start 2 script with kind := .help, stopped := true },
        { Task.start 3 script with waitingFor := 2 },
        { Task.start 4 script with waitingFor := 9 }]
      ticks := 0xFFFFFFFF, highestTask := 4, highestScript := 1 } }

/-- A tick later, in which time goes by for scripts only. -/
def tidiedMachine : Machine := (Machine.tick haltingSetting 3 .script neglectedMachine).getD {}

/-- The task that had ended is gone, though its kind is not in the mask, and only the first task
still waits, as it is there. The count of the ticks has wrapped around. -/
theorem tick_settles_neglected :
    Machine.tick haltingSetting 3 .script neglectedMachine = some tidiedMachine ∧
    tidiedMachine.tasks.toList.map (fun t => (t.id, t.waitingFor)) = [(1, 1), (3, 0), (4, 0)] ∧
    (∀ t ∈ tidiedMachine.tasks.toList, t.stopped = false) ∧
    (∀ t ∈ tidiedMachine.tasks.toList, t.kind.overlaps .script → t.waitingFor ≠ 0 →
      tidiedMachine.tasks.contains t.waitingFor) ∧
    tidiedMachine.ticks = 0 := by
  have h_tick : Machine.tick haltingSetting 3 .script neglectedMachine = some tidiedMachine := by
    decide +kernel
  obtain ⟨-, h_settles⟩ := Machine.tick_settles haltingSetting 2 .script neglectedMachine
  obtain ⟨h_runs, h_waits, h_ticks⟩ := h_settles tidiedMachine h_tick
  refine ⟨h_tick, by decide +kernel, h_runs, h_waits, ?_⟩
  exact (h_ticks haltingSetting_immediate).trans (by decide +kernel)

end ScriptMachine
