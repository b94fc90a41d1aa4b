import Mathlib.Data.List.Induction
import ScriptMachine.Proofs.History
import ScriptMachine.Proofs.Machine.Null
import ScriptMachine.Proofs.Machine.Overlay
import ScriptMachine.Proofs.Machine.SaveRestore
import ScriptMachine.Viewer

/-!
# Stepping forward and back

A viewer goes forward by running ticks and back by restoring what it has saved before them. Wherever
its steps have led to, it shows what the program would have come to without it
(`Viewer.stepping_exact`).

The invariant is that the viewer is as many ticks away from the start as there are moments in its
history, and that these are the moments before the ticks (`Viewer.Recorded`). Three facts about
machines carry it:

* a tick goes by the state and nothing else, so the tick of the viewer and that of the program lead
  to the same (`Machine.sameState_tick`);
* what is saved between the ticks of a program is put back, if its null variable is blank and its
  tasks and handlers can be counted with 32 bits (`Machine.restoreBytes_save_ticked`);
* a save file of less than 16 gigabytes has no more tasks or handlers than that
  (`State.countable_of_length_save`).
-/

namespace ScriptMachine

/-! ### What is small can be saved -/

namespace Writer

theorem length_entry_le {α : Type} (entry : α → List UInt8) {entries : List α} {a : α}
    (h : a ∈ entries) : (entry a).length ≤ (table entry entries).length := by
  obtain ⟨before, after, rfl⟩ := List.append_of_mem h
  unfold table
  rw [List.flatMap_append, List.flatMap_cons]
  simp only [List.length_append]
  omega

/-- Entries that take at least a word. -/
theorem le_length_table {α : Type} {entry : α → List UInt8} (h : ∀ a, 4 ≤ (entry a).length)
    (entries : List α) : 4 * entries.length ≤ (table entry entries).length := by
  have h_entries : 4 * entries.length ≤ (entries.flatMap entry).length := by
    induction entries with
    | nil => exact Nat.zero_le _
    | cons a rest ih =>
      have h_a := h a
      rw [List.flatMap_cons, List.length_append, List.length_cons]
      omega
  unfold table
  rw [List.length_append]
  omega

theorem le_length_task (t : Task) : 4 * t.handlers.length ≤ (task t).length := by
  have h_word (w : UInt32) : 4 ≤ (word w).length := Nat.le_refl 4
  have h_handlers := le_length_table h_word t.handlers
  -- the handlers are written last
  unfold task
  rw [List.length_append]
  omega

theorem four_le_length_task (t : Task) : 4 ≤ (task t).length := by
  -- the number of the locals alone is a word
  have h_locals : 4 ≤ (table variableSlot t.locals).length := by
    unfold table
    rw [List.length_append]
    exact Nat.le_add_right 4 _
  unfold task
  simp only [List.length_append]
  omega

theorem length_stack (s : Stack) : (stack s).length = 12 + 8 * s.size := by
  have h_bits : s.values.flatMap (fun v => word v.bits) =
      (s.values.map (·.bits)).flatMap word := by
    rw [List.flatMap_map]
  have h_tags : s.values.flatMap (fun v => word v.tag.number) =
      (s.values.map (·.tag.number)).flatMap word := by
    rw [List.flatMap_map]
  unfold stack
  rw [h_bits, h_tags]
  simp only [List.length_append, length_word, length_flatMap_word, List.length_map,
    s.length_values]
  omega

theorem length_table_word (words : List UInt32) :
    (table word words).length = 4 + 4 * words.length := by
  unfold table
  rw [List.length_append, length_word, length_flatMap_word]

theorem length_taskHead (t : Task) : (taskHead t).length =
    (table variableSlot t.locals).length + 52 + 8 * t.stack.size := by
  have h_flag (b : Bool) : (flag b).length = 1 := rfl
  unfold taskHead
  simp only [List.length_append, length_word, h_flag, length_stack]
  omega

end Writer

/-- The size of a save file with a single task. -/
theorem State.length_save_of_alone {s : State} {t : Task} (h : s.tasks.toList = [t]) :
    s.save.length = (Writer.program s.program).length +
      (Writer.table Writer.variableSlot (s.globals.drop 1)).length +
      (Writer.table Writer.variableSlot t.locals).length + 8 * s.stack.size + 8 * t.stack.size +
      4 * t.handlers.length + 92 := by
  obtain ⟨c, h_c⟩ : ∃ c, (s.image true).checkpoint = some c := ⟨_, rfl⟩
  have h_tasks : c.tasks = [] ++ [t] := by
    obtain rfl := Option.some.inj h_c
    exact h
  unfold State.save
  rw [Image.encode_eq h_c, Image.encode_bare, Writer.checkpoint_concat h_tasks]
  unfold Writer.checkpointHead
  obtain rfl := Option.some.inj h_c
  simp only [List.length_append, Writer.length_counters, Writer.length_stack, Writer.length_word,
    Writer.length_taskHead, Writer.length_table_word, List.flatMap_nil, List.length_nil]
  change (Writer.program s.program).length + _ = _
  omega

/-- A state whose save file has less than 16 gigabytes. -/
theorem State.countable_of_length_save {s : State} (h : s.save.length < 2 ^ 34) : s.Countable := by
  -- The table of tasks is part of the file, and each task and each handler takes a word of it at
  -- least.
  have h_tasks : (Writer.table Writer.task s.tasks.toList).length ≤ s.save.length := by
    unfold State.save Image.encode State.image Writer.checkpoint
    simp only [if_true, Option.map_some, Option.getD_some, List.length_append]
    omega
  constructor
  · have h_count := Writer.le_length_table Writer.four_le_length_task s.tasks.toList
    unfold TaskTable.size
    omega
  · intro t h_t
    have h_entry := Writer.length_entry_le Writer.task h_t
    have h_handlers := Writer.le_length_task t
    omega

/-! ### Ticks one after the other -/

/-- A request whose answer depends on nothing but the state, and that leaves the program in its
place. -/
def Request.Steady (q : Request) : Prop := q.Ordinary ∧ q.Memoryless

theorem Routine.only_ticks {allowed : Request → Prop} {mask : ScriptKind} (h : allowed (.tick mask))
    (count : Nat) : (Routine.ticks mask count).Only allowed := by
  induction count with
  | zero => trivial
  | succ count ih => exact ⟨h, fun _ => ih⟩

namespace Machine

/-- The machine after that many ticks, if they all come to an end. -/
def ticked (setting : Setting) (mask : ScriptKind) (count : Nat) (m : Machine) : Option Machine :=
  (perform setting (Routine.ticks mask count) m).map (·.2)

variable {setting : Setting} {mask : ScriptKind} {m n : Machine}

theorem ticked_eq_some_iff {count : Nat} :
    ticked setting mask count m = some n ↔
      perform setting (Routine.ticks mask count) m = some ((), n) := by
  unfold ticked
  cases perform setting (Routine.ticks mask count) m with
  | none => exact ⟨nofun, nofun⟩
  | some r => exact ⟨fun h => congrArg some (Prod.ext rfl (Option.some.inj h)),
      fun h => congrArg (Option.map (·.2)) h⟩

theorem ticked_succ (count : Nat) (m : Machine) :
    ticked setting mask (count + 1) m =
      (ticked setting mask count m).bind (tick setting lifetime mask) := by
  -- the first tick is taken off both sides
  have h_first (count : Nat) (m : Machine) : ticked setting mask (count + 1) m =
      (tick setting lifetime mask m).bind (ticked setting mask count) := by
    unfold ticked perform
    show (Option.map _ (Routine.run _ (.ask (.tick mask) fun _ => Routine.ticks mask count) m)) = _
    rw [Routine.run_ask]
    dsimp only [answer]
    cases tick setting lifetime mask m <;> rfl
  induction count generalizing m with
  | zero =>
    have h_zero (m : Machine) : ticked setting mask 0 m = some m := rfl
    rw [h_first, h_zero, Option.bind_some]
    cases tick setting lifetime mask m <;> rfl
  | succ count ih =>
    -- the last tick is taken at the end of either side, behind a first one that they share
    rw [h_first, h_first]
    cases tick setting lifetime mask m with
    | none => rfl
    | some m' => exact ih m'

/-- **Ticks go by the state.** -/
theorem sameState_tick (h_setting : setting.Only Request.Steady) (h : SameState m n) :
    Option.Rel SameState (tick setting lifetime mask m) (tick setting lifetime mask n) :=
  (overlay_sameState.accord setting).tick (h_setting.mono fun _ h_q => h_q.2) lifetime mask h

/-- What is saved between the ticks of a program is put back, if it can be counted. -/
theorem restoreBytes_save_ticked (h_setting : setting.Only Request.Steady) {bytes : List UInt8}
    {i : Image} (h_decode : Image.decode bytes = .ok i) (h_numbered : i.program.Numbered)
    (h_spares : i.program.SparesNull) {m₀ : Machine} {count : Nat}
    (h_ticked : ticked setting mask count (m₀.load i) = some m) :
    (∀ m₁ : Machine, m₁.restoreBytes m.save = .ok { m₁ with toState := m.toState }) ↔
      m.Countable := by
  have h_ordinary : setting.Ordinary := h_setting.mono fun _ h_q => h_q.1
  have h_routine : (Routine.ticks mask count).Only Request.Ordinary :=
    Routine.only_ticks trivial count
  have h_run := ticked_eq_some_iff.1 h_ticked
  -- No tick stores into the null variable, so its slot is blank when the state is saved, as it is
  -- when it is put back.
  have h_intact :=
    (nullIntact_load m₀ i).perform h_ordinary h_spares h_routine h_run
  have h_blank : m.globals.head?.map (·.value) = some .blank := by
    rw [h_intact.2]
    rfl
  exact restoreBytes_save_iff h_ordinary h_routine h_decode h_numbered h_run h_blank

end Machine

/-! ### Steps of a viewer -/

namespace Viewer

/-- A step that is asked for. -/
inductive Stride where
  | forward
  | backward
deriving DecidableEq, Repr

/-- Takes a step, if it is not refused. -/
def stride (v : Viewer) : Stride → Option Viewer
  | .forward => v.forward.map (·.2)
  | .backward => some v.backward.2

/-- Takes steps one after the other; none if a tick does not come to an end. -/
def walk (v : Viewer) : List Stride → Option Viewer
  | [] => some v
  | s :: rest => (v.stride s).bind (·.walk rest)

section

variable (setting : Setting) (mask : ScriptKind) (start : Machine)

/-- What has to be so lest anything be lost: the viewer is as many ticks away from the start as
there are moments in its history, and these are the moments before the ticks. -/
structure Recorded (limit : Nat) (v : Viewer) : Prop where
  same_setting : v.setting = setting
  same_mask : v.mask = mask
  same_limit : v.history.limit = limit
  state : ∃ m, Machine.ticked setting mask v.history.length start = some m ∧
    Machine.SameState m v.machine
  moments {k : Nat} {moment : Moment} (h : v.history.get? k = some moment) :
    ∃ m, Machine.ticked setting mask k start = some m ∧ moment = m.moment ∧ moment.size ≤ limit

/-- What was saved before the ticks that the viewer is away from the start can be put back. -/
def Reversible (v : Viewer) : Prop :=
  ∀ k < v.history.length, ∀ m, Machine.ticked setting mask k start = some m →
    ∀ n : Machine, n.restoreBytes m.save = .ok { n with toState := m.toState }

/-- The states before the ticks that the viewer is away from the start can be counted. -/
def Countable (v : Viewer) : Prop :=
  ∀ k < v.history.length, ∀ m,
    Machine.perform setting (Routine.ticks mask k) start = some ((), m) → m.Countable

/-- Stepping is exact. -/
structure Exact (v : Viewer) : Prop where
  /-- The state is that after as many ticks as there are moments in the history. -/
  state : ∃ m, Machine.perform setting (Routine.ticks mask v.history.length) start = some ((), m) ∧
    v.machine.toState = m.toState
  /-- A tick comes to no end only if it would not have without the viewer. -/
  forward : v.forward = none →
    Machine.perform setting (Routine.ticks mask (v.history.length + 1)) start = none
  /-- A step back is only refused where there is no way back. -/
  backward : v.backward.1 = false ↔ v.history.length = 0
  /-- Each moment leads back to the state after as many ticks as there are moments before it, and
  its counters are those of this state. -/
  moments : ∀ (k : Nat) (moment : Moment), v.history.get? k = some moment →
    ∃ m, Machine.perform setting (Routine.ticks mask k) start = some ((), m) ∧
      (∀ n : Machine, n.restoreBytes moment.save = .ok { n with toState := m.toState }) ∧
      moment.tick = m.ticks ∧ moment.executed = m.executed ∧ moment.tasks = m.tasks.size

end

variable {setting : Setting} {mask : ScriptKind} {start : Machine} {limit : Nat} {v v' : Viewer}

theorem recorded_of (setting : Setting) (start : Machine) (limit : Nat) (mask : ScriptKind) :
    (Viewer.of setting start limit mask).Recorded setting mask start limit where
  same_setting := rfl
  same_mask := rfl
  same_limit := rfl
  state := ⟨start, rfl, rfl⟩
  moments h := by
    -- there are none yet
    contradiction

/-- What a step back does if the newest moment can be put back. -/
theorem backward_of_restoreBytes {moment : Moment} {history : History} {machine : Machine}
    (h_pop : v.history.pop? = some (moment, history))
    (h_restore : v.machine.restoreBytes moment.save = .ok machine) :
    v.backward.1 = true ∧ v.backward.2.machine = machine ∧ v.backward.2.history = history ∧
      v.backward.2.setting = v.setting ∧ v.backward.2.mask = v.mask := by
  unfold Viewer.backward
  rw [h_pop]
  dsimp only
  rw [h_restore]
  exact ⟨rfl, rfl, rfl, rfl, rfl⟩

namespace Recorded

variable (h : v.Recorded setting mask start limit)

include h

/-- The viewer and the program run the next tick alike. -/
theorem rel_tick (h_setting : setting.Only Request.Steady) :
    Option.Rel Machine.SameState (Machine.ticked setting mask (v.history.length + 1) start)
      (Machine.tick v.setting Machine.lifetime v.mask v.machine) := by
  obtain ⟨m, h_ticked, h_state⟩ := h.state
  rw [Machine.ticked_succ, h_ticked, h.same_setting, h.same_mask]
  exact Machine.sameState_tick h_setting h_state

/-- A step forward comes to no end only if the tick of the program does not. -/
theorem perform_of_forward (h_setting : setting.Only Request.Steady) (h_none : v.forward = none) :
    Machine.perform setting (Routine.ticks mask (v.history.length + 1)) start = none := by
  have h_tick := h.rel_tick h_setting
  unfold Viewer.forward at h_none
  split at h_none
  · -- a step that is refused has a result
    contradiction
  · cases h_machine : Machine.tick v.setting Machine.lifetime v.mask v.machine with
    | some machine =>
      rw [h_machine] at h_none
      contradiction
    | none =>
      rw [h_machine] at h_tick
      have h_ticked : Machine.ticked setting mask (v.history.length + 1) start = none := by
        generalize Machine.ticked setting mask (v.history.length + 1) start = outcome at h_tick
        cases h_tick
        rfl
      exact Option.map_eq_none_iff.1 h_ticked

/-- **A step forward** adds the moment before the tick, or nothing happens. -/
theorem forward (h_setting : setting.Only Request.Steady) {done : Bool}
    (h_forward : v.forward = some (done, v')) : v'.Recorded setting mask start limit := by
  have h_tick := h.rel_tick h_setting
  unfold Viewer.forward at h_forward
  cases h_push : v.history.push v.machine.moment with
  | error e =>
    -- only the message is another one
    rw [h_push] at h_forward
    obtain ⟨-, rfl⟩ := Prod.mk.inj (Option.some.inj h_forward)
    exact ⟨h.same_setting, h.same_mask, h.same_limit, h.state, h.moments⟩
  | ok history =>
    rw [h_push] at h_forward
    obtain ⟨machine, h_machine, h_forward⟩ := Option.bind_eq_some_iff.1 h_forward
    obtain ⟨-, rfl⟩ := Prod.mk.inj (Option.some.inj h_forward)
    obtain ⟨h_room, rfl⟩ := History.push_eq_ok_iff.1 h_push
    rw [h_machine] at h_tick
    generalize h_ticked : Machine.ticked setting mask (v.history.length + 1) start = outcome
      at h_tick
    cases h_tick with
    | some h_same =>
      refine ⟨h.same_setting, h.same_mask, h.same_limit, ⟨_, h_ticked, h_same⟩, ?_⟩
      intro k moment h_k
      rw [History.get?_of_cons rfl] at h_k
      by_cases h_new : k = v.history.length
      · -- the new moment is that of the state before the tick
        obtain ⟨m, h_before, h_state⟩ := h.state
        rw [if_pos h_new] at h_k
        obtain rfl := Option.some.inj h_k
        subst h_new
        refine ⟨m, h_before, congrArg State.moment h_state, ?_⟩
        -- it would have been refused if it were too large
        rw [h.same_limit] at h_room
        exact Nat.le_trans (Nat.le_add_left _ _) h_room
      · rw [if_neg h_new] at h_k
        exact h.moments h_k

/-- **A step back** leads to the state before the last tick, and is refused if there was none. -/
theorem backward (h_reversible : v.Reversible setting mask start) :
    v.backward.2.Recorded setting mask start limit ∧
      (v.backward.1 = false ↔ v.history.length = 0) := by
  cases h_pop : v.history.pop? with
  | none =>
    have h_empty := History.pop?_eq_none_iff.1 h_pop
    unfold Viewer.backward
    rw [h_pop]
    exact ⟨⟨h.same_setting, h.same_mask, h.same_limit, h.state, h.moments⟩,
      iff_of_true rfl h_empty⟩
  | some popped =>
    obtain ⟨moment, history⟩ := popped
    obtain ⟨h_list, h_limit⟩ := History.of_pop?_eq_some h_pop
    have h_length : v.history.length = history.length + 1 := congrArg List.length h_list
    -- the newest moment is that of the state before the last tick
    have h_newest : v.history.get? history.length = some moment := by
      rw [History.get?_of_cons h_list, if_pos rfl]
    obtain ⟨m, h_ticked, rfl, -⟩ := h.moments h_newest
    obtain ⟨h_done, h_machine, h_history, h_setting, h_mask⟩ := backward_of_restoreBytes h_pop
      (h_reversible history.length (by omega) m h_ticked v.machine)
    refine ⟨⟨h_setting.trans h.same_setting, h_mask.trans h.same_mask, ?_, ⟨m, ?_, ?_⟩, ?_⟩, ?_⟩
    · rw [h_history, h_limit, h.same_limit]
    · rw [h_history, h_ticked]
    · unfold Machine.SameState
      rw [h_machine]
    · intro k moment h_k
      rw [h_history] at h_k
      have h_lt := History.lt_length_of_get? h_k
      have h_older : v.history.get? k = some moment := by
        rw [History.get?_of_cons h_list, if_neg (Nat.ne_of_lt h_lt), h_k]
      exact h.moments h_older
    · rw [h_done]
      exact iff_of_false nofun (by omega)

theorem exact (h_setting : setting.Only Request.Steady)
    (h_reversible : v.Reversible setting mask start) : v.Exact setting mask start where
  state := by
    obtain ⟨m, h_ticked, h_state⟩ := h.state
    exact ⟨m, Machine.ticked_eq_some_iff.1 h_ticked, h_state⟩
  forward := h.perform_of_forward h_setting
  backward := (h.backward h_reversible).2
  moments := by
    intro k moment h_k
    obtain ⟨m, h_ticked, rfl, -⟩ := h.moments h_k
    have h_lt := History.lt_length_of_get? h_k
    exact ⟨m, Machine.ticked_eq_some_iff.1 h_ticked, h_reversible k h_lt m h_ticked, rfl, rfl, rfl⟩

/-- What found room in a small history can be counted. -/
theorem countable (h_limit : limit < 2 ^ 34) : v.Countable setting mask start := by
  intro k h_k m h_run
  obtain ⟨moment, h_moment⟩ := History.exists_get? h_k
  obtain ⟨m', h_ticked, rfl, h_size⟩ := h.moments h_moment
  obtain rfl : m = m' := Option.some.inj ((Machine.ticked_eq_some_iff.2 h_run).symm.trans h_ticked)
  refine State.countable_of_length_save ?_
  calc m.save.length
    _ ≤ m.save.length + Moment.overhead := Nat.le_add_right _ _
    _ = m.moment.size := rfl
    _ ≤ limit := h_size
    _ < 2 ^ 34 := h_limit

end Recorded

/-- What is exact leads back to states that were counted. -/
theorem Exact.countable (h : v.Exact setting mask start) : v.Countable setting mask start := by
  intro k h_k m h_run
  obtain ⟨moment, h_moment⟩ := History.exists_get? h_k
  obtain ⟨m', h_run', h_back, -⟩ := h.moments k moment h_moment
  -- ticks have one outcome, so the state that the moment leads back to is the one in question
  obtain rfl : m = m' := congrArg Prod.snd (Option.some.inj (h_run.symm.trans h_run'))
  exact Machine.countable_of_restoreBytes (h_back m)

/-! ### Walks -/

theorem walk_concat (v : Viewer) (strides : List Stride) (s : Stride) :
    v.walk (strides ++ [s]) = (v.walk strides).bind (·.stride s) := by
  induction strides generalizing v with
  | nil =>
    show (v.stride s).bind (·.walk []) = v.stride s
    cases v.stride s <;> rfl
  | cons s' rest ih =>
    show (v.stride s').bind (·.walk (rest ++ [s])) = ((v.stride s').bind (·.walk rest)).bind _
    cases v.stride s' with
    | none => rfl
    | some v' => exact ih v'

/-- What is recorded stays recorded, if all is reversible on the way. -/
theorem recorded_walk (h_setting : setting.Only Request.Steady) {strides : List Stride}
    (h_reversible : ∀ past, past <+: strides → ∀ v,
      (Viewer.of setting start limit mask).walk past = some v →
        v.Recorded setting mask start limit → v.Reversible setting mask start)
    (h_walk : (Viewer.of setting start limit mask).walk strides = some v) :
    v.Recorded setting mask start limit := by
  -- on the last step, as the steps before it decide whether it can be taken
  induction strides using List.reverseRecOn generalizing v with
  | nil =>
    obtain rfl := Option.some.inj h_walk
    exact recorded_of setting start limit mask
  | append_singleton strides s ih =>
    have h_cut : strides <+: strides ++ [s] := List.prefix_append strides [s]
    rw [walk_concat] at h_walk
    obtain ⟨v₁, h_before, h_stride⟩ := Option.bind_eq_some_iff.1 h_walk
    have h_recorded := ih (fun past h_past => h_reversible past (h_past.trans h_cut)) h_before
    cases s with
    | forward =>
      -- a step forward needs nothing but that all was recorded; a step back, that the newest moment
      -- can be put back
      obtain ⟨⟨done, v₂⟩, h_forward, rfl⟩ := Option.map_eq_some_iff.1 h_stride
      exact h_recorded.forward h_setting h_forward
    | backward =>
      obtain rfl := Option.some.inj h_stride
      exact (h_recorded.backward (h_reversible strides h_cut v₁ h_before h_recorded)).1

/-- **Stepping in a viewer is exact.** Take any viewer that was opened with an empty history on a
program that was just loaded, whose code spares the null variable and whose natives go by nothing
but the state. Wherever steps forward and back have led to, some of them refused: the state is that
after as many ticks as there are moments in the history, a step back is refused only if there are
none, and each moment leads back to where it was recorded and tells its counters. This is so
precisely as long as no state was recorded that has more tasks, or handlers of a task, than 32 bits
can count; in a history of less than 16 gigabytes there is no room for such a state. -/
theorem stepping_exact {setting : Setting} (h_setting : setting.Only Request.Steady)
    {bytes : List UInt8} {i : Image} (h_decode : Image.decode bytes = .ok i)
    (h_numbered : i.program.Numbered) (h_spares : i.program.SparesNull) (m₀ : Machine)
    (limit : Nat) (mask : ScriptKind) (strides : List Stride) :
    ((∀ past, past <+: strides → ∀ v,
        (Viewer.of setting (m₀.load i) limit mask).walk past = some v →
          v.Exact setting mask (m₀.load i)) ↔
      ∀ past, past <+: strides → ∀ v,
        (Viewer.of setting (m₀.load i) limit mask).walk past = some v →
          v.Countable setting mask (m₀.load i)) ∧
    (limit < 2 ^ 34 → ∀ v,
      (Viewer.of setting (m₀.load i) limit mask).walk strides = some v →
        v.Exact setting mask (m₀.load i)) := by
  -- A state can be put back just if it can be counted; all else follows from what is recorded.
  have h_reversible {v : Viewer} (h : v.Countable setting mask (m₀.load i)) :
      v.Reversible setting mask (m₀.load i) := by
    intro k h_k m h_ticked
    have h_count := h k h_k m (Machine.ticked_eq_some_iff.1 h_ticked)
    exact (Machine.restoreBytes_save_ticked h_setting h_decode h_numbered h_spares h_ticked).2
      h_count
  refine ⟨⟨fun h_exact past h_past v h_walk => (h_exact past h_past v h_walk).countable,
    fun h_countable past h_past v h_walk => ?_⟩, fun h_limit v h_walk => ?_⟩
  · have h_back (past' : List Stride) (h_past' : past' <+: past) (v : Viewer)
        (h_walk : (Viewer.of setting (m₀.load i) limit mask).walk past' = some v) :
        v.Reversible setting mask (m₀.load i) :=
      h_reversible (h_countable past' (h_past'.trans h_past) v h_walk)
    have h_recorded :=
      recorded_walk h_setting (fun past' h_past' v h_walk _ => h_back past' h_past' v h_walk) h_walk
    exact h_recorded.exact h_setting (h_back past List.prefix_rfl v h_walk)
  · -- whatever is recorded on the way has found room
    have h_recorded := recorded_walk h_setting
      (fun _ _ _ _ h => h_reversible (h.countable h_limit)) h_walk
    exact h_recorded.exact h_setting (h_reversible (h_recorded.countable h_limit))

end Viewer

theorem addingSetting_steady : addingSetting.Only Request.Steady := by
  intro native h_native body h_body
  obtain rfl := List.mem_singleton.1 h_native
  obtain rfl := Option.some.inj h_body
  have h_steady : (Request.pop).Steady := ⟨trivial, trivial⟩
  exact ⟨h_steady, fun _ => ⟨h_steady, fun _ => ⟨⟨trivial, trivial⟩, fun _ => trivial⟩⟩⟩

/-- There is room for two moments. The first step back and the third step forward are refused. -/
theorem stepping_exact_counting : ∃ v : Viewer,
    (Viewer.of addingSetting (Machine.load {} countingImage) 900 .all).walk
      [.backward, .forward, .forward, .forward, .backward] = some v ∧
    v.history.length = 1 ∧ v.machine.ticks = 1 ∧
    v.Exact addingSetting .all (Machine.load {} countingImage) := by
  have h_decode : Image.decode countingImage.encode = .ok countingImage := by decide +kernel
  have h_spares : countingImage.program.SparesNull := by
    unfold Program.SparesNull
    decide
  have h_walk : ((Viewer.of addingSetting (Machine.load {} countingImage) 900 .all).walk
      [.backward, .forward, .forward, .forward, .backward]).map
        (fun v => (v.history.length, v.machine.ticks)) = some (1, 1) := by decide +kernel
  obtain ⟨v, h_walk, h_facts⟩ := Option.map_eq_some_iff.1 h_walk
  obtain ⟨h_length, h_ticks⟩ := Prod.mk.inj h_facts
  have h_exact := (Viewer.stepping_exact addingSetting_steady h_decode countingImage_numbered
    h_spares {} 900 .all _).2 (by decide) v h_walk
  exact ⟨v, h_walk, h_length, h_ticks, h_exact⟩

/-! ### A step that is not undone -/

/-- The size of the save file of a task that rests. -/
theorem Machine.AtRest.length_save {handlers : List UInt32} {m : Machine}
    (h : m.AtRest 0 handlers) : m.save.length = 522 + 4 * handlers.length := by
  obtain ⟨saved, p, q, own, executed, ticks, rfl⟩ := h
  have h_program : (Writer.program (hoardingImage 0).program).length = 402 := by decide +kernel
  have h_globals : (Writer.table Writer.variableSlot [.fresh "seen"]).length = 14 := by
    decide +kernel
  have h_locals : (Writer.table Writer.variableSlot [⟨"left", ⟨.int, 0⟩⟩]).length = 14 := by
    decide +kernel
  rw [State.length_save_of_alone rfl]
  change (Writer.program (hoardingImage 0).program).length +
    (Writer.table Writer.variableSlot [.fresh "seen"]).length +
    (Writer.table Writer.variableSlot [⟨"left", ⟨.int, 0⟩⟩]).length + 0 + 0 + 4 * handlers.length +
      92 = _
  omega

/-- It does not matter to a task that rests what was told before. -/
theorem Machine.AtRest.with_log {start : UInt32} {handlers : List UInt32} {m : Machine}
    (h : m.AtRest start handlers) :
    AtRest start handlers { m with log := (load {} (hoardingImage start)).log } := by
  obtain ⟨saved, p, q, own, executed, ticks, rfl⟩ := h
  exact ⟨saved, p, q, own, executed, ticks, rfl⟩

namespace Viewer

/-- What a step forward does if there is room for the moment and the tick comes to an end. -/
theorem stride_forward {v : Viewer} {setting : Setting} {mask : ScriptKind} {m m' : Machine}
    {h : History} (h_setting : v.setting = setting) (h_mask : v.mask = mask)
    (h_machine : v.machine = m) (h_history : v.history = h)
    (h_room : h.used + m.moment.size ≤ h.limit)
    (h_tick : Machine.tick setting Machine.lifetime mask m = some m') :
    ∃ v', v.stride .forward = some v' ∧ v'.setting = setting ∧ v'.mask = mask ∧
      v'.machine = { m' with log := m.log } ∧
      v'.history = { h with
        newestFirst := m.moment :: h.newestFirst, used := h.used + m.moment.size } := by
  subst h_setting h_mask h_machine h_history
  unfold stride Viewer.forward
  rw [History.push_eq_ok_iff.2 ⟨h_room, rfl⟩]
  dsimp only
  rw [h_tick]
  exact ⟨_, rfl, rfl, rfl, rfl, rfl⟩

/-- What a step back does if the newest moment cannot be put back. -/
theorem backward_of_error {v : Viewer} {moment : Moment} {rest : List Moment} {e : LoadError}
    (h_newest : v.history.newestFirst = moment :: rest)
    (h_restore : v.machine.restoreBytes moment.save = .error e) :
    v.backward.1 = false ∧ v.backward.2.history.length = rest.length ∧
      v.backward.2.machine = v.machine := by
  unfold Viewer.backward History.pop?
  rw [h_newest]
  dsimp only
  rw [h_restore]
  exact ⟨rfl, rfl, rfl⟩

end Viewer

/-- Two steps forward are taken, and the newest moment is one at which the task has too many
handlers. -/
theorem exists_walk_hoarding : ∃ (m : Machine) (v : Viewer), m.AtRest 0 Machine.hoard ∧
    (Viewer.of plainSetting (Machine.load {} (hoardingImage 0)) History.noLimit
      .all).walk [.forward, .forward] = some v ∧
    v.history.newestFirst = [m.moment, (Machine.load {} (hoardingImage 0)).moment] := by
  have h_small : (Machine.load {} (hoardingImage 0)).moment.size < 2 ^ 20 := by decide +kernel
  obtain ⟨m₁, h_tick₁, h_rest⟩ := Machine.tick_hoard
  have h_rest₁ := h_rest.with_log
  generalize Machine.load {} (hoardingImage 0) = m₀ at h_small h_tick₁ h_rest₁ ⊢
  -- the first step hoards
  have h_room₁ : 0 + m₀.moment.size ≤ History.noLimit := by
    unfold History.noLimit
    omega
  obtain ⟨v₁, h_stride₁, h_setting, h_mask, h_machine, h_history₁⟩ := Viewer.stride_forward
    (v := Viewer.of plainSetting m₀ History.noLimit .all) (m := m₀)
    (h := { limit := History.noLimit }) (rfl : _ = plainSetting) (rfl : _ = ScriptKind.all) rfl rfl
    h_room₁ h_tick₁
  generalize { m₁ with log := m₀.log } = m at h_rest₁ h_machine
  -- of the second one it is enough that it comes to an end
  obtain ⟨m₂, h_tick₂, -⟩ := Machine.tick_resting h_rest₁ Machine.getLast?_hoard
    Machine.place_hoard (by decide : 2 ≤ Machine.lifetime)
  have h_room₂ : 0 + m₀.moment.size + m.moment.size ≤ History.noLimit := by
    have h_save : m.moment.size = m.save.length + 40 := rfl
    rw [h_save, h_rest₁.length_save, Machine.length_hoard]
    unfold History.noLimit
    omega
  obtain ⟨v₂, h_stride₂, -, -, -, h_history₂⟩ :=
    Viewer.stride_forward h_setting h_mask h_machine h_history₁ h_room₂ h_tick₂
  refine ⟨m, v₂, h_rest₁, ?_, congrArg History.newestFirst h_history₂⟩
  unfold Viewer.walk Viewer.walk Viewer.walk
  rw [h_stride₁, Option.bind_some, h_stride₂]
  rfl

/-- **A step that is not undone.** After two steps forward there are two moments in the history, and
the step back is refused all the same. The moment is lost, and the state stays as it was. -/
theorem step_back_refused_hoarding :
    plainSetting.Only Request.Steady ∧
    Image.decode (hoardingImage 0).encode = .ok (hoardingImage 0) ∧
    (hoardingImage 0).program.Numbered ∧ (hoardingImage 0).program.SparesNull ∧
    ∃ v : Viewer, (Viewer.of plainSetting (Machine.load {} (hoardingImage 0)) History.noLimit
        .all).walk [.forward, .forward] = some v ∧
      v.history.length = 2 ∧ v.backward.1 = false ∧ v.backward.2.history.length = 1 ∧
      v.backward.2.machine = v.machine := by
  have h_spares : (hoardingImage 0).program.SparesNull := by
    unfold Program.SparesNull
    decide
  obtain ⟨m, v, h_rest, h_walk, h_newest⟩ := exists_walk_hoarding
  -- what was saved at the newest moment is refused
  have h_restore := h_rest.restoreBytes_save (by rw [Machine.length_hoard]; decide) v.machine
  obtain ⟨h_refused, h_left, h_same⟩ := Viewer.backward_of_error h_newest h_restore
  exact ⟨List.forall_mem_nil _, decode_hoarding, hoardingImage_numbered 0, h_spares, v, h_walk,
    congrArg List.length h_newest, h_refused, h_left, h_same⟩

end ScriptMachine
